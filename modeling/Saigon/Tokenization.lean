/-
The two tokenizers.  Both cut a string into its pieces: `split` drops the empty
ones in its helper, `split_regex` on the way from the token iterator.
-/
import Saigon.StringUtils

namespace Saigon

variable {CharT : Type}

/-- What is documented of `std::regex_token_iterator` with submatch `-1`, for
patterns that do not match the empty string: the stretch before each successive
leftmost match that overlaps no earlier one, then the rest after the last match
if it is not empty, and the whole input if there is no match. -/
def RegexEngine.Tokenizes (engine : RegexEngine CharT)
    (language : engine.Regex → Set (List CharT)) : Prop :=
  ∀ rex input, [] ∉ language rex →
    ∃ found, Tokens.Successive (language rex) input found ∧
      engine.tokens rex input =
        if found = [] then [input] else Tokens.between input found

/-! ### split -/

theorem splitSubstr_eq (sv : List CharT) (result : List (List CharT))
    {first count : Nat} (hinside : first + count ≤ sv.length) :
    splitSubstr sv result first (first + count) =
      result ++ Tokens.kept [(sv.drop first).take count] := by
  have hlength : ((sv.drop first).take count).length = count := by
    rw [List.length_take, List.length_drop]
    omega
  rw [splitSubstr, Nat.add_sub_cancel_left, Tokens.kept_singleton, hlength]
  split
  · rfl
  · rw [List.append_nil]

/-- From an iterator on, the loop appends the pieces of what is left. -/
theorem splitLoop_eq (pre : CharT → Bool) (sv : List CharT) (itNex : Nat)
    (result : List (List CharT)) (hinside : itNex ≤ sv.length) :
    splitLoop pre sv itNex result =
      result ++ Tokens.pieces pre (sv.drop itNex) := by
  induction itNex, result using splitLoop.induct pre sv with
  | case1 itNex result found hfound ih =>
      have hgap : (sv.drop itNex).findIdx pre < (sv.drop itNex).length := by
        rw [List.length_drop]
        omega
      have hclean := Tokens.clean_take_findIdx pre (sv.drop itNex)
      have hfirst := Tokens.pieces_of_first hgap List.findIdx_getElem hclean
      rw [splitLoop, if_pos hfound, ih hfound, splitSubstr_eq sv result hfound.le,
        hfirst, List.drop_drop, List.append_assoc]
      rfl
  | case2 itNex result found hfound =>
      have hend : itNex + (sv.length - itNex) = sv.length :=
        Nat.add_sub_cancel' hinside
      have hall : (sv.drop itNex).take (sv.length - itNex) = sv.drop itNex := by
        rw [← List.length_drop, List.take_length]
      have hclean : ∀ c ∈ sv.drop itNex, pre c = false := by
        rw [← List.findIdx_eq_length]
        have hle : (sv.drop itNex).findIdx pre ≤ (sv.drop itNex).length :=
          List.findIdx_le_length
        rw [List.length_drop] at hle ⊢
        omega
      have hlast := splitSubstr_eq sv result hend.le
      rw [hend, hall] at hlast
      rw [splitLoop, if_neg hfound, hlast, Tokens.pieces_of_clean hclean]

/-- Whatever the token iterator yields, the empty stretches are dropped and
the rest are the pieces. -/
theorem RegexEngine.Tokenizes.kept_tokens {engine : RegexEngine CharT}
    {language : engine.Regex → Set (List CharT)}
    (hengine : engine.Tokenizes language) {rex : engine.Regex}
    {p : CharT → Bool} (hlanguage : language rex = Tokens.singles p)
    (input : List CharT) :
    (engine.tokens rex input).filter (fun it => decide (0 < it.length)) =
      Tokens.pieces p input := by
  have hempty : [] ∉ language rex := by
    rw [hlanguage]
    exact Tokens.nil_not_mem_singles p
  obtain ⟨found, hfound, htokens⟩ := hengine rex input hempty
  have hpieces := Tokens.kept_between (hlanguage ▸ hfound)
  have hfilter : (fun it : List CharT => decide (0 < it.length)) =
      fun it => !it.isEmpty := by
    funext it
    cases it <;> rfl
  rw [hfilter, htokens, ← hpieces]
  split
  · next hnone =>
      rw [hnone, Tokens.kept_between_nil]
      rfl
  · rfl

section Functions

variable [CharType CharT] [DecidableEq CharT]

/-- `split` returns the pieces of the characters of its argument. -/
theorem split_eq (maxSize : Nat) (str : StringArgument CharT)
    (pre : CharT → Bool) (maxElement : Nat) :
    split maxSize str pre maxElement = (do
      let sv ← str.toView
      reserve maxSize maxElement
      return Tokens.pieces pre sv.chars) := by
  simp only [split, splitLoop_eq pre _ 0 [] (Nat.zero_le _), List.drop_zero,
    List.nil_append]

/-- Whatever room is reserved, `split` returns what is in the maximal runs of
characters that are no separators, in order of occurrence. -/
theorem split_tokenizes {str : StringArgument CharT} {sv : StringView CharT}
    (hstr : str.toView = .ok sv) (pre : CharT → Bool) :
    ∃ words runs, Tokens.Tokenization pre sv.chars runs ∧
      words = runs.map (fun run => Tokens.stretch sv.chars run.1 run.2) ∧
      (∀ word ∈ words, word ≠ [] ∧ ∀ c ∈ word, pre c = false) ∧
      words.flatten = sv.chars.filter (fun c => !pre c) ∧
      ∀ maxSize maxElement, reserve maxSize maxElement = .ok () →
        split maxSize str pre maxElement = .ok words := by
  refine ⟨Tokens.pieces pre sv.chars, Tokens.runs pre sv.chars,
    Tokens.runs_tokenization pre sv.chars, Tokens.pieces_eq_runs pre sv.chars,
    fun word hword => Tokens.mem_pieces hword,
    Tokens.flatten_pieces pre sv.chars, ?_⟩
  intro maxSize maxElement hreserve
  rw [split_eq, hstr, ok_bind, hreserve]
  rfl

/-- Two words, with separators before, between and behind them. -/
def twoWords : StringView Char := ⟨"-ab--c-".toList, 0, 7, by decide⟩

theorem split_tokenizes_two_words :
    ∃ words runs, Tokens.Tokenization (fun c => c = '-') twoWords.chars runs ∧
      words = runs.map (fun run => Tokens.stretch twoWords.chars run.1 run.2) ∧
      (∀ word ∈ words, word ≠ [] ∧ ∀ c ∈ word, decide (c = '-') = false) ∧
      words.flatten = twoWords.chars.filter (fun c => !decide (c = '-')) ∧
      ∀ maxSize maxElement, reserve maxSize maxElement = .ok () →
        split maxSize (.object twoWords) (fun c => c = '-') maxElement =
          .ok words :=
  split_tokenizes rfl fun c => c = '-'

/-- With a pattern whose words are the single separators, the two tokenizers
agree. -/
theorem splitRegex_eq_split {engine : RegexEngine CharT}
    {language : engine.Regex → Set (List CharT)}
    (hengine : engine.Tokenizes language) {token : StringArgument CharT}
    {tokv : StringView CharT} (htoken : token.toView = .ok tokv)
    (hnul : tokv.NulTerminated) {rex : engine.Regex}
    (hrex : engine.construct tokv.chars = some rex) {p : CharT → Bool}
    (hlanguage : language rex = Tokens.singles p) (maxSize : Nat)
    (str : StringArgument CharT) (maxElement : Nat) :
    splitRegex engine maxSize str token maxElement =
      split maxSize str p maxElement := by
  rw [split_eq, splitRegex, htoken]
  cases str.toView with
  | error e => rfl
  | ok sv =>
      cases reserve maxSize maxElement with
      | error e => rfl
      | ok _ =>
          simp only [ok_bind, hnul.cString_eq, hrex,
            hengine.kept_tokens hlanguage]

end Functions

/-- Regular expressions that are one character, which is no operator. -/
def literalEngine : RegexEngine Char where
  Regex := Char
  construct
    | [c] => if c ∈ "^$\\.*+?()[]\x7b\x7d|".toList then none else some c
    | _ => none
  tokens c input :=
    let found := Tokens.separators (fun x => x = c) input
    if found = [] then [input] else Tokens.between input found

theorem literalEngine_tokenizes :
    literalEngine.Tokenizes fun c : Char => Tokens.singles fun x => x = c :=
  fun _ input _ => ⟨_, Tokens.separators_successive _ input, rfl⟩

def hyphen : StringView Char := ⟨['-'], 0, 1, by decide⟩

theorem splitRegex_eq_split_hyphen :
    splitRegex literalEngine 4096 helloWorld (.pointer (some ['-'])) 8 =
      split 4096 helloWorld (fun c => c = '-') 8 := by
  have htoken : (StringArgument.pointer (some ['-'])).toView = .ok hyphen := rfl
  have hrex : literalEngine.construct hyphen.chars = some '-' := rfl
  exact splitRegex_eq_split literalEngine_tokenizes htoken
    (StringView.nulTerminated_pointer htoken) hrex rfl 4096 helloWorld 8

end Saigon
