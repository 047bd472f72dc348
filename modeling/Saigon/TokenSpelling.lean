/-
What `split_regex` makes of its token.  The string is read through iterators
but the token through a bare pointer, so the regular expression is spelled by
the buffer up to its first NUL, wherever the view ends.
-/
import Saigon.Tokenization

namespace Saigon

variable {CharT : Type} [CharType CharT] [DecidableEq CharT]

/-- A view reads as a C string exactly when it is a whole one. -/
theorem StringView.cString_eq_chars_iff (v : StringView CharT) :
    v.cString = v.chars ↔ v.NulTerminated := by
  constructor
  · intro hread
    have htext : (v.buffer.drop v.offset).takeWhile (fun c => c ≠ nul) =
        v.chars := hread
    have hrest : (v.buffer.drop v.offset).dropWhile (fun c => c ≠ nul) =
        v.buffer.drop (v.offset + v.length) := by
      have hsplit := List.takeWhile_append_dropWhile
        (p := fun c => decide (c ≠ nul)) (l := v.buffer.drop v.offset)
      have hdrop := congrArg (List.drop v.length) hsplit
      rw [htext, List.drop_left' v.length_chars, List.drop_drop] at hdrop
      exact hdrop
    constructor
    · intro hmem
      rw [← htext] at hmem
      simpa using List.mem_takeWhile_imp hmem
    · intro c hc
      have hstop := List.head?_dropWhile_not (fun c => decide (c ≠ nul))
        (v.buffer.drop v.offset)
      rw [hrest, List.head?_drop, hc] at hstop
      simpa using hstop
  · intro hnul
    exact hnul.cString_eq

/-- `split_regex` by the regular expression that a text spells. -/
def splitSpelled (engine : RegexEngine CharT) (maxSize : Nat)
    (str : StringArgument CharT) (text : List CharT) (maxElement : Nat) :
    Except StringError (List (List CharT)) := do
  let sv ← str.toView
  reserve maxSize maxElement
  match engine.construct text with
  | none => throw .regexError
  | some rex =>
      return (engine.tokens rex sv.chars).filter fun it => 0 < it.length

/-- Whatever the regular expressions of the library do, the one used for this
token is the one that `text` spells. -/
def SpelledBy (token : StringArgument CharT) (text : List CharT) : Prop :=
  ∀ (engine : RegexEngine CharT) maxSize str maxElement,
    splitRegex engine maxSize str token maxElement =
      splitSpelled engine maxSize str text maxElement

/-- Whatever the regular expressions of the library do, the two tokens split
every string alike. -/
def SplitAlike (t1 t2 : StringArgument CharT) : Prop :=
  ∀ (engine : RegexEngine CharT) maxSize str maxElement,
    splitRegex engine maxSize str t1 maxElement =
      splitRegex engine maxSize str t2 maxElement

/-- Regular expressions of which only one can be constructed. -/
def onlySpelling (text : List CharT) : RegexEngine CharT where
  Regex := Unit
  construct := fun spelled => if spelled = text then some () else none
  tokens := fun _ _ => []

/-- The text that reading from the pointer on gives spells the regular
expression. -/
theorem splitRegex_eq_splitSpelled (engine : RegexEngine CharT) (maxSize : Nat)
    (str : StringArgument CharT) {token : StringArgument CharT}
    {tokv : StringView CharT} (htoken : token.toView = .ok tokv)
    (maxElement : Nat) :
    splitRegex engine maxSize str token maxElement =
      splitSpelled engine maxSize str tokv.cString maxElement := by
  rw [splitRegex, splitSpelled, htoken]
  rfl

/-- Spelled alike, for every engine, are equal texts only. -/
theorem splitSpelled_inj {first second : List CharT}
    (halike : ∀ (engine : RegexEngine CharT) maxSize str maxElement,
      splitSpelled engine maxSize str first maxElement =
        splitSpelled engine maxSize str second maxElement) : first = second := by
  by_contra hne
  let empty : StringView CharT := ⟨[], 0, 0, Nat.le_refl 0⟩
  have hsame := halike (onlySpelling second) 0 (.object empty) 0
  simp [splitSpelled, StringArgument.toView, reserve, onlySpelling, hne,
    pure, Except.pure, throw, throwThe, MonadExceptOf.throw] at hsame

section Tokens

variable {t1 t2 : StringArgument CharT} {v1 v2 : StringView CharT}

theorem spelledBy_iff (ht1 : t1.toView = .ok v1) (text : List CharT) :
    SpelledBy t1 text ↔ v1.cString = text := by
  constructor
  · intro hspelled
    apply splitSpelled_inj
    intro engine maxSize str maxElement
    rw [← splitRegex_eq_splitSpelled engine maxSize str ht1]
    exact hspelled engine maxSize str maxElement
  · rintro rfl engine maxSize str maxElement
    exact splitRegex_eq_splitSpelled engine maxSize str ht1 maxElement

/-- Two tokens split alike exactly when they read alike. -/
theorem splitAlike_iff (ht1 : t1.toView = .ok v1) (ht2 : t2.toView = .ok v2) :
    SplitAlike t1 t2 ↔ v1.cString = v2.cString := by
  rw [← spelledBy_iff ht1]
  constructor
  · intro halike engine maxSize str maxElement
    rw [halike engine maxSize str maxElement]
    exact splitRegex_eq_splitSpelled engine maxSize str ht2 maxElement
  · intro hspelled engine maxSize str maxElement
    rw [hspelled engine maxSize str maxElement]
    exact (splitRegex_eq_splitSpelled engine maxSize str ht2 maxElement).symm

/-- Of two tokens with the same characters, both are split by the regular
expression that these spell, and alike, exactly when both are whole C
strings. -/
theorem split_by_characters_iff (ht1 : t1.toView = .ok v1)
    (ht2 : t2.toView = .ok v2) (hsame : v1.chars = v2.chars) :
    (SplitAlike t1 t2 ∧ SpelledBy t1 v1.chars ∧ SpelledBy t2 v2.chars) ↔
      v1.NulTerminated ∧ v2.NulTerminated := by
  rw [splitAlike_iff ht1 ht2, spelledBy_iff ht1, spelledBy_iff ht2,
    StringView.cString_eq_chars_iff, StringView.cString_eq_chars_iff]
  constructor
  · rintro ⟨_, hfirst, hsecond⟩
    exact ⟨hfirst, hsecond⟩
  · rintro ⟨hfirst, hsecond⟩
    refine ⟨?_, hfirst, hsecond⟩
    rw [hfirst.cString_eq, hsecond.cString_eq, hsame]

end Tokens

/-- A hyphen with an opening parenthesis behind it in the buffer. -/
def hyphenInside : StringView Char := ⟨['-', '('], 0, 1, by decide⟩

theorem hyphens_split_by_characters_iff :
    (SplitAlike (.object hyphenInside) (.object hyphen) ∧
        SpelledBy (.object hyphenInside) hyphenInside.chars ∧
        SpelledBy (.object hyphen) hyphen.chars) ↔
      hyphenInside.NulTerminated ∧ hyphen.NulTerminated :=
  split_by_characters_iff rfl rfl rfl

/-- The token reads on to the parenthesis, which no regular expression may
leave open. -/
theorem token_read_past_its_end :
    hyphenInside.chars = hyphen.chars ∧
      splitRegex literalEngine 4096 helloWorld (.object hyphenInside) 0 =
        .error .regexError ∧
      splitRegex literalEngine 4096 helloWorld (.object hyphen) 0 =
        .ok ["hello".toList, "world".toList, "from".toList, "split".toList] ∧
      ¬ SplitAlike (.object hyphenInside) (.object hyphen) := by
  have hinside : splitRegex literalEngine 4096 helloWorld
      (.object hyphenInside) 0 = .error .regexError := rfl
  have halone : splitRegex literalEngine 4096 helloWorld (.object hyphen) 0 =
      .ok ["hello".toList, "world".toList, "from".toList, "split".toList] := rfl
  refine ⟨rfl, hinside, halone, ?_⟩
  intro halike
  have hsame := halike literalEngine 4096 helloWorld 0
  rw [hinside, halone] at hsame
  contradiction

end Saigon
