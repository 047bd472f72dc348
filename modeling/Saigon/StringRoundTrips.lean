/-
What the tokenizers undo and what `randAlphabet` may yield: each is answered
by the set of texts that lead to, or come from, a given result.  The engine of
`randAlphabet` is local and seeded with one `unsigned int`.
-/
import Saigon.Tokenization
import Mathlib.Data.Fintype.BigOperators

namespace Saigon

variable {CharT : Type} [CharType CharT] [DecidableEq CharT]

/-! ### Splitting what was joined -/

/-- `split` inverts every way of writing words with separators before, between
and behind them, and it returns no words but those its argument is written
of. -/
theorem split_iff_spelled {str : StringArgument CharT} {sv : StringView CharT}
    (hstr : str.toView = .ok sv) {maxSize maxElement : Nat}
    (hreserve : reserve maxSize maxElement = .ok ()) (pre : CharT → Bool)
    (words : List (List CharT)) :
    split maxSize str pre maxElement = .ok words ↔
      Tokens.Spelled pre sv.chars words := by
  have hsplit : split maxSize str pre maxElement =
      .ok (Tokens.pieces pre sv.chars) := by
    rw [split_eq, hstr, ok_bind, hreserve]
    rfl
  rw [hsplit, Except.ok.injEq]
  exact Tokens.pieces_eq_iff_spelled

theorem split_two_words_iff_spelled :
    split 4096 (.object twoWords) (fun c => c = '-') 8 =
        .ok ["ab".toList, "c".toList] ↔
      Tokens.Spelled (fun c => c = '-') twoWords.chars
        ["ab".toList, "c".toList] :=
  split_iff_spelled rfl rfl (fun c => c = '-') ["ab".toList, "c".toList]

/-- With a pattern whose words are the single separators, so does
`split_regex`. -/
theorem splitRegex_iff_spelled {engine : RegexEngine CharT}
    {language : engine.Regex → Set (List CharT)}
    (hengine : engine.Tokenizes language) {token : StringArgument CharT}
    {tokv : StringView CharT} (htoken : token.toView = .ok tokv)
    {rex : engine.Regex} (hrex : engine.construct tokv.cString = some rex)
    {p : CharT → Bool} (hlanguage : language rex = Tokens.singles p)
    {str : StringArgument CharT} {sv : StringView CharT}
    (hstr : str.toView = .ok sv) {maxSize maxElement : Nat}
    (hreserve : reserve maxSize maxElement = .ok ())
    (words : List (List CharT)) :
    splitRegex engine maxSize str token maxElement = .ok words ↔
      Tokens.Spelled p sv.chars words := by
  have hsplit : splitRegex engine maxSize str token maxElement =
      .ok (Tokens.pieces p sv.chars) := by
    simp only [splitRegex, hstr, htoken, ok_bind, hreserve, hrex,
      hengine.kept_tokens hlanguage]
    rfl
  rw [hsplit, Except.ok.injEq]
  exact Tokens.pieces_eq_iff_spelled

/-! ### Drawing characters -/

/-- The characters, which no null follows. -/
def alphabet : List Char :=
  "0123456789ABCDEFGHIJKLMNOPQRSTUVWXYZabcdefghijklmnopqrstuvwxyz".toList

theorem alphabet_nodup : alphabet.Nodup := by decide

/-- `default_random_engine` with `uniform_int_distribution<unsigned>`: the state
that a seed leads to, and what is drawn between zero and a bound, with the state
that is left. -/
structure RandomEngine where
  State : Type
  seeded : UInt32 → State
  dis : Nat → State → Nat × State
  dis_le : ∀ bound gen, (dis bound gen).1 ≤ bound

/-- The loop of `randAlphabet`, with `left` characters to go. -/
def randAlphabetLoop (engine : RandomEngine) :
    Nat → Nat → engine.State → List Char → Option (List Char)
  | 0, _, _, str => some str
  | left + 1, i, gen, str => do
      let (drawn, gen) := engine.dis (alphabet.length - 1) gen
      let c ← alphabet[drawn]?
      randAlphabetLoop engine left (i + 1) gen (str.set i c)

/-- `randAlphabet` with the clock for a seed; a subscript out of range is
undefined. -/
def randAlphabet (engine : RandomEngine) (seed : UInt32) (len : Nat) :
    Option (List Char) :=
  if len = 0 then some []
  else randAlphabetLoop engine len 0 (engine.seeded seed)
    (List.replicate len (Char.ofNat 0))

namespace RandomEngine

variable (engine : RandomEngine) (seed : UInt32)

/-- The state of the engine after so many draws. -/
def state : Nat → engine.State
  | 0 => engine.seeded seed
  | i + 1 => (engine.dis (alphabet.length - 1) (state i)).2

/-- What is drawn for each place. -/
def drawn (i : Nat) : Nat :=
  (engine.dis (alphabet.length - 1) (engine.state seed i)).1

theorem drawn_lt (i : Nat) : engine.drawn seed i < alphabet.length := by
  have hle := engine.dis_le (alphabet.length - 1) (engine.state seed i)
  have hpos : 0 < alphabet.length := by decide
  exact Nat.lt_of_le_pred hpos hle

/-- The character drawn for each place. -/
def char (i : Nat) : Char :=
  alphabet.get ⟨engine.drawn seed i, engine.drawn_lt seed i⟩

end RandomEngine

/-- The loop draws the characters that are left. -/
theorem randAlphabetLoop_eq (engine : RandomEngine) (seed : UInt32)
    (left i : Nat) (str : List Char) (hlength : i + left = str.length) :
    randAlphabetLoop engine left i (engine.state seed i) str =
      some (str.take i ++ (List.range' i left).map (engine.char seed)) := by
  induction left generalizing i str with
  | zero =>
      rw [Nat.add_zero] at hlength
      rw [randAlphabetLoop, hlength, List.take_length, List.range'_zero,
        List.map_nil, List.append_nil]
  | succ left ih =>
      have hdrawn : alphabet[engine.drawn seed i]? =
          some (engine.char seed i) :=
        List.getElem?_eq_getElem (engine.drawn_lt seed i)
      have hwritten : (str.set i (engine.char seed i))[i]? =
          some (engine.char seed i) :=
        List.getElem?_set_self (by omega)
      have hrest := ih (i + 1) (str.set i (engine.char seed i))
        (by rw [List.length_set]; omega)
      rw [List.take_add_one, List.take_set_of_le (Nat.le_refl i), hwritten] at hrest
      rw [RandomEngine.drawn] at hdrawn
      simp only [randAlphabetLoop, hdrawn, Option.bind_eq_bind,
        Option.bind_some]
      rw [List.range'_succ, List.map_cons, List.append_cons]
      exact hrest

/-- Each place has the character drawn for it, and no subscript is out of
range. -/
theorem randAlphabet_eq (engine : RandomEngine) (seed : UInt32) (len : Nat) :
    randAlphabet engine seed len =
      some ((List.range len).map (engine.char seed)) := by
  rw [randAlphabet, List.range_eq_range']
  split
  · next hzero =>
      rw [hzero]
      rfl
  · exact randAlphabetLoop_eq engine seed len 0
      (List.replicate len (Char.ofNat 0)) (by simp)

/-- A string of the length over the alphabet. -/
def OverAlphabet (len : Nat) (str : List Char) : Prop :=
  str.length = len ∧ ∀ c ∈ str, c ∈ alphabet

theorem randAlphabet_overAlphabet {engine : RandomEngine} {seed : UInt32}
    {len : Nat} {str : List Char}
    (hstr : randAlphabet engine seed len = some str) :
    OverAlphabet len str := by
  rw [randAlphabet_eq, Option.some.injEq] at hstr
  rw [← hstr]
  constructor
  · rw [List.length_map, List.length_range]
  · intro c hc
    obtain ⟨i, _, rfl⟩ := List.mem_map.mp hc
    exact List.get_mem alphabet _

/-- An engine that draws the places of given characters. -/
def drawing (str : List Char) : RandomEngine where
  State := Nat
  seeded := fun _ => 0
  dis := fun bound i => (min bound (alphabet.idxOf (str.getD i '0')), i + 1)
  dis_le := fun _ _ => Nat.min_le_left _ _

theorem drawing_state (str : List Char) (seed : UInt32) (i : Nat) :
    (drawing str).state seed i = i := by
  induction i with
  | zero => rfl
  | succ i ih =>
      rw [RandomEngine.state, ih]
      rfl

theorem randAlphabet_drawing {len : Nat} {str : List Char}
    (hstr : OverAlphabet len str) (seed : UInt32) :
    randAlphabet (drawing str) seed len = some str := by
  obtain ⟨rfl, halphabet⟩ := hstr
  rw [randAlphabet_eq, Option.some.injEq]
  apply List.ext_getElem
  · rw [List.length_map, List.length_range]
  · intro i hi hlt
    have hplace : alphabet.idxOf str[i] ≤ alphabet.length - 1 :=
      Nat.le_pred_of_lt
        (List.idxOf_lt_length_of_mem (halphabet _ (List.getElem_mem hlt)))
    have hdrawn : (drawing str).drawn seed i = alphabet.idxOf str[i] := by
      rw [RandomEngine.drawn, drawing_state]
      simp only [drawing, List.getD_eq_getElem?_getD,
        List.getElem?_eq_getElem hlt, Option.getD_some]
      exact Nat.min_eq_right hplace
    simp only [List.getElem_map, List.getElem_range, RandomEngine.char,
      List.get_eq_getElem, hdrawn, List.getElem_idxOf]

/-- A seed has 32 bits, and from length 6 on there are more strings. -/
theorem randAlphabet_misses (engine : RandomEngine) {len : Nat}
    (hlen : 6 ≤ len) :
    ∃ str, OverAlphabet len str ∧
      ∀ seed, randAlphabet engine seed len ≠ some str := by
  by_contra hnone
  push Not at hnone
  let written : (Fin len → Fin alphabet.length) → List Char :=
    fun places => List.ofFn fun i => alphabet.get (places i)
  have hwritten : ∀ places, OverAlphabet len (written places) := by
    intro places
    constructor
    · exact List.length_ofFn
    · intro c hc
      obtain ⟨i, rfl⟩ := (List.mem_ofFn' _ _).mp hc
      exact List.get_mem alphabet _
  choose seedOf hseedOf using fun places => hnone _ (hwritten places)
  have hinjective :
      Function.Injective fun places => (seedOf places).toBitVec.toFin := by
    intro first second hsame
    have hseeds : seedOf first = seedOf second :=
      UInt32.toBitVec_inj.mp (BitVec.toFin_inj.mp hsame)
    have hstrings := (hseedOf first).symm.trans (hseeds ▸ hseedOf second)
    rw [Option.some.injEq] at hstrings
    funext i
    exact List.nodup_iff_injective_get.mp alphabet_nodup
      (congrFun (List.ofFn_injective hstrings) i)
  have hcard := Fintype.card_le_of_injective _ hinjective
  rw [Fintype.card_fun, Fintype.card_fin, Fintype.card_fin, Fintype.card_fin]
    at hcard
  have hmany : alphabet.length ^ 6 ≤ alphabet.length ^ len :=
    Nat.pow_le_pow_right (by decide) hlen
  have hmore : 2 ^ 32 < alphabet.length ^ 6 := by decide
  omega

/-- No subscript is out of range, whatever is drawn; the strings over the
alphabet are what comes out of some engine for some seed; and no engine yields
all of those with six characters or more. -/
theorem randAlphabet_yields (len : Nat) :
    (∀ engine seed, (randAlphabet engine seed len).isSome = true) ∧
      (∀ str, (∃ engine seed, randAlphabet engine seed len = some str) ↔
        OverAlphabet len str) ∧
      (6 ≤ len → ∀ engine, ∃ str, OverAlphabet len str ∧
        ∀ seed, randAlphabet engine seed len ≠ some str) := by
  refine ⟨?_, ?_, fun hlen engine => randAlphabet_misses engine hlen⟩
  · intro engine seed
    rw [randAlphabet_eq]
    rfl
  · intro str
    constructor
    · rintro ⟨engine, seed, hstr⟩
      exact randAlphabet_overAlphabet hstr
    · intro hstr
      exact ⟨drawing str, 0, randAlphabet_drawing hstr 0⟩

end Saigon
