/-
`string_utils.ixx`: string arguments as views into buffers, the tokenizers
`split` and `split_regex`, and the comparisons `equal` and `find`.  Reading
through a bare pointer goes on to the first NUL of the buffer, past the end of
a view.  What the regular expressions of the standard library do is a
parameter.
-/
import Saigon.Support.Tokens
import Mathlib.Data.List.TakeWhile

namespace Saigon

/-- The value `CharT()` that terminates strings. -/
class CharType (CharT : Type) where
  nul : CharT

export CharType (nul)

/-- `TStringView`: part of a buffer that a NUL follows. -/
structure StringView (CharT : Type) where
  buffer : List CharT
  offset : Nat
  length : Nat
  inside : offset + length ≤ buffer.length

/-- What a `Stringable` argument may be: a pointer, null for `none`, to
characters that a NUL follows, or a string object. -/
inductive StringArgument (CharT : Type) where
  | pointer (buffer : Option (List CharT))
  | object (view : StringView CharT)

/-- The exceptions thrown on the way. -/
inductive StringError where
  | invalidArgument (what : String)
  | lengthError
  | regexError
deriving DecidableEq

/-- `std::basic_regex` and `std::regex_token_iterator` with submatch `-1`. -/
structure RegexEngine (CharT : Type) where
  Regex : Type
  construct : List CharT → Option Regex
  tokens : Regex → List CharT → List (List CharT)

variable {CharT : Type}

namespace StringView

/-- The characters of the view. -/
def chars (v : StringView CharT) : List CharT :=
  (v.buffer.drop v.offset).take v.length

/-- `data()`, as far as a reader of a C string goes. -/
def cString [CharType CharT] [DecidableEq CharT] (v : StringView CharT) :
    List CharT :=
  (v.buffer.drop v.offset).takeWhile fun c => c ≠ nul

/-- `substr`, inside the view. -/
def substr (v : StringView CharT) (pos count : Nat)
    (hinside : pos + count ≤ v.length) : StringView CharT where
  buffer := v.buffer
  offset := v.offset + pos
  length := count
  inside := by
    have hbuffer := v.inside
    omega

/-- `std::basic_string_view::find`, `none` for `npos`. -/
def find [DecidableEq CharT] (v sub : StringView CharT) : Option Nat :=
  (List.range (v.length + 1)).find? fun pos =>
    sub.chars.isPrefixOf (v.chars.drop pos)

end StringView

/-- The null check and the conversion to `TStringView`. -/
def StringArgument.toView [CharType CharT] [DecidableEq CharT] :
    StringArgument CharT → Except StringError (StringView CharT)
  | .pointer none => .error (.invalidArgument "The parameter is null")
  | .pointer (some buffer) =>
      let length := (buffer.takeWhile fun c => c ≠ nul).length
      have inside : 0 + length ≤ buffer.length := by
        rw [Nat.zero_add]
        exact (List.takeWhile_sublist _).length_le
      .ok ⟨buffer, 0, length, inside⟩
  | .object view => .ok view

/-- `if (maxElement > 0) result.reserve(maxElement)`. -/
def reserve (maxSize maxElement : Nat) : Except StringError Unit :=
  if 0 < maxElement then
    if maxElement ≤ maxSize then .ok () else .error .lengthError
  else .ok ()

/-! ### split -/

/-- The `substr` helper: the stretch between two iterators, if not empty. -/
def splitSubstr (sv : List CharT) (result : List (List CharT))
    (first last : Nat) : List (List CharT) :=
  let count := last - first
  if 0 < count then result ++ [(sv.drop first).take count] else result

/-- The loop of `split` and the call after it. -/
def splitLoop (pre : CharT → Bool) (sv : List CharT) (itNex : Nat)
    (result : List (List CharT)) : List (List CharT) :=
  let found := itNex + (sv.drop itNex).findIdx pre
  if found < sv.length then
    splitLoop pre sv (found + 1) (splitSubstr sv result itNex found)
  else splitSubstr sv result itNex sv.length
termination_by sv.length - itNex

section Functions

variable [CharType CharT] [DecidableEq CharT]

def split (maxSize : Nat) (str : StringArgument CharT) (pre : CharT → Bool)
    (maxElement : Nat) : Except StringError (List (List CharT)) := do
  let sv ← str.toView
  reserve maxSize maxElement
  return splitLoop pre sv.chars 0 []

def splitRegex (engine : RegexEngine CharT) (maxSize : Nat)
    (str token : StringArgument CharT) (maxElement : Nat) :
    Except StringError (List (List CharT)) := do
  let sv ← str.toView
  let tokv ← token.toView
  reserve maxSize maxElement
  match engine.construct tokv.cString with
  | none => throw .regexError
  | some rex =>
      return (engine.tokens rex sv.chars).filter fun it => 0 < it.length

/-! ### Comparisons -/

/-- `std::equal` on two ranges. -/
def equalRanges (same : CharT → CharT → Bool) : List CharT → List CharT → Bool
  | [], [] => true
  | c1 :: s1, c2 :: s2 => same c1 c2 && equalRanges same s1 s2
  | _, _ => false

def equal (toupper : CharT → CharT) (s1 s2 : StringArgument CharT)
    (icase : Bool) : Except StringError Bool := do
  let sv1 ← s1.toView
  let sv2 ← s2.toView
  if sv1.length ≠ sv2.length then return false
  else if icase then
    return equalRanges (fun c1 c2 => toupper c1 = toupper c2) sv1.chars sv2.chars
  else return equalRanges (fun c1 c2 => c1 = c2) sv1.chars sv2.chars

/-- `find`, which makes no use of its locale. -/
def find (_toupper : CharT → CharT) (str sub : StringArgument CharT)
    (icase : Bool) : Except StringError Bool := do
  let strv ← str.toView
  let subv ← sub.toView
  if strv.length = 0 ∨ subv.length = 0 then return false
  else if !icase then return (strv.find subv).isSome
  else return false

end Functions

/-! ### Exceptions -/

@[simp] theorem ok_bind {E A B : Type} (value : A) (next : A → Except E B) :
    (Except.ok value >>= next) = next value := rfl

@[simp] theorem error_bind {E A B : Type} (e : E) (next : A → Except E B) :
    (Except.error e >>= next) = Except.error e := rfl

/-! ### Views -/

namespace StringView

@[simp] theorem length_chars (v : StringView CharT) :
    v.chars.length = v.length := by
  have hinside := v.inside
  rw [chars, List.length_take, List.length_drop]
  omega

theorem substr_chars (v : StringView CharT) {pos count : Nat}
    (hinside : pos + count ≤ v.length) :
    (v.substr pos count hinside).chars = (v.chars.drop pos).take count := by
  have hcount : min count (v.length - pos) = count := by omega
  simp only [chars, substr, List.drop_take, List.drop_drop, List.take_take,
    hcount]

variable [CharType CharT]

/-- No NUL inside, and one right behind: the view is a whole C string. -/
def NulTerminated (v : StringView CharT) : Prop :=
  nul ∉ v.chars ∧ ∀ c ∈ v.buffer[v.offset + v.length]?, c = nul

/-- A C string reads as the characters of its view. -/
theorem NulTerminated.cString_eq [DecidableEq CharT] {v : StringView CharT}
    (hnul : v.NulTerminated) : v.cString = v.chars := by
  have hsplit : v.buffer.drop v.offset =
      v.chars ++ v.buffer.drop (v.offset + v.length) := by
    rw [chars, ← List.drop_drop, List.take_append_drop]
  have hinside : ∀ c ∈ v.chars, decide (c ≠ nul) = true := by
    intro c hc
    rw [decide_eq_true_eq]
    rintro rfl
    exact hnul.1 hc
  have hbehind : (v.buffer.drop (v.offset + v.length)).takeWhile
      (fun c => decide (c ≠ nul)) = [] := by
    cases hrest : v.buffer.drop (v.offset + v.length) with
    | nil => rfl
    | cons c rest =>
        have hhead : v.buffer[v.offset + v.length]? = some c := by
          rw [← List.head?_drop, hrest, List.head?_cons]
        rw [hnul.2 c hhead]
        simp
  rw [cString, hsplit, List.takeWhile_append_of_pos hinside, hbehind,
    List.append_nil]

/-- The view of a bare pointer ends at the first NUL. -/
theorem nulTerminated_pointer [DecidableEq CharT] {buffer : List CharT}
    {v : StringView CharT}
    (hview : (StringArgument.pointer (some buffer)).toView = .ok v) :
    v.NulTerminated := by
  cases hview
  have htext : buffer.takeWhile (fun c => decide (c ≠ nul)) =
      buffer.take (buffer.takeWhile fun c => decide (c ≠ nul)).length :=
    List.prefix_iff_eq_take.mp (List.takeWhile_prefix _)
  have hrest : buffer.drop
      (buffer.takeWhile fun c => decide (c ≠ nul)).length =
        buffer.dropWhile fun c => decide (c ≠ nul) := by
    have hsplit := congrArg
      (List.drop (buffer.takeWhile fun c => decide (c ≠ nul)).length)
      (List.takeWhile_append_dropWhile (p := fun c => decide (c ≠ nul))
        (l := buffer))
    rw [List.drop_left] at hsplit
    exact hsplit.symm
  constructor
  · intro hmem
    rw [chars, List.drop_zero, ← htext] at hmem
    simpa using List.mem_takeWhile_imp hmem
  · intro c hc
    have hstop := List.head?_dropWhile_not (fun c => decide (c ≠ nul)) buffer
    rw [Nat.zero_add, ← List.head?_drop, hrest] at hc
    rw [hc] at hstop
    simpa using hstop

end StringView

instance : CharType Char := ⟨Char.ofNat 0⟩

/-- The text that the unit test splits. -/
def helloWorld : StringArgument Char :=
  .pointer (some "--hello--world-from-split-".toList)

end Saigon
