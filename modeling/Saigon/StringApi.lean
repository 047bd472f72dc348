/-
`windows_string_api.cpp` and `stringutils::convert`.  Both conversions ask the
system for the length of the output and then for the output, with the length of
the input narrowed to `int`; where the system refuses they go on with an empty
string.  The two functions of the system are parameters.
-/
import Saigon.StringUtils
import Saigon.Support.Utf

namespace Saigon

/-- A conversion function of the system, given where its input starts, the
input's length (`-1` for a C string) and the room for the output (`0` for a
query of the length): the number returned and the units written. -/
def CodePageCall (A B : Type) : Type :=
  List A → Int → Int → Int × List B

/-- `WideCharToMultiByte` and `MultiByteToWideChar`, for each code page and
flags. -/
structure CodePageApi where
  wideCharToMultiByte : UInt32 → UInt32 → CodePageCall UInt16 UInt8
  multiByteToWideChar : UInt32 → UInt32 → CodePageCall UInt8 UInt16

/-- The code page `F_CP_UTF8`. -/
def cpUtf8 : UInt32 := 65001

/-- `static_cast<int>` of a `size_t`. -/
def narrow (length : Nat) : Int := (length : Int).bmod 4294967296

/-- A string object, with its terminating NUL behind it. -/
def StringView.ofString {CharT : Type} (s : List CharT) : StringView CharT :=
  ⟨s, 0, s.length, by rw [Nat.zero_add]⟩

/-- The body shared by `wc2mb` and `mb2wc`. -/
def convertUnits {A B : Type} (zero : B) (call : CodePageCall A B)
    (str : StringView A) : Except StringError (List B) :=
  let data := str.buffer.drop str.offset
  let len := narrow str.length
  -- there is no data to convert
  if len = 0 then .ok []
  else
    let numOfChars := (call data len 0).1
    -- a negative count is no size of a string
    if numOfChars < 0 then .error .lengthError
    else
      let mstr := List.replicate numOfChars.toNat zero
      let written := (call data len numOfChars).2
      .ok (written ++ mstr.drop written.length)

def wc2mb (api : CodePageApi) (str : StringView UInt16) (codePage : UInt32) :
    Except StringError (List UInt8) :=
  convertUnits 0 (api.wideCharToMultiByte codePage 0) str

def mb2wc (api : CodePageApi) (str : StringView UInt8) (codePage : UInt32) :
    Except StringError (List UInt16) :=
  convertUnits 0 (api.multiByteToWideChar codePage 0) str

/-- `convert(convert(str, codePage), codePage)` from a wide string. -/
def convertWideTwice (api : CodePageApi) (str : StringView UInt16)
    (codePage : UInt32) : Except StringError (List UInt16) := do
  let mstr ← wc2mb api str codePage
  mb2wc api (.ofString mstr) codePage

/-- `convert(convert(str, codePage), codePage)` from a byte string. -/
def convertTwice (api : CodePageApi) (str : StringView UInt8)
    (codePage : UInt32) : Except StringError (List UInt8) := do
  let wstr ← mb2wc api str codePage
  wc2mb api (.ofString wstr) codePage

/-! ### What the system does -/

/-- A system call between two encodings of text.  The number it returns is a
non-negative `int`, and it writes no more than there is room for.  Given a
positive length it converts exactly the first `n` units where they are text: a
query returns the exact length and a call with that much room writes the
output, but an output of `2^31` units or more fails. -/
structure CodePageCall.Converts {A B : Type} (call : CodePageCall A B)
    (encodeA : List Char → List A) (encodeB : List Char → List B) : Prop where
  returned : ∀ data len room, 0 ≤ (call data len room).1 ∧
    (call data len room).1 < 2147483648
  roomy : ∀ data len room, 0 ≤ room →
    ((call data len room).2.length : Int) ≤ room
  converted : ∀ data text (n : Nat), 0 < n → n < 2147483648 →
    data.take n = encodeA text → (encodeB text).length < 2147483648 →
    call data n 0 = (((encodeB text).length : Int), []) ∧
      call data n (encodeB text).length =
        (((encodeB text).length : Int), encodeB text)
  refused : ∀ data text (n : Nat) room, 0 < n → n < 2147483648 →
    data.take n = encodeA text → 2147483648 ≤ (encodeB text).length →
    call data n room = (0, [])

structure CodePageApi.Documented (api : CodePageApi) : Prop where
  toMultiByte : (api.wideCharToMultiByte cpUtf8 0).Converts Utf.utf16 Utf.utf8
  toWideChar : (api.multiByteToWideChar cpUtf8 0).Converts Utf.utf8 Utf.utf16

theorem narrow_of_lt {length : Nat} (hlt : length < 2147483648) :
    narrow length = length := by
  apply Int.bmod_eq_of_le
  · omega
  · omega

section Conversion

variable {A B : Type} (zero : B) {call : CodePageCall A B}
  {encodeA : List Char → List A} {encodeB : List Char → List B}
  (hcall : call.Converts encodeA encodeB)
include hcall

/-- Unless there is nothing to convert, the second call writes over a string
of as many zeros as the first one returned. -/
theorem convertUnits_eq (str : StringView A) (hlen : narrow str.length ≠ 0) :
    ∃ count : Nat, count < 2147483648 ∧
      (call (str.buffer.drop str.offset) (narrow str.length) 0).1 = count ∧
      (call (str.buffer.drop str.offset) (narrow str.length) count).2.length ≤
        count ∧
      convertUnits zero call str = .ok
        ((call (str.buffer.drop str.offset) (narrow str.length) count).2 ++
          (List.replicate count zero).drop (call (str.buffer.drop str.offset)
            (narrow str.length) count).2.length) := by
  obtain ⟨hcount, hint⟩ :=
    hcall.returned (str.buffer.drop str.offset) (narrow str.length) 0
  obtain ⟨count, hreturned⟩ := Int.eq_ofNat_of_zero_le hcount
  have hroomy := hcall.roomy (str.buffer.drop str.offset) (narrow str.length)
    count (Int.natCast_nonneg count)
  refine ⟨count, ?_, hreturned, Int.ofNat_le.mp hroomy, ?_⟩
  · omega
  · have hsize : ¬ (count : Int) < 0 := by omega
    simp only [convertUnits, hreturned, hlen, hsize, ↓reduceIte,
      Int.toNat_natCast]

/-- Whatever the input, the output has no more than an `int` of units. -/
theorem length_convertUnits {str : StringView A} {out : List B}
    (hout : convertUnits zero call str = .ok out) : out.length < 2147483648 := by
  by_cases hlen : narrow str.length = 0
  · rw [convertUnits, if_pos hlen] at hout
    cases hout
    exact Nat.zero_lt_succ _
  · obtain ⟨count, hcount, _, hwritten, heq⟩ :=
      convertUnits_eq zero hcall str hlen
    rw [heq, Except.ok.injEq] at hout
    rw [← hout, List.length_append, List.length_drop, List.length_replicate]
    omega

/-- A string short enough, of text whose other encoding is short enough. -/
theorem convertUnits_ok {str : StringView A} {text : List Char}
    (htext : str.chars = encodeA text) (hpos : 0 < str.length)
    (hlength : str.length < 2147483648)
    (hout : (encodeB text).length < 2147483648) :
    convertUnits zero call str = .ok (encodeB text) := by
  have hnarrow := narrow_of_lt hlength
  have hlen : narrow str.length ≠ 0 := by omega
  obtain ⟨hquery, hwrite⟩ :=
    hcall.converted _ text str.length hpos hlength htext hout
  obtain ⟨count, _, hcount, _, heq⟩ :=
    convertUnits_eq zero hcall str hlen
  rw [hnarrow, hquery] at hcount
  have hsame : (encodeB text).length = count := Int.ofNat.inj hcount
  rw [heq, hnarrow, ← hsame, hwrite, List.drop_eq_nil_of_le (by simp),
    List.append_nil]

theorem convertUnits_refused {str : StringView A} {text : List Char}
    (htext : str.chars = encodeA text) (hpos : 0 < str.length)
    (hlength : str.length < 2147483648)
    (hout : 2147483648 ≤ (encodeB text).length) :
    convertUnits zero call str = .ok [] := by
  have hnarrow := narrow_of_lt hlength
  have hlen : narrow str.length ≠ 0 := by omega
  obtain ⟨count, _, hcount, _, heq⟩ :=
    convertUnits_eq zero hcall str hlen
  have hrefused := fun room =>
    hcall.refused _ text str.length room hpos hlength htext hout
  rw [hnarrow, hrefused] at hcount
  have hzero : 0 = count := Int.ofNat.inj hcount
  rw [heq, hnarrow, hrefused, ← hzero]
  rfl

omit hcall in
theorem convertUnits_of_length_zero {str : StringView A}
    (hlength : str.length = 0) : convertUnits zero call str = .ok [] := by
  rw [convertUnits, hlength]
  rfl

/-- Well-formed text converts when both its encodings fit an `int`. -/
theorem convertUnits_text {str : StringView A} {text : List Char}
    (htext : str.chars = encodeA text) (hlength : str.length < 2147483648)
    (hout : (encodeB text).length < 2147483648)
    (hnil : encodeA text = [] → encodeB text = []) :
    convertUnits zero call str = .ok (encodeB text) := by
  by_cases hzero : str.length = 0
  · have hchars : encodeA text = [] := by
      rw [← htext, ← List.length_eq_zero_iff, StringView.length_chars, hzero]
    rw [convertUnits_of_length_zero zero hzero, hnil hchars]
  · exact convertUnits_ok zero hcall htext (Nat.pos_of_ne_zero hzero) hlength
      hout

end Conversion

@[simp] theorem StringView.chars_ofString {CharT : Type} (s : List CharT) :
    (StringView.ofString s).chars = s := by
  rw [StringView.chars, StringView.ofString, List.drop_zero, List.take_length]

@[simp] theorem StringView.length_ofString {CharT : Type} (s : List CharT) :
    (StringView.ofString s).length = s.length := rfl

/-! ### Round trips -/

theorem convertWideTwice_of_first {api : CodePageApi}
    {str : StringView UInt16} {codePage : UInt32} {mstr : List UInt8}
    (hfirst : wc2mb api str codePage = .ok mstr) :
    convertWideTwice api str codePage =
      mb2wc api (.ofString mstr) codePage := by
  rw [convertWideTwice, hfirst, ok_bind]

theorem convertTwice_of_first {api : CodePageApi}
    {str : StringView UInt8} {codePage : UInt32} {wstr : List UInt16}
    (hfirst : mb2wc api str codePage = .ok wstr) :
    convertTwice api str codePage =
      wc2mb api (.ofString wstr) codePage := by
  rw [convertTwice, hfirst, ok_bind]

section RoundTrips

variable {api : CodePageApi} (hapi : api.Documented)
include hapi

/-- A wide string survives the round trip exactly when its text has fewer than
`2^31` bytes in UTF-8. -/
theorem convertWideTwice_iff {str : StringView UInt16} {text : List Char}
    (htext : str.chars = Utf.utf16 text) :
    convertWideTwice api str cpUtf8 = .ok str.chars ↔
      (Utf.utf8 text).length < 2147483648 := by
  have hlength : str.length = (Utf.utf16 text).length := by
    rw [← htext, StringView.length_chars]
  have hshorter := Utf.length_utf16_le text
  constructor
  · intro hround
    by_contra hbig
    rw [Nat.not_lt] at hbig
    by_cases hfits : str.length < 2147483648
    · have hne : Utf.utf16 text ≠ [] := by
        rw [Ne, Utf.utf16_eq_nil_iff, ← Utf.utf8_eq_nil_iff,
          ← List.length_eq_zero_iff]
        omega
      have hpos : 0 < str.length := by
        rw [hlength]
        exact List.length_pos_iff.mpr hne
      have hempty : wc2mb api str cpUtf8 = .ok [] :=
        convertUnits_refused 0 hapi.toMultiByte htext hpos hfits hbig
      have hnothing : mb2wc api (.ofString []) cpUtf8 = .ok [] :=
        convertUnits_of_length_zero 0 rfl
      rw [convertWideTwice_of_first hempty, hnothing, htext,
        Except.ok.injEq] at hround
      exact hne hround.symm
    · cases hfirst : wc2mb api str cpUtf8 with
      | error e =>
          rw [convertWideTwice, hfirst, error_bind] at hround
          contradiction
      | ok mstr =>
          rw [convertWideTwice_of_first hfirst] at hround
          have hint := length_convertUnits 0 hapi.toWideChar hround
          rw [StringView.length_chars] at hint
          exact hfits hint
  · intro hfits
    have hfirst : wc2mb api str cpUtf8 = .ok (Utf.utf8 text) :=
      convertUnits_text 0 hapi.toMultiByte htext (by omega) hfits fun hnil =>
        Utf.utf8_eq_nil_iff.mpr (Utf.utf16_eq_nil_iff.mp hnil)
    have hsecond : mb2wc api (.ofString (Utf.utf8 text)) cpUtf8 =
        .ok (Utf.utf16 text) :=
      convertUnits_text 0 hapi.toWideChar (StringView.chars_ofString _) hfits
        (by omega) fun hnil =>
          Utf.utf16_eq_nil_iff.mpr (Utf.utf8_eq_nil_iff.mp hnil)
    rw [convertWideTwice_of_first hfirst, hsecond, htext]

/-- A byte string survives the round trip exactly when its length fits an
`int`. -/
theorem convertTwice_iff {str : StringView UInt8} {text : List Char}
    (htext : str.chars = Utf.utf8 text) :
    convertTwice api str cpUtf8 = .ok str.chars ↔ str.length < 2147483648 := by
  have hlength : str.length = (Utf.utf8 text).length := by
    rw [← htext, StringView.length_chars]
  have hshorter := Utf.length_utf16_le text
  constructor
  · intro hround
    cases hfirst : mb2wc api str cpUtf8 with
    | error e =>
        rw [convertTwice, hfirst, error_bind] at hround
        contradiction
    | ok wstr =>
        rw [convertTwice_of_first hfirst] at hround
        have hint := length_convertUnits 0 hapi.toMultiByte hround
        rwa [StringView.length_chars] at hint
  · intro hfits
    have hfirst : mb2wc api str cpUtf8 = .ok (Utf.utf16 text) :=
      convertUnits_text 0 hapi.toWideChar htext hfits (by omega) fun hnil =>
        Utf.utf16_eq_nil_iff.mpr (Utf.utf8_eq_nil_iff.mp hnil)
    have hsecond : wc2mb api (.ofString (Utf.utf16 text)) cpUtf8 =
        .ok (Utf.utf8 text) :=
      convertUnits_text 0 hapi.toMultiByte (StringView.chars_ofString _)
        (by rw [StringView.length_ofString]; omega) (by omega) fun hnil =>
          Utf.utf8_eq_nil_iff.mpr (Utf.utf16_eq_nil_iff.mp hnil)
    rw [convertTwice_of_first hfirst, hsecond, htext]

/-- Which strings of well-formed text the conversions bring back. -/
theorem convert_round_trips_iff :
    (∀ (str : StringView UInt16) text, str.chars = Utf.utf16 text →
      (convertWideTwice api str cpUtf8 = .ok str.chars ↔
        (Utf.utf8 text).length < 2147483648)) ∧
      ∀ (str : StringView UInt8) text, str.chars = Utf.utf8 text →
        (convertTwice api str cpUtf8 = .ok str.chars ↔
          str.length < 2147483648) :=
  ⟨fun _ _ htext => convertWideTwice_iff hapi htext,
    fun _ _ htext => convertTwice_iff hapi htext⟩

end RoundTrips

/-! ### A system that converts -/

/-- The answer with an output: its length, and the output if there is room. -/
def answer {B : Type} (output : List B) (room : Int) : Int × List B :=
  if 2147483648 ≤ output.length then (0, [])
  else if room = 0 then (output.length, [])
  else if room < output.length then (0, [])
  else (output.length, output)

/-- A call that decodes its input and encodes it again. -/
def referenceCall {A B : Type} [DecidableEq A] (zero : A)
    (decode : List A → List Char) (encode : List Char → List B) :
    CodePageCall A B := fun data len room =>
  if len = 0 ∨ len < -1 then (0, [])
  else if len = -1 then
    answer (encode (decode (data.takeWhile (· ≠ zero) ++ [zero]))) room
  else answer (encode (decode (data.take len.toNat))) room

section Reference

variable {A B : Type} [DecidableEq A] (zero : A)
  {decode : List A → List Char} {encodeA : List Char → List A}
  {encodeB : List Char → List B}

theorem referenceCall_eq (data : List A) (len room : Int) :
    referenceCall zero decode encodeB data len room = (0, []) ∨
      ∃ output, referenceCall zero decode encodeB data len room =
        answer output room := by
  rw [referenceCall]
  split
  · exact Or.inl rfl
  · split
    · exact Or.inr ⟨_, rfl⟩
    · exact Or.inr ⟨_, rfl⟩

theorem referenceCall_text (hdecode : ∀ text, decode (encodeA text) = text)
    {data : List A} {text : List Char} {n : Nat} (hpos : 0 < n)
    (htext : data.take n = encodeA text) (room : Int) :
    referenceCall zero decode encodeB data n room =
      answer (encodeB text) room := by
  have hvalid : ¬ ((n : Int) = 0 ∨ (n : Int) < -1) := by omega
  have hcounted : ¬ (n : Int) = -1 := by omega
  rw [referenceCall, if_neg hvalid, if_neg hcounted, Int.toNat_natCast, htext,
    hdecode]

theorem referenceCall_converts (hdecode : ∀ text, decode (encodeA text) = text) :
    (referenceCall zero decode encodeB).Converts encodeA encodeB := by
  constructor
  case returned =>
    intro data len room
    have hzero : (0 : Int) ≤ 0 ∧ (0 : Int) < 2147483648 := by decide
    rcases referenceCall_eq zero data len room with heq | ⟨output, heq⟩
    · rw [heq]
      exact hzero
    · rw [heq, answer]
      split
      · exact hzero
      · split
        · exact ⟨Int.natCast_nonneg _, by omega⟩
        · split
          · exact hzero
          · exact ⟨Int.natCast_nonneg _, by omega⟩
  case roomy =>
    intro data len room hroom
    rcases referenceCall_eq zero data len room with heq | ⟨output, heq⟩
    · rw [heq]
      exact hroom
    · rw [heq, answer]
      split
      · exact hroom
      · split
        · exact hroom
        · split
          · exact hroom
          · next hfits => exact Int.not_lt.mp hfits
  case converted =>
    intro data text n hpos _ htext hout
    have hsmall : ¬ 2147483648 ≤ (encodeB text).length := Nat.not_le.mpr hout
    rw [referenceCall_text zero hdecode hpos htext,
      referenceCall_text zero hdecode hpos htext, answer, answer, if_neg hsmall,
      if_neg hsmall]
    constructor
    · rfl
    · split
      · next hempty =>
          have hnil : encodeB text = [] :=
            List.length_eq_zero_iff.mp (Int.ofNat.inj hempty)
          rw [hnil]
      · rw [if_neg (Int.lt_irrefl _)]
  case refused =>
    intro data text n room hpos _ htext hout
    rw [referenceCall_text zero hdecode hpos htext, answer, if_pos hout]

end Reference

def referenceApi : CodePageApi where
  wideCharToMultiByte _ _ := referenceCall 0 Utf.decode16 Utf.utf8
  multiByteToWideChar _ _ := referenceCall 0 Utf.decode8 Utf.utf16

theorem referenceApi_documented : referenceApi.Documented where
  toMultiByte := referenceCall_converts 0 Utf.decode16_utf16
  toWideChar := referenceCall_converts 0 Utf.decode8_utf8

/-- Text of one, two and four bytes a character. -/
def greeting : List Char := "Sài Gòn ".toList ++ [Char.ofNat 128512]

theorem greeting_round_trips :
    convertWideTwice referenceApi (.ofString (Utf.utf16 greeting)) cpUtf8 =
        .ok (StringView.ofString (Utf.utf16 greeting)).chars ∧
      convertTwice referenceApi (.ofString (Utf.utf8 greeting)) cpUtf8 =
        .ok (StringView.ofString (Utf.utf8 greeting)).chars := by
  obtain ⟨hwide, hbytes⟩ := convert_round_trips_iff referenceApi_documented
  constructor
  · exact (hwide _ greeting (StringView.chars_ofString _)).mpr (by decide)
  · exact (hbytes _ greeting (StringView.chars_ofString _)).mpr (by decide)

/-! ### A string too long -/

theorem utf8_replicate (n : Nat) :
    Utf.utf8 (List.replicate n 'a') = List.replicate n 97 := by
  induction n with
  | zero => rfl
  | succ n ih =>
      rw [Utf.utf8] at ih
      rw [Utf.utf8, List.replicate_succ, List.replicate_succ, List.flatMap_cons,
        ih]
      rfl

/-- The length of a string of `2^31` bytes narrows to a negative `int`. -/
def longString : StringView UInt8 := .ofString (List.replicate 2147483648 97)

theorem longString_lost :
    longString.chars = Utf.utf8 (List.replicate 2147483648 'a') ∧
      ¬ convertTwice referenceApi longString cpUtf8 = .ok longString.chars := by
  have htext : longString.chars =
      Utf.utf8 (List.replicate 2147483648 'a') := by
    rw [longString, StringView.chars_ofString, utf8_replicate]
  have hlength : longString.length = 2147483648 := by
    rw [longString, StringView.length_ofString, List.length_replicate]
  refine ⟨htext, ?_⟩
  rw [convertTwice_iff referenceApi_documented htext, hlength]
  exact Nat.lt_irrefl _

end Saigon
