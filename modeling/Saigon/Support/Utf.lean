/-
UTF-16 and UTF-8 as encodings of lists of Unicode scalar values.
-/
import Mathlib.Data.List.Basic

namespace Utf

/-- The UTF-16 code units of a scalar value: itself, or a surrogate pair. -/
def encode16 (c : Char) : List UInt16 :=
  if c.toNat < 65536 then [UInt16.ofNat c.toNat]
  else
    [UInt16.ofNat (55296 + (c.toNat - 65536) / 1024),
      UInt16.ofNat (56320 + (c.toNat - 65536) % 1024)]

def utf16 (text : List Char) : List UInt16 := text.flatMap encode16

def utf8 (text : List Char) : List UInt8 := text.flatMap String.utf8EncodeChar

theorem encode16_ne_nil (c : Char) : encode16 c ≠ [] := by
  rw [encode16]
  split <;> simp

theorem utf16_eq_nil_iff {text : List Char} : utf16 text = [] ↔ text = [] := by
  cases text with
  | nil => simp [utf16]
  | cons c rest => simp [utf16, encode16_ne_nil]

theorem utf8_eq_nil_iff {text : List Char} : utf8 text = [] ↔ text = [] := by
  cases text with
  | nil => simp [utf8]
  | cons c rest => simp [utf8]

/-- A scalar value past the basic plane takes four bytes. -/
theorem utf8Size_of_le {c : Char} (hc : 65536 ≤ c.toNat) : c.utf8Size = 4 := by
  rw [Char.utf8Size_eq_four_iff, UInt32.lt_iff_toNat_lt]
  exact hc

/-- No text has more UTF-16 units than UTF-8 bytes. -/
theorem length_utf16_le (text : List Char) :
    (utf16 text).length ≤ (utf8 text).length := by
  induction text with
  | nil => exact Nat.le_refl 0
  | cons c rest ih =>
      have hchar : (encode16 c).length ≤ (String.utf8EncodeChar c).length := by
        rw [String.length_utf8EncodeChar, encode16]
        split
        · exact c.utf8Size_pos
        · next hbig =>
            rw [utf8Size_of_le (Nat.le_of_not_lt hbig)]
            exact Nat.le_of_ble_eq_true rfl
      rw [utf16, utf8, List.flatMap_cons, List.flatMap_cons, List.length_append,
        List.length_append]
      exact Nat.add_le_add hchar ih

/-! ### Decoding -/

def isHigh (unit : UInt16) : Bool := 55296 ≤ unit.toNat && unit.toNat < 56320

def isLow (unit : UInt16) : Bool := 56320 ≤ unit.toNat && unit.toNat < 57344

/-- A unit by itself; a lone surrogate is replaced. -/
def decodeUnit (unit : UInt16) : Char :=
  if isHigh unit || isLow unit then Char.ofNat 65533 else Char.ofNat unit.toNat

def decode16 : List UInt16 → List Char
  | [] => []
  | [unit] => [decodeUnit unit]
  | first :: second :: rest =>
      if isHigh first && isLow second then
        Char.ofNat (65536 + (first.toNat - 55296) * 1024 +
          (second.toNat - 56320)) :: decode16 rest
      else decodeUnit first :: decode16 (second :: rest)

/-- A scalar value is below the surrogates or past them. -/
theorem toNat_range (c : Char) :
    c.toNat < 55296 ∨ 57343 < c.toNat ∧ c.toNat < 1114112 := c.valid

theorem decode16_append (c : Char) (rest : List UInt16) :
    decode16 (encode16 c ++ rest) = c :: decode16 rest := by
  have hrange := toNat_range c
  rw [encode16]
  split
  · next hsmall =>
      have hunit : (UInt16.ofNat c.toNat).toNat = c.toNat := by
        rw [UInt16.toNat_ofNat']
        exact Nat.mod_eq_of_lt hsmall
      have hhigh : isHigh (UInt16.ofNat c.toNat) = false := by
        rw [isHigh, hunit]
        simp
        omega
      have hlow : isLow (UInt16.ofNat c.toNat) = false := by
        rw [isLow, hunit]
        simp
        omega
      have hdecode : decodeUnit (UInt16.ofNat c.toNat) = c := by
        rw [decodeUnit, hhigh, hlow, hunit]
        exact Char.ofNat_toNat c
      cases rest with
      | nil => simp [decode16, hdecode]
      | cons second rest => simp [decode16, hhigh, hdecode]
  · next hbig =>
      have hhigh : (UInt16.ofNat (55296 + (c.toNat - 65536) / 1024)).toNat =
          55296 + (c.toNat - 65536) / 1024 := by
        rw [UInt16.toNat_ofNat']
        exact Nat.mod_eq_of_lt (by omega)
      have hlow : (UInt16.ofNat (56320 + (c.toNat - 65536) % 1024)).toNat =
          56320 + (c.toNat - 65536) % 1024 := by
        rw [UInt16.toNat_ofNat']
        exact Nat.mod_eq_of_lt (by omega)
      have hpair : 65536 + (55296 + (c.toNat - 65536) / 1024 - 55296) * 1024 +
          (56320 + (c.toNat - 65536) % 1024 - 56320) = c.toNat := by
        omega
      have hsurrogates :
          (isHigh (UInt16.ofNat (55296 + (c.toNat - 65536) / 1024)) &&
            isLow (UInt16.ofNat (56320 + (c.toNat - 65536) % 1024))) = true := by
        rw [isHigh, isLow, hhigh, hlow]
        simp
        omega
      rw [List.cons_append, List.cons_append, List.nil_append, decode16,
        if_pos hsurrogates, hhigh, hlow, hpair, Char.ofNat_toNat]

/-- Well-formed UTF-16 decodes to its text. -/
theorem decode16_utf16 (text : List Char) : decode16 (utf16 text) = text := by
  induction text with
  | nil => rfl
  | cons c rest ih =>
      rw [utf16, List.flatMap_cons, decode16_append]
      exact congrArg (c :: ·) ih

/-- The text of well-formed UTF-8, and no text for other bytes. -/
def decode8 (bytes : List UInt8) : List Char :=
  (bytes.toByteArray.utf8Decode?.getD #[]).toList

theorem decode8_utf8 (text : List Char) : decode8 (utf8 text) = text := by
  have hdecode : (utf8 text).toByteArray.utf8Decode? = some text.toArray :=
    List.utf8Decode?_utf8Encode
  rw [decode8, hdecode]
  simp

end Utf
