/-
`find` beside `equal`.  The comparison folds the case of both strings when it
is asked to; the search never does, and answers that nothing was found.
-/
import Saigon.StringUtils

namespace Saigon

variable {CharT : Type} [DecidableEq CharT]

/-- What a comparison makes of a character. -/
def fold (toupper : CharT → CharT) (icase : Bool) : CharT → CharT :=
  if icase then toupper else id

omit [DecidableEq CharT] in
theorem equalRanges_eq {D : Type} [DecidableEq D] (f : CharT → D)
    (s1 s2 : List CharT) : equalRanges (fun c1 c2 => f c1 = f c2) s1 s2 =
      decide (s1.map f = s2.map f) := by
  induction s1 generalizing s2 with
  | nil => cases s2 <;> simp [equalRanges]
  | cons c1 s1 ih => cases s2 <;> simp [equalRanges, ih]

omit [DecidableEq CharT] in
/-- A word occurs in a text where some stretch of its length is the word. -/
theorem infix_iff_stretch {word text : List CharT} :
    word <:+: text ↔ ∃ pos, pos + word.length ≤ text.length ∧
      (text.drop pos).take word.length = word := by
  constructor
  · rintro ⟨before, after, rfl⟩
    refine ⟨before.length, by simp, ?_⟩
    rw [List.append_assoc, List.drop_left, List.take_left]
  · rintro ⟨pos, _, hword⟩
    refine ⟨text.take pos, (text.drop pos).drop word.length, ?_⟩
    conv_lhs => enter [1, 2]; rw [← hword]
    rw [List.append_assoc, List.take_append_drop, List.take_append_drop]

/-- The first matching position is found exactly when the word occurs. -/
theorem StringView.find_isSome_iff (v sub : StringView CharT) :
    (v.find sub).isSome = true ↔ sub.chars <:+: v.chars := by
  rw [StringView.find, List.find?_isSome]
  constructor
  · rintro ⟨pos, _, hprefix⟩
    have hword := List.isPrefixOf_iff_prefix.mp hprefix
    exact hword.isInfix.trans (List.drop_suffix pos v.chars).isInfix
  · intro hinfix
    obtain ⟨pos, hinside, hword⟩ := infix_iff_stretch.mp hinfix
    rw [length_chars, length_chars] at hinside
    refine ⟨pos, List.mem_range.mpr (by omega), ?_⟩
    rw [List.isPrefixOf_iff_prefix, ← hword]
    exact List.take_prefix _ _

variable [CharType CharT]

/-- `equal` compares the folded characters. -/
theorem equal_eq (toupper : CharT → CharT) {s1 s2 : StringArgument CharT}
    {sv1 sv2 : StringView CharT} (hs1 : s1.toView = .ok sv1)
    (hs2 : s2.toView = .ok sv2) (icase : Bool) :
    equal toupper s1 s2 icase = .ok (decide
      (sv1.chars.map (fold toupper icase) =
        sv2.chars.map (fold toupper icase))) := by
  rw [equal, hs1, hs2]
  simp only [ok_bind]
  by_cases hlength : sv1.length = sv2.length
  · rw [if_neg (not_not_intro hlength)]
    cases icase with
    | true => exact congrArg Except.ok (equalRanges_eq toupper _ _)
    | false => exact congrArg Except.ok (equalRanges_eq id _ _)
  · have hne : sv1.chars.map (fold toupper icase) ≠
        sv2.chars.map (fold toupper icase) := by
      intro heq
      have hsame := congrArg List.length heq
      simp only [List.length_map, StringView.length_chars] at hsame
      exact hlength hsame
    rw [if_pos hlength, decide_eq_false hne]
    rfl

/-- `find` answers as `equal` does on the stretches of the text. -/
def FindAgrees (toupper : CharT → CharT) (str sub : StringArgument CharT)
    (strv subv : StringView CharT) (icase : Bool) : Prop :=
  find toupper str sub icase = .ok true ↔
    ∃ pos, ∃ hinside : pos + subv.length ≤ strv.length,
      equal toupper (.object (strv.substr pos subv.length hinside)) sub icase =
        .ok true

section Arguments

variable (toupper : CharT → CharT) {str sub : StringArgument CharT}
  {strv subv : StringView CharT} (hstr : str.toView = .ok strv)
  (hsub : sub.toView = .ok subv)
include hstr hsub

/-- Only the case-sensitive search looks for the word. -/
theorem find_iff (hstrv : strv.length ≠ 0) (hsubv : subv.length ≠ 0)
    (icase : Bool) : find toupper str sub icase = .ok true ↔
      icase = false ∧ subv.chars <:+: strv.chars := by
  rw [find, hstr, hsub, ← StringView.find_isSome_iff]
  simp only [ok_bind, pure, Except.pure, hstrv, hsubv, or_self, if_false]
  cases icase <;> simp

omit hstr in
/-- Some stretch is equal to the word exactly when the folded word occurs. -/
theorem equal_stretch_iff (icase : Bool) :
    (∃ pos, ∃ hinside : pos + subv.length ≤ strv.length,
      equal toupper (.object (strv.substr pos subv.length hinside)) sub icase =
        .ok true) ↔
      subv.chars.map (fold toupper icase) <:+:
        strv.chars.map (fold toupper icase) := by
  rw [infix_iff_stretch]
  simp only [List.length_map, StringView.length_chars]
  constructor
  · rintro ⟨pos, hinside, hequal⟩
    refine ⟨pos, hinside, ?_⟩
    rw [equal_eq toupper rfl hsub, Except.ok.injEq, decide_eq_true_eq,
      StringView.substr_chars] at hequal
    rw [← List.map_drop, ← List.map_take, hequal]
  · rintro ⟨pos, hinside, hword⟩
    refine ⟨pos, hinside, ?_⟩
    rw [equal_eq toupper rfl hsub, Except.ok.injEq, decide_eq_true_eq,
      StringView.substr_chars, List.map_take, List.map_drop]
    exact hword

/-- The search agrees with the comparison exactly when it is case-sensitive or
the folded word does not occur; and what it finds with case it also finds
without exactly when the word does not occur. -/
theorem find_agrees_iff (hstrv : strv.length ≠ 0) (hsubv : subv.length ≠ 0) :
    (∀ icase, FindAgrees toupper str sub strv subv icase ↔
      icase = false ∨
        ¬ subv.chars.map toupper <:+: strv.chars.map toupper) ∧
      ((find toupper str sub false = .ok true →
          find toupper str sub true = .ok true) ↔
        ¬ subv.chars <:+: strv.chars) := by
  constructor
  · intro icase
    rw [FindAgrees, find_iff toupper hstr hsub hstrv hsubv,
      equal_stretch_iff toupper hsub]
    cases icase with
    | true => simp [fold]
    | false => simp [fold]
  · rw [find_iff toupper hstr hsub hstrv hsubv,
      find_iff toupper hstr hsub hstrv hsubv]
    simp

end Arguments

def helloWorldView : StringView Char :=
  ⟨"--hello--world-from-split-".toList, 0, 26, by decide⟩

def worldView : StringView Char := ⟨"world".toList, 0, 5, by decide⟩

theorem find_world_agrees_iff :
    (∀ icase, FindAgrees Char.toUpper (.object helloWorldView)
        (.object worldView) helloWorldView worldView icase ↔
      icase = false ∨ ¬ worldView.chars.map Char.toUpper <:+:
        helloWorldView.chars.map Char.toUpper) ∧
      ((find Char.toUpper (.object helloWorldView) (.object worldView) false =
            .ok true →
          find Char.toUpper (.object helloWorldView) (.object worldView) true =
            .ok true) ↔
        ¬ worldView.chars <:+: helloWorldView.chars) :=
  find_agrees_iff Char.toUpper rfl rfl (by decide) (by decide)

/-- The word that is found with case is not found without. -/
theorem find_world_ignoring_case :
    find Char.toUpper (.object helloWorldView) (.object worldView) false =
        .ok true ∧
      find Char.toUpper (.object helloWorldView) (.object worldView) true =
        .ok false ∧
      ¬ FindAgrees Char.toUpper (.object helloWorldView) (.object worldView)
        helloWorldView worldView true := by
  refine ⟨rfl, rfl, ?_⟩
  intro hagrees
  have hequal : equal Char.toUpper
      (.object (helloWorldView.substr 9 5 (by decide))) (.object worldView)
        true = .ok true := rfl
  have hfound := hagrees.mpr ⟨9, by decide, hequal⟩
  contradiction

end Saigon
