/-
Resources with one owner each.  What an owner names is live, what is live has
an owner, and no two owners name the same resource; so nothing leaks and
nothing is released twice.
-/
import Mathlib.Logic.Function.Basic

universe u v

/-- The owners' names of resources, and which resources are live. -/
structure Ownership {Owner : Type u} {R : Type v} (names : Owner → Option R)
    (live : R → Bool) : Prop where
  owned : ∀ owner r, names owner = some r → live r = true
  owner : ∀ r, live r = true → ∃ owner, names owner = some r
  unique : ∀ first second r, names first = some r → names second = some r →
    first = second

namespace Ownership

variable {Owner : Type u} {R : Type v} {names : Owner → Option R}
  {live : R → Bool}

/-- Each live resource belongs to exactly one owner. -/
theorem existsUnique (h : Ownership names live) {r : R} (hr : live r = true) :
    ∃ owner, names owner = some r ∧
      ∀ other, names other = some r → other = owner := by
  obtain ⟨owner, howner⟩ := h.owner r hr
  exact ⟨owner, howner, fun other hother => h.unique other owner r hother howner⟩

theorem empty : Ownership (fun _ : Owner => none) (fun _ : R => false) where
  owned := by
    intro owner r hname
    contradiction
  owner := by
    intro r hlive
    contradiction
  unique := by
    intro first second r hfirst
    contradiction

variable [DecidableEq Owner]

/-- An owner that names nothing takes over a resource that nobody names. -/
theorem adopt (h : Ownership names live) {owner : Owner} {r : R}
    [DecidableEq R] (hnone : names owner = none)
    (hfree : live r = false) :
    Ownership (Function.update names owner (some r))
      (Function.update live r true) := by
  have hother : ∀ other r', other ≠ owner → names other = some r' → r' ≠ r := by
    rintro other r' _ hname rfl
    rw [h.owned other r' hname] at hfree
    contradiction
  constructor
  case owned =>
    intro other r' hname
    by_cases heq : other = owner
    · subst heq
      rw [Function.update_self, Option.some.injEq] at hname
      rw [← hname, Function.update_self]
    · rw [Function.update_of_ne heq] at hname
      rw [Function.update_of_ne (hother other r' heq hname)]
      exact h.owned other r' hname
  case owner =>
    intro r' hlive
    by_cases heq : r' = r
    · refine ⟨owner, ?_⟩
      rw [Function.update_self, heq]
    · rw [Function.update_of_ne heq] at hlive
      obtain ⟨other, hname⟩ := h.owner r' hlive
      refine ⟨other, ?_⟩
      rw [Function.update_of_ne _, hname]
      rintro rfl
      rw [hnone] at hname
      contradiction
  case unique =>
    intro first second r' hfirst hsecond
    by_cases hone : first = owner <;> by_cases htwo : second = owner
    · rw [hone, htwo]
    · subst hone
      rw [Function.update_self, Option.some.injEq] at hfirst
      rw [Function.update_of_ne htwo] at hsecond
      exact absurd hfirst.symm (hother second r' htwo hsecond)
    · subst htwo
      rw [Function.update_self, Option.some.injEq] at hsecond
      rw [Function.update_of_ne hone] at hfirst
      exact absurd hsecond.symm (hother first r' hone hfirst)
    · rw [Function.update_of_ne hone] at hfirst
      rw [Function.update_of_ne htwo] at hsecond
      exact h.unique first second r' hfirst hsecond

/-- The owner lets go of its resource, which is no longer live. -/
theorem release (h : Ownership names live) {owner : Owner} {r : R}
    [DecidableEq R] (hname : names owner = some r) :
    Ownership (Function.update names owner none)
      (Function.update live r false) := by
  have hother : ∀ other r', other ≠ owner → names other = some r' → r' ≠ r := by
    rintro other r' hne hother rfl
    exact hne (h.unique other owner r' hother hname)
  constructor
  case owned =>
    intro other r' hother'
    by_cases heq : other = owner
    · rw [heq, Function.update_self] at hother'
      contradiction
    · rw [Function.update_of_ne heq] at hother'
      rw [Function.update_of_ne (hother other r' heq hother')]
      exact h.owned other r' hother'
  case owner =>
    intro r' hlive
    by_cases heq : r' = r
    · rw [heq, Function.update_self] at hlive
      contradiction
    · rw [Function.update_of_ne heq] at hlive
      obtain ⟨other, hother'⟩ := h.owner r' hlive
      refine ⟨other, ?_⟩
      rw [Function.update_of_ne _, hother']
      rintro rfl
      rw [hname, Option.some.injEq] at hother'
      exact heq hother'.symm
  case unique =>
    intro first second r' hfirst hsecond
    by_cases hone : first = owner
    · rw [hone, Function.update_self] at hfirst
      contradiction
    · by_cases htwo : second = owner
      · rw [htwo, Function.update_self] at hsecond
        contradiction
      · rw [Function.update_of_ne hone] at hfirst
        rw [Function.update_of_ne htwo] at hsecond
        exact h.unique first second r' hfirst hsecond

/-- An owner that names nothing stays so. -/
theorem update_none {owner : Owner} (hnone : names owner = none) :
    Function.update names owner none = names := by
  rw [← hnone, Function.update_eq_self]

/-- What an owner names, if anything, passes to one that names nothing. -/
theorem transfer (h : Ownership names live) (giver : Owner) {taker : Owner}
    [DecidableEq R] (hnone : names taker = none) :
    Ownership (Function.update (Function.update names taker (names giver))
      giver none) live := by
  cases hgive : names giver with
  | none =>
      rw [update_none hnone, update_none hgive]
      exact h
  | some r =>
      have hne : taker ≠ giver := by
        rintro rfl
        rw [hnone] at hgive
        contradiction
      have htaker : Function.update names giver none taker =
          none := by
        rw [Function.update_of_ne hne, hnone]
      have hadopted := (h.release hgive).adopt htaker (Function.update_self r _ _)
      have hlive : Function.update live r true = live := by
        rw [← h.owned giver r hgive, Function.update_eq_self]
      rw [Function.update_idem, hlive, Function.update_comm hne.symm] at hadopted
      exact hadopted

end Ownership
