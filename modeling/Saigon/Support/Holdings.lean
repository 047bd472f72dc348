/-
What a list of slots holds, as a multiset: each slot holds one thing or
nothing.  Conservation laws count what was handed over against what is held
and what is gone.
-/
import Mathlib.Algebra.Order.Group.Multiset

namespace Holdings

universe u v

variable {A : Type u} {P : Type v}

/-- What one slot holds. -/
def one (owns : A → Option P) (slot : A) : Multiset P := ↑(owns slot).toList

/-- What all slots hold. -/
def held (owns : A → Option P) (slots : List A) : Multiset P :=
  ↑(slots.filterMap owns)

variable {owns : A → Option P}

@[simp] theorem held_nil : held owns [] = 0 := rfl

theorem held_append (first second : List A) :
    held owns (first ++ second) = held owns first + held owns second := by
  rw [held, List.filterMap_append, ← Multiset.coe_add, held, held]

theorem held_cons (slot : A) (slots : List A) :
    held owns (slot :: slots) = one owns slot + held owns slots := by
  rw [held, List.filterMap_cons, one, held]
  cases owns slot with
  | none => rfl
  | some p => rfl

theorem held_singleton (slot : A) : held owns [slot] = one owns slot := by
  rw [held_cons, held_nil, add_zero]

/-- A slot is overwritten. -/
theorem held_set {slots : List A} {i : Nat} {old : A} (hold : slots[i]? = some old)
    (new : A) :
    held owns (slots.set i new) + one owns old = held owns slots + one owns new := by
  induction slots generalizing i with
  | nil => contradiction
  | cons slot slots ih =>
      cases i with
      | zero =>
          rw [List.getElem?_cons_zero, Option.some.injEq] at hold
          subst hold
          rw [List.set_cons_zero, held_cons, held_cons]
          ac_rfl
      | succ i =>
          rw [List.getElem?_cons_succ] at hold
          rw [List.set_cons_succ, held_cons, held_cons, add_assoc, ih hold, add_assoc]

end Holdings
