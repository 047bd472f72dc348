/-
Progress of a machine whose actions may be disabled: whichever admitted steps
are taken, one more is enabled until a goal is met, within a bound.
-/
import Saigon.Support.Runs
import Mathlib.Algebra.GroupWithZero.Nat
import Mathlib.Tactic.ByContra

namespace Runs

universe u v

variable {S : Type u} {A : Type v}

/-- Every run of admitted steps meets `goal` after at most `n` of them, and
none is stuck before. -/
def Inevitable (step : S → A → Option S) (ok : S → A → Prop)
    (goal : S → Prop) : Nat → S → Prop
  | 0, state => goal state
  | n + 1, state => goal state ∨
      (∃ action next, ok state action ∧ step state action = some next) ∧
        ∀ action next, ok state action → step state action = some next →
          Inevitable step ok goal n next

/-- The variant rule.  Under an invariant of the admitted steps, one of them
is enabled short of the goal, and each lowers the variant. -/
theorem inevitable_of_variant {step : S → A → Option S} {ok : S → A → Prop}
    {goal inv : S → Prop} (variant : S → Nat)
    (hprogress : ∀ state, inv state → ¬ goal state →
      ∃ action next, ok state action ∧ step state action = some next)
    (hlower : ∀ state action next, inv state → ok state action →
      step state action = some next → inv next ∧ variant next < variant state)
    {n : Nat} {state : S} (hinv : inv state) (hn : variant state ≤ n) :
    Inevitable step ok goal n state := by
  induction n generalizing state with
  | zero =>
      by_contra hshort
      obtain ⟨action, next, hok, hstep⟩ := hprogress state hinv hshort
      have hless := (hlower state action next hinv hok hstep).2
      omega
  | succ n ih =>
      by_cases hgoal : goal state
      · exact Or.inl hgoal
      · right
        constructor
        · exact hprogress state hinv hgoal
        · intro action next hok hstep
          obtain ⟨hnext, hless⟩ := hlower state action next hinv hok hstep
          exact ih hnext (by omega)

/-- A sum of ranks after one entry has been overwritten. -/
theorem sum_map_set {E : Type*} (rank : E → Nat) {entries : List E} {i : Nat}
    {old : E} (hold : entries[i]? = some old) (new : E) :
    ((entries.set i new).map rank).sum + rank old =
      (entries.map rank).sum + rank new := by
  induction entries generalizing i with
  | nil => contradiction
  | cons entry entries ih =>
      cases i with
      | zero =>
          rw [List.getElem?_cons_zero, Option.some.injEq] at hold
          rw [List.set_cons_zero, List.map_cons, List.map_cons, List.sum_cons,
            List.sum_cons, hold]
          omega
      | succ i =>
          rw [List.getElem?_cons_succ] at hold
          have hrest := ih hold
          rw [List.set_cons_succ, List.map_cons, List.map_cons, List.sum_cons,
            List.sum_cons]
          omega

/-- Numbers of which no two are positive add up to at most their bound. -/
theorem sum_le_of_pairwise {numbers : List Nat} {bound : Nat}
    (hbound : ∀ number ∈ numbers, number ≤ bound)
    (hone : numbers.Pairwise fun first second => first = 0 ∨ second = 0) :
    numbers.sum ≤ bound := by
  induction numbers with
  | nil => exact Nat.zero_le bound
  | cons number rest ih =>
      obtain ⟨hhead, hrest⟩ := List.pairwise_cons.mp hone
      rw [List.sum_cons]
      cases number with
      | zero =>
          have hle := ih (fun other hother =>
            hbound other (List.mem_cons_of_mem 0 hother)) hrest
          omega
      | succ number =>
          have hzero : rest.sum = 0 := by
            rw [List.sum_eq_zero_iff_forall_eq_nat]
            intro other hother
            exact (hhead other hother).resolve_left (Nat.succ_ne_zero number)
          rw [hzero]
          exact hbound (number + 1) List.mem_cons_self

end Runs
