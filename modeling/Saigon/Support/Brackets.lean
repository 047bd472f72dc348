/-
Calls that acquire, use and release resources: what is used or released is
held, and what has been acquired is released in the end.
-/
import Saigon.Support.Simulation

namespace Brackets

universe u

variable {R : Type u} [DecidableEq R]

/-- What a call does to a resource. -/
inductive Mark (R : Type u) where
  | acquire (r : R)
  | use (r : R)
  | release (r : R)

/-- The resources held after a call. -/
def step (held : List R) : Mark R → Option (List R)
  | .acquire r => if r ∈ held then none else some (r :: held)
  | .use r => if r ∈ held then some held else none
  | .release r => if r ∈ held then some (held.erase r) else none

/-- Beside `held`, whatever is acquired is released again. -/
def Closed (held : List R) (marks : List (Mark R)) : Prop :=
  Runs.run step held marks = some held

theorem closed_nil (held : List R) : Closed held [] := rfl

theorem Closed.append {held : List R} {first second : List (Mark R)}
    (hfirst : Closed held first) (hsecond : Closed held second) :
    Closed held (first ++ second) := by
  rw [Closed, Runs.run_append hfirst]
  exact hsecond

theorem Closed.use {held : List R} {marks : List (Mark R)}
    (hmarks : Closed held marks) {r : R} (hr : r ∈ held) :
    Closed held (.use r :: marks) := by
  rw [Closed, Runs.run_cons, step, if_pos hr]
  exact hmarks

/-- A scope that acquires a resource first and releases it last. -/
theorem Closed.enclose {held : List R} {r : R} {marks : List (Mark R)}
    (hmarks : Closed (r :: held) marks) (hr : r ∉ held) :
    Closed held (.acquire r :: (marks ++ [.release r])) := by
  rw [Closed, Runs.run_cons, step, if_neg hr, Option.bind_some,
    Runs.run_append hmarks, Runs.run_cons, step, if_pos List.mem_cons_self,
    List.erase_cons_head, Option.bind_some, Runs.run_nil]

end Brackets
