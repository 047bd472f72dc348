/-
The policies of the scope guards of `scope.hpp`.  A policy looks at the number
of exceptions in flight when its guard is made and when its scope is left.  It
acts as its name says also in guards that run while another exception is in
flight.
-/
import Saigon.Support.Scoped

namespace Saigon

/-- The guards: `scope_exit`, `scope_fail` and `scope_success`. -/
inductive Policy where
  | onExit
  | onFail
  | onSuccess
deriving DecidableEq

/-- The members of the three policies. -/
inductive PolicyState where
  | onExitPolicy (execute : Bool)
  | onFailPolicy (ec : Int)
  | onSuccessPolicy (ec : Int)
deriving DecidableEq

namespace PolicyState

/-- The greatest `int`. -/
def intMax : Int := 2147483647

/-- The initializers of the members. -/
def make (uncaughtExceptions : Int) : Policy → PolicyState
  | .onExit => .onExitPolicy true
  | .onFail => .onFailPolicy uncaughtExceptions
  | .onSuccess => .onSuccessPolicy uncaughtExceptions

def release : PolicyState → PolicyState
  | .onExitPolicy _ => .onExitPolicy false
  | .onFailPolicy _ => .onFailPolicy intMax
  | .onSuccessPolicy _ => .onSuccessPolicy (-1)

def shouldExecute (uncaughtExceptions : Int) : PolicyState → Bool
  | .onExitPolicy execute => execute
  | .onFailPolicy ec => ec < uncaughtExceptions
  | .onSuccessPolicy ec => ec ≥ uncaughtExceptions

/-- The destructor of a guard asks its policy, which counts. -/
def counting : Scoped.Discipline Policy PolicyState where
  make policy uncaughtExceptions := make uncaughtExceptions policy
  release := release
  shouldExecute policy uncaughtExceptions _ :=
    shouldExecute uncaughtExceptions policy

end PolicyState

/-- What the names say: a guard acts whenever its scope is left, or only where
an exception leaves it, or only where none does, unless it is released. -/
def Policy.named : Scoped.Discipline Policy (Policy × Bool) where
  make policy _ := (policy, true)
  release guard := (guard.1, false)
  shouldExecute guard _ unwinding :=
    guard.2 &&
      match guard.1 with
      | .onExit => true
      | .onFail => unwinding
      | .onSuccess => !unwinding

/-- The members of a policy that was made at a count. -/
def PolicyState.Represents (count : Int) (state : PolicyState)
    (guard : Policy × Bool) : Prop :=
  0 ≤ count ∧ count < intMax ∧
    state = if guard.2 then make count guard.1 else (make count guard.1).release

theorem policies_agree :
    Scoped.Agree PolicyState.counting Policy.named PolicyState.Represents
      PolicyState.intMax where
  make := by
    intro policy count hpos hlt
    exact ⟨hpos, hlt, rfl⟩
  release := by
    rintro count state ⟨policy, armed⟩ ⟨hpos, hlt, rfl⟩
    refine ⟨hpos, hlt, ?_⟩
    cases armed <;> cases policy <;> rfl
  completed := by
    rintro count state ⟨policy, armed⟩ ⟨hpos, hlt, rfl⟩
    have hmax : ¬ PolicyState.intMax < count := by omega
    have hneg : ¬ count ≤ -1 := by omega
    cases armed <;> cases policy <;>
      simp [PolicyState.counting, PolicyState.shouldExecute, PolicyState.make,
        PolicyState.release, Policy.named, hmax, hneg]
  thrown := by
    rintro count state ⟨policy, armed⟩ ⟨hpos, hlt, rfl⟩
    have hmax : ¬ PolicyState.intMax < count + 1 := by omega
    have hneg : ¬ count + 1 ≤ -1 := by omega
    have hmore : count < count + 1 := by omega
    cases armed <;> cases policy <;>
      simp [PolicyState.counting, PolicyState.shouldExecute, PolicyState.make,
        PolicyState.release, Policy.named, hmax, hneg, hmore]

/-- However scopes, exceptions, handlers and guards are nested, and whatever
number of exceptions is in flight before, the counting policies make the code
end and act as if each guard did what its name says, as long as those and the
ones that the nesting of the code allows at once can be counted by an `int`. -/
theorem guards_act_as_named {Label : Type} (code : Scoped.Code Policy Label)
    (uncaught : Nat) (hdepth : uncaught + code.depth ≤ 2147483647) :
    (Scoped.run PolicyState.counting code ⟨uncaught, [], []⟩).1 =
        (Scoped.run Policy.named code ⟨uncaught, [], []⟩).1 ∧
      (Scoped.run PolicyState.counting code ⟨uncaught, [], []⟩).2.trace =
        (Scoped.run Policy.named code ⟨uncaught, [], []⟩).2.trace := by
  have hstart : Scoped.Related PolicyState.Represents []
      (⟨uncaught, [], []⟩ : Scoped.State PolicyState Label)
      ⟨uncaught, [], []⟩ := ⟨rfl, rfl, trivial⟩
  have hlimit : (uncaught : Int) + code.depth ≤ PolicyState.intMax := by
    rw [PolicyState.intMax]
    omega
  have hend := Scoped.run_alike policies_agree code hstart (Int.natCast_nonneg _)
    hlimit
  exact ⟨hend.outcome, hend.trace⟩

/-- A guard that runs while an exception is in flight has guards of its own:
one of a scope left by a second exception, and one of a scope left without. -/
def nestedGuards : Scoped.Code Policy String :=
  .guarded .onExit false
    (.seq
      (.attempt (.guarded .onFail false (.act "second") .throwing) (.act "caught"))
      (.guarded .onSuccess false (.act "left") .skip))
    (.guarded .onSuccess false (.act "never") .throwing)

theorem nestedGuards_act_as_named :
    (Scoped.run PolicyState.counting nestedGuards ⟨(0 : Nat), [], []⟩).1 =
        (Scoped.run Policy.named nestedGuards ⟨(0 : Nat), [], []⟩).1 ∧
      (Scoped.run PolicyState.counting nestedGuards ⟨(0 : Nat), [], []⟩).2.trace =
        (Scoped.run Policy.named nestedGuards ⟨(0 : Nat), [], []⟩).2.trace :=
  guards_act_as_named nestedGuards 0 (by decide)

example : (Scoped.run PolicyState.counting nestedGuards ⟨0, [], []⟩).2.trace =
    ["second", "caught", "left"] := by decide

end Saigon
