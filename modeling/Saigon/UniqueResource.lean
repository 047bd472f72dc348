/-
The `unique_resource` of `scope.hpp`.  A constructor or an assignment whose
copy of the resource or of the deleter throws leaves the resource to a guard,
and the guard deletes it or leaves it where it was.  Members whose type moves
without throwing are moved, and then the constructor of `_box` is declared
not to throw: a copy that throws there ends the program.
-/
import Saigon.Support.Runs
import Saigon.Support.Holdings

namespace Saigon

/-- The members of the class. -/
structure UniqueResource (R D : Type) where
  resource : R
  deleter : D
  executeOnDestruction : Bool
deriving DecidableEq

/-- What the type of a member does: whether its move constructor is declared
not to throw, and what move construction and move assignment leave of the
source. -/
structure MemberType (T : Type) where
  nothrowMove : Bool
  movedFrom : T → T
  assignedFrom : T → T → T

/-- What `move_if_noexcept` leaves of the source of a construction. -/
def MemberType.left {T : Type} (type : MemberType T) (source : T) : T :=
  if type.nothrowMove then type.movedFrom source else source

/-- Which of its two members a constructor fails to copy, if it throws. -/
inductive CopyFailure where
  | resource
  | deleter
deriving DecidableEq

/-- The objects of a program in the order of their construction, nothing where
one does not live, and the deleters called so far with what they were called
with. -/
structure ResourceWorld (R D : Type) where
  objects : List (Option (UniqueResource R D))
  deleted : List (D × R)
deriving DecidableEq

/-- What a program does with its objects, which are counted from zero, and
where a copy throws.  A copy assignment that throws leaves something in the
member it was to assign. -/
inductive ResourceStep (R D : Type) where
  | construct (r : R) (d : D) (failure : Option CopyFailure)
  | makeUniqueResourceChecked (r invalid : R) (d : D)
      (failure : Option CopyFailure)
  | moveConstruct (that : Nat) (failure : Option CopyFailure)
  | moveAssign (this that : Nat)
  | reset (this : Nat)
  | resetTo (this : Nat) (r : R) (failure : Option R)
  | release (this : Nat)
  | destroy (this : Nat)

variable {R D : Type}

namespace ResourceWorld

variable (resourceType : MemberType R) (deleterType : MemberType D)
  (w : ResourceWorld R D)

def start : ResourceWorld R D := ⟨[], []⟩

/-- The object, if it lives. -/
def object? (this : Nat) : Option (UniqueResource R D) :=
  w.objects[this]?.join

/-- The call `d(r)`. -/
def delete (d : D) (r : R) : ResourceWorld R D :=
  { w with deleted := w.deleted ++ [(d, r)] }

def setObject (this : Nat) (object : Option (UniqueResource R D)) :
    ResourceWorld R D :=
  { w with objects := w.objects.set this object }

/-- A new object. -/
def push (object : UniqueResource R D) : ResourceWorld R D :=
  { w with objects := w.objects ++ [some object] }

/-- The constructor with a flag that says whether the deleter should run.  A
guard of either member deletes the resource when the copy of it throws; where
the type moves without throwing, `std::terminate` is called instead. -/
def constructIf (r : R) (d : D) (shouldRun : Bool) :
    Option CopyFailure → Option (ResourceWorld R D)
  | none => some (w.push ⟨r, d, shouldRun⟩)
  | some .resource =>
      if resourceType.nothrowMove then none
      else some (if shouldRun then w.delete d r else w)
  | some .deleter =>
      if deleterType.nothrowMove then none
      else some (if shouldRun then w.delete d r else w)

def construct (r : R) (d : D) (failure : Option CopyFailure) :
    Option (ResourceWorld R D) :=
  w.constructIf resourceType deleterType r d true failure

/-- What the two functions return is not copied. -/
def makeUniqueResourceChecked [DecidableEq R] (r invalid : R) (d : D)
    (failure : Option CopyFailure) : Option (ResourceWorld R D) :=
  let mustrelease := r = invalid
  w.constructIf resourceType deleterType r d (!mustrelease) failure

/-- `reset()`. -/
def reset (this : Nat) : Option (ResourceWorld R D) := do
  let object ← w.object? this
  if object.executeOnDestruction then
    let w := w.setObject this (some { object with executeOnDestruction := false })
    some (w.delete object.deleter object.resource)
  else some w

/-- The guard of the deleter deletes the resource, which has been copied or
moved already, and the object moved from lets go of it.  A member that is moved
does not throw. -/
def moveConstruct (that : Nat) :
    Option CopyFailure → Option (ResourceWorld R D)
  | none => do
      let other ← w.object? that
      let w := w.setObject that (some ⟨resourceType.left other.resource,
        deleterType.left other.deleter, false⟩)
      some (w.push other)
  | some .resource =>
      if resourceType.nothrowMove then none
      else do
        let _ ← w.object? that
        some w
  | some .deleter =>
      if deleterType.nothrowMove then none
      else do
        let other ← w.object? that
        let w := if other.executeOnDestruction
          then w.delete other.deleter other.resource else w
        some (w.setObject that (some
          ⟨resourceType.left other.resource, other.deleter, false⟩))

/-- Move assignment, where both members can be assigned without throwing.  The
branches for other members call `_as_const`, which is not declared. -/
def moveAssign (this that : Nat) : Option (ResourceWorld R D) :=
  if that ≠ this then do
    let w ← w.reset this
    let object ← w.object? this
    let other ← w.object? that
    let w := w.setObject this (some other)
    some (w.setObject that (some
      ⟨resourceType.assignedFrom object.resource other.resource,
        deleterType.assignedFrom object.deleter other.deleter, false⟩))
  else do
    let _ ← w.object? this
    some w

/-- `reset(r)`: the guard deletes `r` when it cannot be assigned, with the
deleter the object has then. -/
def resetTo (this : Nat) (r : R) (failure : Option R) :
    Option (ResourceWorld R D) := do
  let w ← w.reset this
  let object ← w.object? this
  match failure with
  | none => some (w.setObject this (some ⟨r, object.deleter, true⟩))
  | some left =>
      let w := w.setObject this (some ⟨left, object.deleter, false⟩)
      some (w.delete object.deleter r)

def release (this : Nat) : Option (ResourceWorld R D) := do
  let object ← w.object? this
  some (w.setObject this (some { object with executeOnDestruction := false }))

def destroy (this : Nat) : Option (ResourceWorld R D) := do
  let w ← w.reset this
  some (w.setObject this none)

/-- One step of a program; `none` where it uses an object that does not live,
and where it is terminated. -/
def step {R D : Type} [DecidableEq R] (resourceType : MemberType R)
    (deleterType : MemberType D) (w : ResourceWorld R D) :
    ResourceStep R D → Option (ResourceWorld R D)
  | .construct r d failure => w.construct resourceType deleterType r d failure
  | .makeUniqueResourceChecked r invalid d failure =>
      w.makeUniqueResourceChecked resourceType deleterType r invalid d failure
  | .moveConstruct that failure =>
      w.moveConstruct resourceType deleterType that failure
  | .moveAssign this that => w.moveAssign resourceType deleterType this that
  | .reset this => w.reset this
  | .resetTo this r failure => w.resetTo this r failure
  | .release this => w.release this
  | .destroy this => w.destroy this

end ResourceWorld

/-! ### What the objects own -/

/-- The resource an object will delete, with the deleter for it. -/
def ownedBy (object : Option (UniqueResource R D)) : Option (D × R) :=
  object.bind fun object =>
    if object.executeOnDestruction then some (object.deleter, object.resource)
    else none

/-- What all objects will delete. -/
def ResourceWorld.owned (w : ResourceWorld R D) : Multiset (D × R) :=
  Holdings.held ownedBy w.objects

/-- What was handed over to objects, and what was taken back from them. -/
structure Custody (R D : Type) where
  taken : Multiset (D × R)
  released : Multiset (D × R)

/-- The resource and its deleter that a step hands over: to a constructor, but
for an invalid resource, or to `reset(r)`. -/
def ResourceStep.takes [DecidableEq R] (w : ResourceWorld R D) :
    ResourceStep R D → Multiset (D × R)
  | .construct r d _ => {(d, r)}
  | .makeUniqueResourceChecked r invalid d _ =>
      if r = invalid then 0 else {(d, r)}
  | .resetTo this r _ =>
      ↑((w.object? this).map fun object => (object.deleter, r)).toList
  | _ => 0

/-- The resource that a step takes back. -/
def ResourceStep.gives (w : ResourceWorld R D) :
    ResourceStep R D → Multiset (D × R)
  | .release this => Holdings.one ownedBy (w.object? this)
  | _ => 0

def noteCustody [DecidableEq R] (w : ResourceWorld R D) (step : ResourceStep R D)
    (noted : Custody R D) : Custody R D :=
  ⟨noted.taken + step.takes w, noted.released + step.gives w⟩

/-- Whatever was handed over has been deleted, with its own deleter, or taken
back, or has one owner. -/
def Conserved (w : ResourceWorld R D) (noted : Custody R D) : Prop :=
  noted.taken = (w.deleted : Multiset (D × R)) + noted.released + w.owned

namespace ResourceWorld

variable {resourceType : MemberType R} {deleterType : MemberType D}
  {w after : ResourceWorld R D} {this : Nat} {object : UniqueResource R D}

@[simp] theorem delete_deleted (w : ResourceWorld R D) (d : D) (r : R) :
    ((w.delete d r).deleted : Multiset (D × R)) = w.deleted + {(d, r)} := rfl

@[simp] theorem delete_owned (w : ResourceWorld R D) (d : D) (r : R) :
    (w.delete d r).owned = w.owned := rfl

@[simp] theorem setObject_deleted (w : ResourceWorld R D) (this : Nat)
    (object : Option (UniqueResource R D)) :
    (w.setObject this object).deleted = w.deleted := rfl

@[simp] theorem push_deleted (w : ResourceWorld R D)
    (object : UniqueResource R D) : (w.push object).deleted = w.deleted := rfl

theorem push_owned (w : ResourceWorld R D) (object : UniqueResource R D) :
    (w.push object).owned = w.owned + Holdings.one ownedBy (some object) := by
  rw [owned, push, Holdings.held_append, Holdings.held_singleton, owned]

theorem objects_of_object? (hobject : w.object? this = some object) :
    w.objects[this]? = some (some object) :=
  Option.join_eq_some_iff.mp hobject

/-- What the objects own when one of them changes. -/
theorem setObject_owned (hobject : w.object? this = some object)
    (next : Option (UniqueResource R D)) :
    (w.setObject this next).owned + Holdings.one ownedBy (some object) =
      w.owned + Holdings.one ownedBy next :=
  Holdings.held_set (objects_of_object? hobject) next

theorem setObject_object? (hobject : w.object? this = some object)
    (next : Option (UniqueResource R D)) :
    (w.setObject this next).object? this = next := by
  have hlt := (List.getElem?_eq_some_iff.mp (objects_of_object? hobject)).1
  rw [object?, setObject, List.getElem?_set_self hlt]
  rfl

theorem setObject_object?_of_ne {other : Nat} (hne : other ≠ this)
    (next : Option (UniqueResource R D)) :
    (w.setObject this next).object? other = w.object? other := by
  rw [object?, setObject, List.getElem?_set_ne (Ne.symm hne), object?]

@[simp] theorem one_idle (r : R) (d : D) :
    Holdings.one ownedBy (some (⟨r, d, false⟩ : UniqueResource R D)) = 0 := rfl

@[simp] theorem one_owner (r : R) (d : D) :
    Holdings.one ownedBy (some (⟨r, d, true⟩ : UniqueResource R D)) = {(d, r)} :=
  rfl

@[simp] theorem one_dead :
    Holdings.one ownedBy (none : Option (UniqueResource R D)) = 0 := rfl

/-- What the objects own when one of them lets go, whatever is left of its
members. -/
theorem idle_owned (hobject : w.object? this = some object) (r : R) (d : D) :
    (w.setObject this (some ⟨r, d, false⟩)).owned +
      Holdings.one ownedBy (some object) = w.owned := by
  rw [setObject_owned hobject, one_idle, add_zero]

/-- After `reset()` the object owns nothing, and what it owned is deleted. -/
theorem reset_spec (hreset : w.reset this = some after) :
    ∃ object, w.object? this = some object ∧
      after.object? this = some { object with executeOnDestruction := false } ∧
      (∀ other, other ≠ this → after.object? other = w.object? other) ∧
      (after.deleted : Multiset (D × R)) + after.owned = w.deleted + w.owned := by
  simp only [reset, Option.bind_eq_bind, Option.bind_eq_some_iff] at hreset
  obtain ⟨object, hobject, hreset⟩ := hreset
  refine ⟨object, hobject, ?_⟩
  obtain ⟨r, d, execute⟩ := object
  cases execute with
  | true =>
      rw [if_pos rfl, Option.some.injEq] at hreset
      subst hreset
      have howned := idle_owned hobject r d
      rw [one_owner] at howned
      refine ⟨setObject_object? hobject _, ?_, ?_⟩
      · exact fun other hne => setObject_object?_of_ne hne _
      · rw [delete_deleted, delete_owned, setObject_deleted, ← howned]
        ac_rfl
  | false =>
      rw [if_neg Bool.false_ne_true, Option.some.injEq] at hreset
      subst hreset
      exact ⟨hobject, fun _ _ => rfl, rfl⟩

/-- A construction that is not terminated deletes its resource or makes an
owner of it. -/
theorem constructIf_spec {r : R} {d : D} {shouldRun : Bool}
    {failure : Option CopyFailure}
    (hconstruct : w.constructIf resourceType deleterType r d shouldRun failure =
      some after) :
    (after.deleted : Multiset (D × R)) + after.owned =
      w.deleted + w.owned + if shouldRun then {(d, r)} else 0 := by
  rcases failure with _ | failure
  · obtain rfl := Option.some.inj hconstruct
    cases shouldRun <;> simp [push_owned, add_assoc]
  · have hguard : (if shouldRun then w.delete d r else w) = after := by
      cases failure with
      | resource =>
          rw [constructIf, Option.ite_none_left_eq_some] at hconstruct
          exact Option.some.inj hconstruct.2
      | deleter =>
          rw [constructIf, Option.ite_none_left_eq_some] at hconstruct
          exact Option.some.inj hconstruct.2
    subst hguard
    cases shouldRun with
    | false => simp
    | true => simp [add_assoc, add_comm, add_left_comm]

theorem moveConstruct_spec {that : Nat} {failure : Option CopyFailure}
    (hmove : w.moveConstruct resourceType deleterType that failure =
      some after) :
    (after.deleted : Multiset (D × R)) + after.owned = w.deleted + w.owned := by
  rcases failure with _ | failure
  · simp only [moveConstruct, Option.bind_eq_bind, Option.bind_eq_some_iff,
      Option.some.injEq] at hmove
    obtain ⟨other, hother, rfl⟩ := hmove
    rw [push_owned, idle_owned hother]
    rfl
  · cases failure with
    | resource =>
        simp only [moveConstruct, Option.ite_none_left_eq_some,
          Option.bind_eq_bind, Option.bind_eq_some_iff, Option.some.injEq]
          at hmove
        obtain ⟨_, _, _, rfl⟩ := hmove
        rfl
    | deleter =>
        simp only [moveConstruct, Option.ite_none_left_eq_some,
          Option.bind_eq_bind, Option.bind_eq_some_iff, Option.some.injEq]
          at hmove
        obtain ⟨_, ⟨r, d, execute⟩, hother, rfl⟩ := hmove
        cases execute with
        | true =>
            have howned := idle_owned (w := w.delete d r) hother
              (resourceType.left r) d
            rw [one_owner, delete_owned] at howned
            rw [if_pos rfl, setObject_deleted, delete_deleted, ← howned]
            ac_rfl
        | false =>
            have howned := idle_owned hother (resourceType.left r) d
            rw [one_idle, add_zero] at howned
            rw [if_neg Bool.false_ne_true, setObject_deleted, howned]

theorem moveAssign_spec {that : Nat}
    (hmove : w.moveAssign resourceType deleterType this that = some after) :
    (after.deleted : Multiset (D × R)) + after.owned = w.deleted + w.owned := by
  by_cases hne : that = this
  · subst hne
    simp only [moveAssign, ne_eq, not_true_eq_false, if_false, Option.bind_eq_bind,
      Option.bind_eq_some_iff, Option.some.injEq] at hmove
    obtain ⟨_, _, rfl⟩ := hmove
    rfl
  · simp only [moveAssign, ne_eq, hne, not_false_eq_true, if_true,
      Option.bind_eq_bind, Option.bind_eq_some_iff, Option.some.injEq] at hmove
    obtain ⟨middle, hreset, target, htarget, other, hother, rfl⟩ := hmove
    obtain ⟨object, _, hthis, _, hmiddle⟩ := reset_spec hreset
    -- the target owns nothing, so the two changes hand over what `that` owns
    have hreplaced := setObject_owned hthis (some other)
    rw [one_idle, add_zero] at hreplaced
    have hsource : (middle.setObject this (some other)).object? that = some other := by
      rw [setObject_object?_of_ne hne, hother]
    have hidle := idle_owned hsource
      (resourceType.assignedFrom target.resource other.resource)
      (deleterType.assignedFrom target.deleter other.deleter)
    rw [hreplaced] at hidle
    have howned := add_right_cancel hidle
    rw [setObject_deleted, setObject_deleted, howned, hmiddle]

theorem resetTo_spec {r : R} {failure : Option R}
    (hreset : w.resetTo this r failure = some after) :
    ∃ object, w.object? this = some object ∧
      (after.deleted : Multiset (D × R)) + after.owned =
        w.deleted + w.owned + {(object.deleter, r)} := by
  simp only [resetTo, Option.bind_eq_bind, Option.bind_eq_some_iff] at hreset
  obtain ⟨middle, hmiddle, object, hobject, hreset⟩ := hreset
  obtain ⟨before, hbefore, hthis, _, hsame⟩ := reset_spec hmiddle
  rw [hobject, Option.some.injEq] at hthis
  subst hthis
  refine ⟨before, hbefore, ?_⟩
  cases failure with
  | none =>
      obtain rfl := Option.some.inj hreset
      have howned := setObject_owned hobject (some ⟨r, before.deleter, true⟩)
      rw [one_idle, add_zero, one_owner] at howned
      rw [setObject_deleted, howned, ← hsame, add_assoc]
  | some left =>
      obtain rfl := Option.some.inj hreset
      have howned := idle_owned hobject left before.deleter
      rw [one_idle, add_zero] at howned
      rw [delete_deleted, delete_owned, setObject_deleted, howned, ← hsame]
      ac_rfl

theorem release_spec (hrelease : w.release this = some after) :
    (after.deleted : Multiset (D × R)) + after.owned +
      Holdings.one ownedBy (w.object? this) = w.deleted + w.owned := by
  simp only [release, Option.bind_eq_bind, Option.bind_eq_some_iff,
    Option.some.injEq] at hrelease
  obtain ⟨object, hobject, rfl⟩ := hrelease
  rw [setObject_deleted, hobject, add_assoc, idle_owned hobject]

theorem destroy_spec (hdestroy : w.destroy this = some after) :
    (after.deleted : Multiset (D × R)) + after.owned = w.deleted + w.owned := by
  simp only [destroy, Option.bind_eq_bind, Option.bind_eq_some_iff,
    Option.some.injEq] at hdestroy
  obtain ⟨middle, hreset, rfl⟩ := hdestroy
  obtain ⟨object, _, hthis, _, hsame⟩ := reset_spec hreset
  have howned := setObject_owned hthis none
  rw [one_idle, add_zero, one_dead, add_zero] at howned
  rw [setObject_deleted, howned, hsame]

/-- Step lemma: what a step takes and gives accounts for what it changes. -/
theorem step_spec [DecidableEq R] {step : ResourceStep R D}
    (hstep : w.step resourceType deleterType step = some after) :
    (after.deleted : Multiset (D × R)) + after.owned + step.gives w =
      w.deleted + w.owned + step.takes w := by
  cases step with
  | construct r d failure =>
      have hspec := constructIf_spec hstep
      rw [if_pos rfl] at hspec
      simp only [ResourceStep.gives, ResourceStep.takes, add_zero]
      exact hspec
  | makeUniqueResourceChecked r invalid d failure =>
      have hspec := constructIf_spec hstep
      by_cases heq : r = invalid <;>
        simpa [ResourceStep.gives, ResourceStep.takes, heq] using hspec
  | moveConstruct that failure =>
      simpa only [ResourceStep.gives, ResourceStep.takes, add_zero] using
        moveConstruct_spec hstep
  | moveAssign this that =>
      simpa only [ResourceStep.gives, ResourceStep.takes, add_zero] using
        moveAssign_spec hstep
  | reset this =>
      obtain ⟨_, _, _, _, hsame⟩ := reset_spec hstep
      simpa only [ResourceStep.gives, ResourceStep.takes, add_zero] using hsame
  | resetTo this r failure =>
      obtain ⟨object, hobject, hspec⟩ := resetTo_spec hstep
      simp only [ResourceStep.gives, ResourceStep.takes, add_zero, hobject,
        Option.map_some, Option.toList_some]
      exact hspec
  | release this =>
      have hspec := release_spec hstep
      simpa only [ResourceStep.gives, ResourceStep.takes, add_zero] using hspec
  | destroy this =>
      simpa only [ResourceStep.gives, ResourceStep.takes, add_zero] using
        destroy_spec hstep

end ResourceWorld

/-- Whatever a program does with its objects, wherever a copy throws and
whatever a move leaves of its source, each resource that was handed over has
exactly one fate for as long as the program is not terminated: it has been
deleted with the deleter it came with, or taken back by `release`, or one
object owns it. -/
theorem unique_resources_conserved [DecidableEq R]
    (resourceType : MemberType R) (deleterType : MemberType D)
    (steps : List (ResourceStep R D)) :
    Runs.Throughout
      (Runs.observe (ResourceWorld.step resourceType deleterType) noteCustody)
      (fun s => Conserved s.1 s.2) (ResourceWorld.start, ⟨0, 0⟩) steps := by
  refine Runs.Throughout.of_invariant ?_ (fun _ hconserved => hconserved) ?_ steps
  · rintro ⟨w, noted⟩ step next hconserved hstep
    obtain ⟨after, hafter, rfl⟩ := Option.map_eq_some_iff.mp hstep
    have hspec := ResourceWorld.step_spec hafter
    simp only [Conserved] at hconserved
    calc noted.taken + step.takes w
        = w.deleted + w.owned + step.takes w + noted.released := by
          rw [hconserved]
          ac_rfl
      _ = after.deleted + after.owned + step.gives w + noted.released := by
          rw [hspec]
      _ = after.deleted + (noted.released + step.gives w) + after.owned := by
          ac_rfl
  · rfl

/-- A handle that is copied, and one that is moved and leaves zero. -/
def copiedHandle : MemberType Nat := ⟨false, id, fun _ source => source⟩

def movedHandle : MemberType Nat := ⟨true, fun _ => 0, fun _ _ => 0⟩

/-- A resource whose new owner cannot copy the deleter, and one that another
takes the place of. -/
example : (Runs.run (Runs.observe
      (ResourceWorld.step movedHandle copiedHandle) noteCustody)
    (ResourceWorld.start, ⟨0, 0⟩)
    [.construct 1 10 none, .moveConstruct 0 (some .deleter),
      .resetTo 0 2 none, .construct 3 20 none, .moveAssign 1 0,
      .makeUniqueResourceChecked 0 0 30 none, .destroy 2,
      .destroy 1, .destroy 0]).map (fun s => s.1.deleted) =
    some [(10, 1), (20, 3), (10, 2)] := by decide

/-- A deleter moved out of an object is not there for what it is given next. -/
example : (Runs.run (Runs.observe
      (ResourceWorld.step copiedHandle movedHandle) noteCustody)
    (ResourceWorld.start, ⟨0, 0⟩)
    [.construct 1 10 none, .moveConstruct 0 none, .resetTo 0 2 none,
      .destroy 1, .destroy 0]).map (fun s => s.1.deleted) =
    some [(10, 1), (0, 2)] := by decide

/-- A copy that throws into a member that moves without throwing. -/
example : (ResourceWorld.start : ResourceWorld Nat Nat).construct movedHandle
    copiedHandle 1 10 (some .resource) = none := rfl

end Saigon
