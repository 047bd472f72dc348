/-
Windows and classes as resources of `message_event` objects.  The operations
are run here without the messages they send, which touch neither resource, so
that an object may also be moved while its window is alive; destroying what is
not alive and unregistering what is not registered is undefined instead.
-/
import Saigon.WindowDispatch
import Saigon.Support.Ownership

namespace Saigon

variable {Object HWND HINSTANCE Procedure : Type}

/-- The class an object has registered. -/
def MessageEvent.registeredClass
    (e : MessageEvent HWND HINSTANCE Procedure) : Option (String × HINSTANCE) :=
  e.mHinst.map fun mHinst => (e.mClassName, mHinst)

namespace World

/-- The window each live object names. -/
def windowNames (w : World Object HWND HINSTANCE Procedure) :
    Object → Option HWND :=
  fun this => (w.objects this).bind MessageEvent.mHwnd

/-- The class each live object names. -/
def classNames (w : World Object HWND HINSTANCE Procedure) :
    Object → Option (String × HINSTANCE) :=
  fun this => (w.objects this).bind MessageEvent.registeredClass

def liveWindows (w : World Object HWND HINSTANCE Procedure) : HWND → Bool :=
  fun hwnd => (w.windows hwnd).isSome

end World

namespace Resources

variable [DecidableEq Object] [DecidableEq HWND] [DecidableEq HINSTANCE]

/-- `CreateWindowEx`; a window that refuses `WM_NCCREATE` does not come to
be. -/
def createWindowEx (w : World Object HWND HINSTANCE Procedure)
    (this : Object) : Creation HWND →
    World Object HWND HINSTANCE Procedure × Option HWND
  | .unavailable => (w, none)
  | .refused _ _ => (w, none)
  | .created hwnd _ => (w.setWindow hwnd (some ⟨some this⟩), some hwnd)

/-- `DestroyWindow` of a live window. -/
def destroyWindow (w : World Object HWND HINSTANCE Procedure) (hwnd : HWND)
    (destroyed : Bool) : Option (World Object HWND HINSTANCE Procedure) :=
  if (w.windows hwnd).isSome then
    some (if destroyed then w.setWindow hwnd none else w)
  else none

/-- `UnregisterClass` of a registered class. -/
def unregisterClass (w : World Object HWND HINSTANCE Procedure)
    (name : String × HINSTANCE) (released : Bool) :
    Option (World Object HWND HINSTANCE Procedure) :=
  if w.classes name then some (w.unregisterClass name released) else none

def registerWindowClass (w : World Object HWND HINSTANCE Procedure)
    (this : Object) (className : String) (os : Registration HWND HINSTANCE) :
    Option (World Object HWND HINSTANCE Procedure × Option RegisterError) := do
  let e ← w.objects this
  if e.mHwnd.isSome then some (w, none)
  else
    let e := { e with mClassName := className, mHinst := os.moduleHandle }
    match e.mHinst with
    | none => some (w.setObject this (some e), some .getModuleHandle)
    | some mHinst =>
        if os.classGranted && !w.classes (className, mHinst) then
          let w := (w.setObject this (some e)).setClass (className, mHinst) true
          match createWindowEx w this os.creation with
          | (w, none) => do
              let w ← unregisterClass w (className, mHinst) os.classReleased
              some (w.setObject this (some { e with mHinst := none }),
                some .createWindowEx)
          | (w, some hwnd) =>
              some (w.setObject this (some { e with mHwnd := some hwnd }), none)
        else
          some (w.setObject this (some { e with mHinst := none }),
            some .registerClass)

def unregisterWindowClass (w : World Object HWND HINSTANCE Procedure)
    (this : Object) (os : Teardown) :
    Option (World Object HWND HINSTANCE Procedure) := do
  let e ← w.objects this
  let w ← match e.mHwnd with
    | some hwnd => destroyWindow w hwnd os.windowDestroyed
    | none => some w
  let w ← match e.mHinst with
    | some mHinst => unregisterClass w (e.mClassName, mHinst) os.classReleased
    | none => some w
  some (w.setObject this (some { e with mHinst := none, mHwnd := none }))

def moveAssign (w : World Object HWND HINSTANCE Procedure)
    (this other : Object) (os : Teardown) :
    Option (World Object HWND HINSTANCE Procedure) :=
  if this ≠ other then do
    let w ← unregisterWindowClass w this os
    w.moveConstruct this other
  else some w

def destroy (w : World Object HWND HINSTANCE Procedure) (this : Object)
    (os : Teardown) : Option (World Object HWND HINSTANCE Procedure) := do
  let w ← unregisterWindowClass w this os
  some (w.setObject this none)

/-- One operation. -/
def operate (w : World Object HWND HINSTANCE Procedure) :
    Operation Object HWND HINSTANCE Procedure →
    Option (World Object HWND HINSTANCE Procedure)
  | .construct this parent => some (w.construct this parent)
  | .register this className os =>
      (registerWindowClass w this className os).map Prod.fst
  | .unregister this os => unregisterWindowClass w this os
  | .moveConstruct this other => w.moveConstruct this other
  | .moveAssign this other os => moveAssign w this other os
  | .destroy this os => destroy w this os

end Resources

/-- `DestroyWindow` and `UnregisterClass` succeed on what the object owns. -/
def Releases : Operation Object HWND HINSTANCE Procedure → Prop
  | .construct _ _ => True
  | .register _ _ os => os.classReleased = true
  | .unregister _ os => os.windowDestroyed = true ∧ os.classReleased = true
  | .moveConstruct _ _ => True
  | .moveAssign _ _ os => os.windowDestroyed = true ∧ os.classReleased = true
  | .destroy _ os => os.windowDestroyed = true ∧ os.classReleased = true

/-- The members after `unregister_window_class`. -/
def MessageEvent.released (e : MessageEvent HWND HINSTANCE Procedure) :
    MessageEvent HWND HINSTANCE Procedure :=
  { e with mHinst := none, mHwnd := none }

/-- An object has a window exactly when it has a class. -/
def MessageEvent.Paired (e : MessageEvent HWND HINSTANCE Procedure) : Prop :=
  e.mHwnd.isSome = e.mHinst.isSome

/-- Windows and classes each belong to exactly one object, and every object
has both or neither. -/
structure Accounted (w : World Object HWND HINSTANCE Procedure) : Prop where
  paired : ∀ this e, w.objects this = some e → e.Paired
  windows : Ownership w.windowNames w.liveWindows
  classes : Ownership w.classNames w.classes

theorem initial_accounted :
    Accounted (World.initial : World Object HWND HINSTANCE Procedure) where
  paired := by
    intro this e he
    contradiction
  windows := Ownership.empty
  classes := Ownership.empty

/-- The object, if there is one, has neither window nor class. -/
def Bare (object : Option (MessageEvent HWND HINSTANCE Procedure)) : Prop :=
  ∀ e, object = some e → e.mHwnd = none ∧ e.mHinst = none

theorem bare_some {e : MessageEvent HWND HINSTANCE Procedure}
    (hhandle : e.mHwnd = none) (hinst : e.mHinst = none) : Bare (some e) := by
  intro e' he'
  cases he'
  exact ⟨hhandle, hinst⟩

namespace Bare

variable {object : Option (MessageEvent HWND HINSTANCE Procedure)}

theorem handle (h : Bare object) : object.bind MessageEvent.mHwnd = none := by
  cases object with
  | none => rfl
  | some e => exact (h e rfl).1

theorem registeredClass (h : Bare object) :
    object.bind MessageEvent.registeredClass = none := by
  cases object with
  | none => rfl
  | some e =>
      rw [Option.bind_some, MessageEvent.registeredClass, (h e rfl).2,
        Option.map_none]

theorem paired (h : Bare object) {e : MessageEvent HWND HINSTANCE Procedure}
    (he : object = some e) : e.Paired := by
  rw [MessageEvent.Paired, (h e he).1, (h e he).2]
  rfl

end Bare

section Update

variable [DecidableEq Object] {w after : World Object HWND HINSTANCE Procedure}
  {this : Object} {object : Option (MessageEvent HWND HINSTANCE Procedure)}
  (hobjects : after.objects = Function.update w.objects this object)
include hobjects

theorem World.windowNames_update : after.windowNames =
    Function.update w.windowNames this (object.bind MessageEvent.mHwnd) := by
  change (fun object => object.bind MessageEvent.mHwnd) ∘ after.objects = _
  rw [hobjects, Function.comp_update]
  rfl

theorem World.classNames_update : after.classNames =
    Function.update w.classNames this
      (object.bind MessageEvent.registeredClass) := by
  change (fun object => object.bind MessageEvent.registeredClass) ∘
    after.objects = _
  rw [hobjects, Function.comp_update]
  rfl

theorem paired_update
    (hpaired : ∀ this e, w.objects this = some e → e.Paired)
    (hobject : ∀ e, object = some e → e.Paired) :
    ∀ this e, after.objects this = some e → e.Paired := by
  intro other e he
  rw [hobjects] at he
  by_cases heq : other = this
  · rw [heq, Function.update_self] at he
    exact hobject e he
  · rw [Function.update_of_ne heq] at he
    exact hpaired other e he

end Update

theorem World.liveWindows_update [DecidableEq HWND]
    {w after : World Object HWND HINSTANCE Procedure} {hwnd : HWND}
    {window : Option (Window Object)}
    (hwindows : after.windows = Function.update w.windows hwnd window) :
    after.liveWindows = Function.update w.liveWindows hwnd window.isSome := by
  change Option.isSome ∘ after.windows = _
  rw [hwindows, Function.comp_update]
  rfl

namespace Accounted

variable [DecidableEq Object]
  {w after : World Object HWND HINSTANCE Procedure} {this : Object}
  {object : Option (MessageEvent HWND HINSTANCE Procedure)}

omit [DecidableEq Object] in
/-- An object without a window has no class either. -/
theorem bare (h : Accounted w) {e : MessageEvent HWND HINSTANCE Procedure}
    (hthis : w.objects this = some e) (hhandle : e.mHwnd = none) :
    Bare (w.objects this) := by
  rw [hthis]
  have hpaired := h.paired this e hthis
  rw [MessageEvent.Paired, hhandle, Option.isSome_none, eq_comm,
    absent_iff] at hpaired
  exact bare_some hhandle hpaired

/-- Objects that own nothing come and go. -/
theorem replace (h : Accounted w) (hbefore : Bare (w.objects this))
    (hafter : Bare object)
    (hobjects : after.objects = Function.update w.objects this object)
    (hwindows : after.windows = w.windows)
    (hclasses : after.classes = w.classes) : Accounted after := by
  constructor
  case paired =>
    exact paired_update hobjects h.paired fun e he => hafter.paired he
  case windows =>
    have hnone : w.windowNames this = none := hbefore.handle
    have hlive : after.liveWindows = w.liveWindows := by
      funext hwnd
      simp only [World.liveWindows, hwindows]
    rw [World.windowNames_update hobjects, hafter.handle,
      Ownership.update_none hnone, hlive]
    exact h.windows
  case classes =>
    have hnone : w.classNames this = none := hbefore.registeredClass
    rw [World.classNames_update hobjects, hafter.registeredClass,
      Ownership.update_none hnone, hclasses]
    exact h.classes

variable [DecidableEq HWND] [DecidableEq HINSTANCE]

/-- A window and a class are acquired together. -/
theorem acquire (h : Accounted w) (hbefore : Bare (w.objects this))
    {e : MessageEvent HWND HINSTANCE Procedure} {hwnd : HWND}
    {mHinst : HINSTANCE} {window : Window Object}
    (hhandle : e.mHwnd = some hwnd) (hinst : e.mHinst = some mHinst)
    (hwindow : w.windows hwnd = none)
    (hclass : w.classes (e.mClassName, mHinst) = false)
    (hobjects : after.objects = Function.update w.objects this (some e))
    (hwindows : after.windows = Function.update w.windows hwnd (some window))
    (hclasses : after.classes =
      Function.update w.classes (e.mClassName, mHinst) true) :
    Accounted after := by
  constructor
  case paired =>
    apply paired_update hobjects h.paired
    intro e' he'
    cases he'
    rw [MessageEvent.Paired, hhandle, hinst]
    rfl
  case windows =>
    have hfree : w.liveWindows hwnd = false := by
      rw [World.liveWindows, hwindow]
      rfl
    rw [World.windowNames_update hobjects, Option.bind_some, hhandle,
      World.liveWindows_update hwindows]
    exact h.windows.adopt hbefore.handle hfree
  case classes =>
    rw [World.classNames_update hobjects, Option.bind_some,
      MessageEvent.registeredClass, hinst, Option.map_some, hclasses]
    exact h.classes.adopt hbefore.registeredClass hclass

/-- A window and a class are released together. -/
theorem release (h : Accounted w) {e : MessageEvent HWND HINSTANCE Procedure}
    (hthis : w.objects this = some e) {hwnd : HWND} {mHinst : HINSTANCE}
    (hhandle : e.mHwnd = some hwnd) (hinst : e.mHinst = some mHinst)
    (hafter : Bare object)
    (hobjects : after.objects = Function.update w.objects this object)
    (hwindows : after.windows = Function.update w.windows hwnd none)
    (hclasses : after.classes =
      Function.update w.classes (e.mClassName, mHinst) false) :
    Accounted after := by
  constructor
  case paired =>
    exact paired_update hobjects h.paired fun e he => hafter.paired he
  case windows =>
    have hname : w.windowNames this = some hwnd := by
      rw [World.windowNames, hthis, Option.bind_some, hhandle]
    rw [World.windowNames_update hobjects, hafter.handle,
      World.liveWindows_update hwindows]
    exact h.windows.release hname
  case classes =>
    have hname : w.classNames this = some (e.mClassName, mHinst) := by
      rw [World.classNames, hthis, Option.bind_some,
        MessageEvent.registeredClass, hinst, Option.map_some]
    rw [World.classNames_update hobjects, hafter.registeredClass, hclasses]
    exact h.classes.release hname

/-- A move passes on what `other` owns to an object that owns nothing. -/
theorem moveConstruct (h : Accounted w) {other : Object}
    {e : MessageEvent HWND HINSTANCE Procedure}
    (hbefore : Bare (w.objects this)) (hother : w.objects other = some e) :
    ∃ after, w.moveConstruct this other = some after ∧ Accounted after := by
  let taken := w.setObject this (some e.moveConstruct)
  have hmove : w.moveConstruct this other =
      some (taken.setObject other (some .movedFrom)) := by
    rw [World.moveConstruct, hother]
    rfl
  have htaken : taken.objects =
      Function.update w.objects this (some e.moveConstruct) := rfl
  have hafter : (taken.setObject other (some .movedFrom)).objects =
      Function.update taken.objects other (some .movedFrom) := rfl
  refine ⟨_, hmove, ?_, ?_, ?_⟩
  · have hpaired := h.paired other e hother
    apply paired_update hafter (paired_update htaken h.paired _)
    · intro e' he'
      cases he'
      rfl
    · intro e' he'
      cases he'
      exact hpaired
  · have hnone : w.windowNames this = none := hbefore.handle
    have hgive : w.windowNames other = e.mHwnd := by
      rw [World.windowNames, hother, Option.bind_some]
    rw [World.windowNames_update hafter, World.windowNames_update htaken]
    have htransfer := h.windows.transfer other hnone
    rw [hgive] at htransfer
    exact htransfer
  · have hnone : w.classNames this = none := hbefore.registeredClass
    have hgive : w.classNames other = e.registeredClass := by
      rw [World.classNames, hother, Option.bind_some]
    rw [World.classNames_update hafter, World.classNames_update htaken]
    have htransfer := h.classes.transfer other hnone
    rw [hgive] at htransfer
    exact htransfer

/-- `unregister_window_class` releases what the object owns, which is there to
be released. -/
theorem unregister (h : Accounted w)
    {e : MessageEvent HWND HINSTANCE Procedure}
    (hthis : w.objects this = some e) {os : Teardown}
    (hos : os.windowDestroyed = true ∧ os.classReleased = true) :
    ∃ after, Resources.unregisterWindowClass w this os = some after ∧
      Accounted after ∧ Bare (after.objects this) ∧
      ∀ other, other ≠ this → after.objects other = w.objects other := by
  have hbare : Bare (some e.released) := bare_some rfl rfl
  cases hhandle : e.mHwnd with
  | none =>
      have hinst := ((h.bare hthis hhandle) e hthis).2
      refine ⟨w.setObject this (some e.released), ?_, ?_, ?_, ?_⟩
      · simp [Resources.unregisterWindowClass, MessageEvent.released, hthis,
          hhandle, hinst]
      · exact h.replace (h.bare hthis hhandle) hbare rfl rfl rfl
      · rw [World.setObject_self]
        exact hbare
      · intro other hne
        exact World.setObject_of_ne w hne _
  | some hwnd =>
      have hpaired := h.paired this e hthis
      rw [MessageEvent.Paired, hhandle, Option.isSome_some, eq_comm,
        Option.isSome_iff_exists] at hpaired
      obtain ⟨mHinst, hinst⟩ := hpaired
      have hlive : (w.windows hwnd).isSome = true := by
        apply h.windows.owned this
        rw [World.windowNames, hthis, Option.bind_some, hhandle]
      have hclass : w.classes (e.mClassName, mHinst) = true := by
        apply h.classes.owned this
        rw [World.classNames, hthis, Option.bind_some,
          MessageEvent.registeredClass, hinst, Option.map_some]
      refine ⟨((w.setWindow hwnd none).setClass (e.mClassName, mHinst)
        false).setObject this (some e.released), ?_, ?_, ?_, ?_⟩
      · have hkept : (w.setWindow hwnd none).classes (e.mClassName, mHinst) =
            true := hclass
        simp [Resources.unregisterWindowClass, Resources.destroyWindow,
          Resources.unregisterClass, World.unregisterClass,
          MessageEvent.released, hthis, hhandle, hinst, hlive, hkept, hos.1,
          hos.2]
      · exact h.release hthis hhandle hinst hbare rfl rfl rfl
      · rw [World.setObject_self]
        exact hbare
      · intro other hne
        exact World.setObject_of_ne _ hne _

end Accounted

end Saigon
