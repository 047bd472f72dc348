/-
`message_event` of `message_event.cpp`: objects by address, and of the
operating system the live windows with the address in their `GWLP_USERDATA`
and the registered classes.  What the system may answer is an argument of each
operation.  Using an object that is not alive or calling through a null
`mParent` is undefined behaviour, and the operation returns `none`.
-/
import Mathlib.Logic.Function.Basic

namespace Saigon

/-- The members of a `message_event`; `none` is the null pointer. -/
structure MessageEvent (HWND HINSTANCE Procedure : Type) where
  mHwnd : Option HWND
  mHinst : Option HINSTANCE
  mClassName : String
  mParent : Option Procedure
deriving DecidableEq

/-- A live window and its `GWLP_USERDATA`, zero until it is set. -/
structure Window (Object : Type) where
  userData : Option Object
deriving DecidableEq

/-- What `procedure_callback` distinguishes of a message: `WM_NCCREATE`
carries the last argument of `CreateWindowEx`. -/
inductive Message (Object : Type) where
  | ncCreate (createParams : Option Object)
  | other

/-- How `CreateWindowEx` may end: without sending `WM_NCCREATE`, after sending
it to a window that does not come to be, or with a window.  `messages` counts
what it sends to the window between `WM_NCCREATE` and its return. -/
inductive Creation (HWND : Type) where
  | unavailable
  | refused (hwnd : HWND) (messages : Nat)
  | created (hwnd : HWND) (messages : Nat)

/-- What the system answers to the calls of `register_window_class`. -/
structure Registration (HWND HINSTANCE : Type) where
  moduleHandle : Option HINSTANCE
  classGranted : Bool
  creation : Creation HWND
  classReleased : Bool

/-- What the system answers to the calls of `unregister_window_class`. -/
structure Teardown where
  windowDestroyed : Bool
  classReleased : Bool

/-- The call a thrown `std::system_error` reports. -/
inductive RegisterError where
  | getModuleHandle
  | registerClass
  | createWindowEx
deriving DecidableEq

/-- The text of the error, up to the file and line. -/
def RegisterError.text : RegisterError → String
  | .getModuleHandle => "Failed to call GetModuleHandleA. "
  | .registerClass => "Failed to call RegisterClassA. "
  | .createWindowEx => "Failed to call CreateWindowExA. "

/-- Live objects, live windows and registered classes. -/
structure World (Object HWND HINSTANCE Procedure : Type) where
  objects : Object → Option (MessageEvent HWND HINSTANCE Procedure)
  windows : HWND → Option (Window Object)
  classes : String × HINSTANCE → Bool

variable {Object HWND HINSTANCE Procedure : Type}

namespace MessageEvent

/-- The constructor, whose argument is not null. -/
def construct (parent : Procedure) : MessageEvent HWND HINSTANCE Procedure where
  mHwnd := none
  mHinst := none
  mClassName := ""
  mParent := some parent

/-- The member initialisers of the move constructor. -/
def moveConstruct (other : MessageEvent HWND HINSTANCE Procedure) :
    MessageEvent HWND HINSTANCE Procedure where
  mHwnd := other.mHwnd
  mHinst := other.mHinst
  mClassName := other.mClassName
  mParent := other.mParent

/-- What the exchanges of a move leave in `other`. -/
def movedFrom : MessageEvent HWND HINSTANCE Procedure where
  mHwnd := none
  mHinst := none
  mClassName := ""
  mParent := none

/-- `procedure` calls through `mParent`. -/
def procedure (e : MessageEvent HWND HINSTANCE Procedure) :
    Option Procedure := e.mParent

end MessageEvent

namespace World

/-- No object, no window, no class. -/
def initial : World Object HWND HINSTANCE Procedure where
  objects := fun _ => none
  windows := fun _ => none
  classes := fun _ => false

variable [DecidableEq Object] [DecidableEq HWND] [DecidableEq HINSTANCE]

def setObject (w : World Object HWND HINSTANCE Procedure) (this : Object)
    (e : Option (MessageEvent HWND HINSTANCE Procedure)) :
    World Object HWND HINSTANCE Procedure :=
  { w with objects := Function.update w.objects this e }

def setWindow (w : World Object HWND HINSTANCE Procedure) (hwnd : HWND)
    (window : Option (Window Object)) :
    World Object HWND HINSTANCE Procedure :=
  { w with windows := Function.update w.windows hwnd window }

def setClass (w : World Object HWND HINSTANCE Procedure)
    (name : String × HINSTANCE) (registered : Bool) :
    World Object HWND HINSTANCE Procedure :=
  { w with classes := Function.update w.classes name registered }

/-- The end of `procedure_callback`: the parent whose procedure ran, or none
where the message went to `DefWindowProc`. -/
def dispatch (w : World Object HWND HINSTANCE Procedure)
    (pThis : Option Object) :
    Option (World Object HWND HINSTANCE Procedure × Option Procedure) :=
  match pThis with
  | none => some (w, none)
  | some this => do
      let e ← w.objects this
      let parent ← e.procedure
      some (w, some parent)

def procedureCallback (w : World Object HWND HINSTANCE Procedure)
    (hWnd : HWND) : Message Object →
    Option (World Object HWND HINSTANCE Procedure × Option Procedure)
  | .ncCreate createParams =>
      (w.setWindow hWnd (some ⟨createParams⟩)).dispatch createParams
  | .other => w.dispatch ((w.windows hWnd).bind Window.userData)

/-- Messages the system sends to a window, one after the other. -/
def sendMessages (w : World Object HWND HINSTANCE Procedure) (hwnd : HWND) :
    Nat → Option (World Object HWND HINSTANCE Procedure)
  | 0 => some w
  | messages + 1 => do
      let (w, _) ← w.procedureCallback hwnd .other
      w.sendMessages hwnd messages

/-- `CreateWindowEx` with `this` as its last argument. -/
def createWindowEx (w : World Object HWND HINSTANCE Procedure)
    (this : Object) : Creation HWND →
    Option (World Object HWND HINSTANCE Procedure × Option HWND)
  | .unavailable => some (w, none)
  | .refused hwnd messages => do
      let (w, _) ← (w.setWindow hwnd (some ⟨none⟩)).procedureCallback hwnd
        (.ncCreate (some this))
      let w ← w.sendMessages hwnd messages
      some (w.setWindow hwnd none, none)
  | .created hwnd messages => do
      let (w, _) ← (w.setWindow hwnd (some ⟨none⟩)).procedureCallback hwnd
        (.ncCreate (some this))
      let w ← w.sendMessages hwnd messages
      some (w, some hwnd)

/-- `DestroyWindow` sends its messages to the window before it is gone. -/
def destroyWindow (w : World Object HWND HINSTANCE Procedure) (hwnd : HWND)
    (destroyed : Bool) : Option (World Object HWND HINSTANCE Procedure) :=
  if destroyed then do
    let (w, _) ← w.procedureCallback hwnd .other
    some (w.setWindow hwnd none)
  else some w

def unregisterClass (w : World Object HWND HINSTANCE Procedure)
    (name : String × HINSTANCE) (released : Bool) :
    World Object HWND HINSTANCE Procedure :=
  if released then w.setClass name false else w

/-- `register_window_class` and the error it throws, if it does. -/
def registerWindowClass (w : World Object HWND HINSTANCE Procedure)
    (this : Object) (className : String) (os : Registration HWND HINSTANCE) :
    Option (World Object HWND HINSTANCE Procedure × Option RegisterError) := do
  let e ← w.objects this
  if e.mHwnd.isSome then some (w, none)
  else
    let e := { e with mClassName := className, mHinst := os.moduleHandle }
    match e.mHinst with
    | none => some (w.setObject this (some e), some .getModuleHandle)
    | some mHinst =>
        -- a class already registered is refused whatever the system grants
        if os.classGranted && !w.classes (className, mHinst) then do
          let w := (w.setObject this (some e)).setClass (className, mHinst) true
          let (w, mHwnd) ← w.createWindowEx this os.creation
          match mHwnd with
          | none =>
              let w := w.unregisterClass (className, mHinst) os.classReleased
              some (w.setObject this (some { e with mHinst := none }),
                some .createWindowEx)
          | some hwnd =>
              some (w.setObject this (some { e with mHwnd := some hwnd }), none)
        else
          some (w.setObject this (some { e with mHinst := none }),
            some .registerClass)

def unregisterWindowClass (w : World Object HWND HINSTANCE Procedure)
    (this : Object) (os : Teardown) :
    Option (World Object HWND HINSTANCE Procedure) := do
  let e ← w.objects this
  let w ← match e.mHwnd with
    | some hwnd => w.destroyWindow hwnd os.windowDestroyed
    | none => some w
  let w := match e.mHinst with
    | some mHinst => w.unregisterClass (e.mClassName, mHinst) os.classReleased
    | none => w
  some (w.setObject this (some { e with mHinst := none, mHwnd := none }))

def construct (w : World Object HWND HINSTANCE Procedure) (this : Object)
    (parent : Procedure) : World Object HWND HINSTANCE Procedure :=
  w.setObject this (some (.construct parent))

/-- Move construction of an object at `this`. -/
def moveConstruct (w : World Object HWND HINSTANCE Procedure)
    (this other : Object) :
    Option (World Object HWND HINSTANCE Procedure) := do
  let e ← w.objects other
  some ((w.setObject this (some e.moveConstruct)).setObject other
    (some .movedFrom))

/-- Move assignment, with the explicit destructor call as what it runs. -/
def moveAssign (w : World Object HWND HINSTANCE Procedure)
    (this other : Object) (os : Teardown) :
    Option (World Object HWND HINSTANCE Procedure) :=
  if this ≠ other then do
    let w ← w.unregisterWindowClass this os
    w.moveConstruct this other
  else some w

/-- Destruction. -/
def destroy (w : World Object HWND HINSTANCE Procedure) (this : Object)
    (os : Teardown) : Option (World Object HWND HINSTANCE Procedure) := do
  let w ← w.unregisterWindowClass this os
  some (w.setObject this none)

end World

/-- What a program does with its objects. -/
inductive Operation (Object HWND HINSTANCE Procedure : Type) where
  | construct (this : Object) (parent : Procedure)
  | register (this : Object) (className : String)
      (os : Registration HWND HINSTANCE)
  | unregister (this : Object) (os : Teardown)
  | moveConstruct (this other : Object)
  | moveAssign (this other : Object) (os : Teardown)
  | destroy (this : Object) (os : Teardown)

variable [DecidableEq Object] [DecidableEq HWND] [DecidableEq HINSTANCE]

/-- One operation. -/
def operate (w : World Object HWND HINSTANCE Procedure) :
    Operation Object HWND HINSTANCE Procedure →
    Option (World Object HWND HINSTANCE Procedure)
  | .construct this parent => some (w.construct this parent)
  | .register this className os =>
      (w.registerWindowClass this className os).map Prod.fst
  | .unregister this os => w.unregisterWindowClass this os
  | .moveConstruct this other => w.moveConstruct this other
  | .moveAssign this other os => w.moveAssign this other os
  | .destroy this os => w.destroy this os

end Saigon
