/-
`message_event` with window procedures that run code of their own.  The system
calls of an operation send messages, and whoever handles one may begin further
operations before the call returns, to any depth.  The calls that have not
returned are a stack; one step is what the program or the system does next.
An exception is caught by the procedure whose operation threw it, and what the
code leaves undefined returns `none`.
-/
import Saigon.ResourceOwnership
import Saigon.Support.Simulation

namespace Saigon

variable {Object HWND HINSTANCE Procedure : Type}

/-- What `unregister_window_class` returns to. -/
inductive Caller (Object : Type) where
  | program
  | destructor
  | moveAssign (other : Object)
deriving DecidableEq

/-- What the caller does then. -/
def Caller.resume [DecidableEq Object]
    (w : World Object HWND HINSTANCE Procedure) (this : Object) :
    Caller Object → Option (World Object HWND HINSTANCE Procedure)
  | .program => some w
  | .destructor => some (w.setObject this none)
  | .moveAssign other => w.moveConstruct this other

/-- An object that is moved from is alive. -/
def Caller.Alive (w : World Object HWND HINSTANCE Procedure) :
    Caller Object → Prop
  | .program => True
  | .destructor => True
  | .moveAssign other => (w.objects other).isSome = true

/-- A call that has not returned: a system call with the object whose member
function made it and the window it is about, or a parent's `procedure`. -/
inductive PendingCall (Object HWND : Type) where
  | createWindowEx (this : Object) (hwnd : HWND)
  | destroyWindow (this : Object) (hwnd : HWND) (caller : Caller Object)
  | procedure
deriving DecidableEq

namespace PendingCall

/-- The object with an operation in progress. -/
def object : PendingCall Object HWND → Option Object
  | .createWindowEx this _ => some this
  | .destroyWindow this _ _ => some this
  | .procedure => none

/-- The window that comes or goes. -/
def handle : PendingCall Object HWND → Option HWND
  | .createWindowEx _ hwnd => some hwnd
  | .destroyWindow _ hwnd _ => some hwnd
  | .procedure => none

end PendingCall

/-- The world, the class each window was created with, and the calls that have
not returned, the innermost first. -/
structure Desktop (Object HWND HINSTANCE Procedure : Type) where
  world : World Object HWND HINSTANCE Procedure
  windowClass : HWND → Option (String × HINSTANCE)
  pending : List (PendingCall Object HWND)

/-- The operations, with what the system answers before it sends a message;
`hwnd` is the handle of the window that `CreateWindowEx` begins with. -/
inductive Command (Object HWND HINSTANCE Procedure : Type) where
  | construct (this : Object) (parent : Procedure)
  | register (this : Object) (className : String)
      (moduleHandle : Option HINSTANCE) (classGranted : Bool) (hwnd : HWND)
  | unregister (this : Object) (classReleased : Bool)
  | moveConstruct (this other : Object)
  | moveAssign (this other : Object) (classReleased : Bool)
  | destroy (this : Object) (classReleased : Bool)

/-- What happens next: the program begins an operation or has a message sent
to a window, a system call sends a message to its window, or the innermost
call returns. -/
inductive Happening (Object HWND HINSTANCE Procedure : Type) where
  | command (command : Command Object HWND HINSTANCE Procedure)
  | message (hwnd : HWND)
  | send (ncCreate : Bool)
  | procedureReturns
  | createWindowExReturns (windowCreated classReleased : Bool)
  | destroyWindowReturns (windowDestroyed classReleased : Bool)

/-- `UnregisterClass` with an instance that may be null.  Which class it would
release then is left open, but it may be refused. -/
def World.unregisterClassOf [DecidableEq HINSTANCE]
    (w : World Object HWND HINSTANCE Procedure) (className : String) :
    Option HINSTANCE → Bool → Option (World Object HWND HINSTANCE Procedure)
  | some mHinst, released =>
      some (w.unregisterClass (className, mHinst) released)
  | none, released => if released then none else some w

namespace Desktop

/-- No object, no window, no class, no call. -/
def initial : Desktop Object HWND HINSTANCE Procedure where
  world := .initial
  windowClass := fun _ => none
  pending := []

/-- The program runs, or a procedure of it. -/
def inProgram (d : Desktop Object HWND HINSTANCE Procedure) : Bool :=
  match d.pending with
  | [] => true
  | .procedure :: _ => true
  | _ => false

variable [DecidableEq Object] [DecidableEq HWND] [DecidableEq HINSTANCE]

/-- `procedure_callback`, up to the call of the parent's procedure. -/
def callback (d : Desktop Object HWND HINSTANCE Procedure) (hWnd : HWND)
    (message : Message Object) :
    Option (Desktop Object HWND HINSTANCE Procedure) := do
  let (w, parent) ← d.world.procedureCallback hWnd message
  match parent with
  | none => some { d with world := w }
  | some _ => some { d with world := w, pending := .procedure :: d.pending }

/-- `register_window_class` up to `CreateWindowEx`. -/
def register (d : Desktop Object HWND HINSTANCE Procedure) (this : Object)
    (className : String) (moduleHandle : Option HINSTANCE)
    (classGranted : Bool) (hwnd : HWND) :
    Option (Desktop Object HWND HINSTANCE Procedure) := do
  let e ← d.world.objects this
  if e.mHwnd.isSome then some d
  else
    let e := { e with mClassName := className, mHinst := moduleHandle }
    match e.mHinst with
    | none => some { d with world := d.world.setObject this (some e) }
    | some mHinst =>
        if classGranted && !d.world.classes (className, mHinst) then
          let w := (d.world.setObject this (some e)).setClass
            (className, mHinst) true
          some {
            world := w.setWindow hwnd (some ⟨none⟩)
            windowClass := Function.update d.windowClass hwnd
              (some (className, mHinst))
            pending := .createWindowEx this hwnd :: d.pending }
        else
          let e := { e with mHinst := none }
          some { d with world := d.world.setObject this (some e) }

/-- The rest of `register_window_class`.  `lpszClassName` points into
`mClassName`, and `mHinst` is null if the object was given up meanwhile. -/
def created (d : Desktop Object HWND HINSTANCE Procedure) (this : Object)
    (hwnd : HWND) (windowCreated classReleased : Bool) :
    Option (Desktop Object HWND HINSTANCE Procedure) := do
  let e ← d.world.objects this
  if windowCreated then
    let e := { e with mHwnd := some hwnd }
    some { d with world := d.world.setObject this (some e) }
  else
    let w ← (d.world.setWindow hwnd none).unregisterClassOf e.mClassName
      e.mHinst classReleased
    let e := { e with mHwnd := none, mHinst := none }
    some { d with
      world := w.setObject this (some e)
      windowClass := Function.update d.windowClass hwnd none }

/-- `unregister_window_class` from `UnregisterClass` on, and its caller. -/
def unregistered (d : Desktop Object HWND HINSTANCE Procedure) (this : Object)
    (caller : Caller Object) (classReleased : Bool) :
    Option (Desktop Object HWND HINSTANCE Procedure) := do
  let e ← d.world.objects this
  let w := match e.mHinst with
    | some mHinst => d.world.unregisterClass (e.mClassName, mHinst) classReleased
    | none => d.world
  let w := w.setObject this (some { e with mHinst := none, mHwnd := none })
  let w ← caller.resume w this
  some { d with world := w }

/-- `unregister_window_class` up to `DestroyWindow`, if it is called. -/
def unregister (d : Desktop Object HWND HINSTANCE Procedure) (this : Object)
    (caller : Caller Object) (classReleased : Bool) :
    Option (Desktop Object HWND HINSTANCE Procedure) := do
  let e ← d.world.objects this
  match e.mHwnd with
  | some hwnd =>
      some { d with pending := .destroyWindow this hwnd caller :: d.pending }
  | none => d.unregistered this caller classReleased

/-- `DestroyWindow` returns. -/
def destroyed (d : Desktop Object HWND HINSTANCE Procedure) (this : Object)
    (hwnd : HWND) (caller : Caller Object)
    (windowDestroyed classReleased : Bool) :
    Option (Desktop Object HWND HINSTANCE Procedure) :=
  if windowDestroyed then
    { d with
      world := d.world.setWindow hwnd none
      windowClass := Function.update d.windowClass hwnd none }.unregistered
        this caller classReleased
  else d.unregistered this caller classReleased

/-- One operation, up to its first system call that sends messages. -/
def begin (d : Desktop Object HWND HINSTANCE Procedure) :
    Command Object HWND HINSTANCE Procedure →
    Option (Desktop Object HWND HINSTANCE Procedure)
  | .construct this parent =>
      some { d with world := d.world.construct this parent }
  | .register this className moduleHandle classGranted hwnd =>
      d.register this className moduleHandle classGranted hwnd
  | .unregister this classReleased => d.unregister this .program classReleased
  | .moveConstruct this other => do
      let w ← d.world.moveConstruct this other
      some { d with world := w }
  | .moveAssign this other classReleased =>
      if this ≠ other then d.unregister this (.moveAssign other) classReleased
      else some d
  | .destroy this classReleased => d.unregister this .destructor classReleased

/-- One step. -/
def step (d : Desktop Object HWND HINSTANCE Procedure) :
    Happening Object HWND HINSTANCE Procedure →
    Option (Desktop Object HWND HINSTANCE Procedure)
  | .command command => if d.inProgram then d.begin command else none
  | .message hwnd => if d.inProgram then d.callback hwnd .other else none
  | .send ncCreate =>
      match d.pending with
      | .createWindowEx this hwnd :: _ =>
          d.callback hwnd (if ncCreate then .ncCreate (some this) else .other)
      | .destroyWindow _ hwnd _ :: _ =>
          if ncCreate then none else d.callback hwnd .other
      | _ => none
  | .procedureReturns =>
      match d.pending with
      | .procedure :: rest => some { d with pending := rest }
      | _ => none
  | .createWindowExReturns windowCreated classReleased =>
      match d.pending with
      | .createWindowEx this hwnd :: rest =>
          { d with pending := rest }.created this hwnd windowCreated
            classReleased
      | _ => none
  | .destroyWindowReturns windowDestroyed classReleased =>
      match d.pending with
      | .destroyWindow this hwnd caller :: rest =>
          { d with pending := rest }.destroyed this hwnd caller windowDestroyed
            classReleased
      | _ => none

/-! ### What is taken for granted, and what is asked for -/

/-- No operation on the object is in progress. -/
def Rests (d : Desktop Object HWND HINSTANCE Procedure) (this : Object) :
    Prop :=
  ∀ call ∈ d.pending, call.object ≠ some this

/-- The object may be moved from: no operation on it is in progress, and it
has no window. -/
def Movable (d : Desktop Object HWND HINSTANCE Procedure) (other : Object) :
    Prop :=
  d.Rests other ∧ ∀ e ∈ d.world.objects other, e.mHwnd.isSome = false

/-- `UnregisterClass` succeeds exactly when the class has no window, the one
just closed apart. -/
def Answers (d : Desktop Object HWND HINSTANCE Procedure)
    (closed : Option HWND) (e : MessageEvent HWND HINSTANCE Procedure)
    (classReleased : Bool) : Prop :=
  ∀ name ∈ e.registeredClass,
    classReleased = true ↔
      ∀ hwnd, d.windowClass hwnd = some name → closed = some hwnd

/-- An object is there to be unregistered, and so is the answer when that
needs no `DestroyWindow`. -/
def MayUnregister (d : Desktop Object HWND HINSTANCE Procedure)
    (this : Object) (classReleased : Bool) : Prop :=
  (d.world.objects this).isSome = true ∧ ∀ e ∈ d.world.objects this,
    e.mHwnd.isSome = false → d.Answers none e classReleased

/-- Objects are constructed at free addresses and used while they are alive,
and the system never hands out the handle of a live window. -/
def Allows (d : Desktop Object HWND HINSTANCE Procedure) :
    Command Object HWND HINSTANCE Procedure → Prop
  | .construct this _ => (d.world.objects this).isSome = false
  | .register this _ _ _ hwnd => (d.world.objects this).isSome = true ∧
      (d.world.windows hwnd).isSome = false
  | .unregister this classReleased => d.MayUnregister this classReleased
  | .moveConstruct this other => (d.world.objects this).isSome = false ∧
      (d.world.objects other).isSome = true
  | .moveAssign this other classReleased =>
      d.MayUnregister this classReleased ∧
        (d.world.objects other).isSome = true
  | .destroy this classReleased => d.MayUnregister this classReleased

/-- What the language and the system allow.  Messages go to live windows,
`CreateWindowEx` hands out no window that was not sent `WM_NCCREATE`, and
`DestroyWindow` destroys a window that is there. -/
def Feasible (d : Desktop Object HWND HINSTANCE Procedure) :
    Happening Object HWND HINSTANCE Procedure → Prop
  | .command command => d.inProgram = true ∧ d.Allows command
  | .message hwnd => d.inProgram = true ∧
      (d.world.windows hwnd).isSome = true
  | .send ncCreate =>
      match d.pending with
      | .createWindowEx _ _ :: _ => True
      | .destroyWindow _ _ _ :: _ => ncCreate = false
      | _ => False
  | .procedureReturns => d.pending.head? = some .procedure
  | .createWindowExReturns windowCreated classReleased =>
      match d.pending with
      | .createWindowEx this hwnd :: _ =>
          (windowCreated = true → d.world.windows hwnd ≠ some ⟨none⟩) ∧
            (windowCreated = false → ∀ e ∈ d.world.objects this,
              d.Answers (some hwnd) e classReleased)
      | _ => False
  | .destroyWindowReturns windowDestroyed classReleased =>
      match d.pending with
      | .destroyWindow this hwnd caller :: _ =>
          windowDestroyed = (d.world.windows hwnd).isSome ∧
            (∀ e ∈ d.world.objects this,
              d.Answers (some hwnd) e classReleased) ∧
            caller.Alive d.world
      | _ => False

/-- What the program has to see to.  It leaves alone an object on which an
operation is in progress, moves from no object that has a window, and has
windows created for objects with a parent only. -/
def Orderly (d : Desktop Object HWND HINSTANCE Procedure) :
    Happening Object HWND HINSTANCE Procedure → Prop
  | .command (.register this className moduleHandle classGranted hwnd) =>
      d.Rests this ∧ KeepsOwner d.world (.register this className
        ⟨moduleHandle, classGranted, .created hwnd 0, true⟩)
  | .command (.unregister this _) => d.Rests this
  | .command (.moveConstruct _ other) => d.Movable other
  | .command (.moveAssign this other _) => this ≠ other → d.Rests this ∧
      ((∀ e ∈ d.world.objects this, e.mHwnd.isSome = false) →
        d.Movable other)
  | .command (.destroy this _) => d.Rests this
  | .destroyWindowReturns _ _ =>
      match d.pending with
      | .destroyWindow _ _ (.moveAssign other) :: _ => d.Movable other
      | _ => True
  | _ => True

/-! ### Evaluation -/

section Decidable

variable {n : Nat} (d : Desktop Object (Fin n) HINSTANCE Procedure)

instance (closed : Option (Fin n)) (e : MessageEvent (Fin n) HINSTANCE Procedure)
    (classReleased : Bool) : Decidable (d.Answers closed e classReleased) :=
  inferInstanceAs (Decidable (∀ name ∈ e.registeredClass,
    (classReleased = true ↔
      ∀ hwnd, d.windowClass hwnd = some name → closed = some hwnd)))

instance (this : Object) (classReleased : Bool) :
    Decidable (d.MayUnregister this classReleased) :=
  inferInstanceAs (Decidable (_ ∧ ∀ e ∈ d.world.objects this,
    e.mHwnd.isSome = false → d.Answers none e classReleased))

instance (this : Object) : Decidable (d.Rests this) :=
  inferInstanceAs (Decidable (∀ call ∈ d.pending, call.object ≠ some this))

instance (other : Object) : Decidable (d.Movable other) :=
  inferInstanceAs (Decidable (d.Rests other ∧
    ∀ e ∈ d.world.objects other, e.mHwnd.isSome = false))

instance : ∀ command, Decidable (d.Allows command)
  | .construct this _ => inferInstanceAs
      (Decidable ((d.world.objects this).isSome = false))
  | .register this _ _ _ hwnd => inferInstanceAs
      (Decidable ((d.world.objects this).isSome = true ∧
        (d.world.windows hwnd).isSome = false))
  | .unregister this classReleased => inferInstanceAs
      (Decidable (d.MayUnregister this classReleased))
  | .moveConstruct this other => inferInstanceAs
      (Decidable ((d.world.objects this).isSome = false ∧
        (d.world.objects other).isSome = true))
  | .moveAssign this other classReleased => inferInstanceAs
      (Decidable (d.MayUnregister this classReleased ∧
        (d.world.objects other).isSome = true))
  | .destroy this classReleased => inferInstanceAs
      (Decidable (d.MayUnregister this classReleased))

instance (w : World Object HWND HINSTANCE Procedure) :
    ∀ caller : Caller Object, Decidable (caller.Alive w)
  | .program => isTrue trivial
  | .destructor => isTrue trivial
  | .moveAssign other => inferInstanceAs
      (Decidable ((w.objects other).isSome = true))

instance : ∀ happening, Decidable (d.Feasible happening)
  | .command command => inferInstanceAs
      (Decidable (d.inProgram = true ∧ d.Allows command))
  | .message hwnd => inferInstanceAs
      (Decidable (d.inProgram = true ∧ (d.world.windows hwnd).isSome = true))
  | .send ncCreate =>
      match d with
      | ⟨_, _, .createWindowEx _ _ :: _⟩ => isTrue trivial
      | ⟨_, _, .destroyWindow _ _ _ :: _⟩ => inferInstanceAs
          (Decidable (ncCreate = false))
      | ⟨_, _, .procedure :: _⟩ => isFalse id
      | ⟨_, _, []⟩ => isFalse id
  | .procedureReturns => inferInstanceAs
      (Decidable (d.pending.head? = some .procedure))
  | .createWindowExReturns windowCreated classReleased =>
      match d with
      | ⟨w, windowClass, .createWindowEx this hwnd :: rest⟩ => inferInstanceAs
          (Decidable ((windowCreated = true → w.windows hwnd ≠ some ⟨none⟩) ∧
            (windowCreated = false → ∀ e ∈ w.objects this, Answers
              ⟨w, windowClass, .createWindowEx this hwnd :: rest⟩ (some hwnd) e
                classReleased)))
      | ⟨_, _, .destroyWindow _ _ _ :: _⟩ => isFalse id
      | ⟨_, _, .procedure :: _⟩ => isFalse id
      | ⟨_, _, []⟩ => isFalse id
  | .destroyWindowReturns windowDestroyed classReleased =>
      match d with
      | ⟨w, windowClass, .destroyWindow this hwnd caller :: rest⟩ =>
          inferInstanceAs (Decidable
            (windowDestroyed = (w.windows hwnd).isSome ∧
              (∀ e ∈ w.objects this, Answers
                ⟨w, windowClass, .destroyWindow this hwnd caller :: rest⟩
                  (some hwnd) e classReleased) ∧ caller.Alive w))
      | ⟨_, _, .createWindowEx _ _ :: _⟩ => isFalse id
      | ⟨_, _, .procedure :: _⟩ => isFalse id
      | ⟨_, _, []⟩ => isFalse id

instance : ∀ happening, Decidable (d.Orderly happening)
  | .command (.construct _ _) => isTrue trivial
  | .command (.register this className moduleHandle classGranted hwnd) =>
      inferInstanceAs (Decidable (d.Rests this ∧ ∀ e ∈ d.world.objects this,
        e.mHwnd.isSome = false → Registration.sendsNcCreate
          ⟨moduleHandle, classGranted, .created hwnd 0, true⟩ d.world
            className = true → e.mParent.isSome = true))
  | .command (.unregister this _) => inferInstanceAs
      (Decidable (d.Rests this))
  | .command (.moveConstruct _ other) => inferInstanceAs
      (Decidable (d.Movable other))
  | .command (.moveAssign this other _) => inferInstanceAs
      (Decidable (this ≠ other → d.Rests this ∧
        ((∀ e ∈ d.world.objects this, e.mHwnd.isSome = false) →
          d.Movable other)))
  | .command (.destroy this _) => inferInstanceAs (Decidable (d.Rests this))
  | .message _ => isTrue trivial
  | .send _ => isTrue trivial
  | .procedureReturns => isTrue trivial
  | .createWindowExReturns _ _ => isTrue trivial
  | .destroyWindowReturns _ _ =>
      match d with
      | ⟨w, windowClass, .destroyWindow this hwnd (.moveAssign other) :: rest⟩ =>
          inferInstanceAs (Decidable (Movable ⟨w, windowClass,
            .destroyWindow this hwnd (.moveAssign other) :: rest⟩ other))
      | ⟨_, _, .destroyWindow _ _ .program :: _⟩ => isTrue trivial
      | ⟨_, _, .destroyWindow _ _ .destructor :: _⟩ => isTrue trivial
      | ⟨_, _, .createWindowEx _ _ :: _⟩ => isTrue trivial
      | ⟨_, _, .procedure :: _⟩ => isTrue trivial
      | ⟨_, _, []⟩ => isTrue trivial

end Decidable

end Desktop

end Saigon
