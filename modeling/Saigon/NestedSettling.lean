/-
The world as it is once the registrations in progress have their windows.
What is done to other objects and other windows commutes with settling, and
an operation takes effect in the settled world at once.
-/
import Saigon.NestedCalls

namespace Saigon

variable {Object HWND HINSTANCE Procedure : Type}
  [DecidableEq Object] [DecidableEq HWND]

/-! ### The registrations in progress as if they had returned -/

namespace PendingCall

/-- `CreateWindowEx` has handed out its window. -/
def settle (w : World Object HWND HINSTANCE Procedure) :
    PendingCall Object HWND → World Object HWND HINSTANCE Procedure
  | .createWindowEx this hwnd =>
      (w.setObject this ((w.objects this).map fun e =>
        { e with mHwnd := some hwnd })).setWindow hwnd (some ⟨some this⟩)
  | .destroyWindow _ _ _ => w
  | .procedure => w

variable (w : World Object HWND HINSTANCE Procedure)
  {call : PendingCall Object HWND} {this : Object} {hwnd : HWND}

theorem settle_objects (hother : call.object ≠ some this) :
    (call.settle w).objects this = w.objects this := by
  cases call with
  | createWindowEx other _ =>
      have hne : this ≠ other := fun heq => hother (heq ▸ rfl)
      exact Function.update_of_ne hne _ _
  | destroyWindow _ _ _ => rfl
  | procedure => rfl

theorem settle_windows (hother : call.handle ≠ some hwnd) :
    (call.settle w).windows hwnd = w.windows hwnd := by
  cases call with
  | createWindowEx _ other =>
      have hne : hwnd ≠ other := fun heq => hother (heq ▸ rfl)
      exact Function.update_of_ne hne _ _
  | destroyWindow _ _ _ => rfl
  | procedure => rfl

theorem settle_setObject (hother : call.object ≠ some this)
    (object : Option (MessageEvent HWND HINSTANCE Procedure)) :
    call.settle (w.setObject this object) =
      (call.settle w).setObject this object := by
  cases call with
  | createWindowEx other _ =>
      have hne : other ≠ this := fun heq => hother (heq ▸ rfl)
      simp only [settle, World.setObject, World.setWindow,
        Function.update_of_ne hne, Function.update_comm hne]
  | destroyWindow _ _ _ => rfl
  | procedure => rfl

theorem settle_setWindow (hother : call.handle ≠ some hwnd)
    (window : Option (Window Object)) :
    call.settle (w.setWindow hwnd window) =
      (call.settle w).setWindow hwnd window := by
  cases call with
  | createWindowEx _ other =>
      have hne : other ≠ hwnd := fun heq => hother (heq ▸ rfl)
      simp only [settle, World.setObject, World.setWindow,
        Function.update_comm hne]
  | destroyWindow _ _ _ => rfl
  | procedure => rfl

theorem settle_setClass [DecidableEq HINSTANCE] (name : String × HINSTANCE)
    (registered : Bool) :
    call.settle (w.setClass name registered) =
      (call.settle w).setClass name registered := by
  cases call <;> rfl

end PendingCall

namespace World

variable (w : World Object HWND HINSTANCE Procedure)
  {calls : List (PendingCall Object HWND)} {this : Object} {hwnd : HWND}

/-- Every `CreateWindowEx` of the stack has handed out its window. -/
def settle (w : World Object HWND HINSTANCE Procedure) :
    List (PendingCall Object HWND) → World Object HWND HINSTANCE Procedure
  | [] => w
  | call :: rest => call.settle (w.settle rest)

theorem settle_objects (hrests : ∀ call ∈ calls, call.object ≠ some this) :
    (w.settle calls).objects this = w.objects this := by
  induction calls with
  | nil => rfl
  | cons call rest ih =>
      obtain ⟨hcall, hrest⟩ := List.forall_mem_cons.mp hrests
      rw [settle, PendingCall.settle_objects _ hcall, ih hrest]

theorem settle_windows (hrests : ∀ call ∈ calls, call.handle ≠ some hwnd) :
    (w.settle calls).windows hwnd = w.windows hwnd := by
  induction calls with
  | nil => rfl
  | cons call rest ih =>
      obtain ⟨hcall, hrest⟩ := List.forall_mem_cons.mp hrests
      rw [settle, PendingCall.settle_windows _ hcall, ih hrest]

@[simp] theorem settle_classes (calls : List (PendingCall Object HWND)) :
    (w.settle calls).classes = w.classes := by
  induction calls with
  | nil => rfl
  | cons call rest ih =>
      cases call <;> exact ih

theorem settle_setObject (hrests : ∀ call ∈ calls, call.object ≠ some this)
    (object : Option (MessageEvent HWND HINSTANCE Procedure)) :
    (w.setObject this object).settle calls =
      (w.settle calls).setObject this object := by
  induction calls with
  | nil => rfl
  | cons call rest ih =>
      obtain ⟨hcall, hrest⟩ := List.forall_mem_cons.mp hrests
      rw [settle, ih hrest, PendingCall.settle_setObject _ hcall, settle]

theorem settle_setWindow (hrests : ∀ call ∈ calls, call.handle ≠ some hwnd)
    (window : Option (Window Object)) :
    (w.setWindow hwnd window).settle calls =
      (w.settle calls).setWindow hwnd window := by
  induction calls with
  | nil => rfl
  | cons call rest ih =>
      obtain ⟨hcall, hrest⟩ := List.forall_mem_cons.mp hrests
      rw [settle, ih hrest, PendingCall.settle_setWindow _ hcall, settle]

theorem settle_setClass [DecidableEq HINSTANCE] (name : String × HINSTANCE)
    (registered : Bool) (calls : List (PendingCall Object HWND)) :
    (w.setClass name registered).settle calls =
      (w.settle calls).setClass name registered := by
  induction calls with
  | nil => rfl
  | cons call rest ih =>
      rw [settle, ih, PendingCall.settle_setClass, settle]

end World

/-! ### What holds while calls are pending -/

namespace PendingCall

/-- Two calls concern different objects and different windows. -/
def Apart (first second : PendingCall Object HWND) : Prop :=
  (∀ this, first.object = some this → second.object ≠ some this) ∧
    ∀ hwnd, first.handle = some hwnd → second.handle ≠ some hwnd

omit [DecidableEq Object] [DecidableEq HWND] in
/-- A call about an object at rest and a window in no call. -/
theorem pairwise_push {calls : List (PendingCall Object HWND)}
    (hapart : calls.Pairwise Apart) {call : PendingCall Object HWND}
    (hobject : ∀ this, call.object = some this →
      ∀ other ∈ calls, other.object ≠ some this)
    (hhandle : ∀ hwnd, call.handle = some hwnd →
      ∀ other ∈ calls, other.handle ≠ some hwnd) :
    (call :: calls).Pairwise Apart := by
  apply List.pairwise_cons.mpr
  refine ⟨?_, hapart⟩
  intro other hother
  exact ⟨fun this hthis => hobject this hthis other hother,
    fun hwnd hmine => hhandle hwnd hmine other hother⟩

/-- The object and the window of a call that has not returned. -/
def Begun (w : World Object HWND HINSTANCE Procedure) :
    PendingCall Object HWND → Prop
  | .createWindowEx this hwnd => ∃ e userData, w.objects this = some e ∧
      e.mHwnd = none ∧ w.windows hwnd = some ⟨userData⟩ ∧
      (userData = none ∨ userData = some this)
  | .destroyWindow this hwnd caller => ∃ e, w.objects this = some e ∧
      e.mHwnd = some hwnd ∧ w.windows hwnd = some ⟨some this⟩ ∧
      caller ≠ .moveAssign this
  | .procedure => True

variable {w after : World Object HWND HINSTANCE Procedure}
  {call : PendingCall Object HWND} {this : Object} {hwnd : HWND}

omit [DecidableEq Object] [DecidableEq HWND] in
theorem object_of_handle (hhandle : call.handle = some hwnd) :
    ∃ this, call.object = some this := by
  cases call with
  | createWindowEx this _ => exact ⟨this, rfl⟩
  | destroyWindow this _ _ => exact ⟨this, rfl⟩
  | procedure => contradiction

omit [DecidableEq Object] [DecidableEq HWND] in
theorem Begun.congr (h : call.Begun w)
    (hobjects : ∀ this, call.object = some this →
      after.objects this = w.objects this)
    (hwindows : ∀ hwnd, call.handle = some hwnd →
      after.windows hwnd = w.windows hwnd) : call.Begun after := by
  cases call with
  | createWindowEx this hwnd =>
      obtain ⟨e, userData, hthis, hhandle, hwindow, huser⟩ := h
      rw [← hobjects this rfl] at hthis
      rw [← hwindows hwnd rfl] at hwindow
      exact ⟨e, userData, hthis, hhandle, hwindow, huser⟩
  | destroyWindow this hwnd caller =>
      obtain ⟨e, hthis, hhandle, hwindow, hcaller⟩ := h
      rw [← hobjects this rfl] at hthis
      rw [← hwindows hwnd rfl] at hwindow
      exact ⟨e, hthis, hhandle, hwindow, hcaller⟩
  | procedure => trivial

omit [DecidableEq HWND] in
theorem Begun.setObject (h : call.Begun w) (hother : call.object ≠ some this)
    (object : Option (MessageEvent HWND HINSTANCE Procedure)) :
    call.Begun (w.setObject this object) := by
  apply h.congr
  · intro other hobject
    have hne : other ≠ this := by
      rintro rfl
      exact hother hobject
    exact World.setObject_of_ne w hne object
  · intro hwnd _
    rfl

omit [DecidableEq Object] in
theorem Begun.setWindow (h : call.Begun w) (hother : call.handle ≠ some hwnd)
    (window : Option (Window Object)) : call.Begun (w.setWindow hwnd window) := by
  apply h.congr
  · intro this _
    rfl
  · intro other hhandle
    have hne : other ≠ hwnd := by
      rintro rfl
      exact hother hhandle
    exact Function.update_of_ne hne _ _

omit [DecidableEq Object] [DecidableEq HWND] in
theorem Begun.setClass [DecidableEq HINSTANCE] (h : call.Begun w)
    (name : String × HINSTANCE) (registered : Bool) :
    call.Begun (w.setClass name registered) :=
  h.congr (fun _ _ => rfl) fun _ _ => rfl

omit [DecidableEq Object] [DecidableEq HWND] in
theorem Begun.alive (h : call.Begun w) (hobject : call.object = some this) :
    (w.objects this).isSome = true := by
  cases call with
  | createWindowEx other hwnd =>
      obtain ⟨e, userData, hother, _⟩ := h
      cases hobject
      rw [hother]
      rfl
  | destroyWindow other hwnd caller =>
      obtain ⟨e, hother, _⟩ := h
      cases hobject
      rw [hother]
      rfl
  | procedure => contradiction

omit [DecidableEq Object] [DecidableEq HWND] in
/-- A window that comes or goes is there. -/
theorem Begun.live (h : call.Begun w) (hhandle : call.handle = some hwnd) :
    (w.windows hwnd).isSome = true := by
  cases call with
  | createWindowEx this other =>
      obtain ⟨e, userData, _, _, hwindow, _⟩ := h
      cases hhandle
      rw [hwindow]
      rfl
  | destroyWindow this other caller =>
      obtain ⟨e, _, _, hwindow, _⟩ := h
      cases hhandle
      rw [hwindow]
      rfl
  | procedure => contradiction

/-- What the call leads to when it settles: its object names its window, and
the window leads back. -/
theorem Begun.settle (h : call.Begun w) (hobject : call.object = some this)
    (hhandle : call.handle = some hwnd) {base : World Object HWND HINSTANCE Procedure}
    (hthis : base.objects this = w.objects this)
    (hwindow : base.windows hwnd = w.windows hwnd) :
    ∃ e, w.objects this = some e ∧
      call.settle base = (base.setObject this
        (some { e with mHwnd := some hwnd })).setWindow hwnd
          (some ⟨some this⟩) := by
  cases call with
  | createWindowEx other other' =>
      obtain ⟨e, userData, hother, _, _, _⟩ := h
      cases hobject
      cases hhandle
      refine ⟨e, hother, ?_⟩
      rw [PendingCall.settle, hthis, hother, Option.map_some]
  | destroyWindow other other' caller =>
      obtain ⟨e, hother, hmine, hopen, _⟩ := h
      cases hobject
      cases hhandle
      refine ⟨e, hother, ?_⟩
      have hsame : ({ e with mHwnd := some hwnd } :
          MessageEvent HWND HINSTANCE Procedure) = e := by
        rw [← hmine]
      rw [hsame, ← hother, ← hthis, ← hopen, ← hwindow, World.setObject,
        Function.update_eq_self, World.setWindow, Function.update_eq_self]
      rfl
  | procedure => contradiction

end PendingCall

namespace World

variable {w : World Object HWND HINSTANCE Procedure}
  {calls : List (PendingCall Object HWND)} {call : PendingCall Object HWND}
  {this : Object} {hwnd : HWND}

theorem settle_createWindowEx (w : World Object HWND HINSTANCE Procedure)
    (rest : List (PendingCall Object HWND)) (this : Object) (hwnd : HWND) :
    (w.settle (.createWindowEx this hwnd :: rest)).objects this =
      ((w.settle rest).objects this).map fun e => { e with mHwnd := some hwnd } :=
  Function.update_self _ _ _

/-- Settling changes nothing of an object but its window. -/
theorem of_settle_objects {e' : MessageEvent HWND HINSTANCE Procedure}
    (hthis : (w.settle calls).objects this = some e') :
    ∃ e, w.objects this = some e ∧ e' = { e with mHwnd := e'.mHwnd } := by
  induction calls generalizing e' with
  | nil => exact ⟨e', hthis, rfl⟩
  | cons call rest ih =>
      cases call with
      | createWindowEx other hwnd =>
          by_cases heq : this = other
          · subst heq
            rw [settle_createWindowEx] at hthis
            obtain ⟨e, he, rfl⟩ := Option.map_eq_some_iff.mp hthis
            obtain ⟨e₀, he₀, hsame⟩ := ih he
            exact ⟨e₀, he₀, by rw [hsame]⟩
          · have hrest : (w.settle (.createWindowEx other hwnd :: rest)).objects
                this = (w.settle rest).objects this :=
              Function.update_of_ne heq _ _
            rw [hrest] at hthis
            exact ih hthis
      | destroyWindow _ _ _ => exact ih hthis
      | procedure => exact ih hthis

/-- A window that is named after settling was named, or is being created. -/
theorem of_settle_windowNames
    (hnames : (w.settle calls).windowNames this = some hwnd) :
    w.windowNames this = some hwnd ∨
      .createWindowEx this hwnd ∈ calls := by
  induction calls with
  | nil => exact Or.inl hnames
  | cons call rest ih =>
      have hrest : (w.settle rest).windowNames this = some hwnd →
          w.windowNames this = some hwnd ∨
            .createWindowEx this hwnd ∈ call :: rest :=
        fun hnames => (ih hnames).imp_right (List.mem_cons_of_mem call)
      cases call with
      | createWindowEx other hwnd' =>
          by_cases heq : this = other
          · subst heq
            right
            rw [windowNames, settle_createWindowEx, Option.bind_map] at hnames
            obtain ⟨e, _, hmine⟩ := Option.bind_eq_some_iff.mp hnames
            rw [← Option.some.inj hmine]
            exact List.mem_cons_self
          · apply hrest
            rw [← hnames]
            exact congrArg (Option.bind · MessageEvent.mHwnd)
              (Function.update_of_ne heq _ _).symm
      | destroyWindow _ _ _ => exact hrest hnames
      | procedure => exact hrest hnames

/-- Only an object without a window has one created. -/
theorem settle_windowNames (hbegun : ∀ call ∈ calls, call.Begun w)
    (hnames : w.windowNames this = some hwnd) :
    (w.settle calls).windowNames this = some hwnd := by
  induction calls with
  | nil => exact hnames
  | cons call rest ih =>
      obtain ⟨hcall, hrest⟩ := List.forall_mem_cons.mp hbegun
      cases call with
      | createWindowEx other hwnd' =>
          obtain ⟨e, _, hother, hidle, _⟩ := hcall
          have hne : this ≠ other := by
            rintro rfl
            rw [windowNames, hother, Option.bind_some, hidle] at hnames
            contradiction
          rw [← ih hrest]
          exact congrArg (Option.bind · MessageEvent.mHwnd)
            (Function.update_of_ne hne _ _)
      | destroyWindow _ _ _ => exact ih hrest
      | procedure => exact ih hrest

/-- In particular not its class. -/
theorem settle_classNames (calls : List (PendingCall Object HWND)) :
    (w.settle calls).classNames = w.classNames := by
  induction calls with
  | nil => rfl
  | cons call rest ih =>
      rw [settle, ← ih]
      cases call with
      | createWindowEx other hwnd =>
          funext this
          by_cases heq : this = other
          · subst heq
            have hself := w.settle_createWindowEx rest this hwnd
            rw [settle] at hself
            rw [classNames, hself, Option.bind_map]
            rfl
          · rw [classNames, classNames]
            congr 1
            exact Function.update_of_ne heq _ _
      | destroyWindow _ _ _ => rfl
      | procedure => rfl

theorem settle_procedures (hcalls : ∀ call ∈ calls, call = .procedure) :
    w.settle calls = w := by
  induction calls with
  | nil => rfl
  | cons call rest ih =>
      obtain ⟨hcall, hrest⟩ := List.forall_mem_cons.mp hcalls
      rw [settle, hcall]
      exact ih hrest

/-- Settling keeps the user data there is. -/
theorem settle_userData (hbegun : ∀ call ∈ calls, call.Begun w)
    (hwindow : w.windows hwnd = some ⟨some this⟩) :
    (w.settle calls).windows hwnd = some ⟨some this⟩ := by
  induction calls with
  | nil => exact hwindow
  | cons call rest ih =>
      obtain ⟨hcall, hrest⟩ := List.forall_mem_cons.mp hbegun
      cases call with
      | createWindowEx owner other =>
          by_cases heq : hwnd = other
          · subst heq
            obtain ⟨e, userData, _, _, hmine, huser⟩ := hcall
            rw [hwindow, Option.some.injEq, Window.mk.injEq] at hmine
            rcases huser with hnone | hsome
            · rw [hnone] at hmine
              contradiction
            · rw [hmine, hsome]
              exact Function.update_self _ _ _
          · rw [← ih hrest]
            exact Function.update_of_ne heq _ _
      | destroyWindow _ _ _ => exact ih hrest
      | procedure => exact ih hrest

/-- An object with a call pending, and the window of the call. -/
theorem settle_of_mem (hapart : calls.Pairwise PendingCall.Apart)
    (hbegun : ∀ call ∈ calls, call.Begun w) (hcall : call ∈ calls)
    (hobject : call.object = some this) (hhandle : call.handle = some hwnd) :
    ∃ e, w.objects this = some e ∧
      (w.settle calls).objects this = some { e with mHwnd := some hwnd } ∧
      (w.settle calls).windows hwnd = some ⟨some this⟩ := by
  induction calls with
  | nil => contradiction
  | cons first rest ih =>
      obtain ⟨hfirst, hrest⟩ := List.pairwise_cons.mp hapart
      rcases List.mem_cons.mp hcall with rfl | hlater
      · have hobjects : (w.settle rest).objects this = w.objects this :=
          w.settle_objects fun other hother =>
            (hfirst other hother).1 this hobject
        have hwindows : (w.settle rest).windows hwnd = w.windows hwnd :=
          w.settle_windows fun other hother =>
            (hfirst other hother).2 hwnd hhandle
        obtain ⟨e, hthis, hsettle⟩ := (hbegun call List.mem_cons_self).settle
          hobject hhandle hobjects hwindows
        refine ⟨e, hthis, ?_, ?_⟩
        · rw [settle, hsettle]
          exact Function.update_self _ _ _
        · rw [settle, hsettle]
          exact Function.update_self _ _ _
      · obtain ⟨e, hthis, hnamed, hopen⟩ := ih hrest
          (fun other hother => hbegun other (List.mem_cons_of_mem _ hother))
          hlater
        have hother : first.object ≠ some this := fun heq =>
          (hfirst call hlater).1 this heq hobject
        have hapart' : first.handle ≠ some hwnd := fun heq =>
          (hfirst call hlater).2 hwnd heq hhandle
        refine ⟨e, hthis, ?_, ?_⟩
        · rw [settle, PendingCall.settle_objects _ hother, hnamed]
        · rw [settle, PendingCall.settle_windows _ hapart', hopen]

end World

/-! ### The operations that take effect -/

section Effects

variable [DecidableEq HINSTANCE] {w : World Object HWND HINSTANCE Procedure}
  {this : Object} {hwnd : HWND}

/-- An operation that keeps owners and releases what it gives up. -/
def Proper (w : World Object HWND HINSTANCE Procedure)
    (op : Operation Object HWND HINSTANCE Procedure) : Prop :=
  Admissible w op ∧ KeepsOwner w op ∧ Releases op

theorem Proper.keeps {op : Operation Object HWND HINSTANCE Procedure}
    {after : World Object HWND HINSTANCE Procedure}
    (hproper : Proper w op) (howned : Owned w.objects w.windows)
    (haccounted : Accounted w) (hstep : operate w op = some after) :
    Owned after.objects after.windows ∧ Accounted after := by
  obtain ⟨hgiven, hkeeps, hreleases⟩ := hproper
  constructor
  · obtain ⟨next, hnext, hafter⟩ := operate_owned w op howned hgiven hkeeps
    rw [hstep, Option.some.injEq] at hnext
    exact hnext ▸ hafter
  · obtain ⟨next, hnext, hafter⟩ := haccounted.operate op hgiven hreleases
    rw [haccounted.operate_of_operate hgiven hreleases hstep,
      Option.some.injEq] at hnext
    exact hnext ▸ hafter

/-- The operation that unregisters for the caller. -/
def Caller.operation (this : Object) (os : Teardown) :
    Caller Object → Operation Object HWND HINSTANCE Procedure
  | .program => .unregister this os
  | .destructor => .destroy this os
  | .moveAssign other => .moveAssign this other os

theorem operate_caller {caller : Caller Object}
    (hcaller : caller ≠ .moveAssign this) (os : Teardown) :
    operate w (caller.operation this os) =
      (w.unregisterWindowClass this os).bind fun w => caller.resume w this := by
  cases caller with
  | program =>
      rw [Caller.operation, operate]
      exact (Option.bind_fun_some _).symm
  | destructor => rfl
  | moveAssign other =>
      have hne : this ≠ other := by
        rintro rfl
        exact hcaller rfl
      rw [Caller.operation, operate, World.moveAssign, if_pos hne]
      rfl

/-- A registration that hands out its window. -/
theorem operate_register {e : MessageEvent HWND HINSTANCE Procedure}
    (hthis : w.objects this = some e) (hhandle : e.mHwnd = none)
    {parent : Procedure} (hparent : e.mParent = some parent)
    {className : String} {mHinst : HINSTANCE} {classGranted : Bool}
    (hgranted : (classGranted && !w.classes (className, mHinst)) = true) :
    operate w (.register this className
        ⟨some mHinst, classGranted, .created hwnd 0, true⟩) =
      some (((w.setClass (className, mHinst) true).setObject this
        (some ⟨some hwnd, some mHinst, className, e.mParent⟩)).setWindow hwnd
          (some ⟨some this⟩)) := by
  have hstart : (w.classRegistered this e className mHinst).objects this =
      some (World.named e className (some mHinst)) := Function.update_self _ _ _
  rw [operate, World.register_granted hthis hhandle rfl hgranted,
    World.createWindowEx_created hstart]
  simp [World.classRegistered, World.named, World.setObject, World.setClass,
    World.setWindow, hparent]

/-- Unregistering an object with a window and a class. -/
theorem unregister_open (howned : Owned w.objects w.windows)
    {e : MessageEvent HWND HINSTANCE Procedure}
    (hthis : w.objects this = some e) (hhandle : e.mHwnd = some hwnd)
    {mHinst : HINSTANCE} (hinst : e.mHinst = some mHinst) :
    w.unregisterWindowClass this ⟨true, true⟩ =
      some (((w.setWindow hwnd none).setClass (e.mClassName, mHinst)
        false).setObject this (some e.released)) := by
  rw [World.unregister_eq howned hthis]
  simp [World.unregistered, World.setWindow, World.setClass, World.setObject,
    MessageEvent.released, hhandle, hinst]

/-- Unregistering an object with neither. -/
theorem unregister_bare (howned : Owned w.objects w.windows)
    {e : MessageEvent HWND HINSTANCE Procedure}
    (hthis : w.objects this = some e) (hhandle : e.mHwnd = none)
    (hinst : e.mHinst = none) (os : Teardown) :
    w.unregisterWindowClass this os =
      some (w.setObject this (some e.released)) := by
  rw [World.unregister_eq howned hthis]
  simp [World.unregistered, World.setObject, MessageEvent.released, hhandle,
    hinst]

end Effects

/-! ### The classes of the windows -/

/-- A window has the class that its object registered, and only windows have
one. -/
structure Classed (windowClass : HWND → Option (String × HINSTANCE))
    (w : World Object HWND HINSTANCE Procedure) : Prop where
  named : ∀ this e hwnd, w.objects this = some e → e.mHwnd = some hwnd →
    windowClass hwnd = e.registeredClass
  unnamed : ∀ hwnd, w.windows hwnd = none → windowClass hwnd = none

namespace Classed

variable {w : World Object HWND HINSTANCE Procedure} {this : Object}
  {hwnd : HWND} {windowClass : HWND → Option (String × HINSTANCE)}
  {object : Option (MessageEvent HWND HINSTANCE Procedure)}

omit [DecidableEq Object] [DecidableEq HWND] in
theorem congr (h : Classed windowClass w)
    {after : World Object HWND HINSTANCE Procedure}
    (hobjects : after.objects = w.objects)
    (hwindows : after.windows = w.windows) : Classed windowClass after := by
  constructor
  · rw [hobjects]
    exact h.named
  · rw [hwindows]
    exact h.unnamed

omit [DecidableEq HWND] in
theorem update (h : Classed windowClass w) (hafter : Idle object) :
    Classed windowClass (w.setObject this object) := by
  constructor
  · intro other e hwnd hother hhandle
    by_cases heq : other = this
    · rw [heq, World.setObject_self] at hother
      rw [hafter e hother] at hhandle
      contradiction
    · rw [World.setObject_of_ne w heq] at hother
      exact h.named other e hwnd hother hhandle
  · exact h.unnamed

/-- A window is created for an object. -/
theorem adopt (h : Classed windowClass w)
    {e : MessageEvent HWND HINSTANCE Procedure} (hhandle : e.mHwnd = some hwnd)
    (hfree : ∀ other e', w.objects other = some e' → e'.mHwnd ≠ some hwnd)
    (window : Window Object) :
    Classed (Function.update windowClass hwnd e.registeredClass)
      ((w.setObject this (some e)).setWindow hwnd (some window)) := by
  constructor
  · intro other e' hwnd' hother hhandle'
    by_cases heq : other = this
    · rw [heq] at hother
      have hsame := (w.setObject_self this (some e)).symm.trans hother
      rw [Option.some.injEq] at hsame
      rw [← hsame, hhandle, Option.some.injEq] at hhandle'
      rw [← hhandle', ← hsame, Function.update_self]
    · have hother' := (w.setObject_of_ne heq (some e)).symm.trans hother
      have hne : hwnd' ≠ hwnd := by
        rintro rfl
        exact hfree other e' hother' hhandle'
      rw [Function.update_of_ne hne]
      exact h.named other e' hwnd' hother' hhandle'
  · intro hwnd' hnone
    by_cases heq : hwnd' = hwnd
    · have hsome : ((w.setObject this (some e)).setWindow hwnd
          (some window)).windows hwnd' = some window := by
        rw [heq]
        exact Function.update_self _ _ _
      rw [hsome] at hnone
      contradiction
    · rw [Function.update_of_ne heq]
      exact h.unnamed hwnd' ((Function.update_of_ne heq _ _).symm.trans hnone)

/-- The window of an object goes. -/
theorem close (h : Classed windowClass w) (hafter : Idle object)
    (hother : ∀ other e, other ≠ this → w.objects other = some e →
      e.mHwnd ≠ some hwnd) :
    Classed (Function.update windowClass hwnd none)
      ((w.setWindow hwnd none).setObject this object) := by
  constructor
  · intro other e hwnd' hobject hhandle
    by_cases heq : other = this
    · rw [heq, World.setObject_self] at hobject
      rw [hafter e hobject] at hhandle
      contradiction
    · rw [World.setObject_of_ne _ heq] at hobject
      have hne : hwnd' ≠ hwnd := by
        rintro rfl
        exact hother other e heq hobject hhandle
      rw [Function.update_of_ne hne]
      exact h.named other e hwnd' hobject hhandle
  · intro hwnd' hnone
    by_cases heq : hwnd' = hwnd
    · rw [heq, Function.update_self]
    · rw [Function.update_of_ne heq]
      exact h.unnamed hwnd' ((Function.update_of_ne heq _ _).symm.trans hnone)

end Classed

end Saigon
