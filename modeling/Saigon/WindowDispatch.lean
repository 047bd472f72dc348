/-
Ownership of message-only windows is recorded twice: the object's `mHwnd`
names the window and the window's user data names the object.  Registering,
unregistering and destroying keep the two records in step; a move rewrites
the first and leaves the second.
-/
import Saigon.MessageEvent
import Saigon.Support.Runs

namespace Saigon

variable {Object HWND HINSTANCE Procedure : Type}

/-- Every live window leads to a live object that names it and has a parent,
and every window an object names leads back to the object. -/
structure Owned
    (objects : Object → Option (MessageEvent HWND HINSTANCE Procedure))
    (windows : HWND → Option (Window Object)) : Prop where
  owner : ∀ hwnd window, windows hwnd = some window →
    ∃ this e parent, window.userData = some this ∧ objects this = some e ∧
      e.mHwnd = some hwnd ∧ e.mParent = some parent
  owned : ∀ this e hwnd, objects this = some e → e.mHwnd = some hwnd →
    windows hwnd = some ⟨some this⟩

/-- The object, if there is one, names no window. -/
def Idle (object : Option (MessageEvent HWND HINSTANCE Procedure)) : Prop :=
  ∀ e, object = some e → e.mHwnd = none

theorem absent_iff {A : Type} {o : Option A} : o.isSome = false ↔ o = none := by
  rw [Option.isSome_eq_false_iff, Option.isNone_iff_eq_none]

theorem idle_none :
    Idle (none : Option (MessageEvent HWND HINSTANCE Procedure)) := by
  intro e he
  contradiction

theorem idle_some {e : MessageEvent HWND HINSTANCE Procedure}
    (hhandle : e.mHwnd = none) : Idle (some e) := by
  intro e' he'
  rw [← Option.some.inj he', hhandle]

/-- A registration that gets as far as sending `WM_NCCREATE`. -/
def Registration.sendsNcCreate (os : Registration HWND HINSTANCE)
    (w : World Object HWND HINSTANCE Procedure) (className : String) : Bool :=
  match os.moduleHandle, os.creation with
  | none, _ => false
  | some _, .unavailable => false
  | some mHinst, .refused _ _ | some mHinst, .created _ _ =>
      os.classGranted && !w.classes (className, mHinst)

/-- The window the system may hand out. -/
def Creation.handle : Creation HWND → Option HWND
  | .unavailable => none
  | .refused hwnd _ => some hwnd
  | .created hwnd _ => some hwnd

/-- The messages that window is sent before `CreateWindowEx` returns. -/
def Creation.messages : Creation HWND → Nat
  | .unavailable => 0
  | .refused _ messages => messages
  | .created _ messages => messages

/-- Objects are constructed at free addresses and used while they are alive,
and the system never hands out the handle of a live window. -/
def Admissible (w : World Object HWND HINSTANCE Procedure) :
    Operation Object HWND HINSTANCE Procedure → Prop
  | .construct this _ => (w.objects this).isSome = false
  | .register this _ os => (w.objects this).isSome = true ∧
      ∀ hwnd ∈ os.creation.handle, (w.windows hwnd).isSome = false
  | .unregister this _ => (w.objects this).isSome = true
  | .moveConstruct this other => (w.objects this).isSome = false ∧
      (w.objects other).isSome = true
  | .moveAssign this other _ => (w.objects this).isSome = true ∧
      (w.objects other).isSome = true
  | .destroy this _ => (w.objects this).isSome = true

/-- The window of the object, if it has one, is destroyed. -/
def ClosesWindow (w : World Object HWND HINSTANCE Procedure) (this : Object)
    (os : Teardown) : Prop :=
  ∀ e ∈ w.objects this, e.mHwnd.isSome = true → os.windowDestroyed = true

/-- No object that owns a window is moved from, a window is created for an
object with a parent only, and `DestroyWindow` succeeds. -/
def KeepsOwner (w : World Object HWND HINSTANCE Procedure) :
    Operation Object HWND HINSTANCE Procedure → Prop
  | .construct _ _ => True
  | .register this className os => ∀ e ∈ w.objects this,
      e.mHwnd.isSome = false → os.sendsNcCreate w className = true →
        e.mParent.isSome = true
  | .unregister this os => ClosesWindow w this os
  | .moveConstruct _ other => ∀ e ∈ w.objects other, e.mHwnd.isSome = false
  | .moveAssign this other os => this ≠ other → ClosesWindow w this os ∧
      ∀ e ∈ w.objects other, e.mHwnd.isSome = false
  | .destroy this os => ClosesWindow w this os

section Ownership

variable {objects : Object → Option (MessageEvent HWND HINSTANCE Procedure)}
  {windows : HWND → Option (Window Object)}

/-- A window has one owner. -/
theorem Owned.unique (h : Owned objects windows) {first second : Object}
    {e₁ e₂ : MessageEvent HWND HINSTANCE Procedure} {hwnd : HWND}
    (hfirst : objects first = some e₁) (hsecond : objects second = some e₂)
    (hwnd₁ : e₁.mHwnd = some hwnd) (hwnd₂ : e₂.mHwnd = some hwnd) :
    first = second := by
  have hback := h.owned first e₁ hwnd hfirst hwnd₁
  rw [h.owned second e₂ hwnd hsecond hwnd₂] at hback
  simpa [eq_comm] using hback

variable [DecidableEq Object]

/-- Objects that name no window come and go without touching ownership. -/
theorem Owned.update (h : Owned objects windows) {this : Object}
    (hbefore : Idle (objects this))
    {object : Option (MessageEvent HWND HINSTANCE Procedure)}
    (hafter : Idle object) :
    Owned (Function.update objects this object) windows := by
  constructor
  · intro hwnd window hwindow
    obtain ⟨other, e, parent, huser, hother, hhandle, hparent⟩ :=
      h.owner hwnd window hwindow
    have hne : other ≠ this := by
      rintro rfl
      rw [hbefore e hother] at hhandle
      contradiction
    refine ⟨other, e, parent, huser, ?_, hhandle, hparent⟩
    rw [Function.update_of_ne hne, hother]
  · intro other e hwnd hother hhandle
    by_cases heq : other = this
    · subst heq
      rw [Function.update_self] at hother
      rw [hafter e hother] at hhandle
      contradiction
    · rw [Function.update_of_ne heq] at hother
      exact h.owned other e hwnd hother hhandle

variable [DecidableEq HWND]

/-- A new window whose user data is the object that takes its handle. -/
theorem Owned.open (h : Owned objects windows) {this : Object} {hwnd : HWND}
    (hbefore : Idle (objects this)) (hfree : windows hwnd = none)
    {e : MessageEvent HWND HINSTANCE Procedure} {parent : Procedure}
    (hhandle : e.mHwnd = some hwnd) (hparent : e.mParent = some parent) :
    Owned (Function.update objects this (some e))
      (Function.update windows hwnd (some ⟨some this⟩)) := by
  constructor
  · intro other window hwindow
    by_cases heq : other = hwnd
    · subst heq
      rw [Function.update_self, Option.some.injEq] at hwindow
      refine ⟨this, e, parent, ?_, Function.update_self _ _ _, hhandle, hparent⟩
      rw [← hwindow]
    · rw [Function.update_of_ne heq] at hwindow
      obtain ⟨owner, e', parent', huser, howner, hhandle', hparent'⟩ :=
        h.owner other window hwindow
      have hne : owner ≠ this := by
        rintro rfl
        rw [hbefore e' howner] at hhandle'
        contradiction
      refine ⟨owner, e', parent', huser, ?_, hhandle', hparent'⟩
      rw [Function.update_of_ne hne, howner]
  · intro other e' hwnd' hother hhandle'
    by_cases heq : other = this
    · subst heq
      rw [Function.update_self, Option.some.injEq] at hother
      subst hother
      rw [hhandle, Option.some.injEq] at hhandle'
      rw [← hhandle', Function.update_self]
    · rw [Function.update_of_ne heq] at hother
      have hlive := h.owned other e' hwnd' hother hhandle'
      have hne : hwnd' ≠ hwnd := by
        rintro rfl
        rw [hfree] at hlive
        contradiction
      rw [Function.update_of_ne hne, hlive]

/-- The window goes and its owner forgets it. -/
theorem Owned.close (h : Owned objects windows) {this : Object} {hwnd : HWND}
    {e : MessageEvent HWND HINSTANCE Procedure}
    (hthis : objects this = some e) (hhandle : e.mHwnd = some hwnd)
    {object : Option (MessageEvent HWND HINSTANCE Procedure)}
    (hafter : Idle object) :
    Owned (Function.update objects this object)
      (Function.update windows hwnd none) := by
  constructor
  · intro other window hwindow
    by_cases heq : other = hwnd
    · rw [heq, Function.update_self] at hwindow
      contradiction
    · rw [Function.update_of_ne heq] at hwindow
      obtain ⟨owner, e', parent, huser, howner, hhandle', hparent⟩ :=
        h.owner other window hwindow
      have hne : owner ≠ this := by
        rintro rfl
        rw [hthis, Option.some.injEq] at howner
        rw [← howner, hhandle, Option.some.injEq] at hhandle'
        exact heq hhandle'.symm
      refine ⟨owner, e', parent, huser, ?_, hhandle', hparent⟩
      rw [Function.update_of_ne hne, howner]
  · intro other e' hwnd' hother hhandle'
    by_cases heq : other = this
    · subst heq
      rw [Function.update_self] at hother
      rw [hafter e' hother] at hhandle'
      contradiction
    · rw [Function.update_of_ne heq] at hother
      have hne : hwnd' ≠ hwnd := by
        rintro rfl
        exact heq (h.unique hother hthis hhandle' hhandle)
      rw [Function.update_of_ne hne]
      exact h.owned other e' hwnd' hother hhandle'

end Ownership

variable [DecidableEq Object] [DecidableEq HWND] [DecidableEq HINSTANCE]

/-- A message to the window reaches, through `GWLP_USERDATA`, a live object
whose `mHwnd` is that window and whose parent is not null. -/
def FindsOwner (w : World Object HWND HINSTANCE Procedure) (hwnd : HWND)
    (window : Window Object) : Prop :=
  ∃ this e parent, window.userData = some this ∧
    w.objects this = some e ∧ e.mHwnd = some hwnd ∧
    e.mParent = some parent ∧
    w.procedureCallback hwnd .other = some (w, some parent)

/-- A message to any live window finds its owner. -/
def DispatchesToOwner (w : World Object HWND HINSTANCE Procedure) : Prop :=
  ∀ hwnd window, w.windows hwnd = some window → FindsOwner w hwnd window

namespace World

variable {w : World Object HWND HINSTANCE Procedure} {this : Object}
  {e : MessageEvent HWND HINSTANCE Procedure} {hwnd : HWND}

omit [DecidableEq HWND] [DecidableEq HINSTANCE] in
@[simp] theorem setObject_self (w : World Object HWND HINSTANCE Procedure)
    (this : Object) (object : Option (MessageEvent HWND HINSTANCE Procedure)) :
    (w.setObject this object).objects this = object :=
  Function.update_self _ _ _

omit [DecidableEq HWND] [DecidableEq HINSTANCE] in
theorem setObject_of_ne (w : World Object HWND HINSTANCE Procedure)
    {this other : Object} (hne : other ≠ this)
    (object : Option (MessageEvent HWND HINSTANCE Procedure)) :
    (w.setObject this object).objects other = w.objects other :=
  Function.update_of_ne hne _ _

omit [DecidableEq Object] [DecidableEq HINSTANCE] in
@[simp] theorem setWindow_setWindow (w : World Object HWND HINSTANCE Procedure)
    (hwnd : HWND) (first second : Option (Window Object)) :
    (w.setWindow hwnd first).setWindow hwnd second = w.setWindow hwnd second := by
  simp [setWindow, Function.update_idem]

omit [DecidableEq Object] [DecidableEq HWND] [DecidableEq HINSTANCE] in
theorem dispatch_eq {parent : Procedure} (hthis : w.objects this = some e)
    (hparent : e.mParent = some parent) :
    w.dispatch (some this) = some (w, some parent) := by
  simp [dispatch, hthis, MessageEvent.procedure, hparent]

omit [DecidableEq Object] [DecidableEq HINSTANCE] in
theorem dispatchesToOwner (h : Owned w.objects w.windows) :
    DispatchesToOwner w := by
  intro hwnd window hwindow
  obtain ⟨this, e, parent, huser, hthis, hhandle, hparent⟩ :=
    h.owner hwnd window hwindow
  refine ⟨this, e, parent, huser, hthis, hhandle, hparent, ?_⟩
  simpa [procedureCallback, hwindow, huser] using dispatch_eq hthis hparent

omit [DecidableEq Object] [DecidableEq HINSTANCE] in
/-- The callback stores the new window's user data and calls the parent, and
through a null parent it is undefined. -/
theorem procedureCallback_ncCreate (hthis : w.objects this = some e)
    (hwnd : HWND) (window : Option (Window Object)) :
    (w.setWindow hwnd window).procedureCallback hwnd (.ncCreate (some this)) =
      e.mParent.map fun parent =>
        (w.setWindow hwnd (some ⟨some this⟩), some parent) := by
  have hsame : (w.setWindow hwnd (some ⟨some this⟩)).objects this = some e :=
    hthis
  simp only [procedureCallback, setWindow_setWindow, dispatch, hsame,
    MessageEvent.procedure, Option.bind_eq_bind, Option.bind_some]
  cases e.mParent <;> rfl

/-! ### Unregistering -/

/-- What `unregister_window_class` leaves behind. -/
def unregistered (w : World Object HWND HINSTANCE Procedure) (this : Object)
    (e : MessageEvent HWND HINSTANCE Procedure) (os : Teardown) :
    World Object HWND HINSTANCE Procedure where
  objects := Function.update w.objects this
    (some { e with mHinst := none, mHwnd := none })
  windows :=
    match e.mHwnd, os.windowDestroyed with
    | some hwnd, true => Function.update w.windows hwnd none
    | _, _ => w.windows
  classes :=
    match e.mHinst, os.classReleased with
    | some mHinst, true => Function.update w.classes (e.mClassName, mHinst) false
    | _, _ => w.classes

theorem unregistered_objects_of_ne (w : World Object HWND HINSTANCE Procedure)
    (e : MessageEvent HWND HINSTANCE Procedure) (os : Teardown)
    {other : Object} (hne : other ≠ this) :
    (w.unregistered this e os).objects other = w.objects other :=
  Function.update_of_ne hne _ _

theorem unregistered_idle (w : World Object HWND HINSTANCE Procedure)
    (this : Object) (e : MessageEvent HWND HINSTANCE Procedure)
    (os : Teardown) : Idle ((w.unregistered this e os).objects this) := by
  have hthis := Function.update_self this
    (some { e with mHinst := none, mHwnd := none }) w.objects
  rw [unregistered]
  simp only [hthis]
  exact idle_some rfl

/-- Windows of other objects stay. -/
theorem unregistered_windows_of_ne (h : Owned w.objects w.windows)
    (hthis : w.objects this = some e) (os : Teardown) {other : Object}
    (hne : other ≠ this) (hwindow : w.windows hwnd = some ⟨some other⟩) :
    (w.unregistered this e os).windows hwnd = some ⟨some other⟩ := by
  cases hhandle : e.mHwnd with
  | none => simpa [unregistered, hhandle] using hwindow
  | some mine =>
      have hapart : hwnd ≠ mine := by
        rintro rfl
        rw [h.owned this e hwnd hthis hhandle] at hwindow
        exact hne (by simpa [eq_comm] using hwindow)
      cases hdestroyed : os.windowDestroyed <;>
        simpa [unregistered, hhandle, hdestroyed, hapart] using hwindow

theorem unregister_eq (h : Owned w.objects w.windows)
    (hthis : w.objects this = some e) (os : Teardown) :
    w.unregisterWindowClass this os = some (w.unregistered this e os) := by
  cases hhandle : e.mHwnd with
  | none =>
      cases hinst : e.mHinst <;> cases hreleased : os.classReleased <;>
        simp [unregisterWindowClass, hthis, hhandle, hinst, unregistered,
          unregisterClass, hreleased, setObject, setClass]
  | some hwnd =>
      obtain ⟨_, _, parent, huser, howner, _, hparent, hcall⟩ :=
        dispatchesToOwner h hwnd _ (h.owned this e hwnd hthis hhandle)
      cases hdestroyed : os.windowDestroyed <;> cases hinst : e.mHinst <;>
        cases hreleased : os.classReleased <;>
        simp [unregisterWindowClass, hthis, hhandle, hinst, unregistered,
          unregisterClass, destroyWindow, hcall, hdestroyed, hreleased,
          setObject, setClass, setWindow]

/-- The object is idle afterwards, and owned windows stay owned. -/
theorem unregistered_owned (h : Owned w.objects w.windows)
    (hthis : w.objects this = some e) {os : Teardown}
    (hcloses : ClosesWindow w this os) :
    Owned (w.unregistered this e os).objects (w.unregistered this e os).windows := by
  cases hhandle : e.mHwnd with
  | none =>
      have hbefore : Idle (w.objects this) := by
        rw [hthis]
        exact idle_some hhandle
      simpa [unregistered, hhandle] using h.update hbefore (idle_some rfl)
  | some hwnd =>
      have hdestroyed := hcloses e hthis (by rw [hhandle]; rfl)
      simpa [unregistered, hhandle, hdestroyed] using
        h.close hthis hhandle (idle_some rfl)

/-- A window that was not destroyed is left without its owner. -/
theorem unregistered_windows (h : Owned w.objects w.windows)
    (hthis : w.objects this = some e) {os : Teardown}
    (hhandle : e.mHwnd = some hwnd) (hkept : os.windowDestroyed = false) :
    (w.unregistered this e os).windows hwnd = some ⟨some this⟩ := by
  simpa [unregistered, hkept] using h.owned this e hwnd hthis hhandle

/-! ### Registering -/

omit [DecidableEq Object] [DecidableEq HWND] in
@[simp] theorem unregisterClass_objects
    (w : World Object HWND HINSTANCE Procedure) (name : String × HINSTANCE)
    (released : Bool) : (w.unregisterClass name released).objects = w.objects := by
  cases released <;> rfl

omit [DecidableEq Object] [DecidableEq HWND] in
@[simp] theorem unregisterClass_windows
    (w : World Object HWND HINSTANCE Procedure) (name : String × HINSTANCE)
    (released : Bool) : (w.unregisterClass name released).windows = w.windows := by
  cases released <;> rfl

omit [DecidableEq Object] [DecidableEq HINSTANCE] in
/-- Messages that one call of the callback takes leave the world as it is. -/
theorem sendMessages_eq {called : Option Procedure}
    (hcall : w.procedureCallback hwnd .other = some (w, called))
    (messages : Nat) : w.sendMessages hwnd messages = some w := by
  induction messages with
  | zero => rfl
  | succ messages ih =>
      rw [sendMessages, hcall]
      exact ih

omit [DecidableEq Object] [DecidableEq HINSTANCE] in
/-- After `WM_NCCREATE` the messages to the new window go to the parent. -/
theorem sendMessages_opened (hthis : w.objects this = some e)
    {parent : Procedure} (hparent : e.mParent = some parent) (hwnd : HWND)
    (messages : Nat) :
    (w.setWindow hwnd (some ⟨some this⟩)).sendMessages hwnd messages =
      some (w.setWindow hwnd (some ⟨some this⟩)) := by
  have hcall : (w.setWindow hwnd (some ⟨some this⟩)).procedureCallback hwnd
      .other = some (w.setWindow hwnd (some ⟨some this⟩), some parent) := by
    have hcalled := dispatch_eq (w := w.setWindow hwnd (some ⟨some this⟩))
      hthis hparent
    simpa [procedureCallback, setWindow] using hcalled
  exact sendMessages_eq hcall messages

omit [DecidableEq Object] [DecidableEq HINSTANCE] in
theorem createWindowEx_refused (hthis : w.objects this = some e)
    (hwnd : HWND) (messages : Nat) :
    w.createWindowEx this (.refused hwnd messages) =
      e.mParent.map fun _ => (w.setWindow hwnd none, none) := by
  rw [createWindowEx, procedureCallback_ncCreate hthis]
  cases hparent : e.mParent with
  | none => rfl
  | some parent => simp [sendMessages_opened hthis hparent]

omit [DecidableEq Object] [DecidableEq HINSTANCE] in
theorem createWindowEx_created (hthis : w.objects this = some e)
    (hwnd : HWND) (messages : Nat) :
    w.createWindowEx this (.created hwnd messages) =
      e.mParent.map fun _ =>
        (w.setWindow hwnd (some ⟨some this⟩), some hwnd) := by
  rw [createWindowEx, procedureCallback_ncCreate hthis]
  cases hparent : e.mParent with
  | none => rfl
  | some parent => simp [sendMessages_opened hthis hparent]

/-- The object while its class is being registered, or after that failed. -/
def named (e : MessageEvent HWND HINSTANCE Procedure) (className : String)
    (mHinst : Option HINSTANCE) : MessageEvent HWND HINSTANCE Procedure :=
  ⟨none, mHinst, className, e.mParent⟩

/-- The world in which `register_window_class` calls `CreateWindowEx`. -/
def classRegistered (w : World Object HWND HINSTANCE Procedure)
    (this : Object) (e : MessageEvent HWND HINSTANCE Procedure)
    (className : String) (mHinst : HINSTANCE) :
    World Object HWND HINSTANCE Procedure :=
  (w.setObject this (some (named e className (some mHinst)))).setClass
    (className, mHinst) true

/-- `register_window_class` returned or threw, and of the objects only this
one may have changed. -/
def RegisterLeaves (w : World Object HWND HINSTANCE Procedure) (this : Object)
    (className : String) (os : Registration HWND HINSTANCE)
    (e' : MessageEvent HWND HINSTANCE Procedure)
    (windows : HWND → Option (Window Object)) : Prop :=
  ∃ after error, w.registerWindowClass this className os = some (after, error) ∧
    after.objects = Function.update w.objects this (some e') ∧
    after.windows = windows

section Register

variable {className : String} {os : Registration HWND HINSTANCE}
  {mHinst : HINSTANCE}

theorem register_no_module (hthis : w.objects this = some e)
    (hhandle : e.mHwnd = none) (hmodule : os.moduleHandle = none) :
    w.registerWindowClass this className os = some
      (w.setObject this (some (named e className none)),
        some .getModuleHandle) := by
  simp [registerWindowClass, hthis, hhandle, hmodule, named]

theorem register_class_refused (hthis : w.objects this = some e)
    (hhandle : e.mHwnd = none) (hmodule : os.moduleHandle = some mHinst)
    (hrefused : (os.classGranted && !w.classes (className, mHinst)) = false) :
    w.registerWindowClass this className os = some
      (w.setObject this (some (named e className none)),
        some .registerClass) := by
  simp [registerWindowClass, hthis, hhandle, hmodule, hrefused, named]

theorem register_granted (hthis : w.objects this = some e)
    (hhandle : e.mHwnd = none) (hmodule : os.moduleHandle = some mHinst)
    (hgranted : (os.classGranted && !w.classes (className, mHinst)) = true) :
    w.registerWindowClass this className os =
      ((w.classRegistered this e className mHinst).createWindowEx this
        os.creation).map fun result =>
          match result.2 with
          | none => ((result.1.unregisterClass (className, mHinst)
              os.classReleased).setObject this (some (named e className none)),
              some .createWindowEx)
          | some hwnd => (result.1.setObject this
              (some { named e className (some mHinst) with
                mHwnd := some hwnd }), none) := by
  simp only [registerWindowClass, hthis, hhandle, hmodule, hgranted,
    Option.bind_eq_bind, Option.bind_some, Option.isSome_none,
    Bool.false_eq_true, ↓reduceIte, classRegistered, named,
    Option.map_eq_bind]
  congr 1
  funext result
  obtain ⟨after, _ | hwnd⟩ := result <;> rfl

theorem register_unavailable (hthis : w.objects this = some e)
    (hhandle : e.mHwnd = none) (hmodule : os.moduleHandle = some mHinst)
    (hgranted : (os.classGranted && !w.classes (className, mHinst)) = true)
    (hcreation : os.creation = .unavailable) :
    RegisterLeaves w this className os (named e className none) w.windows := by
  have hregister := register_granted hthis hhandle hmodule hgranted
  rw [hcreation] at hregister
  refine ⟨_, _, hregister, ?_, ?_⟩
  · simp [setObject, classRegistered, setClass]
  · simp [setObject, classRegistered, setClass]

/-- Once `WM_NCCREATE` is sent the parent is called. -/
theorem register_null_parent (hthis : w.objects this = some e)
    (hhandle : e.mHwnd = none) (hmodule : os.moduleHandle = some mHinst)
    (hgranted : (os.classGranted && !w.classes (className, mHinst)) = true)
    (hsent : os.creation.handle = some hwnd) (hparent : e.mParent = none) :
    w.registerWindowClass this className os = none := by
  have hstart : (w.classRegistered this e className mHinst).objects this =
      some (named e className (some mHinst)) := Function.update_self _ _ _
  rw [register_granted hthis hhandle hmodule hgranted]
  cases hcreation : os.creation with
  | unavailable =>
      rw [hcreation] at hsent
      contradiction
  | refused _ _ =>
      rw [createWindowEx_refused hstart]
      simp [named, hparent]
  | created _ _ =>
      rw [createWindowEx_created hstart]
      simp [named, hparent]

theorem register_refused (hthis : w.objects this = some e)
    (hhandle : e.mHwnd = none) (hmodule : os.moduleHandle = some mHinst)
    (hgranted : (os.classGranted && !w.classes (className, mHinst)) = true)
    {messages : Nat} (hcreation : os.creation = .refused hwnd messages)
    {parent : Procedure}
    (hparent : e.mParent = some parent) :
    RegisterLeaves w this className os (named e className none)
      (Function.update w.windows hwnd none) := by
  have hstart : (w.classRegistered this e className mHinst).objects this =
      some (named e className (some mHinst)) := Function.update_self _ _ _
  have hregister := register_granted hthis hhandle hmodule hgranted
  rw [hcreation, createWindowEx_refused hstart] at hregister
  simp only [named, hparent, Option.map_some] at hregister
  refine ⟨_, _, hregister, ?_, ?_⟩
  · simp [setObject, classRegistered, setClass, setWindow, named, hparent]
  · simp [setObject, classRegistered, setClass, setWindow]

theorem register_created (hthis : w.objects this = some e)
    (hhandle : e.mHwnd = none) (hmodule : os.moduleHandle = some mHinst)
    (hgranted : (os.classGranted && !w.classes (className, mHinst)) = true)
    {messages : Nat} (hcreation : os.creation = .created hwnd messages)
    {parent : Procedure}
    (hparent : e.mParent = some parent) :
    RegisterLeaves w this className os
      ⟨some hwnd, some mHinst, className, some parent⟩
      (Function.update w.windows hwnd (some ⟨some this⟩)) := by
  have hstart : (w.classRegistered this e className mHinst).objects this =
      some (named e className (some mHinst)) := Function.update_self _ _ _
  have hregister := register_granted hthis hhandle hmodule hgranted
  rw [hcreation, createWindowEx_created hstart] at hregister
  simp only [named, hparent, Option.map_some] at hregister
  refine ⟨_, _, hregister, ?_, ?_⟩
  · simp [setObject, classRegistered, setClass, setWindow, named, hparent]
  · simp [setObject, classRegistered, setClass, setWindow]

end Register

/-- All that `register_window_class` can do for an object without a window:
stop before `WM_NCCREATE`, call through a null parent, give the window up
again, or keep it. -/
theorem register_cases (hthis : w.objects this = some e)
    (hhandle : e.mHwnd = none) (className : String)
    (os : Registration HWND HINSTANCE) :
    (os.sendsNcCreate w className = false ∧ ∃ e', e'.mHwnd = none ∧
      RegisterLeaves w this className os e' w.windows) ∨
    (os.sendsNcCreate w className = true ∧ e.mParent = none ∧
      w.registerWindowClass this className os = none) ∨
    (∃ hwnd parent e', e.mParent = some parent ∧
      os.creation.handle = some hwnd ∧ e'.mHwnd = none ∧
      RegisterLeaves w this className os e'
        (Function.update w.windows hwnd none)) ∨
    ∃ hwnd parent e', e.mParent = some parent ∧
      os.creation.handle = some hwnd ∧ e'.mHwnd = some hwnd ∧
      e'.mParent = some parent ∧
      RegisterLeaves w this className os e'
        (Function.update w.windows hwnd (some ⟨some this⟩)) := by
  cases hmodule : os.moduleHandle with
  | none =>
      refine Or.inl ⟨?_, named e className none, rfl, _, _,
        register_no_module hthis hhandle hmodule, rfl, rfl⟩
      simp [Registration.sendsNcCreate, hmodule]
  | some mHinst =>
      cases hgranted : os.classGranted && !w.classes (className, mHinst) with
      | false =>
          refine Or.inl ⟨?_, named e className none, rfl, _, _,
            register_class_refused hthis hhandle hmodule hgranted, rfl, rfl⟩
          cases hcreation : os.creation <;>
            simp [Registration.sendsNcCreate, hmodule, hcreation, hgranted]
      | true =>
          cases hcreation : os.creation with
          | unavailable =>
              refine Or.inl ⟨?_, named e className none, rfl,
                register_unavailable hthis hhandle hmodule hgranted hcreation⟩
              simp [Registration.sendsNcCreate, hmodule, hcreation]
          | refused hwnd messages =>
              have hsends : os.sendsNcCreate w className = true := by
                simpa [Registration.sendsNcCreate, hmodule, hcreation] using
                  hgranted
              cases hparent : e.mParent with
              | none =>
                  exact Or.inr (Or.inl ⟨hsends, rfl, register_null_parent hthis
                    hhandle hmodule hgranted (by rw [hcreation]; rfl) hparent⟩)
              | some parent =>
                  exact Or.inr (Or.inr (Or.inl ⟨hwnd, parent, _, rfl, rfl, rfl,
                    register_refused hthis hhandle hmodule hgranted hcreation
                      hparent⟩))
          | created hwnd messages =>
              have hsends : os.sendsNcCreate w className = true := by
                simpa [Registration.sendsNcCreate, hmodule, hcreation] using
                  hgranted
              cases hparent : e.mParent with
              | none =>
                  exact Or.inr (Or.inl ⟨hsends, rfl, register_null_parent hthis
                    hhandle hmodule hgranted (by rw [hcreation]; rfl) hparent⟩)
              | some parent =>
                  exact Or.inr (Or.inr (Or.inr ⟨hwnd, parent, _, rfl, rfl, rfl,
                    rfl, register_created hthis hhandle hmodule hgranted
                      hcreation hparent⟩))

/-- With a window already there is nothing to register. -/
theorem register_again (hthis : w.objects this = some e)
    (hhandle : e.mHwnd = some hwnd) (className : String)
    (os : Registration HWND HINSTANCE) :
    w.registerWindowClass this className os = some (w, none) := by
  simp [registerWindowClass, hthis, hhandle]

/-! ### Messages within an operation -/

/-- The world in which `CreateWindowEx` sends the new window its messages after
`WM_NCCREATE`: the member `mHwnd` is assigned when it returns. -/
def creating (w : World Object HWND HINSTANCE Procedure) (this : Object)
    (e : MessageEvent HWND HINSTANCE Procedure) (className : String)
    (mHinst : HINSTANCE) (hwnd : HWND) :
    World Object HWND HINSTANCE Procedure :=
  (w.classRegistered this e className mHinst).setWindow hwnd
    (some ⟨some this⟩)

/-- What `CreateWindowEx` delivers between `WM_NCCREATE` and its return: the
world of each message and its window. -/
def createDeliveries (w : World Object HWND HINSTANCE Procedure)
    (this : Object) (className : String) (os : Registration HWND HINSTANCE) :
    List (World Object HWND HINSTANCE Procedure × HWND) :=
  match w.objects this, os.moduleHandle, os.creation.handle with
  | some e, some mHinst, some hwnd =>
      if e.mHwnd.isSome = false ∧ os.sendsNcCreate w className = true then
        List.replicate os.creation.messages
          (w.creating this e className mHinst hwnd, hwnd)
      else []
  | _, _, _ => []

/-- What `DestroyWindow` delivers to the window of the object. -/
def destroyDeliveries (w : World Object HWND HINSTANCE Procedure)
    (this : Object) (os : Teardown) :
    List (World Object HWND HINSTANCE Procedure × HWND) :=
  match (w.objects this).bind MessageEvent.mHwnd with
  | some hwnd => if os.windowDestroyed then [(w, hwnd)] else []
  | none => []

/-- The messages an operation has delivered to windows that have had
`WM_NCCREATE`. -/
def deliveries (w : World Object HWND HINSTANCE Procedure) :
    Operation Object HWND HINSTANCE Procedure →
    List (World Object HWND HINSTANCE Procedure × HWND)
  | .construct _ _ => []
  | .register this className os => w.createDeliveries this className os
  | .unregister this os => w.destroyDeliveries this os
  | .moveConstruct _ _ => []
  | .moveAssign this other os =>
      if this ≠ other then w.destroyDeliveries this os else []
  | .destroy this os => w.destroyDeliveries this os

/-- A message during creation finds an object that does not name the window
yet. -/
theorem creating_findsOwner (w : World Object HWND HINSTANCE Procedure)
    (this : Object) (e : MessageEvent HWND HINSTANCE Procedure)
    (className : String) (mHinst : HINSTANCE) {window : Window Object}
    (hwindow : (w.creating this e className mHinst hwnd).windows hwnd =
      some window) :
    ¬ FindsOwner (w.creating this e className mHinst hwnd) hwnd window := by
  rintro ⟨found, e', parent, huser, hfound, hhandle, _⟩
  have hopened : (w.creating this e className mHinst hwnd).windows hwnd =
      some ⟨some this⟩ := Function.update_self _ _ _
  have hthis : (w.creating this e className mHinst hwnd).objects this =
      some (named e className (some mHinst)) := Function.update_self _ _ _
  rw [hopened, Option.some.injEq] at hwindow
  rw [← hwindow, Option.some.injEq] at huser
  subst huser
  rw [hthis, Option.some.injEq] at hfound
  rw [← hfound, named] at hhandle
  contradiction

end World

/-- Every message of the operation to a window that has had `WM_NCCREATE` finds
the owner. -/
def DeliversToOwner (w : World Object HWND HINSTANCE Procedure)
    (op : Operation Object HWND HINSTANCE Procedure) : Prop :=
  ∀ delivery ∈ w.deliveries op, ∃ window,
    delivery.1.windows delivery.2 = some window ∧
    FindsOwner delivery.1 delivery.2 window

/-- `CreateWindowEx` sends a new window nothing between `WM_NCCREATE` and its
return. -/
def CreatesQuietly (w : World Object HWND HINSTANCE Procedure) :
    Operation Object HWND HINSTANCE Procedure → Prop
  | .register this className os => ∀ e ∈ w.objects this,
      e.mHwnd.isSome = false → os.sendsNcCreate w className = true →
        os.creation.messages = 0
  | _ => True

omit [DecidableEq Object] [DecidableEq HWND] [DecidableEq HINSTANCE] in
theorem Registration.handles_of_sendsNcCreate
    {os : Registration HWND HINSTANCE}
    {w : World Object HWND HINSTANCE Procedure} {className : String}
    (hsends : os.sendsNcCreate w className = true) :
    ∃ mHinst hwnd, os.moduleHandle = some mHinst ∧
      os.creation.handle = some hwnd := by
  cases hmodule : os.moduleHandle <;> cases hcreation : os.creation <;>
    simp [Registration.sendsNcCreate, hmodule, hcreation] at hsends <;>
    exact ⟨_, _, rfl, rfl⟩

/-- A window that is created quietly is sent nothing meanwhile, and no other
creation delivers to the owner. -/
theorem register_deliversToOwner_iff
    (w : World Object HWND HINSTANCE Procedure) (this : Object)
    (className : String) (os : Registration HWND HINSTANCE) :
    DeliversToOwner w (.register this className os) ↔
      CreatesQuietly w (.register this className os) := by
  constructor
  · intro hdelivers e hthis hhandle hsends
    obtain ⟨mHinst, hwnd, hmodule, hcreation⟩ :=
      Registration.handles_of_sendsNcCreate hsends
    by_contra hmessages
    obtain ⟨window, hwindow, hfinds⟩ := hdelivers
      (w.creating this e className mHinst hwnd, hwnd) (by
        rw [Option.mem_def] at hthis
        simp [World.deliveries, World.createDeliveries, hthis, hmodule,
          hcreation, hhandle, hsends, hmessages])
    exact World.creating_findsOwner w this e className mHinst hwindow hfinds
  · intro hquiet delivery hdelivery
    simp only [World.deliveries, World.createDeliveries] at hdelivery
    split at hdelivery
    · next e mHinst hwnd hthis hmodule hcreation =>
        split at hdelivery
        · next hsends =>
            rw [hquiet e hthis hsends.1 hsends.2] at hdelivery
            contradiction
        · contradiction
    · contradiction

omit [DecidableEq Object] [DecidableEq HINSTANCE] in
/-- `DestroyWindow` is called while the object still names the window. -/
theorem destroyDeliveries_findsOwner
    {w : World Object HWND HINSTANCE Procedure}
    (h : Owned w.objects w.windows) (this : Object) (os : Teardown) :
    ∀ delivery ∈ w.destroyDeliveries this os, ∃ window,
      delivery.1.windows delivery.2 = some window ∧
      FindsOwner delivery.1 delivery.2 window := by
  intro delivery hdelivery
  rw [World.destroyDeliveries] at hdelivery
  split at hdelivery
  · next hwnd hhandle =>
      obtain ⟨e, hthis, hhandle⟩ := Option.bind_eq_some_iff.mp hhandle
      have hwindow := h.owned this e hwnd hthis hhandle
      split at hdelivery
      · rw [List.mem_singleton] at hdelivery
        subst hdelivery
        exact ⟨_, hwindow, World.dispatchesToOwner h hwnd _ hwindow⟩
      · contradiction
  · contradiction

/-- Where the two records agree, an operation delivers to owners exactly when
it creates quietly. -/
theorem deliversToOwner_iff {w : World Object HWND HINSTANCE Procedure}
    (h : Owned w.objects w.windows)
    (op : Operation Object HWND HINSTANCE Procedure) :
    DeliversToOwner w op ↔ CreatesQuietly w op := by
  cases op with
  | register this className os =>
      exact register_deliversToOwner_iff w this className os
  | construct this parent =>
      exact ⟨fun _ => trivial, fun _ _ hdelivery => by contradiction⟩
  | moveConstruct this other =>
      exact ⟨fun _ => trivial, fun _ _ hdelivery => by contradiction⟩
  | unregister this os =>
      exact ⟨fun _ => trivial, fun _ => destroyDeliveries_findsOwner h this os⟩
  | destroy this os =>
      exact ⟨fun _ => trivial, fun _ => destroyDeliveries_findsOwner h this os⟩
  | moveAssign this other os =>
      refine ⟨fun _ => trivial, fun _ delivery hdelivery => ?_⟩
      rw [World.deliveries] at hdelivery
      split at hdelivery
      · exact destroyDeliveries_findsOwner h this os delivery hdelivery
      · contradiction

/-! ### Moving -/

namespace World

variable {w : World Object HWND HINSTANCE Procedure} {this : Object}
  {e : MessageEvent HWND HINSTANCE Procedure} {hwnd : HWND}

omit [DecidableEq HWND] [DecidableEq HINSTANCE] in
theorem moveConstruct_owned (h : Owned w.objects w.windows) {other : Object}
    (hthis : Idle (w.objects this)) (hother : w.objects other = some e)
    (hidle : e.mHwnd = none) :
    ∃ after, w.moveConstruct this other = some after ∧
      Owned after.objects after.windows := by
  refine ⟨_, by rw [moveConstruct, hother]; rfl, ?_⟩
  have htarget := h.update hthis (idle_some (e := e.moveConstruct) hidle)
  refine htarget.update ?_ (idle_some rfl)
  by_cases heq : other = this
  · rw [heq, Function.update_self]
    exact idle_some hidle
  · rw [Function.update_of_ne heq, hother]
    exact idle_some hidle

end World

/-! ### Every operation -/

omit [DecidableEq Object] [DecidableEq HWND] [DecidableEq HINSTANCE] in
theorem idle_of_not_alive
    {object : Option (MessageEvent HWND HINSTANCE Procedure)}
    (hdead : object.isSome = false) : Idle object := by
  rw [absent_iff.mp hdead]
  exact idle_none

theorem register_owned {w : World Object HWND HINSTANCE Procedure}
    (h : Owned w.objects w.windows) {this : Object} {className : String}
    {os : Registration HWND HINSTANCE}
    (hgiven : Admissible w (.register this className os))
    (hok : KeepsOwner w (.register this className os)) :
    ∃ after, operate w (.register this className os) = some after ∧
      Owned after.objects after.windows := by
  rcases hgiven with ⟨halive, hfresh⟩
  obtain ⟨e, hthis⟩ := Option.isSome_iff_exists.mp halive
  cases hhandle : e.mHwnd with
  | some hwnd =>
      refine ⟨w, ?_, h⟩
      rw [operate, World.register_again hthis hhandle, Option.map_some]
  | none =>
      have hidle : Idle (w.objects this) := by
        rw [hthis]
        exact idle_some hhandle
      rcases World.register_cases hthis hhandle className os with
        ⟨_, e', he', after, error, hcall, hobjects, hwindows⟩ |
        ⟨hsends, hparent, _⟩ |
        ⟨hwnd, _, e', _, hhandedOut, he', after, error, hcall, hobjects,
          hwindows⟩ |
        ⟨hwnd, parent, e', _, hhandedOut, he', hparent, after, error, hcall,
          hobjects, hwindows⟩
      · refine ⟨after, by rw [operate, hcall, Option.map_some], ?_⟩
        rw [hobjects, hwindows]
        exact h.update hidle (idle_some he')
      · have hsome := hok e hthis (by rw [hhandle]; rfl) hsends
        rw [hparent] at hsome
        contradiction
      · refine ⟨after, by rw [operate, hcall, Option.map_some], ?_⟩
        have hfree : w.windows hwnd = none :=
          absent_iff.mp (hfresh hwnd hhandedOut)
        rw [hobjects, hwindows, ← hfree, Function.update_eq_self]
        exact h.update hidle (idle_some he')
      · refine ⟨after, by rw [operate, hcall, Option.map_some], ?_⟩
        have hfree : w.windows hwnd = none :=
          absent_iff.mp (hfresh hwnd hhandedOut)
        rw [hobjects, hwindows]
        exact h.open hidle hfree he' hparent

/-- Step lemma: an operation that keeps owners is defined and leaves every
live window with its owner. -/
theorem operate_owned (w : World Object HWND HINSTANCE Procedure)
    (op : Operation Object HWND HINSTANCE Procedure)
    (h : Owned w.objects w.windows) (hgiven : Admissible w op)
    (hok : KeepsOwner w op) :
    ∃ after, operate w op = some after ∧
      Owned after.objects after.windows := by
  cases op with
  | construct this parent =>
      exact ⟨_, rfl, h.update (idle_of_not_alive hgiven) (idle_some rfl)⟩
  | register this className os => exact register_owned h hgiven hok
  | unregister this os =>
      obtain ⟨e, hthis⟩ := Option.isSome_iff_exists.mp hgiven
      exact ⟨_, World.unregister_eq h hthis os,
        World.unregistered_owned h hthis hok⟩
  | moveConstruct this other =>
      obtain ⟨e, hother⟩ := Option.isSome_iff_exists.mp hgiven.2
      exact World.moveConstruct_owned h (idle_of_not_alive hgiven.1) hother
        (by simpa using hok e hother)
  | moveAssign this other os =>
      by_cases hself : this = other
      · refine ⟨w, ?_, h⟩
        rw [operate, World.moveAssign, if_neg (not_not.mpr hself)]
      · obtain ⟨e, hthis⟩ := Option.isSome_iff_exists.mp hgiven.1
        obtain ⟨e', hother⟩ := Option.isSome_iff_exists.mp hgiven.2
        obtain ⟨hcloses, hidle⟩ := hok hself
        have hclosed := World.unregistered_owned h hthis hcloses
        have hother' : (w.unregistered this e os).objects other = some e' :=
          (World.unregistered_objects_of_ne w e os (Ne.symm hself)).trans hother
        obtain ⟨after, hmove, hafter⟩ := World.moveConstruct_owned hclosed
          (World.unregistered_idle w this e os) hother'
          (by simpa using hidle e' hother)
        refine ⟨after, ?_, hafter⟩
        rw [operate, World.moveAssign, if_pos hself,
          World.unregister_eq h hthis os]
        exact hmove
  | destroy this os =>
      obtain ⟨e, hthis⟩ := Option.isSome_iff_exists.mp hgiven
      have hclosed := World.unregistered_owned h hthis hok
      refine ⟨_, by
        rw [operate, World.destroy, World.unregister_eq h hthis os]
        rfl, ?_⟩
      exact hclosed.update (World.unregistered_idle w this e os) idle_none

omit [DecidableEq Object] [DecidableEq HINSTANCE] in
/-- A window whose user data is an object has that object for its owner. -/
theorem DispatchesToOwner.owner_of_userData
    {w : World Object HWND HINSTANCE Procedure} (h : DispatchesToOwner w)
    {hwnd : HWND} {this : Object}
    (hwindow : w.windows hwnd = some ⟨some this⟩) :
    ∃ e, w.objects this = some e ∧ e.mHwnd = some hwnd := by
  obtain ⟨owner, e, _, huser, howner, hhandle, _⟩ := h hwnd _ hwindow
  rw [Option.some.injEq] at huser
  rw [← huser] at howner
  exact ⟨e, howner, hhandle⟩

/-- After unregistering, or destroying, an object whose window stays, the
window has no owner. -/
theorem closesWindow_of_dispatches
    {w after : World Object HWND HINSTANCE Procedure}
    (h : Owned w.objects w.windows) {this : Object}
    {e : MessageEvent HWND HINSTANCE Procedure}
    (hthis : w.objects this = some e) {os : Teardown}
    (hgood : DispatchesToOwner after)
    (hwindows : after.windows = (w.unregistered this e os).windows)
    (hidle : Idle (after.objects this)) :
    ClosesWindow w this os := by
  intro e' he' hhandle
  by_contra hkept
  rw [Bool.not_eq_true] at hkept
  rw [hthis, Option.mem_some_iff] at he'
  subst he'
  obtain ⟨hwnd, hwnd'⟩ := Option.isSome_iff_exists.mp hhandle
  have hleft := World.unregistered_windows h hthis hwnd' hkept
  rw [← hwindows] at hleft
  obtain ⟨owner, howner, hnames⟩ := hgood.owner_of_userData hleft
  rw [hidle owner howner] at hnames
  contradiction

omit [DecidableEq Object] [DecidableEq HINSTANCE] in
/-- After a move from an object that owns a window, the window has no
owner. -/
theorem idle_of_moved {w after : World Object HWND HINSTANCE Procedure}
    (h : Owned w.objects w.windows) (hgood : DispatchesToOwner after)
    {other : Object}
    (hwindows : ∀ hwnd, w.windows hwnd = some ⟨some other⟩ →
      after.windows hwnd = some ⟨some other⟩)
    (hmoved : after.objects other = some .movedFrom) :
    ∀ e ∈ w.objects other, e.mHwnd.isSome = false := by
  intro e he
  by_contra hhandle
  rw [Bool.not_eq_false] at hhandle
  obtain ⟨hwnd, hhandle⟩ := Option.isSome_iff_exists.mp hhandle
  have hleft := hwindows hwnd (h.owned other e hwnd he hhandle)
  obtain ⟨owner, howner, hnames⟩ := hgood.owner_of_userData hleft
  rw [hmoved, Option.some.injEq] at howner
  rw [← howner] at hnames
  contradiction

/-- Only operations that keep owners lead to a world in which every window has
its owner. -/
theorem keepsOwner_of_dispatches (w : World Object HWND HINSTANCE Procedure)
    (op : Operation Object HWND HINSTANCE Procedure)
    (after : World Object HWND HINSTANCE Procedure)
    (h : Owned w.objects w.windows) (hgiven : Admissible w op)
    (hstep : operate w op = some after) (hgood : DispatchesToOwner after) :
    KeepsOwner w op := by
  cases op with
  | construct this parent => trivial
  | register this className os =>
      intro e hthis hhandle hsends
      rw [absent_iff] at hhandle
      rcases World.register_cases hthis hhandle className os with
        ⟨hquiet, _⟩ | ⟨_, _, hcall⟩ | ⟨_, parent, _, hparent, _⟩ |
        ⟨_, parent, _, hparent, _⟩
      · rw [hquiet] at hsends
        contradiction
      · rw [operate, hcall] at hstep
        contradiction
      · rw [hparent]
        rfl
      · rw [hparent]
        rfl
  | unregister this os =>
      obtain ⟨e, hthis⟩ := Option.isSome_iff_exists.mp hgiven
      rw [operate, World.unregister_eq h hthis os, Option.some.injEq] at hstep
      subst hstep
      exact closesWindow_of_dispatches h hthis hgood rfl
        (World.unregistered_idle w this e os)
  | moveConstruct this other =>
      obtain ⟨e, hother⟩ := Option.isSome_iff_exists.mp hgiven.2
      rw [operate, World.moveConstruct, hother, Option.bind_eq_bind,
        Option.bind_some, Option.some.injEq] at hstep
      subst hstep
      exact idle_of_moved h hgood (fun _ hwindow => hwindow)
        (World.setObject_self _ _ _)
  | moveAssign this other os =>
      intro hself
      obtain ⟨e, hthis⟩ := Option.isSome_iff_exists.mp hgiven.1
      obtain ⟨e', hother⟩ := Option.isSome_iff_exists.mp hgiven.2
      have hother' : (w.unregistered this e os).objects other = some e' :=
        (World.unregistered_objects_of_ne w e os (Ne.symm hself)).trans hother
      rw [operate, World.moveAssign, if_pos hself, World.unregister_eq h hthis os,
        Option.bind_eq_bind, Option.bind_some, World.moveConstruct, hother',
        Option.bind_eq_bind, Option.bind_some, Option.some.injEq] at hstep
      subst hstep
      have hidle := idle_of_moved h hgood (fun _ hwindow =>
        World.unregistered_windows_of_ne h hthis os (Ne.symm hself) hwindow)
        (World.setObject_self _ _ _)
      refine ⟨closesWindow_of_dispatches h hthis hgood rfl ?_, hidle⟩
      -- what was moved in names no window either
      have hnone := absent_iff.mp (hidle e' hother)
      rw [World.setObject_of_ne _ hself, World.setObject_self]
      exact idle_some hnone
  | destroy this os =>
      obtain ⟨e, hthis⟩ := Option.isSome_iff_exists.mp hgiven
      rw [operate, World.destroy, World.unregister_eq h hthis os,
        Option.bind_eq_bind, Option.bind_some, Option.some.injEq] at hstep
      subst hstep
      apply closesWindow_of_dispatches h hthis hgood rfl
      rw [World.setObject_self]
      exact idle_none

omit [DecidableEq Object] [DecidableEq HWND] [DecidableEq HINSTANCE] in
theorem initial_owned :
    Owned (World.initial : World Object HWND HINSTANCE Procedure).objects
      (World.initial : World Object HWND HINSTANCE Procedure).windows := by
  constructor
  · intro hwnd window hwindow
    contradiction
  · intro this e hwnd hthis
    contradiction

/-- Between operations, live windows lead to the objects that own them in every
state exactly when every operation keeps owners. -/
theorem everyState_dispatches_iff
    {ops : List (Operation Object HWND HINSTANCE Procedure)}
    (hadmissible : Runs.EveryStep operate Admissible World.initial ops) :
    Runs.EveryState operate DispatchesToOwner World.initial ops ↔
      Runs.EveryStep operate KeepsOwner World.initial ops :=
  Runs.everyState_iff_everyStep operate_owned
    (fun _ h => World.dispatchesToOwner h) keepsOwner_of_dispatches
    initial_owned hadmissible

/-- Along a run that keeps owners, what follows from the two records. -/
theorem everyStep_of_keepsOwner
    {ops : List (Operation Object HWND HINSTANCE Procedure)}
    (hadmissible : Runs.EveryStep operate Admissible World.initial ops)
    (hkeeps : Runs.EveryStep operate KeepsOwner World.initial ops)
    {given better : World Object HWND HINSTANCE Procedure →
      Operation Object HWND HINSTANCE Procedure → Prop}
    (hgiven : Runs.EveryStep operate given World.initial ops)
    (himp : ∀ w op, Owned w.objects w.windows → KeepsOwner w op →
      given w op → better w op) :
    Runs.EveryStep operate better World.initial ops := by
  have hsteps := (hadmissible.and hkeeps).and hgiven
  have howned : ∀ (w : World Object HWND HINSTANCE Procedure) op after,
      Owned w.objects w.windows →
      (Admissible w op ∧ KeepsOwner w op) ∧ given w op →
      operate w op = some after → Owned after.objects after.windows := by
    intro w op after h hok hstep
    obtain ⟨reached, hreached, hafter⟩ :=
      operate_owned w op h hok.1.1 hok.1.2
    rw [hstep, Option.some.injEq] at hreached
    exact hreached ▸ hafter
  apply Runs.EveryStep.of_invariant howned _ initial_owned hsteps
  intro w op h hok
  exact himp w op h hok.1.2 hok.2

/-- Over every run, every message to a live window that has had `WM_NCCREATE`,
between operations and within them, reaches the object that owns the window
exactly when every operation keeps owners and creates quietly: no object that
owns a window is moved from, windows are created for objects with a parent
only and are sent nothing before `CreateWindowEx` returns, and `DestroyWindow`
succeeds. -/
theorem dispatches_iff_keepsOwner
    (ops : List (Operation Object HWND HINSTANCE Procedure))
    (hadmissible : Runs.EveryStep operate Admissible World.initial ops) :
    Runs.EveryState operate DispatchesToOwner World.initial ops ∧
        Runs.EveryStep operate DeliversToOwner World.initial ops ↔
      Runs.EveryStep operate
        (fun w op => KeepsOwner w op ∧ CreatesQuietly w op)
        World.initial ops := by
  rw [everyState_dispatches_iff hadmissible]
  constructor
  · rintro ⟨hkeeps, hdelivers⟩
    exact everyStep_of_keepsOwner hadmissible hkeeps hdelivers
      fun w op h hkeep hdeliver =>
        ⟨hkeep, (deliversToOwner_iff h op).mp hdeliver⟩
  · intro hboth
    have hkeeps : Runs.EveryStep operate KeepsOwner World.initial ops :=
      hboth.mono fun _ _ hstep => hstep.1
    refine ⟨hkeeps, everyStep_of_keepsOwner hadmissible hkeeps hboth ?_⟩
    intro w op h _ hstep
    exact (deliversToOwner_iff h op).mpr hstep.2

instance (w : World Object HWND HINSTANCE Procedure) :
    ∀ op, Decidable (Admissible w op)
  | .construct this _ => inferInstanceAs
      (Decidable ((w.objects this).isSome = false))
  | .register this _ os => inferInstanceAs
      (Decidable ((w.objects this).isSome = true ∧
        ∀ hwnd ∈ os.creation.handle, (w.windows hwnd).isSome = false))
  | .unregister this _ => inferInstanceAs
      (Decidable ((w.objects this).isSome = true))
  | .moveConstruct this other => inferInstanceAs
      (Decidable ((w.objects this).isSome = false ∧
        (w.objects other).isSome = true))
  | .moveAssign this other _ => inferInstanceAs
      (Decidable ((w.objects this).isSome = true ∧
        (w.objects other).isSome = true))
  | .destroy this _ => inferInstanceAs
      (Decidable ((w.objects this).isSome = true))

/-- Every call of the system succeeds and the window is `hwnd`. -/
def grantedWindow (hwnd : Nat) : Registration Nat Nat where
  moduleHandle := some 0
  classGranted := true
  creation := .created hwnd 0
  classReleased := true

/-- Two objects, an idle move, and a window moved along. -/
theorem two_objects_dispatch_iff :
    Runs.EveryState operate DispatchesToOwner
        (World.initial : World Nat Nat Nat Nat)
        [.construct 0 7, .construct 1 8, .moveAssign 0 1 ⟨true, true⟩,
          .register 0 "events" (grantedWindow 1), .moveConstruct 2 0] ∧
        Runs.EveryStep operate DeliversToOwner
          (World.initial : World Nat Nat Nat Nat)
          [.construct 0 7, .construct 1 8, .moveAssign 0 1 ⟨true, true⟩,
            .register 0 "events" (grantedWindow 1), .moveConstruct 2 0] ↔
      Runs.EveryStep operate
        (fun w op => KeepsOwner w op ∧ CreatesQuietly w op)
        (World.initial : World Nat Nat Nat Nat)
        [.construct 0 7, .construct 1 8, .moveAssign 0 1 ⟨true, true⟩,
          .register 0 "events" (grantedWindow 1), .moveConstruct 2 0] :=
  dispatches_iff_keepsOwner _ (by decide)

/-- A window moved along with its object keeps the old address, and the old
object neither names the window nor has a parent. -/
theorem moved_window_keeps_old_address :
    Runs.EveryStep operate Admissible (World.initial : World Nat Nat Nat Nat)
        [.construct 0 7, .register 0 "events" (grantedWindow 1),
          .moveConstruct 1 0] ∧
      ¬ Runs.EveryState operate DispatchesToOwner
        (World.initial : World Nat Nat Nat Nat)
        [.construct 0 7, .register 0 "events" (grantedWindow 1),
          .moveConstruct 1 0] := by
  constructor
  · decide
  · intro hevery
    have hfacts : (Runs.run operate (World.initial : World Nat Nat Nat Nat)
        [.construct 0 7, .register 0 "events" (grantedWindow 1),
          .moveConstruct 1 0]).map (fun w =>
            (w.windows 1, (w.objects 0).map MessageEvent.mHwnd)) =
        some (some ⟨some 0⟩, some none) := by decide
    obtain ⟨reached, hdispatches, hfacts⟩ := hevery.observed hfacts
    simp only [Prod.mk.injEq] at hfacts
    rcases hfacts with ⟨hwindow, hmoved⟩
    obtain ⟨e, howner, hhandle⟩ := hdispatches.owner_of_userData hwindow
    rw [howner, Option.map_some, Option.some.injEq, hhandle] at hmoved
    contradiction

end Saigon
