/-
`message_event` neither leaks nor releases twice.  A registration that throws
takes back what it acquired, and every other operation acquires, passes on or
releases a window together with its class.
-/
import Saigon.Resources

namespace Saigon

variable {Object HWND HINSTANCE Procedure : Type}

section Register

variable [DecidableEq Object] [DecidableEq HWND] [DecidableEq HINSTANCE]
  {w : World Object HWND HINSTANCE Procedure} {this : Object}
  {e : MessageEvent HWND HINSTANCE Procedure} {className : String}
  {os : Registration HWND HINSTANCE}

omit [DecidableEq HWND] in
/-- Unregistering the class just registered restores the classes. -/
theorem World.rollback {mHinst : HINSTANCE}
    (hclass : w.classes (className, mHinst) = false) (this : Object)
    (first second : Option (MessageEvent HWND HINSTANCE Procedure)) :
    (((w.setObject this first).setClass (className, mHinst) true).setClass
      (className, mHinst) false).setObject this second =
        w.setObject this second := by
  have hclasses : Function.update w.classes (className, mHinst) false =
      w.classes := by
    rw [← hclass, Function.update_eq_self]
  simp [setObject, setClass, Function.update_idem, hclasses]

namespace Resources

theorem register_again {hwnd : HWND} (hthis : w.objects this = some e)
    (hhandle : e.mHwnd = some hwnd) :
    registerWindowClass w this className os = some (w, none) := by
  simp [registerWindowClass, hthis, hhandle]

theorem register_no_module (hthis : w.objects this = some e)
    (hhandle : e.mHwnd = none) (hmodule : os.moduleHandle = none) :
    registerWindowClass w this className os = some
      (w.setObject this (some (World.named e className none)),
        some .getModuleHandle) := by
  simp [registerWindowClass, World.named, hthis, hhandle, hmodule]

section Module

variable {mHinst : HINSTANCE} (hthis : w.objects this = some e)
  (hhandle : e.mHwnd = none) (hmodule : os.moduleHandle = some mHinst)
include hthis hhandle hmodule

theorem register_class_refused
    (hrefused : (os.classGranted && !w.classes (className, mHinst)) = false) :
    registerWindowClass w this className os = some
      (w.setObject this (some (World.named e className none)),
        some .registerClass) := by
  simp [registerWindowClass, World.named, hthis, hhandle, hmodule, hrefused]

variable
  (hgranted : (os.classGranted && !w.classes (className, mHinst)) = true)
  {opened : World Object HWND HINSTANCE Procedure}
include hgranted

theorem register_created {hwnd : HWND}
    (hcreate : createWindowEx (w.classRegistered this e className mHinst) this
      os.creation = (opened, some hwnd)) :
    registerWindowClass w this className os = some
      (opened.setObject this
        (some ⟨some hwnd, some mHinst, className, e.mParent⟩), none) := by
  rw [World.classRegistered, World.named] at hcreate
  simp [registerWindowClass, hthis, hhandle, hmodule, hgranted, hcreate]

/-- Without a window the class is unregistered again. -/
theorem register_not_created (hreleased : os.classReleased = true)
    (hcreate : createWindowEx (w.classRegistered this e className mHinst) this
      os.creation = (opened, none))
    (hclass : opened.classes (className, mHinst) = true) :
    registerWindowClass w this className os = some
      ((opened.setClass (className, mHinst) false).setObject this
        (some (World.named e className none)), some .createWindowEx) := by
  rw [World.classRegistered, World.named] at hcreate
  simp [registerWindowClass, unregisterClass, World.unregisterClass,
    World.named, hthis, hhandle, hmodule, hgranted, hreleased, hcreate, hclass]

end Module

/-- The three ways a registration ends: the object already has its window, the
call throws and only the class name is written, or both resources are
acquired. -/
theorem register_cases (hthis : w.objects this = some e)
    (className : String) (hreleased : os.classReleased = true) :
    (e.mHwnd.isSome = true ∧
      registerWindowClass w this className os = some (w, none)) ∨
    (e.mHwnd = none ∧ ∃ error,
      registerWindowClass w this className os = some
        (w.setObject this (some (World.named e className none)), some error)) ∨
    (e.mHwnd = none ∧ ∃ mHinst hwnd,
      os.creation.handle = some hwnd ∧
      w.classes (className, mHinst) = false ∧
      registerWindowClass w this className os = some
        (((w.setClass (className, mHinst) true).setWindow hwnd
          (some ⟨some this⟩)).setObject this
            (some ⟨some hwnd, some mHinst, className, e.mParent⟩), none)) := by
  cases hhandle : e.mHwnd with
  | some hwnd => exact Or.inl ⟨rfl, register_again hthis hhandle⟩
  | none =>
      right
      cases hmodule : os.moduleHandle with
      | none =>
          exact Or.inl ⟨rfl, _, register_no_module hthis hhandle hmodule⟩
      | some mHinst =>
          cases hgranted : os.classGranted && !w.classes (className, mHinst) with
          | false =>
              exact Or.inl ⟨rfl, _,
                register_class_refused hthis hhandle hmodule hgranted⟩
          | true =>
              have hclass : w.classes (className, mHinst) = false := by
                rw [Bool.and_eq_true, Bool.not_eq_true'] at hgranted
                exact hgranted.2
              have hthrows : createWindowEx
                    (w.classRegistered this e className mHinst) this os.creation =
                    (w.classRegistered this e className mHinst, none) →
                  registerWindowClass w this className os = some
                    (w.setObject this (some (World.named e className none)),
                      some .createWindowEx) := by
                intro hcreate
                rw [register_not_created hthis hhandle hmodule hgranted
                  hreleased hcreate (Function.update_self _ _ _),
                  World.classRegistered, World.rollback hclass]
              cases hcreation : os.creation with
              | unavailable =>
                  exact Or.inl ⟨rfl, _, hthrows (by rw [hcreation]; rfl)⟩
              | refused hwnd =>
                  exact Or.inl ⟨rfl, _, hthrows (by rw [hcreation]; rfl)⟩
              | created hwnd =>
                  have hregister := register_created hthis hhandle hmodule
                    hgranted (by rw [hcreation]; rfl)
                  refine Or.inr ⟨rfl, mHinst, hwnd, rfl, hclass, ?_⟩
                  rw [hregister]
                  simp [World.classRegistered, World.setObject, World.setClass,
                    World.setWindow]

end Resources

/-- A registration that throws leaves the windows, the classes and the
object's handles as they were. -/
theorem Accounted.register_thrown (h : Accounted w)
    (hthis : w.objects this = some e) (hreleased : os.classReleased = true)
    {after : World Object HWND HINSTANCE Procedure} {error : RegisterError}
    (hcall : Resources.registerWindowClass w this className os =
      some (after, some error)) :
    after.windows = w.windows ∧ after.classes = w.classes ∧
      ∃ e', after.objects this = some e' ∧ e'.mHwnd = e.mHwnd ∧
        e'.mHinst = e.mHinst := by
  rcases Resources.register_cases hthis className hreleased with
    ⟨_, hcall'⟩ | ⟨hhandle, error', hcall'⟩ | ⟨_, mHinst, hwnd, _, _, hcall'⟩
  · rw [hcall'] at hcall
    cases hcall
  · rw [hcall'] at hcall
    cases hcall
    have hinst := ((h.bare hthis hhandle) e hthis).2
    refine ⟨rfl, rfl, World.named e className none, ?_, ?_, ?_⟩
    · rw [World.setObject_self]
    · exact hhandle.symm
    · exact hinst.symm
  · rw [hcall'] at hcall
    cases hcall

/-- Registering keeps the accounts, whichever of its calls fails. -/
theorem Accounted.register (h : Accounted w)
    (hthis : w.objects this = some e) (className : String)
    (hreleased : os.classReleased = true)
    (hfree : ∀ hwnd ∈ os.creation.handle, (w.windows hwnd).isSome = false) :
    ∃ after error,
      Resources.registerWindowClass w this className os =
        some (after, error) ∧ Accounted after := by
  rcases Resources.register_cases hthis className hreleased with
    ⟨_, hcall⟩ | ⟨hhandle, error, hcall⟩ |
    ⟨hhandle, mHinst, hwnd, hcreated, hclass, hcall⟩
  · exact ⟨_, _, hcall, h⟩
  · refine ⟨_, _, hcall, ?_⟩
    have hbare : Bare (some (World.named e className (none : Option HINSTANCE))) :=
      bare_some rfl rfl
    exact h.replace (h.bare hthis hhandle) hbare rfl rfl rfl
  · refine ⟨_, _, hcall, ?_⟩
    have hwindow := absent_iff.mp (hfree hwnd hcreated)
    exact h.acquire (h.bare hthis hhandle) rfl rfl hwindow hclass rfl rfl rfl

end Register

/-! ### Every operation -/

section Operate

variable [DecidableEq Object] [DecidableEq HWND] [DecidableEq HINSTANCE]
  {w : World Object HWND HINSTANCE Procedure}

omit [DecidableEq Object] [DecidableEq HWND] [DecidableEq HINSTANCE] in
theorem bare_of_not_alive
    {object : Option (MessageEvent HWND HINSTANCE Procedure)}
    (hdead : object.isSome = false) : Bare object := by
  intro e he
  rw [absent_iff.mp hdead] at he
  contradiction

/-- Step lemma: whichever calls fail, an operation releases nothing twice and
leaves the accounts in order. -/
theorem Accounted.operate (h : Accounted w)
    (op : Operation Object HWND HINSTANCE Procedure) (hgiven : Admissible w op)
    (hreleases : Releases op) :
    ∃ after, Resources.operate w op = some after ∧ Accounted after := by
  cases op with
  | construct this parent =>
      have hbare : Bare (some (MessageEvent.construct parent :
          MessageEvent HWND HINSTANCE Procedure)) :=
        bare_some rfl rfl
      exact ⟨_, rfl, h.replace (bare_of_not_alive hgiven) hbare rfl rfl rfl⟩
  | register this className os =>
      obtain ⟨e, hthis⟩ := Option.isSome_iff_exists.mp hgiven.1
      obtain ⟨after, error, hcall, hafter⟩ :=
        h.register hthis className hreleases hgiven.2
      exact ⟨after, by rw [Resources.operate, hcall, Option.map_some], hafter⟩
  | unregister this os =>
      obtain ⟨e, hthis⟩ := Option.isSome_iff_exists.mp hgiven
      obtain ⟨after, hcall, hafter, _⟩ := h.unregister hthis hreleases
      exact ⟨after, hcall, hafter⟩
  | moveConstruct this other =>
      obtain ⟨e, hother⟩ := Option.isSome_iff_exists.mp hgiven.2
      exact h.moveConstruct (bare_of_not_alive hgiven.1) hother
  | moveAssign this other os =>
      by_cases hself : this = other
      · refine ⟨w, ?_, h⟩
        rw [Resources.operate, Resources.moveAssign, if_neg (not_not.mpr hself)]
      · obtain ⟨e, hthis⟩ := Option.isSome_iff_exists.mp hgiven.1
        obtain ⟨e', hother⟩ := Option.isSome_iff_exists.mp hgiven.2
        obtain ⟨bared, hcall, hbared, hbare, hrest⟩ := h.unregister hthis hreleases
        rw [← hrest other (Ne.symm hself)] at hother
        obtain ⟨after, hmove, hafter⟩ := hbared.moveConstruct hbare hother
        refine ⟨after, ?_, hafter⟩
        rw [Resources.operate, Resources.moveAssign, if_pos hself, hcall]
        exact hmove
  | destroy this os =>
      obtain ⟨e, hthis⟩ := Option.isSome_iff_exists.mp hgiven
      obtain ⟨bared, hcall, hbared, hbare, _⟩ := h.unregister hthis hreleases
      have hnone : Bare (none : Option (MessageEvent HWND HINSTANCE Procedure)) :=
        bare_of_not_alive rfl
      refine ⟨bared.setObject this none, ?_, ?_⟩
      · rw [Resources.operate, Resources.destroy, hcall]
        rfl
      · exact hbared.replace hbare hnone rfl rfl rfl

end Operate

/-! ### The operations with their messages -/

section Messages

variable [DecidableEq Object] [DecidableEq HWND] [DecidableEq HINSTANCE]
  {w after : World Object HWND HINSTANCE Procedure} {this : Object}
  {e : MessageEvent HWND HINSTANCE Procedure}

omit [DecidableEq Object] [DecidableEq HWND] [DecidableEq HINSTANCE] in
theorem World.dispatch_world {pThis : Option Object}
    {called : Option Procedure} (hcall : w.dispatch pThis = some (after, called)) :
    after = w := by
  cases pThis with
  | none =>
      cases hcall
      rfl
  | some this =>
      simp only [dispatch, Option.bind_eq_bind, Option.bind_eq_some_iff,
        Option.some.injEq, Prod.mk.injEq] at hcall
      obtain ⟨_, _, _, _, hworld, _⟩ := hcall
      exact hworld.symm

omit [DecidableEq Object] [DecidableEq HINSTANCE] in
theorem World.destroyWindow_world {hwnd : HWND}
    (hcall : w.destroyWindow hwnd true = some after) :
    after = w.setWindow hwnd none := by
  simp only [destroyWindow, ↓reduceIte, Option.bind_eq_bind,
    Option.bind_eq_some_iff, Option.some.injEq] at hcall
  obtain ⟨⟨sent, called⟩, hcall, hworld⟩ := hcall
  rw [← hworld, World.dispatch_world hcall]

/-- Unregistering with its messages. -/
theorem Accounted.unregister_of_world (h : Accounted w)
    (hthis : w.objects this = some e) {os : Teardown}
    (hos : os.windowDestroyed = true ∧ os.classReleased = true)
    (hcall : w.unregisterWindowClass this os = some after) :
    Resources.unregisterWindowClass w this os = some after := by
  cases hhandle : e.mHwnd with
  | none =>
      have hinst := ((h.bare hthis hhandle) e hthis).2
      rw [← hcall]
      simp [Resources.unregisterWindowClass, World.unregisterWindowClass,
        hthis, hhandle, hinst]
  | some hwnd =>
      have hlive : (w.windows hwnd).isSome = true := by
        apply h.windows.owned this
        rw [World.windowNames, hthis, Option.bind_some, hhandle]
      have hclass : ∀ mHinst, e.mHinst = some mHinst →
          (w.setWindow hwnd none).classes (e.mClassName, mHinst) = true := by
        intro mHinst hinst
        apply h.classes.owned this
        rw [World.classNames, hthis, Option.bind_some,
          MessageEvent.registeredClass, hinst, Option.map_some]
      simp only [World.unregisterWindowClass, hthis, hhandle, hos.1,
        Option.bind_eq_bind, Option.bind_some, Option.bind_eq_some_iff] at hcall
      obtain ⟨closed, hclosed, hcall⟩ := hcall
      rw [World.destroyWindow_world hclosed] at hcall
      rw [← hcall]
      cases hinst : e.mHinst with
      | none =>
          simp [Resources.unregisterWindowClass, Resources.destroyWindow, hthis,
            hhandle, hinst, hlive, hos.1]
      | some mHinst =>
          simp [Resources.unregisterWindowClass, Resources.destroyWindow,
            Resources.unregisterClass, hthis, hhandle, hinst, hlive, hos.1,
            hclass mHinst hinst]

omit [DecidableEq Object] [DecidableEq HINSTANCE] in
theorem World.createWindowEx_world (hthis : w.objects this = some e)
    {creation : Creation HWND} {handle : Option HWND}
    (hfree : ∀ hwnd ∈ creation.handle, (w.windows hwnd).isSome = false)
    (hcall : w.createWindowEx this creation = some (after, handle)) :
    Resources.createWindowEx w this creation = (after, handle) := by
  cases creation with
  | unavailable =>
      cases hcall
      rfl
  | refused hwnd =>
      rw [createWindowEx_refused hthis, Option.map_eq_some_iff] at hcall
      obtain ⟨_, _, hresult⟩ := hcall
      have hdead := absent_iff.mp (hfree hwnd rfl)
      rw [← hresult, Resources.createWindowEx, World.setWindow, ← hdead,
        Function.update_eq_self]
  | created hwnd =>
      rw [createWindowEx_created hthis, Option.map_eq_some_iff] at hcall
      obtain ⟨_, _, hresult⟩ := hcall
      exact hresult

omit [DecidableEq Object] [DecidableEq HINSTANCE] in
theorem Resources.createWindowEx_none {creation : Creation HWND}
    (hcreate : createWindowEx w this creation = (after, none)) : after = w := by
  cases creation with
  | unavailable =>
      cases hcreate
      rfl
  | refused hwnd =>
      cases hcreate
      rfl
  | created hwnd => cases hcreate

/-- Registering with its messages. -/
theorem Resources.register_of_world (hthis : w.objects this = some e)
    {className : String} {os : Registration HWND HINSTANCE}
    {error : Option RegisterError} (hreleased : os.classReleased = true)
    (hfree : ∀ hwnd ∈ os.creation.handle, (w.windows hwnd).isSome = false)
    (hcall : w.registerWindowClass this className os = some (after, error)) :
    registerWindowClass w this className os = some (after, error) := by
  cases hhandle : e.mHwnd with
  | some hwnd =>
      rw [World.register_again hthis hhandle] at hcall
      rw [register_again hthis hhandle, hcall]
  | none =>
      cases hmodule : os.moduleHandle with
      | none =>
          rw [World.register_no_module hthis hhandle hmodule] at hcall
          rw [register_no_module hthis hhandle hmodule, hcall]
      | some mHinst =>
          cases hgranted : os.classGranted && !w.classes (className, mHinst) with
          | false =>
              rw [World.register_class_refused hthis hhandle hmodule hgranted]
                at hcall
              rw [register_class_refused hthis hhandle hmodule hgranted, hcall]
          | true =>
              rw [World.register_granted hthis hhandle hmodule hgranted,
                Option.map_eq_some_iff] at hcall
              obtain ⟨⟨opened, handle⟩, hopened, hresult⟩ := hcall
              have hstart : (w.classRegistered this e className mHinst).objects
                  this = some (World.named e className (some mHinst)) :=
                Function.update_self _ _ _
              have hcreate := World.createWindowEx_world hstart hfree hopened
              rw [← hresult]
              cases handle with
              | some hwnd =>
                  exact register_created hthis hhandle hmodule hgranted hcreate
              | none =>
                  have hkept := Resources.createWindowEx_none hcreate
                  have hclass : opened.classes (className, mHinst) = true := by
                    rw [hkept]
                    exact Function.update_self _ _ _
                  rw [hreleased]
                  exact register_not_created hthis hhandle hmodule hgranted
                    hreleased hcreate hclass

/-- An operation that is defined with its messages leaves what it leaves
without them. -/
theorem Accounted.operate_of_operate (h : Accounted w)
    {op : Operation Object HWND HINSTANCE Procedure} (hgiven : Admissible w op)
    (hreleases : Releases op) (hstep : Saigon.operate w op = some after) :
    Resources.operate w op = some after := by
  cases op with
  | construct this parent => exact hstep
  | register this className os =>
      obtain ⟨e, hthis⟩ := Option.isSome_iff_exists.mp hgiven.1
      obtain ⟨⟨reached, error⟩, hcall, rfl⟩ := Option.map_eq_some_iff.mp hstep
      rw [Resources.operate,
        Resources.register_of_world hthis hreleases hgiven.2 hcall]
      rfl
  | unregister this os =>
      obtain ⟨e, hthis⟩ := Option.isSome_iff_exists.mp hgiven
      exact h.unregister_of_world hthis hreleases hstep
  | moveConstruct this other => exact hstep
  | moveAssign this other os =>
      by_cases hself : this = other
      · rw [Resources.operate, Resources.moveAssign, if_neg (not_not.mpr hself)]
        rwa [Saigon.operate, World.moveAssign, if_neg (not_not.mpr hself)] at hstep
      · obtain ⟨e, hthis⟩ := Option.isSome_iff_exists.mp hgiven.1
        rw [Saigon.operate, World.moveAssign, if_pos hself] at hstep
        obtain ⟨bared, hcall, hmove⟩ := Option.bind_eq_some_iff.mp hstep
        rw [Resources.operate, Resources.moveAssign, if_pos hself,
          h.unregister_of_world hthis hreleases hcall]
        exact hmove
  | destroy this os =>
      obtain ⟨e, hthis⟩ := Option.isSome_iff_exists.mp hgiven
      obtain ⟨bared, hcall, hafter⟩ := Option.bind_eq_some_iff.mp hstep
      rw [Resources.operate, Resources.destroy,
        h.unregister_of_world hthis hreleases hcall]
      exact hafter

/-- Step lemma: an operation that is defined with its messages keeps the
accounts as well. -/
theorem Accounted.operate_messages (h : Accounted w)
    {op : Operation Object HWND HINSTANCE Procedure} (hgiven : Admissible w op)
    (hreleases : Releases op) (hstep : Saigon.operate w op = some after) :
    Accounted after := by
  obtain ⟨reached, hreached, hkept⟩ := h.operate op hgiven hreleases
  rw [h.operate_of_operate hgiven hreleases hstep,
    Option.some.injEq] at hreached
  exact hreached ▸ hkept

end Messages

section Balanced

variable [DecidableEq Object] [DecidableEq HWND] [DecidableEq HINSTANCE]
  {w : World Object HWND HINSTANCE Procedure}

/-- What holds between operations: every object has a window and a class or
neither, each live window and each registered class belongs to exactly one
object, what an object names is there, and a registration that throws would
change neither the windows nor the classes nor the handles of its object. -/
structure Balanced (w : World Object HWND HINSTANCE Procedure) : Prop where
  paired : ∀ this e, w.objects this = some e →
    e.mHwnd.isSome = e.mHinst.isSome
  windowOwner : ∀ hwnd, (w.windows hwnd).isSome = true →
    ∃ this, w.windowNames this = some hwnd ∧
      ∀ other, w.windowNames other = some hwnd → other = this
  classOwner : ∀ name, w.classes name = true →
    ∃ this, w.classNames this = some name ∧
      ∀ other, w.classNames other = some name → other = this
  windowLive : ∀ this hwnd, w.windowNames this = some hwnd →
    (w.windows hwnd).isSome = true
  classLive : ∀ this name, w.classNames this = some name →
    w.classes name = true
  thrown : ∀ this e className (os : Registration HWND HINSTANCE) after error,
    w.objects this = some e → os.classReleased = true →
    Resources.registerWindowClass w this className os =
      some (after, some error) →
    after.windows = w.windows ∧ after.classes = w.classes ∧
      ∃ e', after.objects this = some e' ∧ e'.mHwnd = e.mHwnd ∧
        e'.mHinst = e.mHinst

theorem Accounted.balanced (h : Accounted w) : Balanced w where
  paired := h.paired
  windowOwner := fun _ hlive => h.windows.existsUnique hlive
  classOwner := fun _ hlive => h.classes.existsUnique hlive
  windowLive := h.windows.owned
  classLive := h.classes.owned
  thrown := by
    intro this e className os after error hthis hreleased hcall
    exact h.register_thrown hthis hreleased hcall

/-- Over every run in which the system releases what it is asked to release,
nothing is destroyed or unregistered twice, and in every state each live
window and each registered class belongs to exactly one live object, which has
both or neither. -/
theorem resources_balanced
    (ops : List (Operation Object HWND HINSTANCE Procedure))
    (hadmitted : Runs.EveryStep Resources.operate
      (fun w op => Admissible w op ∧ Releases op) World.initial ops) :
    Runs.EveryState Resources.operate Balanced World.initial ops := by
  have hevery := Runs.everyState_of_invariant
    (fun w op (h : Accounted w) hok => h.operate op hok.1 hok.2)
    initial_accounted hadmitted
  exact hevery.mono fun w h => h.balanced

/-- The same over every run with messages, up to a message that the moved-from
object of its window cannot handle. -/
theorem operations_balanced
    (ops : List (Operation Object HWND HINSTANCE Procedure))
    (hadmitted : Runs.EveryStep operate
      (fun w op => Admissible w op ∧ Releases op) World.initial ops) :
    Runs.Throughout operate Balanced World.initial ops := by
  apply Runs.Throughout.of_everyStep _ _ initial_accounted hadmitted
  · intro w op after h hok hstep
    exact h.operate_messages hok.1 hok.2 hstep
  · intro w h
    exact h.balanced

instance : ∀ op : Operation Object HWND HINSTANCE Procedure,
    Decidable (Releases op)
  | .construct _ _ => inferInstanceAs (Decidable True)
  | .register _ _ os => inferInstanceAs (Decidable (os.classReleased = true))
  | .unregister _ os => inferInstanceAs
      (Decidable (os.windowDestroyed = true ∧ os.classReleased = true))
  | .moveConstruct _ _ => inferInstanceAs (Decidable True)
  | .moveAssign _ _ os => inferInstanceAs
      (Decidable (os.windowDestroyed = true ∧ os.classReleased = true))
  | .destroy _ os => inferInstanceAs
      (Decidable (os.windowDestroyed = true ∧ os.classReleased = true))

end Balanced

/-- Two objects compete for a class name, the window moves along twice, and
what was moved from registers again without success. -/
theorem two_objects_balanced :
    Runs.EveryState Resources.operate Balanced
      (World.initial : World Nat Nat Nat Nat)
      [.construct 0 7, .register 0 "events" (grantedWindow 1),
        .construct 1 8, .register 1 "events" (grantedWindow 2),
        .moveConstruct 2 0, .moveAssign 1 2 ⟨true, true⟩,
        .register 2 "other" ⟨some 0, true, .refused 3 0, true⟩,
        .destroy 1 ⟨true, true⟩] :=
  resources_balanced _ (by decide)

/-- A run that ends with messages too: a class name is refused, an object
without a window is moved, and no window comes of its first registration. -/
def balancedRun : List (Operation Nat Nat Nat Nat) :=
  [.construct 0 7, .register 0 "events" (grantedWindow 1),
    .construct 1 8, .register 1 "events" (grantedWindow 2),
    .moveConstruct 2 1, .register 2 "other" ⟨some 0, true, .refused 3 2, true⟩,
    .unregister 0 ⟨true, true⟩, .register 2 "events" (grantedWindow 3),
    .destroy 1 ⟨true, true⟩, .destroy 2 ⟨true, true⟩]

example : Runs.EveryStep operate (fun w op => Admissible w op ∧ Releases op)
      World.initial balancedRun ∧
    (Runs.run operate World.initial balancedRun).map (fun w =>
      (w.windows 1, w.windows 3, w.classes ("events", 0))) =
      some (none, none, false) := by decide

end Saigon
