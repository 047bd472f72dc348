/-
A class that is registered and that no object knows of is lost: nobody can
unregister it, and its name cannot be registered again.  A window procedure
loses one when it gives up the object whose window is being created.
-/
import Saigon.NestedSafety

namespace Saigon

variable {Object HWND HINSTANCE Procedure : Type}
  [DecidableEq Object] [DecidableEq HWND] [DecidableEq HINSTANCE]

namespace World

variable {w after : World Object HWND HINSTANCE Procedure} {this : Object}
  {e : MessageEvent HWND HINSTANCE Procedure} {name : String × HINSTANCE}

/-- The class is registered, and no object has it. -/
def Lost (w : World Object HWND HINSTANCE Procedure)
    (name : String × HINSTANCE) : Prop :=
  w.classes name = true ∧ ∀ this, w.classNames this ≠ some name

namespace Lost

omit [DecidableEq Object] [DecidableEq HWND] [DecidableEq HINSTANCE] in
theorem registeredClass_ne (h : w.Lost name) (hthis : w.objects this = some e) :
    e.registeredClass ≠ some name := by
  have hne := h.2 this
  rw [classNames, hthis, Option.bind_some] at hne
  exact hne

omit [DecidableEq HWND] [DecidableEq HINSTANCE] in
theorem setObject (h : w.Lost name) {object : Option (MessageEvent HWND HINSTANCE Procedure)}
    (hobject : ∀ e, object = some e → e.registeredClass ≠ some name) :
    (w.setObject this object).Lost name := by
  refine ⟨h.1, fun other => ?_⟩
  by_cases heq : other = this
  · subst heq
    rw [classNames, setObject_self]
    cases object with
    | none => simp
    | some e => exact hobject e rfl
  · rw [classNames, setObject_of_ne w heq]
    exact h.2 other

omit [DecidableEq Object] [DecidableEq HWND] in
theorem unregisterClass (h : w.Lost name) {other : String × HINSTANCE}
    (hne : other ≠ name) (released : Bool) :
    (w.unregisterClass other released).Lost name := by
  cases released with
  | false => exact h
  | true =>
      exact ⟨(Function.update_of_ne hne.symm _ _).trans h.1, h.2⟩

omit [DecidableEq Object] [DecidableEq HWND] in
/-- For a null instance the class is not unregistered. -/
theorem unregisterClassOf (h : w.Lost name)
    (hclass : e.registeredClass ≠ some name) {released : Bool}
    (hcall : w.unregisterClassOf e.mClassName e.mHinst released = some after) :
    after.Lost name := by
  cases hinst : e.mHinst with
  | none =>
      rw [hinst, World.unregisterClassOf] at hcall
      split at hcall
      · contradiction
      · cases hcall
        exact h
  | some mHinst =>
      rw [MessageEvent.registeredClass, hinst, Option.map_some, Ne,
        Option.some.injEq] at hclass
      rw [hinst, World.unregisterClassOf] at hcall
      cases hcall
      exact h.unregisterClass hclass released

omit [DecidableEq Object] [DecidableEq HWND] in
theorem registerClass (h : w.Lost name) (other : String × HINSTANCE) :
    (w.setClass other true).Lost name := by
  refine ⟨?_, h.2⟩
  by_cases heq : name = other
  · rw [heq]
    exact Function.update_self _ _ _
  · exact (Function.update_of_ne heq _ _).trans h.1

omit [DecidableEq HWND] [DecidableEq HINSTANCE] in
theorem moveConstruct (h : w.Lost name) {other : Object}
    (hmove : w.moveConstruct this other = some after) : after.Lost name := by
  obtain ⟨e, hother, hafter⟩ := Option.bind_eq_some_iff.mp hmove
  cases hafter
  apply setObject
  · apply h.setObject
    intro e' he'
    cases he'
    exact h.registeredClass_ne hother
  · intro e' he'
    cases he'
    simp [MessageEvent.registeredClass, MessageEvent.movedFrom]

omit [DecidableEq HWND] [DecidableEq HINSTANCE] in
theorem resume (h : w.Lost name) {caller : Caller Object}
    (hresume : caller.resume w this = some after) : after.Lost name := by
  cases caller with
  | program =>
      cases hresume
      exact h
  | destructor =>
      cases hresume
      apply h.setObject
      intro e he
      contradiction
  | moveAssign other => exact h.moveConstruct hresume

end Lost

end World

/-- An operation that unregisters the object. -/
def Command.GivesUp (this : Object) :
    Command Object HWND HINSTANCE Procedure → Prop
  | .unregister other _ => other = this
  | .moveAssign other source _ => other = this ∧ source ≠ this
  | .destroy other _ => other = this
  | _ => False

namespace Desktop

variable {d next : Desktop Object HWND HINSTANCE Procedure} {this : Object}
  {name : String × HINSTANCE}

omit [DecidableEq Object] [DecidableEq HINSTANCE] in
theorem callback_lost (h : d.world.Lost name) {hwnd : HWND}
    {message : Message Object} (hcall : d.callback hwnd message = some next) :
    next.world.Lost name := by
  obtain ⟨⟨w, parent⟩, hdispatch, hnext⟩ := Option.bind_eq_some_iff.mp hcall
  have hw : w.Lost name := by
    cases message with
    | ncCreate createParams =>
        rw [World.dispatch_world hdispatch]
        exact h
    | other =>
        rw [World.dispatch_world hdispatch]
        exact h
  cases parent <;> cases hnext <;> exact hw

theorem register_lost (h : d.world.Lost name) {className : String}
    {moduleHandle : Option HINSTANCE} {classGranted : Bool} {hwnd : HWND}
    (hcall : d.register this className moduleHandle classGranted hwnd =
      some next) : next.world.Lost name := by
  obtain ⟨e, hthis, _⟩ := Option.bind_eq_some_iff.mp hcall
  rcases register_cases hthis className moduleHandle classGranted hwnd with
    ⟨_, _, hcases⟩ | ⟨_, _, hcases⟩ | ⟨mHinst, _, rfl, hgranted, hcases⟩
  · rw [hcases] at hcall
    cases hcall
    exact h
  · rw [hcases] at hcall
    cases hcall
    apply h.setObject
    intro e' he'
    cases he'
    simp [MessageEvent.registeredClass, World.named]
  · rw [hcases] at hcall
    cases hcall
    have hobject : (d.world.setObject this
        (some (World.named e className (some mHinst)))).Lost name := by
      apply h.setObject
      rintro e' he' hclass
      cases he'
      rw [MessageEvent.registeredClass, World.named, Option.map_some,
        Option.some.injEq] at hclass
      -- the system grants no class that is registered
      rw [hclass, h.1] at hgranted
      simp at hgranted
    exact hobject.registerClass (className, mHinst)

theorem created_lost (h : d.world.Lost name) {hwnd : HWND}
    {windowCreated classReleased : Bool}
    (hcall : d.created this hwnd windowCreated classReleased = some next) :
    next.world.Lost name := by
  obtain ⟨e, hthis, hnext⟩ := Option.bind_eq_some_iff.mp hcall
  have hclass := h.registeredClass_ne hthis
  cases windowCreated with
  | true =>
      cases hnext
      apply h.setObject
      intro e' he'
      cases he'
      exact hclass
  | false =>
      obtain ⟨w, hw, hnext⟩ := Option.bind_eq_some_iff.mp hnext
      cases hnext
      have hclosed : (d.world.setWindow hwnd none).Lost name := h
      apply (hclosed.unregisterClassOf hclass hw).setObject
      intro e' he'
      cases he'
      simp [MessageEvent.registeredClass]

omit [DecidableEq HWND] in
theorem unregistered_lost (h : d.world.Lost name) {caller : Caller Object}
    {classReleased : Bool}
    (hcall : d.unregistered this caller classReleased = some next) :
    next.world.Lost name := by
  obtain ⟨e, hthis, hnext⟩ := Option.bind_eq_some_iff.mp hcall
  obtain ⟨after, hresume, hnext⟩ := Option.bind_eq_some_iff.mp hnext
  cases hnext
  have hclass := h.registeredClass_ne hthis
  apply World.Lost.resume _ hresume
  apply World.Lost.setObject
  · cases hinst : e.mHinst with
    | none => exact h
    | some mHinst =>
        rw [MessageEvent.registeredClass, hinst, Option.map_some, Ne,
          Option.some.injEq] at hclass
        exact h.unregisterClass hclass classReleased
  · intro e' he'
    cases he'
    simp [MessageEvent.registeredClass]

omit [DecidableEq HWND] in
theorem unregister_lost (h : d.world.Lost name) {caller : Caller Object}
    {classReleased : Bool}
    (hcall : d.unregister this caller classReleased = some next) :
    next.world.Lost name := by
  obtain ⟨e, hthis, hnext⟩ := Option.bind_eq_some_iff.mp hcall
  cases hhandle : e.mHwnd with
  | some hwnd =>
      simp only [hhandle, Option.some.injEq] at hnext
      exact hnext ▸ h
  | none =>
      simp only [hhandle] at hnext
      exact unregistered_lost h hnext

theorem begin_lost (h : d.world.Lost name)
    {command : Command Object HWND HINSTANCE Procedure}
    (hcall : d.begin command = some next) : next.world.Lost name := by
  cases command with
  | construct this parent =>
      cases hcall
      apply h.setObject
      intro e he
      cases he
      simp [MessageEvent.registeredClass, MessageEvent.construct]
  | register this className moduleHandle classGranted hwnd =>
      exact register_lost h hcall
  | unregister this classReleased => exact unregister_lost h hcall
  | moveConstruct this other =>
      obtain ⟨after, hmove, hnext⟩ := Option.bind_eq_some_iff.mp hcall
      cases hnext
      exact h.moveConstruct hmove
  | moveAssign this other classReleased =>
      rw [begin] at hcall
      split at hcall
      · exact unregister_lost h hcall
      · cases hcall
        exact h
  | destroy this classReleased => exact unregister_lost h hcall

/-- Step lemma: whatever happens, a lost class stays lost. -/
theorem step_lost (h : d.world.Lost name)
    {happening : Happening Object HWND HINSTANCE Procedure}
    (hstep : d.step happening = some next) : next.world.Lost name := by
  cases happening with
  | command command =>
      rw [step] at hstep
      split at hstep
      · exact begin_lost h hstep
      · contradiction
  | message hwnd =>
      rw [step] at hstep
      split at hstep
      · exact callback_lost h hstep
      · contradiction
  | send ncCreate =>
      simp only [step] at hstep
      split at hstep
      · exact callback_lost h hstep
      · split at hstep
        · contradiction
        · exact callback_lost h hstep
      · contradiction
  | procedureReturns =>
      simp only [step] at hstep
      split at hstep
      · cases hstep
        exact h
      · contradiction
  | createWindowExReturns windowCreated classReleased =>
      simp only [step] at hstep
      split at hstep
      · apply created_lost _ hstep
        exact h
      · contradiction
  | destroyWindowReturns windowDestroyed classReleased =>
      simp only [step] at hstep
      split at hstep
      · rw [destroyed] at hstep
        split at hstep
        · apply unregistered_lost _ hstep
          exact h
        · apply unregistered_lost _ hstep
          exact h
      · contradiction

/-- Run lemma. -/
theorem run_lost {last : Desktop Object HWND HINSTANCE Procedure}
    (h : d.world.Lost name)
    {happenings : List (Happening Object HWND HINSTANCE Procedure)}
    (hrun : Runs.run step d happenings = some last) : last.world.Lost name := by
  have hall : Runs.Throughout step (fun d => d.world.Lost name) d happenings :=
    Runs.Throughout.of_invariant (fun _ _ _ h hstep => step_lost h hstep)
      (fun _ h => h) h happenings
  exact hall.last hrun

omit [DecidableEq HWND] in
/-- A class that is not unregistered. -/
theorem unregistered_refused {e : MessageEvent HWND HINSTANCE Procedure}
    (hthis : d.world.objects this = some e) (caller : Caller Object) :
    d.unregistered this caller false =
      (caller.resume (d.world.setObject this (some e.released)) this).bind
        fun w => some { d with world := w } := by
  cases hinst : e.mHinst <;>
    simp [unregistered, World.unregisterClass, MessageEvent.released, hthis,
      hinst]

/-- The class of a window cannot be unregistered, so that an object which is
given up while its window is being created leaves its class behind. -/
theorem unregister_creating (h : d.Consistent) {hwnd : HWND}
    (hcreating : .createWindowEx this hwnd ∈ d.pending)
    {classReleased : Bool} (hgiven : d.MayUnregister this classReleased)
    {caller : Caller Object}
    (hcall : d.unregister this caller classReleased = some next) :
    ∃ name, d.world.classNames this = some name ∧ next.world.Lost name := by
  obtain ⟨e, _, hthis, hhandle, _⟩ := h.begun _ hcreating
  obtain ⟨e', he', hopen, _⟩ :=
    World.settle_of_mem h.apart h.begun hcreating rfl rfl
  rw [hthis, Option.some.injEq] at he'
  subst he'
  obtain ⟨mHinst, hinst⟩ := h.registered hopen
  have hname : e.registeredClass = some (e.mClassName, mHinst) := by
    rw [MessageEvent.registeredClass, hinst, Option.map_some]
  have hnames : d.world.classNames this = some (e.mClassName, mHinst) := by
    rw [World.classNames, hthis, Option.bind_some, hname]
  refine ⟨_, hnames, ?_⟩
  -- the system refuses, as the class has the window that is being created
  have hrefused : classReleased = false := by
    have hwindow := h.classed.named this _ hwnd hopen rfl
    have hanswers := hgiven.2 e hthis (by rw [hhandle]; rfl) _ hname
    cases classReleased with
    | false => rfl
    | true => exact absurd (hanswers.mp rfl hwnd (hwindow.trans hname)) (by simp)
  simp only [unregister, hthis, Option.bind_eq_bind, Option.bind_some, hhandle,
    hrefused, unregistered_refused hthis] at hcall
  obtain ⟨after, hresume, hnext⟩ := Option.bind_eq_some_iff.mp hcall
  cases hnext
  apply World.Lost.resume _ hresume
  have hclasses := h.sound.classes
  constructor
  · exact hclasses.owned this _ hnames
  · intro other
    by_cases heq : other = this
    · rw [heq, World.classNames, World.setObject_self]
      simp [MessageEvent.registeredClass, MessageEvent.released]
    · rw [World.classNames, World.setObject_of_ne _ heq]
      intro hother
      exact heq (hclasses.unique other this _ hother hnames)

/-- The object's parent handles `WM_NCCREATE`. -/
def inFirstMessage : List (Happening Nat (Fin 1) Nat Nat) :=
  [.command (.construct 0 7),
    .command (.register 0 "events" (some 0) true 0), .send true]

/-- No window comes of it, and the class is unregistered for a null instance. -/
example : (Runs.run step (initial : Desktop Nat (Fin 1) Nat Nat)
    (inFirstMessage ++ [.command (.unregister 0 false), .procedureReturns,
      .createWindowExReturns false false])).map (fun d =>
        (d.world.classes ("events", 0), d.world.classNames 0)) =
    some (true, none) := by decide

end Desktop

end Saigon
