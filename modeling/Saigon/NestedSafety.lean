/-
Nested calls refine operations that run one after another.  Messages and
returns leave the settled world as it is, apart from what takes effect at a
return, so that the accounts of the operations hold to any depth.
-/
import Saigon.NestedOperations

namespace Saigon

variable {Object HWND HINSTANCE Procedure : Type}
  [DecidableEq Object] [DecidableEq HWND] [DecidableEq HINSTANCE]

namespace Desktop

variable {d : Desktop Object HWND HINSTANCE Procedure} {this : Object}
  {hwnd : HWND}

/-! ### Messages -/

omit [DecidableEq HINSTANCE] in
/-- A message to a window with user data reaches the parent of the object that
has, or will have, the window. -/
theorem Consistent.delivers (h : d.Consistent)
    (hwindow : d.world.windows hwnd = some ⟨some this⟩) :
    ∃ e parent, d.world.objects this = some e ∧ e.mParent = some parent ∧
      d.world.procedureCallback hwnd .other = some (d.world, some parent) := by
  have hsettled := World.settle_userData h.begun hwindow
  obtain ⟨owner, e', parent, huser, howner, _, hparent⟩ :=
    h.owned.owner hwnd _ hsettled
  cases huser
  obtain ⟨e, hthis, hsame⟩ := World.of_settle_objects howner
  have hparent' : e.mParent = some parent := by
    rw [← hparent, hsame]
  refine ⟨e, parent, hthis, hparent', ?_⟩
  rw [World.procedureCallback, hwindow]
  exact World.dispatch_eq hthis hparent'

/-- A message to a live window. -/
theorem Consistent.message (h : d.Consistent)
    (hlive : (d.world.windows hwnd).isSome = true) :
    ∃ next, d.callback hwnd .other = some next ∧ d.Leads none next := by
  obtain ⟨⟨userData⟩, hwindow⟩ := Option.isSome_iff_exists.mp hlive
  cases userData with
  | none =>
      -- `DefWindowProc` runs no code of the program
      have hdefault : d.world.procedureCallback hwnd .other =
          some (d.world, none) := by
        rw [World.procedureCallback, hwindow]
        rfl
      exact ⟨d, by simp [callback, hdefault], h.still⟩
  | some this =>
      obtain ⟨e, parent, _, _, hcall⟩ := h.delivers hwindow
      refine ⟨{ d with pending := .procedure :: d.pending },
        by simp [callback, hcall], ?_, ?_, h.classed, rfl⟩
      · apply PendingCall.pairwise_push h.apart
        · rintro _ ⟨⟩
        · rintro _ ⟨⟩
      · intro call hcall
        rcases List.mem_cons.mp hcall with rfl | hcall
        · trivial
        · exact h.begun call hcall

/-- `WM_NCCREATE` reaches the object whose registration creates the window. -/
theorem Consistent.ncCreate (h : d.Consistent)
    {rest : List (PendingCall Object HWND)}
    (hpending : d.pending = .createWindowEx this hwnd :: rest) :
    ∃ next, d.callback hwnd (.ncCreate (some this)) = some next ∧
      d.Leads none next := by
  obtain ⟨hobjects, hhandles, e, hthis, hsettled⟩ := h.top hpending rfl rfl
  have hopen : d.settled.objects this = some { e with mHwnd := some hwnd } := by
    rw [hsettled]
    exact Function.update_self _ _ _
  have hparent : ∃ parent, e.mParent = some parent := by
    obtain ⟨owner, e', parent, _, howner, hmine, hparent⟩ :=
      h.owned.owner hwnd _ (h.owned.owned this _ hwnd hopen rfl)
    rw [h.owned.unique howner hopen hmine rfl, hopen, Option.some.injEq]
      at howner
    rw [← howner] at hparent
    exact ⟨parent, hparent⟩
  obtain ⟨parent, hparent⟩ := hparent
  have hdispatch : d.world.procedureCallback hwnd (.ncCreate (some this)) =
      some (d.world.setWindow hwnd (some ⟨some this⟩), some parent) :=
    World.dispatch_eq hthis hparent
  have hsame : (d.world.setWindow hwnd (some ⟨some this⟩)).settle
      (.procedure :: d.pending) = d.settled := by
    rw [hpending, World.settle, World.settle,
      World.settle_setWindow _ hhandles, settled, hpending, World.settle]
    simp [PendingCall.settle, World.setObject, World.setWindow]
  refine ⟨⟨d.world.setWindow hwnd (some ⟨some this⟩), d.windowClass,
    .procedure :: d.pending⟩, by simp [callback, hdispatch], ?_, ?_, ?_,
    hsame⟩
  · apply PendingCall.pairwise_push h.apart
    · rintro _ ⟨⟩
    · rintro _ ⟨⟩
  · intro call hmem
    rw [hpending] at hmem
    rcases List.mem_cons.mp hmem with rfl | hmem
    · trivial
    · rcases List.mem_cons.mp hmem with rfl | hother
      · obtain ⟨e', userData, he', hhandle, _, _⟩ := h.begun_top hpending
        exact ⟨e', some this, he', hhandle, Function.update_self _ _ _,
          Or.inr rfl⟩
      · exact (h.begun_rest hpending hother).setWindow (hhandles call hother) _
  · have hclassed : Classed d.windowClass
        ((d.world.setWindow hwnd (some ⟨some this⟩)).settle
          (.procedure :: d.pending)) := by
      rw [hsame]
      exact h.classed
    exact hclassed

/-! ### Every step -/

omit [DecidableEq Object] [DecidableEq HWND] [DecidableEq HINSTANCE] in
theorem Movable.ready {other : Object} (h : d.Movable other)
    (halive : (d.world.objects other).isSome = true) :
    (Caller.moveAssign other).Ready d.world d.pending := by
  obtain ⟨e, he⟩ := Option.isSome_iff_exists.mp halive
  exact ⟨h.1, e, he, absent_iff.mp (h.2 e he)⟩

theorem Consistent.moveConstruct (h : d.Consistent) {other : Object}
    (hdead : (d.world.objects this).isSome = false)
    (halive : (d.world.objects other).isSome = true)
    (hmovable : d.Movable other) :
    ∃ after, d.world.moveConstruct this other = some after ∧
      d.Leads (some (.moveConstruct this other))
        { d with world := after } := by
  have hrests := h.rests_of_dead hdead
  obtain ⟨after, hafter, hresume, hbegun, hclassed⟩ :=
    (hmovable.ready halive).resume hrests
  refine ⟨after, hafter, h.apart, ?_, hclassed _ h.classed,
    ⟨⟨?_, ?_⟩, ?_, trivial⟩, hresume⟩
  · intro call hcall
    exact hbegun call hcall (h.begun call hcall)
  · rw [settled_objects hrests, hdead]
  · rw [settled_objects hmovable.1, halive]
  · intro e he
    rw [settled_objects hmovable.1] at he
    exact hmovable.2 e he

/-- What the program begins. -/
theorem Consistent.begin (h : d.Consistent)
    {command : Command Object HWND HINSTANCE Procedure}
    (hgiven : d.Allows command) (horderly : d.Orderly (.command command)) :
    ∃ next, d.begin command = some next ∧
      d.Leads (d.effect (.command command)) next := by
  cases command with
  | construct this parent => exact ⟨_, rfl, h.construct hgiven parent⟩
  | register this className moduleHandle classGranted hwnd =>
      obtain ⟨e, hthis⟩ := Option.isSome_iff_exists.mp hgiven.1
      exact h.register horderly.1 hthis hgiven.2 horderly.2
  | unregister this classReleased =>
      obtain ⟨e, hthis⟩ := Option.isSome_iff_exists.mp hgiven.1
      have hready : Caller.program.Ready d.world d.pending := trivial
      exact h.unregister horderly hthis (by simp) (fun _ => hready) _
  | moveConstruct this other =>
      obtain ⟨after, hafter, hleads⟩ :=
        h.moveConstruct hgiven.1 hgiven.2 horderly
      refine ⟨_, ?_, hleads⟩
      rw [Desktop.begin, hafter]
      rfl
  | moveAssign this other classReleased =>
      by_cases hself : this = other
      · rw [Desktop.begin, effect, if_neg (not_not.mpr hself),
          if_neg (not_not.mpr hself)]
        exact ⟨d, rfl, h.still⟩
      · obtain ⟨e, hthis⟩ := Option.isSome_iff_exists.mp hgiven.1.1
        obtain ⟨hrests, hmovable⟩ := horderly hself
        have hcaller : Caller.moveAssign other ≠ .moveAssign this := by
          rw [Ne, Caller.moveAssign.injEq]
          exact Ne.symm hself
        have hready : e.mHwnd = none →
            (Caller.moveAssign other).Ready d.world d.pending := by
          intro hhandle
          refine Movable.ready (hmovable ?_) hgiven.2
          intro e' he'
          rw [hthis, Option.mem_some_iff] at he'
          rw [← he', hhandle]
          rfl
        rw [Desktop.begin, effect, if_pos hself, if_pos hself]
        exact h.unregister hrests hthis hcaller hready classReleased
  | destroy this classReleased =>
      obtain ⟨e, hthis⟩ := Option.isSome_iff_exists.mp hgiven.1
      have hready : Caller.destructor.Ready d.world d.pending := trivial
      exact h.unregister horderly hthis (by simp) (fun _ => hready) _

/-- Step lemma: what may happen is defined, and the settled world stays or
goes on by one operation. -/
theorem Consistent.step (h : d.Consistent)
    {happening : Happening Object HWND HINSTANCE Procedure}
    (hgiven : d.Feasible happening) (horderly : d.Orderly happening) :
    ∃ next, d.step happening = some next ∧
      d.Leads (d.effect happening) next := by
  cases happening with
  | command command =>
      rw [Desktop.step, if_pos hgiven.1]
      exact h.begin hgiven.2 horderly
  | message hwnd =>
      rw [Desktop.step, if_pos hgiven.1]
      exact h.message hgiven.2
  | send ncCreate =>
      cases hpending : d.pending with
      | nil => simp [Feasible, hpending] at hgiven
      | cons call rest =>
          have hcall := h.begun_top hpending
          cases call with
          | createWindowEx this hwnd =>
              simp only [Desktop.step, hpending]
              cases ncCreate with
              | true => exact h.ncCreate hpending
              | false => exact h.message (hcall.live rfl)
          | destroyWindow this hwnd caller =>
              have hother : ncCreate = false := by
                simpa [Feasible, hpending] using hgiven
              simp only [Desktop.step, hpending, hother]
              exact h.message (hcall.live rfl)
          | procedure => simp [Feasible, hpending] at hgiven
  | procedureReturns =>
      obtain ⟨rest, hpending⟩ := List.head?_eq_some_iff.mp hgiven
      have hsame : d.world.settle rest = d.settled := by
        rw [settled, hpending]
        rfl
      refine ⟨{ d with pending := rest }, by simp [Desktop.step, hpending],
        h.apart_rest hpending, ?_, ?_, hsame⟩
      · intro call hcall
        exact h.begun_rest hpending hcall
      · have hclassed : Classed d.windowClass (d.world.settle rest) := by
          rw [hsame]
          exact h.classed
        exact hclassed
  | createWindowExReturns windowCreated classReleased =>
      cases hpending : d.pending with
      | nil => simp [Feasible, hpending] at hgiven
      | cons call rest =>
          cases call with
          | createWindowEx this hwnd =>
              simp only [Feasible, hpending] at hgiven
              simp only [Desktop.step, effect, hpending]
              exact h.created hpending hgiven.1 hgiven.2
          | destroyWindow this hwnd caller =>
              simp [Feasible, hpending] at hgiven
          | procedure => simp [Feasible, hpending] at hgiven
  | destroyWindowReturns windowDestroyed classReleased =>
      cases hpending : d.pending with
      | nil => simp [Feasible, hpending] at hgiven
      | cons call rest =>
          cases call with
          | createWindowEx this hwnd => simp [Feasible, hpending] at hgiven
          | destroyWindow this hwnd caller =>
              simp only [Feasible, hpending] at hgiven
              simp only [Orderly, hpending] at horderly
              have hready : caller.Ready d.world d.pending := by
                cases caller with
                | program => trivial
                | destructor => trivial
                | moveAssign other => exact Movable.ready horderly hgiven.2.2
              simp only [Desktop.step, effect, hpending]
              exact h.destroyed hpending hgiven.1 hgiven.2.1 hready
          | procedure => simp [Feasible, hpending] at hgiven

/-- What holds between the calls and within them, to any depth: a message to a
live window goes to `DefWindowProc` while `WM_NCCREATE` is to come, and else to
the parent of the object that has the window or creates it; every live window
and every registered class belongs to exactly one object; and with no call of
an operation pending the accounts are in order. -/
structure Sound (d : Desktop Object HWND HINSTANCE Procedure) : Prop where
  delivers : ∀ hwnd window, d.world.windows hwnd = some window →
    (window.userData = none ∧ ∃ this, .createWindowEx this hwnd ∈ d.pending) ∨
    ∃ this e parent, window.userData = some this ∧
      d.world.objects this = some e ∧
      (e.mHwnd = some hwnd ∨ .createWindowEx this hwnd ∈ d.pending) ∧
      e.mParent = some parent ∧
      d.world.procedureCallback hwnd .other = some (d.world, some parent)
  windowOwner : ∀ hwnd, (d.world.windows hwnd).isSome = true →
    ∃! this, d.world.windowNames this = some hwnd ∨
      .createWindowEx this hwnd ∈ d.pending
  windowLive : ∀ this hwnd, d.world.windowNames this = some hwnd →
    (d.world.windows hwnd).isSome = true
  classes : Ownership d.world.classNames d.world.classes
  returned : (∀ call ∈ d.pending, call = .procedure) →
    Accounted d.world ∧ DispatchesToOwner d.world

section Sound

omit [DecidableEq HINSTANCE] in
/-- In the settled world an object names its window, or the one it is
creating. -/
theorem Consistent.names_iff (h : d.Consistent) (this : Object) (hwnd : HWND) :
    d.settled.windowNames this = some hwnd ↔
      d.world.windowNames this = some hwnd ∨
        .createWindowEx this hwnd ∈ d.pending := by
  constructor
  · exact World.of_settle_windowNames
  · rintro (hnames | hcall)
    · exact World.settle_windowNames h.begun hnames
    · obtain ⟨e, _, hsettled, _⟩ :=
        World.settle_of_mem h.apart h.begun hcall rfl rfl
      rw [World.windowNames, settled, hsettled, Option.bind_some]

omit [DecidableEq HINSTANCE] in
theorem Consistent.live_iff (h : d.Consistent) (hwnd : HWND) :
    (d.settled.windows hwnd).isSome = (d.world.windows hwnd).isSome := by
  by_cases hfree : ∀ call ∈ d.pending, call.handle ≠ some hwnd
  · rw [settled, World.settle_windows _ hfree]
  · simp only [not_forall, not_not] at hfree
    obtain ⟨call, hcall, hhandle⟩ := hfree
    obtain ⟨this, hobject⟩ := call.object_of_handle hhandle
    obtain ⟨_, _, _, hopen⟩ :=
      World.settle_of_mem h.apart h.begun hcall hobject hhandle
    rw [(h.begun call hcall).live hhandle, settled, hopen]
    rfl

omit [DecidableEq HINSTANCE] in
/-- A window without user data is being created. -/
theorem Consistent.creating_of_userData (h : d.Consistent)
    (hwindow : d.world.windows hwnd = some ⟨none⟩) :
    ∃ this, .createWindowEx this hwnd ∈ d.pending := by
  by_cases hfree : ∀ call ∈ d.pending, call.handle ≠ some hwnd
  · have hsettled := (d.world.settle_windows hfree).trans hwindow
    obtain ⟨_, _, _, huser, _⟩ := h.owned.owner hwnd _ hsettled
    contradiction
  · simp only [not_forall, not_not] at hfree
    obtain ⟨call, hcall, hhandle⟩ := hfree
    have hbegun := h.begun call hcall
    cases call with
    | createWindowEx this other =>
        cases hhandle
        exact ⟨this, hcall⟩
    | destroyWindow this other caller =>
        cases hhandle
        obtain ⟨_, _, _, hopen, _⟩ := hbegun
        rw [hwindow, Option.some.injEq, Window.mk.injEq] at hopen
        contradiction
    | procedure => contradiction

omit [DecidableEq HINSTANCE] in
theorem Consistent.sound (h : d.Consistent) : d.Sound := by
  have hnames := h.names_iff
  constructor
  case delivers =>
    rintro hwnd ⟨_ | this⟩ hwindow
    · exact Or.inl ⟨rfl, h.creating_of_userData hwindow⟩
    · right
      obtain ⟨e, parent, hthis, hparent, hcall⟩ := h.delivers hwindow
      obtain ⟨owner, e', _, huser, howner, hmine, _⟩ :=
        h.owned.owner hwnd _ (World.settle_userData h.begun hwindow)
      cases huser
      have hhas := (hnames this hwnd).mp (by
        rw [World.windowNames, howner, Option.bind_some, hmine])
      rw [World.windowNames, hthis, Option.bind_some] at hhas
      exact ⟨this, e, parent, rfl, hthis, hhas, hparent, hcall⟩
  case windowOwner =>
    intro hwnd hlive
    rw [← h.live_iff] at hlive
    obtain ⟨this, hthis⟩ := h.accounted.windows.owner hwnd hlive
    refine ⟨this, (hnames this hwnd).mp hthis, ?_⟩
    intro other hother
    exact h.accounted.windows.unique other this hwnd
      ((hnames other hwnd).mpr hother) hthis
  case windowLive =>
    intro this hwnd hthis
    rw [← h.live_iff]
    exact h.accounted.windows.owned this hwnd
      ((hnames this hwnd).mpr (Or.inl hthis))
  case classes =>
    have hclasses := h.accounted.classes
    rw [settled_classes, settled, World.settle_classNames] at hclasses
    exact hclasses
  case returned =>
    intro hcalls
    have hsame : d.settled = d.world := World.settle_procedures hcalls
    have haccounted := h.accounted
    have howned := h.owned
    rw [hsame] at haccounted howned
    exact ⟨haccounted, World.dispatchesToOwner howned⟩

end Sound

/-! ### Runs -/

omit [DecidableEq HINSTANCE] in
theorem initial_consistent :
    (initial : Desktop Object HWND HINSTANCE Procedure).Consistent where
  apart := List.Pairwise.nil
  begun := by
    intro call hcall
    contradiction
  owned := by
    constructor
    · intro hwnd window hwindow
      contradiction
    · intro this e hwnd hthis
      contradiction
  accounted := initial_accounted
  classed := by
    constructor
    · intro this e hwnd hthis
      contradiction
    · intro hwnd _
      rfl

/-- What may happen, and is orderly. -/
def Regular (d : Desktop Object HWND HINSTANCE Procedure)
    (happening : Happening Object HWND HINSTANCE Procedure) : Prop :=
  d.Feasible happening ∧ d.Orderly happening

instance {n : Nat} (d : Desktop Object (Fin n) HINSTANCE Procedure)
    (happening : Happening Object (Fin n) HINSTANCE Procedure) :
    Decidable (d.Regular happening) :=
  inferInstanceAs (Decidable (d.Feasible happening ∧ d.Orderly happening))

/-- However the procedures nest their operations, every step of an orderly
program is defined, and every state within the calls is sound. -/
theorem nested_calls_sound
    (happenings : List (Happening Object HWND HINSTANCE Procedure))
    (hregular : Runs.EveryStep step Regular
      (initial : Desktop Object HWND HINSTANCE Procedure) happenings) :
    Runs.EveryState step Sound
      (initial : Desktop Object HWND HINSTANCE Procedure) happenings := by
  have hevery : Runs.EveryState step Consistent
      (initial : Desktop Object HWND HINSTANCE Procedure) happenings := by
    apply Runs.everyState_of_invariant _ initial_consistent hregular
    intro d happening h hregular
    obtain ⟨next, hstep, hleads⟩ := h.step hregular.1 hregular.2
    exact ⟨next, hstep, h.leads hleads⟩
  exact hevery.mono fun d h => h.sound

/-- While its window is created the first object has a second one registered,
and destroys it while its window is destroyed. -/
def oneInsideAnother : List (Happening Nat (Fin 2) Nat Nat) :=
  [.command (.construct 0 7), .command (.construct 1 8),
    .command (.register 0 "outer" (some 0) true 0), .send true,
    .command (.register 1 "inner" (some 0) true 1), .send true,
    .procedureReturns, .createWindowExReturns true false, .procedureReturns,
    .createWindowExReturns true false, .message 1, .procedureReturns,
    .command (.unregister 0 false), .send false, .command (.destroy 1 false),
    .send false, .procedureReturns, .destroyWindowReturns true true,
    .procedureReturns, .destroyWindowReturns true true]

theorem one_inside_another_sound :
    Runs.EveryState step Sound (initial : Desktop Nat (Fin 2) Nat Nat)
      oneInsideAnother :=
  nested_calls_sound _ (by decide)

/-- Nested calls refine operations one after another.  Each operation of an
orderly run takes effect at one step of it; the operations in this order, each
run without nested calls, lead to the settled world, which is the world once
every call has returned. -/
theorem nested_calls_refine_operations
    (happenings : List (Happening Object HWND HINSTANCE Procedure))
    (hregular : Runs.EveryStep step Regular
      (initial : Desktop Object HWND HINSTANCE Procedure) happenings) :
    ∃ last, Runs.run step
        (initial : Desktop Object HWND HINSTANCE Procedure) happenings =
          some last ∧
      Runs.EveryStep operate Proper World.initial
        (Runs.trace step effect initial happenings) ∧
      Runs.run operate World.initial
        (Runs.trace step effect initial happenings) = some last.settled ∧
      (last.pending = [] → last.settled = last.world) := by
  have hkeep : ∀ (d : Desktop Object HWND HINSTANCE Procedure) happening,
      d.Consistent → d.Regular happening →
      ∃ next, d.step happening = some next ∧ next.Consistent ∧
        Runs.Performs operate Proper d.settled next.settled
          (d.effect happening) := by
    intro d happening h hregular
    obtain ⟨next, hstep, hleads⟩ := h.step hregular.1 hregular.2
    exact ⟨next, hstep, h.leads hleads, hleads.performs⟩
  obtain ⟨last, hrun, _, hproper, heffects⟩ :=
    Runs.run_effects_of_refinement hkeep initial_consistent hregular
  refine ⟨last, hrun, hproper, heffects, ?_⟩
  intro hreturned
  rw [settled, hreturned]
  rfl

theorem one_inside_another_refines_operations :
    ∃ last, Runs.run step (initial : Desktop Nat (Fin 2) Nat Nat)
        oneInsideAnother = some last ∧
      Runs.EveryStep operate Proper World.initial
        (Runs.trace step effect initial oneInsideAnother) ∧
      Runs.run operate World.initial
        (Runs.trace step effect initial oneInsideAnother) = some last.settled ∧
      (last.pending = [] → last.settled = last.world) :=
  nested_calls_refine_operations _ (by decide)

end Desktop

end Saigon
