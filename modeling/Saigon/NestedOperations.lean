/-
One operation among others that have not returned.  A registration takes effect
when it calls `CreateWindowEx` and an unregistration when `DestroyWindow` has
returned, and what the program does in between concerns other objects.
-/
import Saigon.NestedSettling

namespace Saigon

variable {Object HWND HINSTANCE Procedure : Type}
  [DecidableEq Object] [DecidableEq HWND]

/-- What `resume` finds: an object to move from that has no window and no call
pending. -/
def Caller.Ready (w : World Object HWND HINSTANCE Procedure)
    (calls : List (PendingCall Object HWND)) : Caller Object → Prop
  | .program => True
  | .destructor => True
  | .moveAssign other => (∀ call ∈ calls, call.object ≠ some other) ∧
      ∃ e, w.objects other = some e ∧ e.mHwnd = none

namespace Caller.Ready

variable {w after : World Object HWND HINSTANCE Procedure}
  {calls : List (PendingCall Object HWND)} {caller : Caller Object}

omit [DecidableEq Object] [DecidableEq HWND] in
theorem congr (hready : caller.Ready w calls)
    (hobjects : ∀ other, caller = .moveAssign other →
      after.objects other = w.objects other) : caller.Ready after calls := by
  cases caller with
  | program => trivial
  | destructor => trivial
  | moveAssign other =>
      obtain ⟨hother, e, he, hidle⟩ := hready
      exact ⟨hother, e, (hobjects other rfl).trans he, hidle⟩

omit [DecidableEq Object] [DecidableEq HWND] in
theorem tail {call : PendingCall Object HWND}
    (hready : caller.Ready w (call :: calls)) : caller.Ready w calls := by
  cases caller with
  | program => trivial
  | destructor => trivial
  | moveAssign other =>
      exact ⟨fun first hfirst => hready.1 first (List.mem_cons_of_mem _ hfirst),
        hready.2⟩

/-- Resuming commutes with settling. -/
theorem resume {this : Object} (hready : caller.Ready w calls)
    (hrests : ∀ call ∈ calls, call.object ≠ some this) :
    ∃ after, caller.resume w this = some after ∧
      caller.resume (w.settle calls) this = some (after.settle calls) ∧
      (∀ call ∈ calls, call.Begun w → call.Begun after) ∧
      ∀ windowClass : HWND → Option (String × HINSTANCE),
        Classed windowClass (w.settle calls) →
        Classed windowClass (after.settle calls) := by
  cases caller with
  | program => exact ⟨w, rfl, rfl, fun _ _ h => h, fun _ h => h⟩
  | destructor =>
      have hsettled := w.settle_setObject hrests none
      refine ⟨w.setObject this none, rfl, ?_, ?_, ?_⟩
      · rw [hsettled]
        rfl
      · intro call hcall hbegun
        exact hbegun.setObject (hrests call hcall) none
      · intro windowClass hclassed
        rw [hsettled]
        exact hclassed.update idle_none
  | moveAssign other =>
      obtain ⟨hother, e, he, hidle⟩ := hready
      have hsettled : (((w.setObject this (some e.moveConstruct)).setObject other
          (some .movedFrom)).settle calls) =
            ((w.settle calls).setObject this (some e.moveConstruct)).setObject
              other (some .movedFrom) := by
        rw [World.settle_setObject _ hother, World.settle_setObject _ hrests]
      refine ⟨(w.setObject this (some e.moveConstruct)).setObject other
        (some .movedFrom), ?_, ?_, ?_, ?_⟩
      · rw [Caller.resume, World.moveConstruct, he]
        rfl
      · rw [hsettled, Caller.resume, World.moveConstruct,
          World.settle_objects _ hother, he]
        rfl
      · intro call hcall hbegun
        exact (hbegun.setObject (hrests call hcall) _).setObject
          (hother call hcall) _
      · intro windowClass hclassed
        rw [hsettled]
        exact (hclassed.update (idle_some hidle)).update (idle_some rfl)

end Caller.Ready

namespace Desktop

variable {d : Desktop Object HWND HINSTANCE Procedure} {this : Object}
  {hwnd : HWND} {e : MessageEvent HWND HINSTANCE Procedure}

/-- The world once every registration in progress has its window. -/
def settled (d : Desktop Object HWND HINSTANCE Procedure) :
    World Object HWND HINSTANCE Procedure :=
  d.world.settle d.pending

/-- The calls pending are about different objects and windows, and the settled
world is in order. -/
structure Consistent (d : Desktop Object HWND HINSTANCE Procedure) : Prop where
  apart : d.pending.Pairwise PendingCall.Apart
  begun : ∀ call ∈ d.pending, call.Begun d.world
  owned : Owned d.settled.objects d.settled.windows
  accounted : Accounted d.settled
  classed : Classed d.windowClass d.settled

theorem settled_objects (hrests : d.Rests this) :
    d.settled.objects this = d.world.objects this :=
  World.settle_objects _ hrests

@[simp] theorem settled_classes : d.settled.classes = d.world.classes :=
  World.settle_classes _ _

/-! ### Objects and windows of the calls -/

theorem Consistent.rests_of_dead (h : d.Consistent)
    (hdead : (d.world.objects this).isSome = false) : d.Rests this := by
  intro call hcall hobject
  rw [(h.begun call hcall).alive hobject] at hdead
  contradiction

theorem Consistent.handle_ne_of_dead (h : d.Consistent)
    (hdead : (d.world.windows hwnd).isSome = false) :
    ∀ call ∈ d.pending, call.handle ≠ some hwnd := by
  intro call hcall hhandle
  rw [(h.begun call hcall).live hhandle] at hdead
  contradiction

/-- The window of an object at rest is in no call. -/
theorem Consistent.handle_ne_of_rests (h : d.Consistent) (hrests : d.Rests this)
    (hthis : d.world.objects this = some e) (hhandle : e.mHwnd = some hwnd) :
    ∀ call ∈ d.pending, call.handle ≠ some hwnd := by
  intro call hcall hmine
  obtain ⟨other, hobject⟩ := call.object_of_handle hmine
  obtain ⟨e', _, hother, _⟩ :=
    World.settle_of_mem h.apart h.begun hcall hobject hmine
  have hthis' := (settled_objects hrests).trans hthis
  have heq := h.owned.unique hthis' hother hhandle rfl
  exact hrests call hcall (heq ▸ hobject)

/-- An object with a window has a class. -/
theorem Consistent.registered (h : d.Consistent)
    (hthis : d.settled.objects this = some { e with mHwnd := some hwnd }) :
    ∃ mHinst, e.mHinst = some mHinst := by
  have hpaired := h.accounted.paired this _ hthis
  rw [MessageEvent.Paired, Option.isSome_some, eq_comm,
    Option.isSome_iff_exists] at hpaired
  exact hpaired

section Top

variable {call : PendingCall Object HWND} {rest : List (PendingCall Object HWND)}
  (hpending : d.pending = call :: rest)
include hpending

theorem Consistent.begun_top (h : d.Consistent) : call.Begun d.world := by
  apply h.begun
  rw [hpending]
  exact List.mem_cons_self

theorem Consistent.begun_rest (h : d.Consistent)
    {other : PendingCall Object HWND} (hother : other ∈ rest) :
    other.Begun d.world := by
  apply h.begun
  rw [hpending]
  exact List.mem_cons_of_mem _ hother

theorem Consistent.apart_rest (h : d.Consistent) :
    rest.Pairwise PendingCall.Apart := by
  have hapart := h.apart
  rw [hpending] at hapart
  exact (List.pairwise_cons.mp hapart).2

/-- The innermost call is of an object and a window that are in no other
one. -/
theorem Consistent.top (h : d.Consistent) (hobject : call.object = some this)
    (hhandle : call.handle = some hwnd) :
    (∀ other ∈ rest, other.object ≠ some this) ∧
      (∀ other ∈ rest, other.handle ≠ some hwnd) ∧
      ∃ e, d.world.objects this = some e ∧
        d.settled = ((d.world.settle rest).setObject this
          (some { e with mHwnd := some hwnd })).setWindow hwnd
            (some ⟨some this⟩) := by
  have hapart := h.apart
  rw [hpending] at hapart
  obtain ⟨hcall, _⟩ := List.pairwise_cons.mp hapart
  have hobjects : ∀ other ∈ rest, other.object ≠ some this :=
    fun other hother => (hcall other hother).1 this hobject
  have hhandles : ∀ other ∈ rest, other.handle ≠ some hwnd :=
    fun other hother => (hcall other hother).2 hwnd hhandle
  obtain ⟨e, hthis, hsettle⟩ := (h.begun_top hpending).settle hobject hhandle
    (d.world.settle_objects hobjects) (d.world.settle_windows hhandles)
  refine ⟨hobjects, hhandles, e, hthis, ?_⟩
  rw [settled, hpending, World.settle, hsettle]

end Top

/-! ### What one step leads to -/

variable [DecidableEq HINSTANCE]
  {next : Desktop Object HWND HINSTANCE Procedure}

/-- The operation that unregistering performs at once, with no window to be
destroyed first. -/
def releases (d : Desktop Object HWND HINSTANCE Procedure) (this : Object)
    (caller : Caller Object) :
    Option (Operation Object HWND HINSTANCE Procedure) :=
  if ((d.world.objects this).bind MessageEvent.mHwnd).isSome then none
  else some (caller.operation this ⟨true, true⟩)

/-- The operation that takes effect at a step.  A registration does when it
calls `CreateWindowEx`, and is taken back when that fails; an unregistration
does when `DestroyWindow` has returned. -/
def effect (d : Desktop Object HWND HINSTANCE Procedure) :
    Happening Object HWND HINSTANCE Procedure →
    Option (Operation Object HWND HINSTANCE Procedure)
  | .command (.construct this parent) => some (.construct this parent)
  | .command (.register this className moduleHandle classGranted hwnd) =>
      some (.register this className
        ⟨moduleHandle, classGranted, .created hwnd 0, true⟩)
  | .command (.unregister this _) => d.releases this .program
  | .command (.moveConstruct this other) => some (.moveConstruct this other)
  | .command (.moveAssign this other _) =>
      if this ≠ other then d.releases this (.moveAssign other) else none
  | .command (.destroy this _) => d.releases this .destructor
  | .createWindowExReturns windowCreated _ =>
      match d.pending with
      | .createWindowEx this _ :: _ =>
          if windowCreated then none else some (.unregister this ⟨true, true⟩)
      | _ => none
  | .destroyWindowReturns _ _ =>
      match d.pending with
      | .destroyWindow this _ caller :: _ =>
          some (caller.operation this ⟨true, true⟩)
      | _ => none
  | _ => none

/-- What a step leads to, with the operation that the settled world goes on by,
if it does. -/
structure Leads (d : Desktop Object HWND HINSTANCE Procedure)
    (effect : Option (Operation Object HWND HINSTANCE Procedure))
    (next : Desktop Object HWND HINSTANCE Procedure) : Prop where
  apart : next.pending.Pairwise PendingCall.Apart
  begun : ∀ call ∈ next.pending, call.Begun next.world
  classed : Classed next.windowClass next.settled
  performs : Runs.Performs operate Proper d.settled next.settled effect

theorem Consistent.leads (h : d.Consistent)
    {effect : Option (Operation Object HWND HINSTANCE Procedure)}
    (hleads : d.Leads effect next) : next.Consistent := by
  have hperforms := hleads.performs
  cases effect with
  | none =>
      rw [Runs.Performs] at hperforms
      exact ⟨hleads.apart, hleads.begun, hperforms ▸ h.owned,
        hperforms ▸ h.accounted, hleads.classed⟩
  | some op =>
      obtain ⟨hproper, hstep⟩ := hperforms
      obtain ⟨howned, haccounted⟩ := hproper.keeps h.owned h.accounted hstep
      exact ⟨hleads.apart, hleads.begun, howned, haccounted, hleads.classed⟩

/-- Nothing changes. -/
theorem Consistent.still (h : d.Consistent) : d.Leads none d :=
  ⟨h.apart, h.begun, h.classed, rfl⟩

/-! ### Operations -/

/-- An object that is at rest is overwritten. -/
theorem Leads.update (h : d.Consistent) (hrests : d.Rests this)
    {object : Option (MessageEvent HWND HINSTANCE Procedure)}
    (hidle : Idle object) {op : Operation Object HWND HINSTANCE Procedure}
    (hproper : Proper d.settled op)
    (hstep : operate d.settled op = some (d.settled.setObject this object)) :
    d.Leads (some op) { d with world := d.world.setObject this object } := by
  have hsettled : ({ d with world := d.world.setObject this object } :
      Desktop Object HWND HINSTANCE Procedure).settled =
        d.settled.setObject this object :=
    d.world.settle_setObject hrests object
  constructor
  case apart => exact h.apart
  case begun =>
    intro call hcall
    exact (h.begun call hcall).setObject (hrests call hcall) object
  case classed =>
    rw [hsettled]
    exact h.classed.update hidle
  case performs =>
    rw [hsettled]
    exact ⟨hproper, hstep⟩

theorem Consistent.construct (h : d.Consistent)
    (hdead : (d.world.objects this).isSome = false) (parent : Procedure) :
    d.Leads (some (.construct this parent))
      { d with world := d.world.construct this parent } := by
  have hrests := h.rests_of_dead hdead
  have hdead' : (d.settled.objects this).isSome = false := by
    rw [settled_objects hrests, hdead]
  exact Leads.update h hrests (idle_some rfl) ⟨hdead', trivial, trivial⟩ rfl

section Register

variable {className : String} {moduleHandle : Option HINSTANCE}
  {classGranted : Bool} {mHinst : HINSTANCE}

omit [DecidableEq HINSTANCE] in
/-- What is proper for an object at rest is so in the settled world. -/
theorem proper_register (hrests : d.Rests this)
    (halive : (d.world.objects this).isSome = true)
    (hfree : (d.settled.windows hwnd).isSome = false)
    (hkeeps : KeepsOwner d.world (.register this className
      ⟨moduleHandle, classGranted, .created hwnd 0, true⟩)) :
    Proper d.settled (.register this className
      ⟨moduleHandle, classGranted, .created hwnd 0, true⟩) := by
  refine ⟨⟨?_, ?_⟩, ?_, rfl⟩
  · rw [settled_objects hrests, halive]
  · intro other hother
    cases hother
    exact hfree
  · intro e he hhandle hsends
    rw [settled_objects hrests] at he
    exact hkeeps e he hhandle (by
      simpa [Registration.sendsNcCreate] using hsends)

theorem register_throws (hthis : d.world.objects this = some e)
    (hhandle : e.mHwnd = none)
    (hrefused : ∀ mHinst, moduleHandle = some mHinst →
      (classGranted && !d.world.classes (className, mHinst)) = false) :
    d.register this className moduleHandle classGranted hwnd =
      some { d with world :=
        d.world.setObject this (some (World.named e className none)) } := by
  cases moduleHandle with
  | none => simp [register, World.named, hthis, hhandle]
  | some mHinst =>
      simp [register, World.named, hthis, hhandle, hrefused mHinst rfl]

/-- The desktop in which `CreateWindowEx` is called. -/
def creating (d : Desktop Object HWND HINSTANCE Procedure) (this : Object)
    (e : MessageEvent HWND HINSTANCE Procedure) (className : String)
    (mHinst : HINSTANCE) (hwnd : HWND) :
    Desktop Object HWND HINSTANCE Procedure where
  world := (d.world.classRegistered this e className mHinst).setWindow hwnd
    (some ⟨none⟩)
  windowClass := Function.update d.windowClass hwnd (some (className, mHinst))
  pending := .createWindowEx this hwnd :: d.pending

theorem register_creates (hthis : d.world.objects this = some e)
    (hhandle : e.mHwnd = none)
    (hgranted : (classGranted && !d.world.classes (className, mHinst)) = true) :
    d.register this className (some mHinst) classGranted hwnd =
      some (d.creating this e className mHinst hwnd) := by
  simp [register, creating, World.classRegistered, World.named, hthis, hhandle,
    hgranted]

/-- All that `register_window_class` can do before it waits: nothing, throw
with only the class name written, or call `CreateWindowEx`. -/
theorem register_cases (hthis : d.world.objects this = some e)
    (className : String) (moduleHandle : Option HINSTANCE)
    (classGranted : Bool) (hwnd : HWND) :
    (∃ mine, e.mHwnd = some mine ∧
      d.register this className moduleHandle classGranted hwnd = some d) ∨
    (e.mHwnd = none ∧
      (∀ mHinst, moduleHandle = some mHinst →
        (classGranted && !d.world.classes (className, mHinst)) = false) ∧
      d.register this className moduleHandle classGranted hwnd =
        some { d with world :=
          d.world.setObject this (some (World.named e className none)) }) ∨
    ∃ mHinst, e.mHwnd = none ∧ moduleHandle = some mHinst ∧
      (classGranted && !d.world.classes (className, mHinst)) = true ∧
      d.register this className moduleHandle classGranted hwnd =
        some (d.creating this e className mHinst hwnd) := by
  cases hhandle : e.mHwnd with
  | some mine => exact Or.inl ⟨mine, rfl, by simp [register, hthis, hhandle]⟩
  | none =>
      right
      cases moduleHandle with
      | none =>
          have hrefused : ∀ mHinst, none = some mHinst →
              (classGranted && !d.world.classes (className, mHinst)) = false := by
            intro mHinst hmodule
            contradiction
          exact Or.inl ⟨rfl, hrefused, register_throws hthis hhandle hrefused⟩
      | some mHinst =>
          cases hgranted : classGranted && !d.world.classes (className, mHinst)
            with
          | false =>
              have hrefused : ∀ other, some mHinst = some other →
                  (classGranted && !d.world.classes (className, other)) =
                    false := by
                rintro other ⟨⟩
                exact hgranted
              exact Or.inl ⟨rfl, hrefused, register_throws hthis hhandle hrefused⟩
          | true =>
              exact Or.inr ⟨mHinst, rfl, rfl, hgranted,
                register_creates hthis hhandle hgranted⟩

theorem settled_creating (hrests : d.Rests this)
    (hfree : ∀ call ∈ d.pending, call.handle ≠ some hwnd) :
    (d.creating this e className mHinst hwnd).settled =
      (((d.settled.setClass (className, mHinst) true).setObject this
        (some ⟨some hwnd, some mHinst, className, e.mParent⟩)).setWindow hwnd
          (some ⟨some this⟩)) := by
  have hbase : ((d.world.classRegistered this e className mHinst).setWindow hwnd
      (some ⟨none⟩)).settle d.pending =
        (d.settled.classRegistered this e className mHinst).setWindow hwnd
          (some ⟨none⟩) := by
    rw [World.settle_setWindow _ hfree, World.classRegistered,
      World.settle_setClass, World.settle_setObject _ hrests]
    rfl
  rw [settled, creating, World.settle, hbase]
  simp [PendingCall.settle, World.classRegistered, World.named, World.setObject,
    World.setClass, World.setWindow]

theorem Consistent.creating (h : d.Consistent) (hrests : d.Rests this)
    (hthis : d.world.objects this = some e) (hhandle : e.mHwnd = none)
    (hfree : (d.world.windows hwnd).isSome = false)
    (hgranted : (classGranted && !d.world.classes (className, mHinst)) = true)
    (hkeeps : KeepsOwner d.world (.register this className
      ⟨some mHinst, classGranted, .created hwnd 0, true⟩)) :
    d.Leads (some (.register this className
        ⟨some mHinst, classGranted, .created hwnd 0, true⟩))
      (d.creating this e className mHinst hwnd) := by
  have hother := h.handle_ne_of_dead hfree
  have hsettled : (d.creating this e className mHinst hwnd).settled =
      (((d.settled.setClass (className, mHinst) true).setObject this
        (some ⟨some hwnd, some mHinst, className, e.mParent⟩)).setWindow hwnd
          (some ⟨some this⟩)) := settled_creating hrests hother
  have hdead : d.settled.windows hwnd = none := by
    rw [settled, World.settle_windows _ hother]
    exact absent_iff.mp hfree
  constructor
  case apart =>
    apply PendingCall.pairwise_push h.apart
    · rintro _ ⟨⟩
      exact hrests
    · rintro _ ⟨⟩
      exact hother
  case begun =>
    intro call hcall
    rcases List.mem_cons.mp hcall with rfl | hcall
    · exact ⟨World.named e className (some mHinst), none,
        Function.update_self _ _ _, rfl, Function.update_self _ _ _,
        Or.inl rfl⟩
    · exact (((h.begun call hcall).setObject (hrests call hcall) _).setClass _
        _).setWindow (hother call hcall) _
  case classed =>
    rw [hsettled]
    have hnamed : ∀ other e', (d.settled.setClass (className, mHinst)
        true).objects other = some e' → e'.mHwnd ≠ some hwnd := by
      intro other e' he' hmine
      rw [h.owned.owned other e' hwnd he' hmine] at hdead
      contradiction
    have hclassed : Classed d.windowClass
        (d.settled.setClass (className, mHinst) true) := h.classed.congr rfl rfl
    exact hclassed.adopt
      (e := ⟨some hwnd, some mHinst, className, e.mParent⟩) rfl hnamed _
  case performs =>
    have halive : (d.world.objects this).isSome = true := by
      rw [hthis]
      rfl
    have hproper := proper_register hrests halive
      (absent_iff.mpr hdead) hkeeps
    refine ⟨hproper, ?_⟩
    have hgranted' : (classGranted &&
        !d.settled.classes (className, mHinst)) = true := by
      rw [settled_classes, hgranted]
    have hsends : Registration.sendsNcCreate
        ⟨some mHinst, classGranted, .created hwnd 0, true⟩ d.world className =
          true := hgranted
    obtain ⟨parent, hparent⟩ := Option.isSome_iff_exists.mp
      (hkeeps e hthis (by rw [hhandle]; rfl) hsends)
    rw [hsettled]
    exact operate_register ((settled_objects hrests).trans hthis) hhandle hparent
      hgranted'

/-- `register_window_class`, up to its return or to `CreateWindowEx`. -/
theorem Consistent.register (h : d.Consistent) (hrests : d.Rests this)
    (hthis : d.world.objects this = some e)
    (hfree : (d.world.windows hwnd).isSome = false)
    (hkeeps : KeepsOwner d.world (.register this className
      ⟨moduleHandle, classGranted, .created hwnd 0, true⟩)) :
    ∃ next, d.register this className moduleHandle classGranted hwnd =
      some next ∧ d.Leads (some (.register this className
        ⟨moduleHandle, classGranted, .created hwnd 0, true⟩)) next := by
  have hthis' := (settled_objects hrests).trans hthis
  have halive : (d.world.objects this).isSome = true := by
    rw [hthis]
    rfl
  have hdead : (d.settled.windows hwnd).isSome = false := by
    rw [settled, World.settle_windows _ (h.handle_ne_of_dead hfree), hfree]
  have hproper := proper_register hrests halive hdead hkeeps
  rcases register_cases hthis className moduleHandle classGranted hwnd with
    ⟨mine, hhandle, hcall⟩ | ⟨hhandle, hrefused, hcall⟩ |
    ⟨mHinst, hhandle, rfl, hgranted, hcall⟩
  · refine ⟨d, hcall, h.apart, h.begun, h.classed, hproper, ?_⟩
    rw [operate, World.register_again hthis' hhandle]
    rfl
  · refine ⟨_, hcall, Leads.update h hrests (idle_some rfl) hproper ?_⟩
    cases moduleHandle with
    | none =>
        rw [operate, World.register_no_module hthis' hhandle rfl]
        rfl
    | some mHinst =>
        rw [operate, World.register_class_refused hthis' hhandle rfl
          (by rw [settled_classes, hrefused mHinst rfl])]
        rfl
  · exact ⟨_, hcall,
      h.creating hrests hthis hhandle hfree hgranted hkeeps⟩

end Register

section Unregister

variable {caller : Caller Object}

omit [DecidableEq HINSTANCE] in
theorem proper_caller (halive : (d.settled.objects this).isSome = true)
    (hready : caller.Ready d.world d.pending) :
    Proper d.settled (caller.operation this ⟨true, true⟩) := by
  cases caller with
  | program => exact ⟨halive, fun _ _ _ => rfl, rfl, rfl⟩
  | destructor => exact ⟨halive, fun _ _ _ => rfl, rfl, rfl⟩
  | moveAssign other =>
      obtain ⟨hother, e, he, hidle⟩ := hready
      have hsettled := (settled_objects hother).trans he
      refine ⟨⟨halive, ?_⟩, fun _ => ⟨fun _ _ _ => rfl, ?_⟩, rfl, rfl⟩
      · rw [hsettled]
        rfl
      · intro e' he'
        rw [hsettled, Option.mem_some_iff] at he'
        rw [← he', hidle]
        rfl

omit [DecidableEq HWND] in
theorem unregister_resumes (hthis : d.world.objects this = some e)
    (hhandle : e.mHwnd = none) (hinst : e.mHinst = none)
    {after : World Object HWND HINSTANCE Procedure}
    (hafter : caller.resume (d.world.setObject this (some e.released)) this =
      some after) (classReleased : Bool) :
    d.unregister this caller classReleased = some { d with world := after } := by
  rw [MessageEvent.released] at hafter
  simp [unregister, unregistered, hthis, hhandle, hinst, hafter]

/-- `unregister_window_class` and its caller, up to their return or to
`DestroyWindow`. -/
theorem Consistent.unregister (h : d.Consistent) (hrests : d.Rests this)
    (hthis : d.world.objects this = some e) (hcaller : caller ≠ .moveAssign this)
    (hready : e.mHwnd = none → caller.Ready d.world d.pending)
    (classReleased : Bool) :
    ∃ next, d.unregister this caller classReleased = some next ∧
      d.Leads (d.releases this caller) next := by
  have hthis' := (settled_objects hrests).trans hthis
  cases hhandle : e.mHwnd with
  | some hwnd =>
      have heffect : d.releases this caller = none := by
        simp [releases, hthis, hhandle]
      rw [heffect]
      have hother := h.handle_ne_of_rests hrests hthis hhandle
      refine ⟨{ d with pending := .destroyWindow this hwnd caller :: d.pending },
        by simp [Desktop.unregister, hthis, hhandle], ?_, ?_, h.classed,
        rfl⟩
      · apply PendingCall.pairwise_push h.apart
        · rintro _ ⟨⟩
          exact hrests
        · rintro _ ⟨⟩
          exact hother
      · intro call hcall
        rcases List.mem_cons.mp hcall with rfl | hcall
        · have hopen := h.owned.owned this e hwnd hthis' hhandle
          rw [settled, World.settle_windows _ hother] at hopen
          exact ⟨e, hthis, hhandle, hopen, hcaller⟩
        · exact h.begun call hcall
  | none =>
      have heffect : d.releases this caller =
          some (caller.operation this ⟨true, true⟩) := by
        simp [releases, hthis, hhandle]
      rw [heffect]
      have hinst : e.mHinst = none :=
        (h.accounted.bare hthis' hhandle e hthis').2
      have hready' : caller.Ready
          (d.world.setObject this (some e.released)) d.pending := by
        apply (hready hhandle).congr
        rintro other rfl
        apply World.setObject_of_ne
        rintro rfl
        exact hcaller rfl
      have hsettled := d.world.settle_setObject hrests (some e.released)
      obtain ⟨after, hafter, hresume, hbegun, hclassed⟩ := hready'.resume hrests
      refine ⟨_, unregister_resumes hthis hhandle hinst hafter classReleased, h.apart,
        ?_, ?_, ?_, ?_⟩
      · intro call hcall
        exact hbegun call hcall
          ((h.begun call hcall).setObject (hrests call hcall) _)
      · apply hclassed
        rw [hsettled]
        exact h.classed.update (idle_some rfl)
      · apply proper_caller _ (hready hhandle)
        rw [hthis']
        rfl
      · rw [operate_caller hcaller,
          unregister_bare h.owned hthis' hhandle hinst, Option.bind_some]
        rw [hsettled] at hresume
        exact hresume

end Unregister

/-! ### Windows that go -/

section Close

variable {rest : List (PendingCall Object HWND)} {call : PendingCall Object HWND}
  {mHinst : HINSTANCE} {caller : Caller Object}

/-- The world after `UnregisterClass` and the assignments behind it, for an
object whose window is gone. -/
def closedWorld (d : Desktop Object HWND HINSTANCE Procedure) (this : Object)
    (e : MessageEvent HWND HINSTANCE Procedure) (hwnd : HWND)
    (mHinst : HINSTANCE) : World Object HWND HINSTANCE Procedure :=
  ((d.world.setWindow hwnd none).setClass (e.mClassName, mHinst)
    false).setObject this (some e.released)

/-- The window goes, its class is unregistered, and the caller goes on. -/
theorem Consistent.close (h : d.Consistent) (hpending : d.pending = call :: rest)
    (hobject : call.object = some this) (hhandle : call.handle = some hwnd)
    (hthis : d.world.objects this = some e) (hinst : e.mHinst = some mHinst)
    (hcaller : caller ≠ .moveAssign this)
    (hready : caller.Ready d.world d.pending) :
    ∃ after, caller.resume (d.closedWorld this e hwnd mHinst) this =
        some after ∧
      d.Leads (some (caller.operation this ⟨true, true⟩))
        ⟨after, Function.update d.windowClass hwnd none, rest⟩ := by
  obtain ⟨hobjects, hhandles, e', he', hsettled⟩ :=
    h.top hpending hobject hhandle
  rw [hthis, Option.some.injEq] at he'
  subst he'
  have hopen : d.settled.objects this = some { e with mHwnd := some hwnd } := by
    rw [hsettled]
    exact Function.update_self _ _ _
  have hclosed : (d.closedWorld this e hwnd mHinst).settle rest =
      ((d.settled.setWindow hwnd none).setClass (e.mClassName, mHinst)
        false).setObject this (some e.released) := by
    rw [closedWorld, World.settle_setObject _ hobjects, World.settle_setClass,
      World.settle_setWindow _ hhandles, hsettled]
    simp [World.setObject, World.setClass, World.setWindow]
  have hready' : caller.Ready (d.closedWorld this e hwnd mHinst) rest := by
    rw [hpending] at hready
    apply hready.tail.congr
    rintro other rfl
    apply World.setObject_of_ne
    rintro rfl
    exact hcaller rfl
  obtain ⟨after, hafter, hresume, hbegun, hclassed⟩ := hready'.resume hobjects
  refine ⟨after, hafter, ?_⟩
  constructor
  case apart => exact h.apart_rest hpending
  case begun =>
    intro other hother
    have hkept := h.begun_rest hpending hother
    exact hbegun other hother (((hkept.setWindow (hhandles other hother)
      none).setClass _ _).setObject (hobjects other hother) _)
  case classed =>
    apply hclassed
    rw [hclosed]
    have hapart : ∀ other e', other ≠ this → d.settled.objects other = some e' →
        e'.mHwnd ≠ some hwnd := by
      intro other e' hne hother hmine
      exact hne (h.owned.unique hother hopen hmine rfl)
    exact (h.classed.close (idle_some rfl) hapart).congr rfl rfl
  case performs =>
    constructor
    · apply proper_caller _ hready
      rw [hopen]
      rfl
    · rw [operate_caller hcaller, unregister_open h.owned hopen rfl hinst,
        Option.bind_some]
      rw [hclosed] at hresume
      exact hresume

omit [DecidableEq HINSTANCE] in
/-- The class of the innermost call has no window but the one that goes. -/
theorem Consistent.answered (h : d.Consistent)
    (hpending : d.pending = call :: rest) (hobject : call.object = some this)
    (hhandle : call.handle = some hwnd) (hthis : d.world.objects this = some e)
    {classReleased : Bool}
    (hanswers : d.Answers (some hwnd) e classReleased) :
    ∃ mHinst, e.mHinst = some mHinst ∧ classReleased = true := by
  obtain ⟨_, _, e', he', hsettled⟩ := h.top hpending hobject hhandle
  rw [hthis, Option.some.injEq] at he'
  subst he'
  have hopen : d.settled.objects this = some { e with mHwnd := some hwnd } := by
    rw [hsettled]
    exact Function.update_self _ _ _
  obtain ⟨mHinst, hinst⟩ := h.registered hopen
  have hname : e.registeredClass = some (e.mClassName, mHinst) := by
    rw [MessageEvent.registeredClass, hinst, Option.map_some]
  refine ⟨mHinst, hinst, (hanswers _ hname).mpr ?_⟩
  intro other hclass
  -- the window belongs to an object that names the same class
  cases hwindow : d.settled.windows other with
  | none =>
      rw [h.classed.unnamed other hwindow] at hclass
      contradiction
  | some window =>
      obtain ⟨owner, e', _, _, howner, hmine, _⟩ :=
        h.owned.owner other window hwindow
      rw [h.classed.named owner e' other howner hmine] at hclass
      have hone : d.settled.classNames owner = some (e.mClassName, mHinst) := by
        rw [World.classNames, howner, Option.bind_some, hclass]
      have htwo : d.settled.classNames this = some (e.mClassName, mHinst) := by
        rw [World.classNames, hopen, Option.bind_some]
        exact hname
      have heq := h.accounted.classes.unique owner this _ hone htwo
      rw [heq, hopen, Option.some.injEq] at howner
      rw [← howner] at hmine
      exact hmine

/-- `CreateWindowEx` returns to `register_window_class`. -/
theorem Consistent.created (h : d.Consistent)
    (hpending : d.pending = .createWindowEx this hwnd :: rest)
    {windowCreated classReleased : Bool}
    (hsent : windowCreated = true → d.world.windows hwnd ≠ some ⟨none⟩)
    (hanswers : windowCreated = false → ∀ e ∈ d.world.objects this,
      d.Answers (some hwnd) e classReleased) :
    ∃ next, ({ d with pending := rest } :
        Desktop Object HWND HINSTANCE Procedure).created this hwnd windowCreated
          classReleased = some next ∧
      d.Leads (if windowCreated then none
        else some (.unregister this ⟨true, true⟩)) next := by
  obtain ⟨hobjects, hhandles, e, hthis, hsettled⟩ := h.top hpending rfl rfl
  cases windowCreated with
  | true =>
      have hwindow : d.world.windows hwnd = some ⟨some this⟩ := by
        obtain ⟨_, userData, _, _, hwindow, rfl | rfl⟩ :=
          h.begun_top hpending
        · exact absurd hwindow (hsent rfl)
        · exact hwindow
      have hsame : (d.world.setObject this
          (some { e with mHwnd := some hwnd })).settle rest = d.settled := by
        have hrest := (d.world.settle_windows hhandles).trans hwindow
        rw [hsettled, World.settle_setObject _ hobjects]
        simp [World.setWindow, World.setObject, ← hrest]
      refine ⟨⟨d.world.setObject this (some { e with mHwnd := some hwnd }),
        d.windowClass, rest⟩, by simp [Desktop.created, hthis], ?_, ?_, ?_, ?_⟩
      · exact h.apart_rest hpending
      · intro other hother
        exact (h.begun_rest hpending hother).setObject (hobjects other hother) _
      · have hclassed : Classed d.windowClass ((d.world.setObject this
            (some { e with mHwnd := some hwnd })).settle rest) := by
          rw [hsame]
          exact h.classed
        exact hclassed
      · exact hsame
  | false =>
      obtain ⟨mHinst, hinst, hreleased⟩ :=
        h.answered hpending rfl rfl hthis (hanswers rfl e hthis)
      have hclose : ∃ after, Caller.program.resume
            (d.closedWorld this e hwnd mHinst) this = some after ∧
          d.Leads (some (.unregister this ⟨true, true⟩))
            ⟨after, Function.update d.windowClass hwnd none, rest⟩ :=
        h.close hpending rfl rfl hthis hinst (by simp) trivial
      obtain ⟨after, hafter, hleads⟩ := hclose
      refine ⟨_, ?_, hleads⟩
      rw [Caller.resume, Option.some.injEq] at hafter
      rw [← hafter]
      simp [Desktop.created, closedWorld, MessageEvent.released,
        World.unregisterClassOf, World.unregisterClass, hthis, hinst, hreleased]

/-- `DestroyWindow` returns to `unregister_window_class`. -/
theorem Consistent.destroyed (h : d.Consistent)
    (hpending : d.pending = .destroyWindow this hwnd caller :: rest)
    {windowDestroyed classReleased : Bool}
    (hgone : windowDestroyed = (d.world.windows hwnd).isSome)
    (hanswers : ∀ e ∈ d.world.objects this,
      d.Answers (some hwnd) e classReleased)
    (hready : caller.Ready d.world d.pending) :
    ∃ next, ({ d with pending := rest } :
        Desktop Object HWND HINSTANCE Procedure).destroyed this hwnd caller
          windowDestroyed classReleased = some next ∧
      d.Leads (some (caller.operation this ⟨true, true⟩)) next := by
  obtain ⟨e, hthis, hhandle, hwindow, hcaller⟩ := h.begun_top hpending
  rw [hwindow, Option.isSome_some] at hgone
  obtain ⟨mHinst, hinst, hreleased⟩ :=
    h.answered hpending rfl rfl hthis (hanswers e hthis)
  obtain ⟨after, hafter, hleads⟩ :=
    h.close hpending rfl rfl hthis hinst hcaller hready
  refine ⟨_, ?_, hleads⟩
  have hobjects : (d.world.setWindow hwnd none).objects this = some e := hthis
  rw [closedWorld, MessageEvent.released] at hafter
  simp [Desktop.destroyed, unregistered, World.unregisterClass, hgone, hobjects,
    hinst, hreleased, hafter]

end Close

end Desktop

end Saigon
