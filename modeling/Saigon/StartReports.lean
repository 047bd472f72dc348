/-
What the result of `startTimer` says.  The future stays valid after the worker
has left its loop, and an exception of `std::async` is caught on the way to the
same `return true`, so a timer that is reported to run may not.
-/
import Saigon.TaskTimer

namespace Saigon

/-- The call has its result, and it is true. -/
def Point.answersTrue : Point → Bool
  | .starting (.unlock result) => result
  | .starting (.returns result) => result
  | _ => false

namespace TaskTimer

/-- The points of `execute` up to the end of its loop. -/
def inLoop : ExecutePoint → Bool
  | .unlock => false
  | .leaving => false
  | .finished => false
  | _ => true

/-- What a start call did: whether it spawned a worker, and whether a worker
spawned before was still in its loop when the call held the mutex. -/
structure StartNote where
  spawned : Bool
  looping : Bool
deriving DecidableEq

variable {Thread : Type} [DecidableEq Thread]

/-- Note what the start calls of each thread do, each call anew. -/
def noteStart (s : Control Thread ExecutePoint) :
    ControlStep Thread ExecuteChoice → (Thread → StartNote) →
      Thread → StartNote
  | .start t, notes => Function.update notes t ⟨false, false⟩
  | .stop _, notes => notes
  | .proceed t os, notes => Function.update notes t
      (match s.controllers t with
      | .starting .valid => { notes t with looping := s.workers.any inLoop }
      | .starting .async => { notes t with spawned := os.threadGranted }
      | _ => notes t)
  | .work _ _, notes => notes

/-- The system beside the notes. -/
abbrev Reported (Thread : Type) :=
  Control Thread ExecutePoint × (Thread → StartNote)

def reportStep : Reported Thread → ControlStep Thread ExecuteChoice →
    Option (Reported Thread) :=
  Runs.observe step noteStart

omit [DecidableEq Thread] in
def reportStart : Reported Thread :=
  (Control.initial, fun _ => ⟨false, false⟩)

omit [DecidableEq Thread] in
/-- A start call whose result is true spawned a worker, or found one in its
loop. -/
def ReportsRunning (s : Reported Thread) : Prop :=
  ∀ t, (s.1.controllers t).answersTrue = true →
    (s.2 t).spawned = true ∨ (s.2 t).looping = true

omit [DecidableEq Thread] in
/-- A start call that finds the future valid finds its worker in the loop, and
`std::async` does not throw. -/
def FindsRunning (s : Reported Thread) :
    ControlStep Thread ExecuteChoice → Prop
  | .proceed t os =>
      (s.1.controllers t = .starting .valid → ∀ k, s.1.mFut = some k →
        s.1.workers[k]?.any inLoop = true) ∧
      (s.1.controllers t = .starting .async → os.threadGranted = true)
  | .start _ => True
  | .stop _ => True
  | .work _ _ => True

/-- What the note of a thread says at each point of its call. -/
def Agrees (note : StartNote) : Point → Prop
  | .starting .lock => note.spawned = false
  | .starting .valid => note.spawned = false
  | .starting .store => note.spawned = false ∧ note.looping = false
  | .starting .async => note.spawned = false ∧ note.looping = false
  | .starting (.assign _) => note.spawned = true
  | .starting (.unlock result) =>
      result = true → note.spawned = true ∨ note.looping = true
  | .starting (.returns result) =>
      result = true → note.spawned = true ∨ note.looping = true
  | .idle => True
  | .stopping _ => True

/-- Beside the one worker, the notes are right. -/
structure Reporting (s : Reported Thread) : Prop
    extends Controlled execute s.1 where
  agrees : ∀ t, Agrees (s.2 t) (s.1.controllers t)

omit [DecidableEq Thread] in
theorem reportStart_reporting :
    Reporting (reportStart : Reported Thread) where
  toControlled := initial_controlled execute
  agrees := fun _ => trivial

theorem not_inLoop_of_ended {worker : ExecutePoint}
    (hended : execute.ended worker = true) : inLoop worker = false := by
  rw [of_decide_eq_true hended]
  rfl

namespace Reporting

variable {s : Reported Thread} {after : Control Thread ExecutePoint}
  {t : Thread} {os : Answer}

omit [DecidableEq Thread] in
theorem reportsRunning (h : Reporting s) : ReportsRunning s := by
  intro t hanswers
  have hagrees := h.agrees t
  cases ht : s.1.controllers t with
  | idle =>
      rw [ht] at hanswers
      contradiction
  | stopping point =>
      rw [ht] at hanswers
      contradiction
  | starting point =>
      rw [ht] at hanswers hagrees
      cases point with
      | unlock result => exact hagrees hanswers
      | returns result => exact hagrees hanswers
      | _ => contradiction

/-- A step of one thread, which changes its note only. -/
theorem controller (h : Reporting s) (hcontrolled : Controlled execute after)
    {p : Point} {note : StartNote}
    (hcontrollers : after.controllers = Function.update s.1.controllers t p)
    (hagrees : Agrees note p) :
    Reporting (after, Function.update s.2 t note) := by
  constructor
  case toControlled => exact hcontrolled
  case agrees =>
    intro other
    simp only [hcontrollers]
    by_cases heq : other = t
    · rw [heq, Function.update_self, Function.update_self]
      exact hagrees
    · rw [Function.update_of_ne heq, Function.update_of_ne heq]
      exact h.agrees other

omit [DecidableEq Thread] in
/-- The worker of a valid future is the only one that may be in its loop. -/
theorem looping_iff (h : Reporting s) {k : Nat} (hmFut : s.1.mFut = some k) :
    s.1.workers.any inLoop = true ↔ s.1.workers[k]?.any inLoop = true := by
  constructor
  · intro hany
    obtain ⟨worker, hworker, hloop⟩ := List.any_eq_true.mp hany
    obtain ⟨j, hj⟩ := List.mem_iff_getElem?.mp hworker
    have hended : execute.ended worker = false := by
      rw [← Bool.not_eq_true]
      intro hended
      rw [not_inLoop_of_ended hended] at hloop
      contradiction
    rcases h.unfinished j worker hj hended with hfuture | ⟨other, hother⟩
    · rw [hmFut, Option.some.injEq] at hfuture
      rw [hfuture, hj]
      exact hloop
    · rw [h.spawning other (Point.holds_of_assigns hother).2] at hmFut
      contradiction
  · intro hany
    obtain ⟨worker, hworker, hloop⟩ := (Option.any_eq_true _ _).mp hany
    exact List.any_eq_true.mpr ⟨worker, List.mem_of_getElem? hworker, hloop⟩

omit [DecidableEq Thread] in
/-- A start call that has found the future invalid finds no worker in its
loop. -/
theorem not_looping (hcontrolled : Controlled execute after)
    (ht : after.controllers t = .starting .store) :
    after.workers.any inLoop = false := by
  rw [List.any_eq_false]
  intro worker hworker
  rw [not_inLoop_of_ended (hcontrolled.ended_of_store ht hworker)]
  simp

/-- A step of a start call. -/
theorem startCall (h : Reporting s) {point : StartPoint}
    (ht : s.1.controllers t = .starting point)
    (hfinds : FindsRunning s (.proceed t os))
    (hcall : startTimer s.1 t os point = some after) :
    Reporting (after, noteStart s.1 (.proceed t os) s.2) := by
  have hcontrolled : Controlled execute after := h.toControlled.startCall ht hcall
  have hagrees := h.agrees t
  rw [ht] at hagrees
  simp only [noteStart, ht]
  cases Control.startCall_step hcall with
  | lock _ => exact h.controller hcontrolled rfl hagrees
  | running k hmFut =>
      apply h.controller hcontrolled rfl
      intro _
      exact Or.inr ((h.looping_iff hmFut).mpr (hfinds.1 ht k hmFut))
  | invalid _ =>
      have hnone : (s.1.goto t (.starting .store)).workers.any inLoop = false :=
        not_looping hcontrolled (Function.update_self t _ _)
      exact h.controller hcontrolled rfl ⟨hagrees, hnone⟩
  | store => exact h.controller hcontrolled rfl hagrees
  | spawned hgranted => exact h.controller hcontrolled rfl hgranted
  | threw hrefused =>
      rw [hfinds.2 ht] at hrefused
      contradiction
  | assign k =>
      apply h.controller hcontrolled rfl
      intro _
      exact Or.inl hagrees
  | unlock result => exact h.controller hcontrolled rfl hagrees
  | returns result => exact h.controller hcontrolled rfl trivial

/-- A step of a stop call. -/
theorem stopCall (h : Reporting s) {point : StopPoint}
    (ht : s.1.controllers t = .stopping point)
    (hcall : stopTimer s.1 t os point = some after) :
    Reporting (after, noteStart s.1 (.proceed t os) s.2) := by
  have hcontrolled : Controlled execute after := h.toControlled.stopCall ht hcall
  simp only [noteStart, ht]
  cases Control.stopCall_step hcall with
  | _ => exact h.controller hcontrolled rfl trivial

/-- Step lemma. -/
theorem step (h : Reporting s) {action : ControlStep Thread ExecuteChoice}
    {next : Reported Thread} (hfinds : FindsRunning s action)
    (hstep : reportStep s action = some next) : Reporting next := by
  obtain ⟨after, hafter, rfl⟩ := Option.map_eq_some_iff.mp hstep
  rw [step_eq] at hafter
  have hcontrolled := h.toControlled.step hafter
  rcases Control.step_cases hafter with ⟨t, rfl, _, rfl⟩ | ⟨t, rfl, _, rfl⟩ |
    ⟨t, os, point, rfl, ht, hcall⟩ | ⟨t, os, point, rfl, ht, hcall⟩ |
    ⟨k, choice, rfl, hcall⟩
  · exact h.controller hcontrolled rfl rfl
  · have hkept : Reporting (s.1.goto t (.stopping .load),
        Function.update s.2 t (s.2 t)) := h.controller hcontrolled rfl trivial
    rw [Function.update_eq_self] at hkept
    exact hkept
  · exact h.startCall ht hfinds hcall
  · exact h.stopCall ht hcall
  · obtain ⟨_, _, _, _, _, _, rfl⟩ := Control.workerCall_cases hcall
    exact ⟨hcontrolled, h.agrees⟩

/-- Finding no worker in its loop, or none to spawn, breaks the promise. -/
theorem findsRunning (h : Reporting s)
    {action : ControlStep Thread ExecuteChoice}
    (hnext : ∀ next, reportStep s action = some next → ReportsRunning next) :
    FindsRunning s action := by
  cases action with
  | start t => trivial
  | stop t => trivial
  | work k choice => trivial
  | proceed t os =>
      have hagrees := h.agrees t
      constructor
      · intro ht k hmFut
        rw [ht] at hagrees
        have hstep : TaskTimer.step s.1 (.proceed t os) =
            some (s.1.goto t (.starting (.unlock true))) := by
          simp [TaskTimer.step, ht, startTimer, Control.startCall, hmFut]
        have hreports := hnext _ (Runs.observe_of_step hstep) t
          (by simp [Control.goto, Point.answersTrue])
        have hspawned : (s.2 t).spawned = false := hagrees
        rw [← h.looping_iff hmFut]
        simpa [noteStart, ht, hspawned] using hreports
      · intro ht
        rw [ht] at hagrees
        rw [← Bool.not_eq_false]
        intro hrefused
        have hstep : TaskTimer.step s.1 (.proceed t os) =
            some (s.1.goto t (.starting (.unlock true))) := by
          simp [TaskTimer.step, ht, startTimer, Control.startCall, hrefused]
        have hreports := hnext _ (Runs.observe_of_step hstep) t
          (by simp [Control.goto, Point.answersTrue])
        simp [noteStart, ht, hrefused, hagrees.2] at hreports

end Reporting

/-- Whatever start and stop calls any number of threads make, whenever
`startTimer` has true for its result it spawned a worker or found one in its
loop, exactly when no call finds the future of a worker that has left its loop
and `std::async` never throws. -/
theorem startTimer_reports_iff (actions : List (ControlStep Thread ExecuteChoice)) :
    Runs.Throughout reportStep ReportsRunning
        (reportStart : Reported Thread) actions ↔
      Runs.EveryStep reportStep FindsRunning reportStart actions :=
  Runs.throughout_iff_everyStep
    (fun _ _ _ h hfinds hstep => Reporting.step h hfinds hstep)
    (fun _ h => h.reportsRunning)
    (fun _ _ h hnext => h.findsRunning hnext)
    reportStart_reporting

/-- One thread starts the timer, whose first tick is its last, and starts it
again. -/
def startedAfterFinish : List (ControlStep Unit ExecuteChoice) :=
  List.flatten
    [[.start ()], List.replicate 7 (.proceed () ⟨true, none⟩),
      List.replicate 3 (.work 0 .go), [.work 0 (.ticked (some .timerFinish))],
      List.replicate 2 (.work 0 .go),
      [.start ()], List.replicate 3 (.proceed () ⟨true, none⟩)]

/-- One thread starts the timer while no thread can be created for it. -/
def startedWithoutThread : List (ControlStep Unit ExecuteChoice) :=
  [.start ()] ++ List.replicate 5 (.proceed () ⟨false, none⟩)

/-- A run in which a call that did neither returns true. -/
theorem not_reportsRunning_of_run {actions : List (ControlStep Thread ExecuteChoice)}
    (t : Thread)
    (hfacts : (Runs.run reportStep reportStart actions).map
      (fun s => (s.1.controllers t, s.2 t)) =
        some (.starting (.returns true), ⟨false, false⟩)) :
    ¬ Runs.Throughout reportStep ReportsRunning reportStart actions := by
  intro hall
  obtain ⟨reached, hrun, hfacts⟩ := Option.map_eq_some_iff.mp hfacts
  simp only [Prod.mk.injEq] at hfacts
  obtain ⟨hreturns, hnote⟩ := hfacts
  have hreports := hall.last hrun t (by rw [hreturns]; rfl)
  rw [hnote] at hreports
  simp at hreports

/-- Both calls return true, and no worker runs. -/
theorem startTimer_reports_no_worker :
    ¬ Runs.Throughout reportStep ReportsRunning reportStart
        startedAfterFinish ∧
      ¬ Runs.Throughout reportStep ReportsRunning reportStart
        startedWithoutThread := by
  constructor
  · exact not_reportsRunning_of_run () (by decide)
  · exact not_reportsRunning_of_run () (by decide)

end TaskTimer

end Saigon
