/-
Which calls of `TaskTimer` do not return.  A call that has yet to lock the
mutex waits for `onTimer`, and a `stopTimer` call that others overtake waits
for a worker that nobody tells to stop.
-/
import Saigon.StartReports

namespace Saigon

variable {Thread Worker Choice : Type}

/-- The points of a call before it has locked the mutex. -/
def Point.beforeLock : Point → Bool
  | .starting .lock => true
  | .stopping .load => true
  | .stopping .lock => true
  | _ => false

/-- The points of a stop call that has yet to set `mStop`. -/
def Point.yetToStop : Point → Bool
  | .stopping .load => true
  | .stopping .lock => true
  | .stopping .store => true
  | _ => false

/-- The points of a stop call that has set `mStop` and unlocked the mutex. -/
def Point.hasStopped : Point → Bool
  | .stopping .notify => true
  | .stopping .valid => true
  | .stopping .get => true
  | _ => false

section Calls

variable [DecidableEq Thread] {r : Routine Worker Choice} {caught : Bool}
  {s after : Control Thread Worker} {t : Thread} {os : Answer} {k : Nat}

/-- The future of a worker stays in `mFut` until the worker has ended. -/
theorem Controlled.future_kept (h : Controlled r s) (hmFut : s.mFut = some k)
    (hleft : s.ended r k = false) {action : ControlStep Thread Choice}
    (hstep : Control.step r caught s action = some after) :
    after.mFut = some k := by
  rcases Control.step_cases hstep with ⟨_, _, _, rfl⟩ | ⟨_, _, _, rfl⟩ |
    ⟨t, os, point, _, ht, hcall⟩ | ⟨t, os, point, _, _, hcall⟩ |
    ⟨j, choice, _, hcall⟩
  · exact hmFut
  · exact hmFut
  · cases Control.startCall_step hcall with
    | assign j =>
        rw [h.spawning t (by rw [ht]; rfl)] at hmFut
        contradiction
    | _ => exact hmFut
  · cases Control.stopCall_step hcall with
    | get j hj hended =>
        rw [hmFut, Option.some.injEq] at hj
        rw [← hj, hleft] at hended
        contradiction
    | _ => exact hmFut
  · obtain ⟨_, _, _, _, _, _, rfl⟩ := Control.workerCall_cases hcall
    exact hmFut

/-- What is true of the point of a call, and stays so when the call takes a
step itself. -/
theorem Control.point_kept {view : Point → Bool} (hidle : view .idle = false)
    (ht : view (s.controllers t) = true) {action : ControlStep Thread Choice}
    (hstep : Control.step r caught s action = some after)
    (hmine : ∀ os, action = .proceed t os →
      view (after.controllers t) = true) :
    view (after.controllers t) = true := by
  by_cases hown : ∃ os, action = .proceed t os
  · obtain ⟨os, haction⟩ := hown
    exact hmine os haction
  · have hbusy : s.controllers t ≠ .idle := by
      intro heq
      rw [heq, hidle] at ht
      contradiction
    rw [Control.step_controllers hstep hbusy fun os haction => hown ⟨os, haction⟩]
    exact ht

/-- A start call leaves the workers alone that have been spawned. -/
theorem Control.startCall_worker {point : StartPoint}
    (hcall : Control.startCall r caught s t os point = some after)
    {worker : Worker} (hworker : s.workers[k]? = some worker) :
    after.workers[k]? = some worker := by
  rcases Control.startCall_shared hcall with ⟨_, hworkers⟩ |
    ⟨_, _, hworkers⟩ | ⟨_, _, hworkers⟩
  · rw [hworkers, hworker]
  · rw [hworkers, hworker]
  · rw [hworkers, List.getElem?_append_left
      (List.getElem?_eq_some_iff.mp hworker).1, hworker]

/-- A stop call that has set `mStop` does not set it again. -/
theorem Control.stopCall_yetToStop {point : StopPoint}
    (hpoint : (Point.stopping point).yetToStop = false)
    (hcall : Control.stopCall r s t os point = some after) :
    ∃ p, after.controllers = Function.update s.controllers t p ∧
      p.yetToStop = false := by
  cases Control.stopCall_step hcall with
  | load _ => contradiction
  | lock _ => contradiction
  | _ => exact ⟨_, rfl, rfl⟩

/-- While its future is in `mFut` and the worker has not ended, a stop call
that has set `mStop` gets as far as `get`. -/
theorem Control.stopCall_hasStopped {point : StopPoint}
    (hpoint : (Point.stopping point).hasStopped = true)
    (hmFut : s.mFut = some k) (hleft : s.ended r k = false)
    (hcall : Control.stopCall r s t os point = some after) :
    (after.controllers t).hasStopped = true := by
  cases Control.stopCall_step hcall with
  | notify _ _ => simp [Control.goto, Point.hasStopped]
  | valid _ _ => simp [Control.goto, Point.hasStopped]
  | invalid hnone =>
      rw [hmFut] at hnone
      contradiction
  | get j hj hended =>
      rw [hmFut, Option.some.injEq] at hj
      rw [← hj, hleft] at hended
      contradiction
  | threw hnone =>
      rw [hmFut] at hnone
      contradiction
  | _ => contradiction

end Calls

namespace TaskTimer

variable [DecidableEq Thread] {s after : Control Thread ExecutePoint}
  {t : Thread} {os : Answer} {k : Nat}

/-! ### Calls that wait for `onTimer` -/

/-- Worker `k` takes no step. -/
def Waits (k : Nat) (_ : Control Thread ExecutePoint) :
    ControlStep Thread ExecuteChoice → Prop
  | .work j _ => j ≠ k
  | _ => True

/-- A notification leaves a worker that does not wait alone. -/
theorem notifyOne_of_ne {woken : Option Nat}
    {workers notified : List ExecutePoint} {worker : ExecutePoint}
    (hnotify : notifyOne woken workers = some notified)
    (hworker : workers[k]? = some worker) (hne : worker ≠ .waiting) :
    notified[k]? = some worker := by
  cases woken with
  | none =>
      simp only [notifyOne, Option.ite_none_left_eq_some,
        Option.some.injEq] at hnotify
      rw [← hnotify.2, hworker]
  | some j =>
      simp only [notifyOne, Option.ite_none_right_eq_some,
        Option.some.injEq] at hnotify
      obtain ⟨hwaiting, rfl⟩ := hnotify
      have hother : j ≠ k := by
        rintro rfl
        rw [hworker, Option.some.injEq] at hwaiting
        exact hne hwaiting
      rw [List.getElem?_set_ne hother, hworker]

/-- Worker `k` runs `onTimer`. -/
structure Ticking (k : Nat) (s : Control Thread ExecutePoint) : Prop
    extends Timed s where
  ticking : s.workers[k]? = some .ticking

namespace Ticking

omit [DecidableEq Thread] in
theorem held (h : Ticking k s) : s.mutex = some (.worker k) :=
  (h.workers k _ h.ticking).mp rfl

/-- Step lemma. -/
theorem step (h : Ticking k s) {action : ControlStep Thread ExecuteChoice}
    (hwaits : Waits k s action) (hstep : TaskTimer.step s action = some after) :
    Ticking k after := by
  refine ⟨h.toTimed.step hstep, ?_⟩
  rw [step_eq] at hstep
  rcases Control.step_cases hstep with ⟨_, _, _, rfl⟩ | ⟨_, _, _, rfl⟩ |
    ⟨t, os, point, _, _, hcall⟩ | ⟨t, os, point, _, _, hcall⟩ |
    ⟨j, choice, rfl, hcall⟩
  · exact h.ticking
  · exact h.ticking
  · exact Control.startCall_worker hcall h.ticking
  · rcases Control.stopCall_shared hcall with ⟨_, hworkers⟩ |
      ⟨_, _, hworkers⟩ | ⟨_, _, hnotify⟩
    · rw [hworkers, h.ticking]
    · rw [hworkers, h.ticking]
    · exact notifyOne_of_ne hnotify h.ticking (by simp)
  · obtain ⟨_, _, _, _, _, _, rfl⟩ := Control.workerCall_cases hcall
    rw [List.getElem?_set_ne hwaits, h.ticking]

/-- `mStop` is false and the mutex is locked, so that the call comes to wait
for the mutex. -/
theorem beforeLock (h : Ticking k s)
    (hbefore : (s.controllers t).beforeLock = true)
    {action : ControlStep Thread ExecuteChoice}
    (hstep : TaskTimer.step s action = some after) :
    (after.controllers t).beforeLock = true := by
  have hheld := h.held
  rw [step_eq] at hstep
  apply Control.point_kept rfl hbefore hstep
  rintro os rfl
  cases ht : s.controllers t with
  | idle =>
      rw [ht] at hbefore
      contradiction
  | starting point =>
      rw [ht] at hbefore
      simp only [Control.step, ht] at hstep
      cases Control.startCall_step hstep with
      | lock hfree =>
          rw [hheld] at hfree
          contradiction
      | _ => contradiction
  | stopping point =>
      rw [ht] at hbefore
      simp only [Control.step, ht] at hstep
      cases Control.stopCall_step hstep with
      | stopped hstop =>
          have hticking := List.mem_of_getElem? h.ticking
          rw [h.calling _ hticking rfl] at hstop
          contradiction
      | load _ => simp [Control.goto, Point.beforeLock]
      | lock hfree =>
          rw [hheld] at hfree
          contradiction
      | _ => contradiction

end Ticking

/-- A call of `startTimer` or `stopTimer` that has yet to lock the mutex does
not return before `onTimer` does, whatever other calls are made meanwhile. -/
theorem calls_wait_for_onTimer {s later : Control Thread ExecutePoint}
    {t : Thread} {k : Nat}
    (hreached : Runs.Reachable step (fun _ _ => True) Control.initial s)
    (hticking : s.workers[k]? = some .ticking)
    (hbefore : (s.controllers t).beforeLock = true)
    (hlater : Runs.Reachable step (Waits k) s later) :
    later.workers[k]? = some .ticking ∧ later.mStop = false ∧
      (later.controllers t).beforeLock = true := by
  have htimed : Timed s :=
    hreached.invariant (fun _ _ _ h _ hstep => h.step hstep) initial_timed
  have hkeep : ∀ state action next,
      Ticking k state ∧ (state.controllers t).beforeLock = true →
      Waits k state action → step state action = some next →
      Ticking k next ∧ (next.controllers t).beforeLock = true := by
    rintro state action next ⟨h, hbefore⟩ hwaits hstep
    exact ⟨h.step hwaits hstep, h.beforeLock hbefore hstep⟩
  obtain ⟨h, hstays⟩ := hlater.invariant hkeep ⟨⟨htimed, hticking⟩, hbefore⟩
  have hmem := List.mem_of_getElem? h.ticking
  exact ⟨h.ticking, h.calling _ hmem rfl, hstays⟩

/-- One thread starts the timer, and the other one stops it during the first
tick. -/
def stoppedDuringTick : List (ControlStep Bool ExecuteChoice) :=
  List.flatten
    [[.start false], List.replicate 7 (.proceed false ⟨true, none⟩),
      List.replicate 3 (.work 0 .go), [.stop true]]

theorem stoppedDuringTick_waits :
    ∃ s, Runs.run step Control.initial stoppedDuringTick = some s ∧
      ∀ later, Runs.Reachable step (Waits 0) s later →
        (later.controllers true).beforeLock = true := by
  have hfacts : (Runs.run step Control.initial stoppedDuringTick).map
      (fun s => (s.workers, s.controllers true)) =
        some ([.ticking], .stopping .load) := by decide
  obtain ⟨s, hrun, hfacts⟩ := Option.map_eq_some_iff.mp hfacts
  obtain ⟨hworkers, hstopper⟩ := Prod.mk.inj hfacts
  have hreached := Runs.Reachable.refl.of_run (Runs.everyStep_true _ _) hrun
  refine ⟨s, hrun, fun later hlater => ?_⟩
  have hwaits := calls_wait_for_onTimer hreached (k := 0) (t := true)
    (by rw [hworkers]; rfl) (by rw [hstopper]; rfl) hlater
  exact hwaits.2.2

/-! ### Stop calls that are overtaken -/

/-- No stop call begins, and `onTimer` asks to be called again. -/
def KeepsTicking (_ : Control Thread ExecutePoint) :
    ControlStep Thread ExecuteChoice → Prop
  | .stop _ => False
  | .work _ (.ticked status) => status = some .timerContinue
  | _ => True

/-- A worker in its loop stays in it while `mStop` is false. -/
theorem inLoop_of_advance {worker next : ExecutePoint} {choice : ExecuteChoice}
    (hloop : inLoop worker = true)
    (hcontinues : ∀ status, choice = .ticked status →
      status = some .timerContinue)
    (hadvance : advance false worker choice = some next) :
    inLoop next = true := by
  revert hadvance
  fun_cases advance false worker choice
  case case5 =>
    have hstatus := hcontinues _ rfl
    contradiction
  case case6 =>
    have hstatus := hcontinues _ rfl
    contradiction
  case case9 timedOut =>
    intro hadvance
    cases timedOut <;> cases hadvance <;> rfl
  all_goals
    intro hadvance
    cases hadvance
  all_goals first | rfl | contradiction

/-- `mStop` is false again and a new worker in its loop when the call of `t`
has yet to look for the future, and nobody is to set `mStop`. -/
structure Overtaken (t : Thread) (k : Nat) (s : Control Thread ExecutePoint) :
    Prop extends Controlled execute s where
  started : s.mStop = false
  future : s.mFut = some k
  looping : s.workers[k]?.any inLoop = true
  waiting : (s.controllers t).hasStopped = true
  stoppers : ∀ other, (s.controllers other).yetToStop = false

namespace Overtaken

omit [DecidableEq Thread] in
theorem left (h : Overtaken t k s) : s.ended execute k = false := by
  obtain ⟨worker, hworker, hloop⟩ := (Option.any_eq_true _ _).mp h.looping
  rw [Control.ended, hworker, Option.any_some, ← Bool.not_eq_true]
  intro hended
  rw [not_inLoop_of_ended hended] at hloop
  contradiction

/-- What one thread does that is not to set `mStop`. -/
theorem stoppers_of_update (h : Overtaken t k s) {other : Thread} {p : Point}
    (hp : p.yetToStop = false)
    (hcontrollers : after.controllers = Function.update s.controllers other p)
    (any : Thread) : (after.controllers any).yetToStop = false := by
  rw [hcontrollers]
  by_cases heq : any = other
  · rw [heq, Function.update_self, hp]
  · rw [Function.update_of_ne heq, h.stoppers any]

/-- The call waits on. -/
theorem waiting_of_step (h : Overtaken t k s)
    {action : ControlStep Thread ExecuteChoice}
    (hstep : Control.step execute true s action = some after) :
    (after.controllers t).hasStopped = true := by
  have hwaiting := h.waiting
  apply Control.point_kept rfl hwaiting hstep
  rintro os rfl
  cases ht : s.controllers t with
  | idle =>
      rw [ht] at hwaiting
      contradiction
  | starting point =>
      rw [ht] at hwaiting
      contradiction
  | stopping point =>
      rw [ht] at hwaiting
      simp only [Control.step, ht] at hstep
      exact Control.stopCall_hasStopped hwaiting h.future h.left hstep

theorem looping_of_startCall (h : Overtaken t k s) {other : Thread}
    {point : StartPoint}
    (hcall : Control.startCall execute true s other os point = some after) :
    after.workers[k]?.any inLoop = true := by
  obtain ⟨worker, hworker, hloop⟩ := (Option.any_eq_true _ _).mp h.looping
  rw [Control.startCall_worker hcall hworker, Option.any_some, hloop]

theorem looping_of_stopCall (h : Overtaken t k s) {other : Thread}
    {point : StopPoint}
    (hcall : Control.stopCall execute s other os point = some after) :
    after.workers[k]?.any inLoop = true := by
  rcases Control.stopCall_shared hcall with ⟨_, hworkers⟩ |
    ⟨_, _, hworkers⟩ | ⟨_, _, hnotify⟩
  · rw [hworkers, h.looping]
  · rw [hworkers, h.looping]
  · have hview := congrArg (fun views => views[k]?.any id)
      (notifyOne_map inLoop rfl _ _ _ hnotify)
    have hsame : after.workers[k]?.any inLoop = s.workers[k]?.any inLoop := by
      simpa [Option.any_map] using hview
    rw [hsame, h.looping]

omit [DecidableEq Thread] in
theorem looping_of_workerCall (h : Overtaken t k s) {j : Nat}
    {choice : ExecuteChoice}
    (hcontinues : ∀ status, choice = .ticked status →
      status = some .timerContinue)
    (hcall : Control.workerCall execute s j choice = some after) :
    after.workers[k]?.any inLoop = true := by
  obtain ⟨worker, next, mutex, hworker, hadvance, _, rfl⟩ :=
    Control.workerCall_cases hcall
  by_cases heq : j = k
  · subst heq
    have hloop := h.looping
    rw [hworker, Option.any_some] at hloop
    rw [h.started] at hadvance
    rw [List.getElem?_set_self (List.getElem?_eq_some_iff.mp hworker).1,
      Option.any_some]
    exact inLoop_of_advance hloop hcontinues hadvance
  · rw [List.getElem?_set_ne heq, h.looping]

/-- Step lemma. -/
theorem step (h : Overtaken t k s) {action : ControlStep Thread ExecuteChoice}
    (hkeeps : KeepsTicking s action)
    (hstep : TaskTimer.step s action = some after) : Overtaken t k after := by
  rw [step_eq] at hstep
  have hcontrolled := h.toControlled.step hstep
  have hfuture := h.future_kept h.future h.left hstep
  have hwaiting := h.waiting_of_step hstep
  rcases Control.step_cases hstep with ⟨other, _, _, rfl⟩ | ⟨_, rfl, _, _⟩ |
    ⟨other, os, point, _, _, hcall⟩ | ⟨other, os, point, _, ht, hcall⟩ |
    ⟨j, choice, rfl, hcall⟩
  · exact ⟨hcontrolled, h.started, hfuture, h.looping, hwaiting,
      h.stoppers_of_update rfl rfl⟩
  · exact hkeeps.elim
  · obtain ⟨p, hp, hstarts, _⟩ := Control.startCall_controllers hcall
    refine ⟨hcontrolled, ?_, hfuture, h.looping_of_startCall hcall, hwaiting,
      h.stoppers_of_update ?_ hp⟩
    · rcases Control.startCall_shared hcall with ⟨hstop, _⟩ | ⟨_, hstop, _⟩ |
        ⟨_, hstop, _⟩
      · rw [hstop, h.started]
      · exact hstop
      · rw [hstop, h.started]
    · rcases p with _ | _ | next
      · rfl
      · rfl
      · exact absurd rfl (hstarts next)
  · have hpoint := h.stoppers other
    rw [ht] at hpoint
    obtain ⟨p, hp, hyet⟩ := Control.stopCall_yetToStop hpoint hcall
    refine ⟨hcontrolled, ?_, hfuture, h.looping_of_stopCall hcall, hwaiting,
      h.stoppers_of_update hyet hp⟩
    rcases Control.stopCall_shared hcall with ⟨hstop, _⟩ | ⟨rfl, _, _⟩ |
      ⟨_, hstop, _⟩
    · rw [hstop, h.started]
    · contradiction
    · rw [hstop, h.started]
  · have hcontinues : ∀ status, choice = .ticked status →
        status = some .timerContinue := by
      rintro status rfl
      exact hkeeps
    have hlooping := h.looping_of_workerCall hcontinues hcall
    obtain ⟨_, _, _, _, _, _, rfl⟩ := Control.workerCall_cases hcall
    exact ⟨hcontrolled, h.started, hfuture, hlooping, hwaiting, h.stoppers⟩

end Overtaken

/-- A stop call that has set `mStop` does not return once another one has
taken the future and a start call has cleared `mStop` for a new worker: while
`onTimer` asks to be called again and nobody else stops the timer, it waits for
that worker. -/
theorem overtaken_stopTimer_waits {s later : Control Thread ExecutePoint}
    {t : Thread} {k : Nat}
    (hreached : Runs.Reachable step (fun _ _ => True) Control.initial s)
    (hcall : (s.controllers t).hasStopped = true) (hstarted : s.mStop = false)
    (hfuture : s.mFut = some k)
    (hlooping : s.workers[k]?.any inLoop = true)
    (hstoppers : ∀ other, (s.controllers other).yetToStop = false)
    (hlater : Runs.Reachable step KeepsTicking s later) :
    (later.controllers t).hasStopped = true ∧ later.mStop = false ∧
      later.workers[k]?.any inLoop = true := by
  have hcontrolled : Controlled execute s := by
    rw [step_eq] at hreached
    exact hreached.invariant (fun _ _ _ h _ hstep => h.step hstep)
      (initial_controlled execute)
  have hstart : Overtaken t k s :=
    ⟨hcontrolled, hstarted, hfuture, hlooping, hcall, hstoppers⟩
  have hovertaken : Overtaken t k later :=
    hlater.invariant (fun _ _ _ h hkeeps hstep => h.step hkeeps hstep) hstart
  exact ⟨hovertaken.waiting, hovertaken.started, hovertaken.looping⟩

/-- Two threads stop the timer.  The first one has returned, and a third
thread has started the timer again, when the second one gets to notify. -/
def stoppedAcrossRestart : List (ControlStep (Fin 3) ExecuteChoice) :=
  List.flatten
    [[.start 0], List.replicate 7 (.proceed 0 ⟨true, none⟩),
      List.replicate 3 (.work 0 .go),
      [.work 0 (.ticked (some .timerContinue)), .work 0 .go],
      [.stop 1, .proceed 1 ⟨true, none⟩, .stop 2, .proceed 2 ⟨true, none⟩],
      List.replicate 3 (.proceed 1 ⟨true, none⟩),
      List.replicate 3 (.proceed 2 ⟨true, none⟩),
      [.proceed 1 ⟨true, some 0⟩], List.replicate 5 (.work 0 .go),
      List.replicate 3 (.proceed 1 ⟨true, none⟩),
      [.start 0], List.replicate 7 (.proceed 0 ⟨true, none⟩)]

theorem stoppedAcrossRestart_waits :
    ∃ s, Runs.run step Control.initial stoppedAcrossRestart = some s ∧
      s.controllers 1 = .idle ∧ s.controllers 2 = .stopping .notify ∧
      ∀ later, Runs.Reachable step KeepsTicking s later →
        (later.controllers 2).hasStopped = true := by
  have hfacts : (Runs.run step Control.initial stoppedAcrossRestart).map
      (fun s => (List.ofFn s.controllers, s.mStop, s.mFut, s.workers)) =
      some ([.idle, .idle, .stopping .notify], false, some 1,
        [.finished, .lock]) := by decide
  obtain ⟨s, hrun, hfacts⟩ := Option.map_eq_some_iff.mp hfacts
  simp only [Prod.mk.injEq, List.ofFn_succ, List.ofFn_zero,
    List.cons.injEq] at hfacts
  obtain ⟨⟨hstarter, hfirst, hsecond, _⟩, hstop, hmFut, hworkers⟩ := hfacts
  have hreached := Runs.Reachable.refl.of_run (Runs.everyStep_true _ _) hrun
  have hstoppers : ∀ other, (s.controllers other).yetToStop = false := by
    intro other
    match other with
    | 0 => exact congrArg Point.yetToStop hstarter
    | 1 => exact congrArg Point.yetToStop hfirst
    | 2 => exact congrArg Point.yetToStop hsecond
  refine ⟨s, hrun, hfirst, hsecond, fun later hlater => ?_⟩
  have hwaits := overtaken_stopTimer_waits hreached (by rw [hsecond]; rfl)
    hstop hmFut (by rw [hworkers]; rfl) hstoppers hlater
  exact hwaits.1

end TaskTimer

end Saigon
