/-
`TaskTimer` of `task_timer.cpp`.  The worker holds the mutex through `onTimer`
and gives it up in `wait_for` only, and `mStop` is written under the mutex
only, so a stopped timer does not tick until it is started again.
-/
import Saigon.OneWorker

namespace Saigon

/-- What `onTimer` returns. -/
inductive TimerStatus where
  | timerContinue
  | timerFinish
deriving DecidableEq

/-- Where a worker is in `execute`; the last two come after it has unlocked
the mutex. -/
inductive ExecutePoint where
  | lock
  | check
  | call
  | ticking
  | predicate
  | waiting
  | woken (timedOut : Bool)
  | lastPredicate
  | unlock
  | leaving
  | finished
deriving DecidableEq

/-- What is open in a step of a worker: what `onTimer` returns, or throws when
it is `none`, and whether the wait ends by a time-out or spuriously. -/
inductive ExecuteChoice where
  | go
  | ticked (status : Option TimerStatus)
  | wake (timedOut : Bool)

namespace TaskTimer

/-- `execute`, with the loop that `wait_for` makes of its predicate. -/
def advance (mStop : Bool) : ExecutePoint → ExecuteChoice → Option ExecutePoint
  | .lock, .go => some .check
  | .check, .go => some (if mStop then .unlock else .call)
  | .call, .go => some .ticking
  | .ticking, .ticked (some .timerContinue) => some .predicate
  | .ticking, .ticked (some .timerFinish) => some .unlock
  | .ticking, .ticked none => some .unlock
  | .predicate, .go => some (if mStop then .check else .waiting)
  | .waiting, .wake timedOut => some (.woken timedOut)
  | .woken timedOut, .go => some (if timedOut then .lastPredicate else .predicate)
  -- after a time-out the predicate is only returned
  | .lastPredicate, .go => some .check
  | .unlock, .go => some .leaving
  | .leaving, .go => some .finished
  | _, _ => none

/-- The points of `execute` that hold `mMuxThread`. -/
def holds : ExecutePoint → Bool
  | .check => true
  | .call => true
  | .ticking => true
  | .predicate => true
  | .lastPredicate => true
  | .unlock => true
  | _ => false

/-- `notify_one` wakes one of the waiting workers, if there are any. -/
def notifyOne (woken : Option Nat) (workers : List ExecutePoint) :
    Option (List ExecutePoint) :=
  match woken with
  | some k =>
      if workers[k]? = some .waiting then some (workers.set k (.woken false))
      else none
  | none => if .waiting ∈ workers then none else some workers

/-- What does not tell a waiting worker from a woken one is the same after
`notify_one`. -/
theorem notifyOne_map (view : ExecutePoint → Bool)
    (hview : view (.woken false) = view .waiting) (woken : Option Nat)
    (workers after : List ExecutePoint)
    (hnotify : notifyOne woken workers = some after) :
    after.map view = workers.map view := by
  cases woken with
  | none =>
      simp only [notifyOne, Option.ite_none_left_eq_some,
        Option.some.injEq] at hnotify
      rw [hnotify.2]
  | some k =>
      simp only [notifyOne, Option.ite_none_right_eq_some,
        Option.some.injEq] at hnotify
      obtain ⟨hwaiting, rfl⟩ := hnotify
      obtain ⟨hk, hwaiting⟩ := List.getElem?_eq_some_iff.mp hwaiting
      rw [List.map_set, hview, ← hwaiting, ← List.getElem_map view,
        List.set_getElem_self]
      simpa using hk

def execute : Routine ExecutePoint ExecuteChoice where
  spawned := .lock
  holds := holds
  ended := fun worker => worker = .finished
  advance := advance
  notify := notifyOne
  spawned_holds := rfl
  ended_stays := by
    intro mStop worker choice hended
    rw [decide_eq_true_eq] at hended
    rw [hended]
    rfl
  notify_holds := notifyOne_map holds rfl
  notify_ended := notifyOne_map _ rfl

variable {Thread : Type} [DecidableEq Thread]

/-- `startTimer` returns true after an exception as well. -/
def startTimer (s : Control Thread ExecutePoint) (t : Thread) (os : Answer) :
    StartPoint → Option (Control Thread ExecutePoint) :=
  Control.startCall execute true s t os

def stopTimer (s : Control Thread ExecutePoint) (t : Thread) (os : Answer) :
    StopPoint → Option (Control Thread ExecutePoint) :=
  Control.stopCall execute s t os

/-- One step of a controller or of a worker. -/
def step (s : Control Thread ExecutePoint) :
    ControlStep Thread ExecuteChoice → Option (Control Thread ExecutePoint)
  | .start t => s.enter t (.starting .lock)
  | .stop t => s.enter t (.stopping .load)
  | .proceed t os =>
      match s.controllers t with
      | .idle => none
      | .starting point => startTimer s t os point
      | .stopping point => stopTimer s t os point
  | .work k choice => Control.workerCall execute s k choice

theorem step_eq : (step : Control Thread ExecutePoint → _) =
    Control.step execute true := by
  funext s action
  cases action <;> rfl

/-! ### The stop flag and the ticks -/

/-- The points from reading `mStop` as false to the end of `onTimer`. -/
def calls : ExecutePoint → Bool
  | .call => true
  | .ticking => true
  | _ => false

theorem holds_of_calls {worker : ExecutePoint} (hcalls : calls worker = true) :
    holds worker = true := by
  cases worker <;> first | rfl | contradiction

/-- A worker gets to call `onTimer` by reading `mStop` as false only. -/
theorem calls_of_advance {mStop : Bool} {worker next : ExecutePoint}
    {choice : ExecuteChoice} (hadvance : advance mStop worker choice = some next)
    (hcalls : calls next = true) : calls worker = true ∨ mStop = false := by
  cases mStop with
  | false => exact Or.inr rfl
  | true =>
      left
      revert hadvance
      fun_cases advance true worker choice
      case case9 timedOut =>
        intro hadvance
        cases timedOut <;> cases hadvance <;> contradiction
      all_goals
        intro hadvance
        cases hadvance
      all_goals first | rfl | contradiction

/-- A worker that has read `mStop` as false, or ticks, is right about it. -/
structure Timed (s : Control Thread ExecutePoint) : Prop
    extends Controlled execute s where
  calling : ∀ worker ∈ s.workers, calls worker = true → s.mStop = false

omit [DecidableEq Thread] in
theorem initial_timed : Timed (Control.initial : Control Thread ExecutePoint) where
  toControlled := initial_controlled execute
  calling := by
    intro worker hworker
    contradiction

namespace Timed

variable {s after : Control Thread ExecutePoint} {t : Thread} {os : Answer}

omit [DecidableEq Thread] in
/-- While a controller holds the mutex no worker calls `onTimer`. -/
theorem not_calls (h : Timed s) (ht : (s.controllers t).holds = true)
    {worker : ExecutePoint} (hworker : worker ∈ s.workers) :
    calls worker = false := by
  obtain ⟨k, hk⟩ := List.mem_iff_getElem?.mp hworker
  have hfree : holds worker = false := h.worker_holds ht hk
  rw [← Bool.not_eq_true]
  intro hcalls
  rw [holds_of_calls hcalls] at hfree
  contradiction

theorem startCall_calling (h : Timed s) {point : StartPoint}
    (hcall : startTimer s t os point = some after) :
    ∀ worker ∈ after.workers, calls worker = true → after.mStop = false := by
  rcases Control.startCall_shared hcall with ⟨hstop, hworkers⟩ |
    ⟨_, hstop, _⟩ | ⟨_, hstop, hworkers⟩
  · rw [hstop, hworkers]
    exact h.calling
  · intro worker _ _
    exact hstop
  · rw [hstop, hworkers]
    intro worker hworker hcalls
    rcases List.mem_append.mp hworker with hold | hnew
    · exact h.calling worker hold hcalls
    · rw [List.mem_singleton.mp hnew] at hcalls
      contradiction

theorem stopCall_calling (h : Timed s) {point : StopPoint}
    (ht : s.controllers t = .stopping point)
    (hcall : stopTimer s t os point = some after) :
    ∀ worker ∈ after.workers, calls worker = true → after.mStop = false := by
  rcases Control.stopCall_shared hcall with ⟨hstop, hworkers⟩ |
    ⟨rfl, hstop, hworkers⟩ | ⟨_, hstop, hnotify⟩
  · rw [hstop, hworkers]
    exact h.calling
  · -- the store is under the mutex
    intro worker hworker hcalls
    rw [hworkers] at hworker
    rw [h.not_calls (t := t) (by rw [ht]; rfl) hworker] at hcalls
    contradiction
  · intro worker hworker hcalls
    have hview : calls worker ∈ s.workers.map calls := by
      rw [← notifyOne_map calls rfl _ _ _ hnotify]
      exact List.mem_map_of_mem hworker
    obtain ⟨before, hbefore, hsame⟩ := List.mem_map.mp hview
    rw [hstop]
    exact h.calling before hbefore (hsame.trans hcalls)

omit [DecidableEq Thread] in
theorem workerCall_calling (h : Timed s) {k : Nat} {choice : ExecuteChoice}
    (hcall : Control.workerCall execute s k choice = some after) :
    ∀ worker ∈ after.workers, calls worker = true → after.mStop = false := by
  obtain ⟨worker, next, mutex, hworker, hadvance, _, rfl⟩ :=
    Control.workerCall_cases hcall
  intro other hother hcalls
  rcases List.mem_or_eq_of_mem_set hother with hold | rfl
  · exact h.calling other hold hcalls
  · rcases calls_of_advance hadvance hcalls with hbefore | hstop
    · exact h.calling worker (List.mem_of_getElem? hworker) hbefore
    · exact hstop

/-- Step lemma. -/
theorem step (h : Timed s) {action : ControlStep Thread ExecuteChoice}
    (hstep : TaskTimer.step s action = some after) : Timed after := by
  rw [step_eq] at hstep
  constructor
  case toControlled => exact h.toControlled.step hstep
  case calling =>
    rcases Control.step_cases hstep with ⟨t, _, _, rfl⟩ | ⟨t, _, _, rfl⟩ |
      ⟨t, os, point, _, _, hcall⟩ | ⟨t, os, point, _, ht, hcall⟩ |
      ⟨k, choice, _, hcall⟩
    · exact h.calling
    · exact h.calling
    · exact h.startCall_calling hcall
    · exact h.stopCall_calling ht hcall
    · exact h.workerCall_calling hcall

end Timed

/-- Up to the first worker beyond `n` the timer is stopped, or every worker
has finished. -/
structure Halted (n : Nat) (s : Control Thread ExecutePoint) : Prop
    extends Timed s where
  spawned : n ≤ s.workers.length
  halted : s.workers.length = n →
    s.mStop = true ∨ ∀ worker ∈ s.workers, worker = .finished

namespace Halted

variable {n : Nat} {s after : Control Thread ExecutePoint} {t : Thread}
  {os : Answer}

omit [DecidableEq Thread] in
theorem not_ticking (h : Halted n s) (hn : s.workers.length = n) :
    .ticking ∉ s.workers := by
  intro hticking
  rcases h.halted hn with hstop | hfinished
  · rw [h.calling _ hticking rfl] at hstop
    contradiction
  · have hended := hfinished _ hticking
    contradiction

theorem startCall_halted (h : Halted n s) {point : StartPoint}
    (ht : s.controllers t = .starting point)
    (hcall : startTimer s t os point = some after) :
    n ≤ after.workers.length ∧ (after.workers.length = n →
      after.mStop = true ∨ ∀ worker ∈ after.workers, worker = .finished) := by
  rcases Control.startCall_shared hcall with ⟨hstop, hworkers⟩ |
    ⟨rfl, _, hworkers⟩ | ⟨_, _, hworkers⟩
  · rw [hstop, hworkers]
    exact ⟨h.spawned, h.halted⟩
  · rw [hworkers]
    refine ⟨h.spawned, fun _ => Or.inr ?_⟩
    intro worker hworker
    exact of_decide_eq_true (h.ended_of_store ht hworker)
  · have hspawned := h.spawned
    rw [hworkers, List.length_append, List.length_singleton]
    constructor <;> omega

theorem stopCall_halted (h : Halted n s) {point : StopPoint}
    (hcall : stopTimer s t os point = some after) :
    n ≤ after.workers.length ∧ (after.workers.length = n →
      after.mStop = true ∨ ∀ worker ∈ after.workers, worker = .finished) := by
  rcases Control.stopCall_shared hcall with ⟨hstop, hworkers⟩ |
    ⟨_, hstop, hworkers⟩ | ⟨_, hstop, hnotify⟩
  · rw [hstop, hworkers]
    exact ⟨h.spawned, h.halted⟩
  · rw [hworkers]
    exact ⟨h.spawned, fun _ => Or.inl hstop⟩
  · have hview := notifyOne_map (fun worker => worker = .finished) rfl _ _ _
      hnotify
    have hlength := congrArg List.length hview
    rw [List.length_map, List.length_map] at hlength
    rw [hstop, hlength]
    refine ⟨h.spawned, fun hn => (h.halted hn).imp_right ?_⟩
    intro hfinished worker hworker
    have hsame : decide (worker = .finished) ∈
        s.workers.map fun worker => decide (worker = .finished) := by
      rw [← hview]
      exact List.mem_map_of_mem hworker
    obtain ⟨before, hbefore, hsame⟩ := List.mem_map.mp hsame
    rw [hfinished before hbefore] at hsame
    exact of_decide_eq_true hsame.symm

omit [DecidableEq Thread] in
theorem workerCall_halted (h : Halted n s) {k : Nat} {choice : ExecuteChoice}
    (hcall : Control.workerCall execute s k choice = some after) :
    n ≤ after.workers.length ∧ (after.workers.length = n →
      after.mStop = true ∨ ∀ worker ∈ after.workers, worker = .finished) := by
  obtain ⟨worker, next, mutex, hworker, hadvance, _, rfl⟩ :=
    Control.workerCall_cases hcall
  rw [List.length_set]
  refine ⟨h.spawned, fun hn => (h.halted hn).imp_right ?_⟩
  intro hfinished
  rw [hfinished worker (List.mem_of_getElem? hworker)] at hadvance
  contradiction

/-- Step lemma. -/
theorem step (h : Halted n s) {action : ControlStep Thread ExecuteChoice}
    (hstep : TaskTimer.step s action = some after) : Halted n after := by
  have htimed := h.toTimed.step hstep
  rw [step_eq] at hstep
  have hhalted : n ≤ after.workers.length ∧ (after.workers.length = n →
      after.mStop = true ∨ ∀ worker ∈ after.workers, worker = .finished) := by
    rcases Control.step_cases hstep with ⟨t, _, _, rfl⟩ | ⟨t, _, _, rfl⟩ |
      ⟨t, os, point, _, ht, hcall⟩ | ⟨t, os, point, _, _, hcall⟩ |
      ⟨k, choice, _, hcall⟩
    · exact ⟨h.spawned, h.halted⟩
    · exact ⟨h.spawned, h.halted⟩
    · exact h.startCall_halted ht hcall
    · exact h.stopCall_halted hcall
    · exact h.workerCall_halted hcall
  exact ⟨htimed, hhalted.1, hhalted.2⟩

end Halted

/-- Only a start call clears `mStop`, and it spawns a worker next. -/
theorem cleared_cases {s after : Control Thread ExecutePoint}
    {action : ControlStep Thread ExecuteChoice}
    (hstep : step s action = some after) (hbefore : s.mStop = true)
    (hafter : after.mStop = false) :
    ∃ t os, action = .proceed t os ∧ s.controllers t = .starting .store ∧
      after.controllers t = .starting .async := by
  have hsame : after.mStop ≠ s.mStop := by
    rw [hbefore, hafter]
    simp
  rw [step_eq] at hstep
  rcases Control.step_cases hstep with ⟨t, _, _, rfl⟩ | ⟨t, _, _, rfl⟩ |
    ⟨t, os, point, haction, ht, hcall⟩ | ⟨t, os, point, _, _, hcall⟩ |
    ⟨k, choice, _, hcall⟩
  · exact absurd rfl hsame
  · exact absurd rfl hsame
  · rcases Control.startCall_shared hcall with ⟨hstop, _⟩ | ⟨rfl, _⟩ |
      ⟨_, hstop, _⟩
    · exact absurd hstop hsame
    · cases hcall
      exact ⟨t, os, haction, ht, Function.update_self t _ _⟩
    · exact absurd hstop hsame
  · rcases Control.stopCall_shared hcall with ⟨hstop, _⟩ | ⟨_, hstop, _⟩ |
      ⟨_, hstop, _⟩
    · exact absurd hstop hsame
    · rw [hstop] at hafter
      contradiction
    · exact absurd hstop hsame
  · obtain ⟨_, _, _, _, _, _, rfl⟩ := Control.workerCall_cases hcall
    exact absurd rfl hsame

/-- What a timer guarantees in a state: at most one worker has not finished,
none ticks while `mStop` is true, `mStop` is cleared only by a start call that
then spawns a worker, and once it is true no worker ticks before another one
is spawned. -/
structure Disciplined (s : Control Thread ExecutePoint) : Prop where
  single : ∀ (j k : Nat) (first second : ExecutePoint),
    s.workers[j]? = some first → s.workers[k]? = some second →
      first ≠ .finished → second ≠ .finished → j = k
  quiet : s.mStop = true → .ticking ∉ s.workers
  restarts : ∀ action after, AsyncSucceeds s action →
    step s action = some after → s.mStop = true → after.mStop = false →
    ∃ t os, action = .proceed t os ∧ s.controllers t = .starting .store ∧
      ∀ later, Runs.Reachable step AsyncSucceeds after later →
        later.controllers t = .starting .async ∨
          Spawns execute true t after later
  stopped : s.mStop = true → ∀ later,
    Runs.Reachable step AsyncSucceeds s later →
    later.workers.length = s.workers.length → .ticking ∉ later.workers

theorem Timed.disciplined {s : Control Thread ExecutePoint} (h : Timed s) :
    Disciplined s where
  single := by
    intro j k first second hfirst hsecond hj hk
    exact h.unfinished_unique hfirst hsecond (decide_eq_false hj)
      (decide_eq_false hk)
  quiet := by
    intro hstop hticking
    rw [h.calling _ hticking rfl] at hstop
    contradiction
  restarts := by
    intro action after _ hstep hbefore hafter
    obtain ⟨t, os, haction, ht, hasync⟩ := cleared_cases hstep hbefore hafter
    refine ⟨t, os, haction, ht, fun later hlater => ?_⟩
    rw [step_eq] at hlater
    exact spawns_of_reachable hasync hlater
  stopped := by
    intro hstop later hlater hlength
    have hstart : Halted s.workers.length s :=
      ⟨h, Nat.le_refl _, fun _ => Or.inl hstop⟩
    have hhalted : Halted s.workers.length later :=
      hlater.invariant (fun _ _ _ hbefore _ hstep => hbefore.step hstep) hstart
    exact hhalted.not_ticking hlength

/-- Whatever start and stop calls any number of threads make, and however
their steps interleave with those of the workers, a stopped timer does not
tick and a timer never runs twice. -/
theorem timer_disciplined (s : Control Thread ExecutePoint)
    (hreached : Runs.Reachable step AsyncSucceeds Control.initial s) :
    Disciplined s := by
  have htimed : Timed s :=
    hreached.invariant (fun _ _ _ hbefore _ hstep => hbefore.step hstep)
      initial_timed
  exact htimed.disciplined

instance (s : Control Thread ExecutePoint) :
    ∀ action : ControlStep Thread ExecuteChoice,
      Decidable (AsyncSucceeds s action)
  | .start _ => inferInstanceAs (Decidable True)
  | .stop _ => inferInstanceAs (Decidable True)
  | .proceed _ os => inferInstanceAs (Decidable (os.threadGranted = true))
  | .work _ _ => inferInstanceAs (Decidable True)

/-- The next `n` steps of the call of `t`, which are granted and wake
nobody. -/
def proceeds (t n : Nat) : List (ControlStep Nat ExecuteChoice) :=
  List.replicate n (.proceed t ⟨true, none⟩)

/-- One thread starts the timer, which ticks once and waits; another one stops
it, waking the worker, and waits for it; the first one starts it again. -/
def restarted : List (ControlStep Nat ExecuteChoice) :=
  List.flatten
    [[.start 0], proceeds 0 7,
      [.work 0 .go, .work 0 .go, .work 0 .go,
        .work 0 (.ticked (some .timerContinue)), .work 0 .go],
      [.stop 1], proceeds 1 4, [.proceed 1 ⟨true, some 0⟩], proceeds 1 1,
      List.replicate 5 (.work 0 .go), proceeds 1 2,
      [.start 0], proceeds 0 4]

theorem restarted_disciplined :
    ∃ s, Runs.run step Control.initial restarted = some s ∧ Disciplined s := by
  have hruns : (Runs.run step Control.initial restarted).isSome = true := by
    decide
  have hgranted : Runs.EveryStep step AsyncSucceeds Control.initial restarted := by
    decide
  obtain ⟨s, hrun⟩ := Option.isSome_iff_exists.mp hruns
  exact ⟨s, hrun, timer_disciplined s (Runs.Reachable.refl.of_run hgranted hrun)⟩

end TaskTimer

end Saigon
