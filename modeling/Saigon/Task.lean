/-
`Task` of `task.cpp`.  `stopTask` waits for the task in `get`, but only after
it has found `mStop` false; once another call has set `mStop`, it returns
while the task is still running.
-/
import Saigon.StopJoins

namespace Saigon

/-- A worker: `onRun` has been spawned, is running, or has returned or
thrown. -/
inductive RunPoint where
  | spawned
  | running
  | ended
deriving DecidableEq

namespace Task

def advance (_ : Bool) : RunPoint → Unit → Option RunPoint
  | .spawned, () => some .running
  | .running, () => some .ended
  | .ended, () => none

/-- `onRun` of a derived class; nothing of `Task` waits on `mCV`. -/
def onRun : Routine RunPoint Unit where
  spawned := .spawned
  holds := fun _ => false
  ended := fun worker => worker = .ended
  advance := advance
  notify := fun _ workers => some workers
  spawned_holds := rfl
  ended_stays := by
    intro mStop worker choice hended
    rw [decide_eq_true_eq] at hended
    rw [hended]
    rfl
  notify_holds := by
    intro woken workers after hnotify
    cases hnotify
    rfl
  notify_ended := by
    intro woken workers after hnotify
    cases hnotify
    rfl

variable {Thread : Type} [DecidableEq Thread]

/-- `startTask` returns false after an exception. -/
def startTask (s : Control Thread RunPoint) (t : Thread) (os : Answer) :
    StartPoint → Option (Control Thread RunPoint) :=
  Control.startCall onRun false s t os

def stopTask (s : Control Thread RunPoint) (t : Thread) (os : Answer) :
    StopPoint → Option (Control Thread RunPoint) :=
  Control.stopCall onRun s t os

/-- One step of a controller or of a worker. -/
def step (s : Control Thread RunPoint) :
    ControlStep Thread Unit → Option (Control Thread RunPoint)
  | .start t => s.enter t (.starting .lock)
  | .stop t => s.enter t (.stopping .load)
  | .proceed t os =>
      match s.controllers t with
      | .idle => none
      | .starting point => startTask s t os point
      | .stopping point => stopTask s t os point
  | .work k choice => Control.workerCall onRun s k choice

theorem step_eq : (step : Control Thread RunPoint → _) =
    Control.step onRun false := by
  funext s action
  cases action <;> rfl

/-- A step beside the note of how many workers each stop call began with. -/
def noted : Control Thread RunPoint × (Thread → Nat) →
    ControlStep Thread Unit →
      Option (Control Thread RunPoint × (Thread → Nat)) :=
  Runs.observe step noteBegun

/-- Over every run of any number of threads, whenever `stopTask` returns the
tasks spawned before that call began have ended, exactly when each call that
leaves early, having read `mStop` as true, finds them ended. -/
theorem stopTask_joins_iff (actions : List (ControlStep Thread Unit)) :
    Runs.Throughout noted (JoinedOnReturn onRun)
        ((Control.initial : Control Thread RunPoint), fun _ => 0) actions ↔
      Runs.EveryStep noted (ExitsJoined onRun)
        (Control.initial, fun _ => 0) actions := by
  have hnoted : (noted : Control Thread RunPoint × (Thread → Nat) → _) =
      Control.noted onRun false := by
    rw [noted, step_eq, Control.noted]
  rw [hnoted]
  exact joinedOnReturn_iff actions

/-- Thread 0 starts the task; thread 1 is about to wait for it, having set
`mStop`, when thread 2 calls `stopTask` as well. -/
def stoppedTwice : List (ControlStep Nat Unit) :=
  List.flatten
    [[.start 0], List.replicate 7 (.proceed 0 ⟨true, none⟩), [.work 0 ()],
      [.stop 1], List.replicate 6 (.proceed 1 ⟨true, none⟩),
      [.stop 2, .proceed 2 ⟨true, none⟩]]

/-- The second `stopTask` returns while the task it was to stop is running. -/
theorem stoppedTwice_still_running :
    ¬ Runs.Throughout noted (JoinedOnReturn onRun)
      ((Control.initial : Control Nat RunPoint), fun _ => 0) stoppedTwice := by
  intro hall
  have hfacts : (Runs.run noted (Control.initial, fun _ => 0) stoppedTwice).map
      (fun s => (s.1.controllers 2, s.2 2, s.1.workers)) =
        some (.stopping .returns, 1, [.running]) := by decide
  obtain ⟨reached, hrun, hfacts⟩ := Option.map_eq_some_iff.mp hfacts
  simp only [Prod.mk.injEq] at hfacts
  obtain ⟨hreturns, hbegun, hworkers⟩ := hfacts
  have hended := hall.last hrun 2 hreturns 0 (by rw [hbegun]; decide)
  rw [Control.ended, hworkers] at hended
  contradiction

end Task

end Saigon
