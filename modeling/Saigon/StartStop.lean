/-
What `TaskTimer` and `Task` share: threads that start and stop a worker, one
access to a shared member at a time.  A step that returns `none` has to wait.
The worker itself is a parameter.
-/
import Saigon.Support.Runs
import Mathlib.Logic.Function.Basic

namespace Saigon

/-- What a start call does next; `assign` has the new worker's future in hand. -/
inductive StartPoint where
  | lock
  | valid
  | store
  | async
  | assign (k : Nat)
  | unlock (result : Bool)
  | returns (result : Bool)
deriving DecidableEq

/-- What a stop call does next. -/
inductive StopPoint where
  | load
  | lock
  | store
  | unlock
  | notify
  | valid
  | get
  | returns
deriving DecidableEq

/-- What a thread that starts and stops the worker is doing. -/
inductive Point where
  | idle
  | starting (point : StartPoint)
  | stopping (point : StopPoint)
deriving DecidableEq

/-- The thread that has locked the mutex. -/
inductive Holder (Thread : Type) where
  | controller (t : Thread)
  | worker (k : Nat)
deriving DecidableEq

/-- The shared members, what the controllers are doing, and the workers in the
order in which they were spawned.  A valid `mFut` is that of worker `k`. -/
structure Control (Thread Worker : Type) where
  mStop : Bool
  mutex : Option (Holder Thread)
  mFut : Option Nat
  controllers : Thread → Point
  workers : List Worker

/-- What the system answers to a controller: whether `std::async` can start a
thread, and which waiting worker `notify_one` wakes. -/
structure Answer where
  threadGranted : Bool
  woken : Option Nat

/-- The function a worker runs, with what it does to the mutex.  `advance` is
one step of it at the current `mStop`. -/
structure Routine (Worker Choice : Type) where
  spawned : Worker
  holds : Worker → Bool
  ended : Worker → Bool
  advance : Bool → Worker → Choice → Option Worker
  notify : Option Nat → List Worker → Option (List Worker)
  spawned_holds : holds spawned = false
  ended_stays : ∀ mStop worker choice, ended worker = true →
    advance mStop worker choice = none
  notify_holds : ∀ woken workers after, notify woken workers = some after →
    after.map holds = workers.map holds
  notify_ended : ∀ woken workers after, notify woken workers = some after →
    after.map ended = workers.map ended

/-- One step of the system; a worker may have a choice. -/
inductive ControlStep (Thread Choice : Type) where
  | start (t : Thread)
  | stop (t : Thread)
  | proceed (t : Thread) (os : Answer)
  | work (k : Nat) (choice : Choice)

variable {Thread Worker Choice : Type}

/-- The mutex after a step of a thread that held it, or not, and holds it, or
not. -/
def handOver (mutex : Option (Holder Thread)) (who : Holder Thread) :
    Bool → Bool → Option (Option (Holder Thread))
  | false, true => if mutex.isNone then some (some who) else none
  | true, false => some none
  | false, false => some mutex
  | true, true => some mutex

namespace Control

/-- No worker yet, and every controller idle. -/
def initial : Control Thread Worker where
  mStop := false
  mutex := none
  mFut := none
  controllers := fun _ => .idle
  workers := []

/-- The worker whose future is ready. -/
def ended (r : Routine Worker Choice) (s : Control Thread Worker) (k : Nat) :
    Bool :=
  s.workers[k]?.any r.ended

variable [DecidableEq Thread]

def goto (s : Control Thread Worker) (t : Thread) (p : Point) :
    Control Thread Worker :=
  { s with controllers := Function.update s.controllers t p }

/-- `startTimer` and `startTask`, which differ in what they return after an
exception. -/
def startCall (r : Routine Worker Choice) (caught : Bool)
    (s : Control Thread Worker) (t : Thread) (os : Answer) :
    StartPoint → Option (Control Thread Worker)
  | .lock =>
      if s.mutex.isNone then
        some { s.goto t (.starting .valid) with mutex := some (.controller t) }
      else none
  | .valid => some (s.goto t
      (.starting (if s.mFut.isSome then .unlock true else .store)))
  | .store => some { s.goto t (.starting .async) with mStop := false }
  | .async =>
      if os.threadGranted then
        some { s.goto t (.starting (.assign s.workers.length)) with
          workers := s.workers ++ [r.spawned] }
      else some (s.goto t (.starting (.unlock caught)))
  | .assign k => some { s.goto t (.starting (.unlock true)) with mFut := some k }
  | .unlock result => some
      { s.goto t (.starting (.returns result)) with mutex := none }
  | .returns _ => some (s.goto t .idle)

/-- `stopTimer` and `stopTask`, which differ in whom they notify. -/
def stopCall (r : Routine Worker Choice) (s : Control Thread Worker)
    (t : Thread) (os : Answer) : StopPoint → Option (Control Thread Worker)
  | .load => some (s.goto t (.stopping (if s.mStop then .returns else .lock)))
  | .lock =>
      if s.mutex.isNone then
        some { s.goto t (.stopping .store) with mutex := some (.controller t) }
      else none
  | .store => some { s.goto t (.stopping .unlock) with mStop := true }
  | .unlock => some { s.goto t (.stopping .notify) with mutex := none }
  | .notify => (r.notify os.woken s.workers).map fun workers =>
      { s.goto t (.stopping .valid) with workers := workers }
  | .valid => some (s.goto t
      (.stopping (if s.mFut.isSome then .get else .returns)))
  | .get =>
      match s.mFut with
      -- an invalid future throws, which is caught
      | none => some (s.goto t (.stopping .returns))
      | some k =>
          if s.ended r k then
            some { s.goto t (.stopping .returns) with mFut := none }
          else none
  | .returns => some (s.goto t .idle)

omit [DecidableEq Thread] in
/-- A step of worker `k`. -/
def workerCall (r : Routine Worker Choice) (s : Control Thread Worker)
    (k : Nat) (choice : Choice) : Option (Control Thread Worker) := do
  let worker ← s.workers[k]?
  let next ← r.advance s.mStop worker choice
  let mutex ← handOver s.mutex (.worker k) (r.holds worker) (r.holds next)
  some { s with mutex := mutex, workers := s.workers.set k next }

/-- A controller begins a call. -/
def enter (s : Control Thread Worker) (t : Thread) (p : Point) :
    Option (Control Thread Worker) :=
  match s.controllers t with
  | .idle => some (s.goto t p)
  | _ => none

/-- One step of a controller or of a worker. -/
def step (r : Routine Worker Choice) (caught : Bool)
    (s : Control Thread Worker) :
    ControlStep Thread Choice → Option (Control Thread Worker)
  | .start t => s.enter t (.starting .lock)
  | .stop t => s.enter t (.stopping .load)
  | .proceed t os =>
      match s.controllers t with
      | .idle => none
      | .starting point => startCall r caught s t os point
      | .stopping point => stopCall r s t os point
  | .work k choice => workerCall r s k choice

theorem enter_cases {s after : Control Thread Worker} {t : Thread} {p : Point}
    (henter : s.enter t p = some after) :
    s.controllers t = .idle ∧ after = s.goto t p := by
  cases ht : s.controllers t with
  | idle =>
      simp only [enter, ht, Option.some.injEq] at henter
      exact ⟨rfl, henter.symm⟩
  | starting point => simp [enter, ht] at henter
  | stopping point => simp [enter, ht] at henter

/-- What a step of a start call does. -/
inductive StartStep (r : Routine Worker Choice) (caught : Bool)
    (s : Control Thread Worker) (t : Thread) (os : Answer) :
    StartPoint → Control Thread Worker → Prop
  | lock (hfree : s.mutex = none) : StartStep r caught s t os .lock
      { s.goto t (.starting .valid) with mutex := some (.controller t) }
  | running (k : Nat) (hmFut : s.mFut = some k) : StartStep r caught s t os
      .valid (s.goto t (.starting (.unlock true)))
  | invalid (hmFut : s.mFut = none) : StartStep r caught s t os .valid
      (s.goto t (.starting .store))
  | store : StartStep r caught s t os .store
      { s.goto t (.starting .async) with mStop := false }
  | spawned (hgranted : os.threadGranted = true) : StartStep r caught s t os
      .async { s.goto t (.starting (.assign s.workers.length)) with
        workers := s.workers ++ [r.spawned] }
  | threw (hrefused : os.threadGranted = false) : StartStep r caught s t os
      .async (s.goto t (.starting (.unlock caught)))
  | assign (k : Nat) : StartStep r caught s t os (.assign k)
      { s.goto t (.starting (.unlock true)) with mFut := some k }
  | unlock (result : Bool) : StartStep r caught s t os (.unlock result)
      { s.goto t (.starting (.returns result)) with mutex := none }
  | returns (result : Bool) : StartStep r caught s t os (.returns result)
      (s.goto t .idle)

theorem startCall_step {r : Routine Worker Choice} {caught : Bool}
    {s after : Control Thread Worker} {t : Thread} {os : Answer}
    {point : StartPoint} (hcall : startCall r caught s t os point = some after) :
    StartStep r caught s t os point after := by
  cases point with
  | lock =>
      simp only [startCall, Option.isNone_iff_eq_none,
        Option.ite_none_right_eq_some, Option.some.injEq] at hcall
      obtain ⟨hfree, rfl⟩ := hcall
      exact .lock hfree
  | valid =>
      cases hcall
      cases hmFut : s.mFut with
      | none => exact .invalid hmFut
      | some k => exact .running k hmFut
  | store =>
      cases hcall
      exact .store
  | async =>
      cases hgranted : os.threadGranted with
      | true =>
          simp only [startCall, hgranted, ↓reduceIte, Option.some.injEq] at hcall
          subst hcall
          exact .spawned hgranted
      | false =>
          simp only [startCall, hgranted, Bool.false_eq_true, ↓reduceIte,
            Option.some.injEq] at hcall
          subst hcall
          exact .threw hgranted
  | assign k =>
      cases hcall
      exact .assign k
  | unlock result =>
      cases hcall
      exact .unlock result
  | returns result =>
      cases hcall
      exact .returns result

/-- What a step of a stop call does. -/
inductive StopStep (r : Routine Worker Choice) (s : Control Thread Worker)
    (t : Thread) (os : Answer) : StopPoint → Control Thread Worker → Prop
  | stopped (hstop : s.mStop = true) : StopStep r s t os .load
      (s.goto t (.stopping .returns))
  | load (hstop : s.mStop = false) : StopStep r s t os .load
      (s.goto t (.stopping .lock))
  | lock (hfree : s.mutex = none) : StopStep r s t os .lock
      { s.goto t (.stopping .store) with mutex := some (.controller t) }
  | store : StopStep r s t os .store
      { s.goto t (.stopping .unlock) with mStop := true }
  | unlock : StopStep r s t os .unlock
      { s.goto t (.stopping .notify) with mutex := none }
  | notify (workers : List Worker)
      (hnotify : r.notify os.woken s.workers = some workers) :
      StopStep r s t os .notify
        { s.goto t (.stopping .valid) with workers := workers }
  | valid (k : Nat) (hmFut : s.mFut = some k) : StopStep r s t os .valid
      (s.goto t (.stopping .get))
  | invalid (hmFut : s.mFut = none) : StopStep r s t os .valid
      (s.goto t (.stopping .returns))
  | get (k : Nat) (hmFut : s.mFut = some k) (hended : s.ended r k = true) :
      StopStep r s t os .get { s.goto t (.stopping .returns) with mFut := none }
  | threw (hmFut : s.mFut = none) : StopStep r s t os .get
      (s.goto t (.stopping .returns))
  | returns : StopStep r s t os .returns (s.goto t .idle)

theorem stopCall_step {r : Routine Worker Choice}
    {s after : Control Thread Worker} {t : Thread} {os : Answer}
    {point : StopPoint} (hcall : stopCall r s t os point = some after) :
    StopStep r s t os point after := by
  cases point with
  | load =>
      cases hcall
      cases hstop : s.mStop with
      | true => exact .stopped hstop
      | false => exact .load hstop
  | lock =>
      simp only [stopCall, Option.isNone_iff_eq_none,
        Option.ite_none_right_eq_some, Option.some.injEq] at hcall
      obtain ⟨hfree, rfl⟩ := hcall
      exact .lock hfree
  | store =>
      cases hcall
      exact .store
  | unlock =>
      cases hcall
      exact .unlock
  | notify =>
      obtain ⟨workers, hnotify, rfl⟩ := Option.map_eq_some_iff.mp hcall
      exact .notify workers hnotify
  | valid =>
      cases hcall
      cases hmFut : s.mFut with
      | none => exact .invalid hmFut
      | some k => exact .valid k hmFut
  | get =>
      cases hmFut : s.mFut with
      | none =>
          simp only [stopCall, hmFut, Option.some.injEq] at hcall
          subst hcall
          exact .threw hmFut
      | some k =>
          simp only [stopCall, hmFut, Option.ite_none_right_eq_some,
            Option.some.injEq] at hcall
          obtain ⟨hended, rfl⟩ := hcall
          exact .get k hmFut hended
  | returns =>
      cases hcall
      exact .returns

omit [DecidableEq Thread] in
theorem workerCall_cases {r : Routine Worker Choice}
    {s after : Control Thread Worker} {k : Nat} {choice : Choice}
    (hcall : workerCall r s k choice = some after) :
    ∃ worker next mutex, s.workers[k]? = some worker ∧
      r.advance s.mStop worker choice = some next ∧
      handOver s.mutex (.worker k) (r.holds worker) (r.holds next) =
        some mutex ∧
      after = { s with mutex := mutex, workers := s.workers.set k next } := by
  simp only [workerCall, Option.bind_eq_bind, Option.bind_eq_some_iff,
    Option.some.injEq] at hcall
  obtain ⟨worker, hworker, next, hadvance, mutex, hmutex, hafter⟩ := hcall
  exact ⟨worker, next, mutex, hworker, hadvance, hmutex, hafter.symm⟩

/-- A step begins a call, is one of a start or of a stop call, or is one of a
worker. -/
theorem step_cases {r : Routine Worker Choice} {caught : Bool}
    {s after : Control Thread Worker} {action : ControlStep Thread Choice}
    (hstep : step r caught s action = some after) :
    (∃ t, action = .start t ∧ s.controllers t = .idle ∧
      after = s.goto t (.starting .lock)) ∨
    (∃ t, action = .stop t ∧ s.controllers t = .idle ∧
      after = s.goto t (.stopping .load)) ∨
    (∃ t os point, action = .proceed t os ∧
      s.controllers t = .starting point ∧
      startCall r caught s t os point = some after) ∨
    (∃ t os point, action = .proceed t os ∧
      s.controllers t = .stopping point ∧
      stopCall r s t os point = some after) ∨
    ∃ k choice, action = .work k choice ∧
      workerCall r s k choice = some after := by
  cases action with
  | start t =>
      obtain ⟨ht, hafter⟩ := enter_cases hstep
      exact Or.inl ⟨t, rfl, ht, hafter⟩
  | stop t =>
      obtain ⟨ht, hafter⟩ := enter_cases hstep
      exact Or.inr (Or.inl ⟨t, rfl, ht, hafter⟩)
  | proceed t os =>
      right; right
      cases ht : s.controllers t with
      | idle => simp [step, ht] at hstep
      | starting point =>
          simp only [step, ht] at hstep
          exact Or.inl ⟨t, os, point, rfl, ht, hstep⟩
      | stopping point =>
          simp only [step, ht] at hstep
          exact Or.inr (Or.inl ⟨t, os, point, rfl, ht, hstep⟩)
  | work k choice =>
      right; right; right; right
      exact ⟨k, choice, rfl, hstep⟩

/-- What a start call does to `mStop` and the workers. -/
theorem startCall_shared {r : Routine Worker Choice} {caught : Bool}
    {s after : Control Thread Worker} {t : Thread} {os : Answer}
    {point : StartPoint} (hcall : startCall r caught s t os point = some after) :
    (after.mStop = s.mStop ∧ after.workers = s.workers) ∨
    (point = .store ∧ after.mStop = false ∧ after.workers = s.workers) ∨
    (point = .async ∧ after.mStop = s.mStop ∧
      after.workers = s.workers ++ [r.spawned]) := by
  cases startCall_step hcall with
  | store => exact Or.inr (Or.inl ⟨rfl, rfl, rfl⟩)
  | spawned _ => exact Or.inr (Or.inr ⟨rfl, rfl, rfl⟩)
  | _ => exact Or.inl ⟨rfl, rfl⟩

/-- What a stop call does to `mStop` and the workers. -/
theorem stopCall_shared {r : Routine Worker Choice}
    {s after : Control Thread Worker} {t : Thread} {os : Answer}
    {point : StopPoint} (hcall : stopCall r s t os point = some after) :
    (after.mStop = s.mStop ∧ after.workers = s.workers) ∨
    (point = .store ∧ after.mStop = true ∧ after.workers = s.workers) ∨
    (point = .notify ∧ after.mStop = s.mStop ∧
      r.notify os.woken s.workers = some after.workers) := by
  cases stopCall_step hcall with
  | store => exact Or.inr (Or.inl ⟨rfl, rfl, rfl⟩)
  | notify workers hnotify => exact Or.inr (Or.inr ⟨rfl, rfl, hnotify⟩)
  | _ => exact Or.inl ⟨rfl, rfl⟩

/-- A start call moves its own thread only, and names the worker it has
spawned. -/
theorem startCall_controllers {r : Routine Worker Choice} {caught : Bool}
    {s after : Control Thread Worker} {t : Thread} {os : Answer}
    {point : StartPoint} (hcall : startCall r caught s t os point = some after) :
    ∃ p, after.controllers = Function.update s.controllers t p ∧
      (∀ next, p ≠ .stopping next) ∧
      ∀ k, p = .starting (.assign k) → k = s.workers.length := by
  cases startCall_step hcall with
  | spawned _ => exact ⟨_, rfl, by simp [eq_comm]⟩
  | _ => exact ⟨_, rfl, by simp⟩

/-- A stop call moves its own thread only. -/
theorem stopCall_controllers {r : Routine Worker Choice}
    {s after : Control Thread Worker} {t : Thread} {os : Answer}
    {point : StopPoint} (hcall : stopCall r s t os point = some after) :
    ∃ p, after.controllers = Function.update s.controllers t p := by
  cases stopCall_step hcall <;> exact ⟨_, rfl⟩

/-- A thread in a call stays where it is while others take their steps. -/
theorem step_controllers {r : Routine Worker Choice} {caught : Bool}
    {s after : Control Thread Worker} {action : ControlStep Thread Choice}
    (hstep : step r caught s action = some after) {t : Thread}
    (hbusy : s.controllers t ≠ .idle)
    (hother : ∀ os, action ≠ .proceed t os) :
    after.controllers t = s.controllers t := by
  have hne : ∀ {other os}, action = .proceed other os → t ≠ other := by
    rintro other os haction rfl
    exact hother os haction
  rcases step_cases hstep with ⟨other, _, hidle, rfl⟩ | ⟨other, _, hidle, rfl⟩ |
    ⟨other, os, point, haction, _, hcall⟩ |
    ⟨other, os, point, haction, _, hcall⟩ | ⟨k, choice, _, hcall⟩
  · apply Function.update_of_ne
    rintro rfl
    exact hbusy hidle
  · apply Function.update_of_ne
    rintro rfl
    exact hbusy hidle
  · obtain ⟨p, hp, _⟩ := startCall_controllers hcall
    rw [hp, Function.update_of_ne (hne haction)]
  · obtain ⟨p, hp⟩ := stopCall_controllers hcall
    rw [hp, Function.update_of_ne (hne haction)]
  · obtain ⟨_, _, _, _, _, _, rfl⟩ := workerCall_cases hcall
    rfl

end Control

/-! ### Start calls that spawn -/

/-- `std::async` succeeds. -/
def AsyncSucceeds (_ : Control Thread Worker) :
    ControlStep Thread Choice → Prop
  | .proceed _ os => os.threadGranted = true
  | _ => True

section Spawns

variable [DecidableEq Thread]

/-- Between the two states the start call of `t` spawns a worker. -/
def Spawns (r : Routine Worker Choice) (caught : Bool) (t : Thread)
    (s later : Control Thread Worker) : Prop :=
  ∃ before os after,
    Runs.Reachable (Control.step r caught) AsyncSucceeds s before ∧
    before.controllers t = .starting .async ∧
    Control.step r caught before (.proceed t os) = some after ∧
    after.workers = before.workers ++ [r.spawned] ∧
    Runs.Reachable (Control.step r caught) AsyncSucceeds after later

/-- A start call that is about to spawn a worker does so before anything
else. -/
theorem spawns_of_reachable {r : Routine Worker Choice} {caught : Bool}
    {t : Thread} {s later : Control Thread Worker}
    (ht : s.controllers t = .starting .async)
    (hreached : Runs.Reachable (Control.step r caught) AsyncSucceeds s later) :
    later.controllers t = .starting .async ∨ Spawns r caught t s later := by
  induction hreached with
  | refl => exact Or.inl ht
  | tail hreached hgranted hstep ih =>
      rename_i state next action
      rcases ih with hstays | ⟨before, os, after, hbefore, hasync, hspawn, hworkers,
        hafter⟩
      · by_cases hmine : ∃ os, action = .proceed t os
        · obtain ⟨os, rfl⟩ := hmine
          have hcall : Control.startCall r caught state t os .async =
              some next := by
            simpa only [Control.step, hstays] using hstep
          have hos : os.threadGranted = true := hgranted
          have hworkers : next.workers = state.workers ++ [r.spawned] := by
            simp only [Control.startCall, hos, ↓reduceIte,
              Option.some.injEq] at hcall
            rw [← hcall]
          exact Or.inr ⟨state, os, next, hreached, hstays, hstep, hworkers, .refl⟩
        · left
          rw [← hstays]
          apply Control.step_controllers hstep
          · rw [hstays]
            simp
          · intro os haction
            exact hmine ⟨os, haction⟩
      · exact Or.inr ⟨before, os, after, hbefore, hasync, hspawn, hworkers,
          hafter.tail hgranted hstep⟩

end Spawns

end Saigon
