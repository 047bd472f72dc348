/-
Calls of `TaskTimer` and `Task` never deadlock: whoever has locked the mutex
takes a step without waiting, and a worker waits for nothing but the mutex.
Once a timer has been stopped its worker has few steps left, so every stop
call returns.
-/
import Saigon.TaskTimer
import Saigon.Task
import Saigon.Support.Progress
import Mathlib.Algebra.Order.BigOperators.Group.Finset

namespace Saigon

variable {Thread Worker Choice : Type}

/-- A step that does not begin a call. -/
def ControlStep.Continues : ControlStep Thread Choice → Prop
  | .start _ => False
  | .stop _ => False
  | .proceed _ _ => True
  | .work _ _ => True

/-- Every call has returned, and every worker has ended. -/
structure Control.Settled (r : Routine Worker Choice)
    (s : Control Thread Worker) : Prop where
  idle : ∀ t, s.controllers t = .idle
  ended : ∀ worker ∈ s.workers, r.ended worker = true

/-- A worker waits for the mutex only and ends without it, and some worker or
none can be woken. -/
structure Live (r : Routine Worker Choice) : Prop where
  advances : ∀ mStop worker, r.ended worker = false →
    ∃ choice next, r.advance mStop worker choice = some next
  released : ∀ worker, r.ended worker = true → r.holds worker = false
  notifies : ∀ workers, ∃ woken after, r.notify woken workers = some after

/-- Beside the one worker: futures and the mutex name workers that have been
spawned. -/
structure Backed (r : Routine Worker Choice) (s : Control Thread Worker) :
    Prop extends Controlled r s where
  future : ∀ k, s.mFut = some k → k < s.workers.length
  assigned : ∀ t k, (s.controllers t).assigns = some k → k < s.workers.length
  held : ∀ k, s.mutex = some (.worker k) → k < s.workers.length

theorem initial_backed (r : Routine Worker Choice) :
    Backed r (Control.initial : Control Thread Worker) where
  toControlled := initial_controlled r
  future := by
    intro k hmFut
    contradiction
  assigned := by
    intro t k hassigns
    contradiction
  held := by
    intro k hmutex
    contradiction

namespace Backed

variable {r : Routine Worker Choice} {s after : Control Thread Worker}
  [DecidableEq Thread] {t : Thread} {p : Point} {os : Answer} {caught : Bool}

/-- A step of a controller. -/
theorem controller (h : Backed r s) (hcontrolled : Controlled r after)
    (hcontrollers : after.controllers = Function.update s.controllers t p)
    (hlength : s.workers.length ≤ after.workers.length)
    (hmFut : ∀ k, after.mFut = some k →
      s.mFut = some k ∨ (s.controllers t).assigns = some k)
    (hassigns : ∀ k, p.assigns = some k → k < after.workers.length)
    (hmutex : ∀ k, after.mutex = some (.worker k) →
      s.mutex = some (.worker k)) : Backed r after := by
  constructor
  case toControlled => exact hcontrolled
  case future =>
    intro k hk
    rcases hmFut k hk with hbefore | hbefore
    · exact Nat.lt_of_lt_of_le (h.future k hbefore) hlength
    · exact Nat.lt_of_lt_of_le (h.assigned t k hbefore) hlength
  case assigned =>
    intro other k hk
    by_cases heq : other = t
    · rw [hcontrollers, heq, Function.update_self] at hk
      exact hassigns k hk
    · rw [hcontrollers, Function.update_of_ne heq] at hk
      exact Nat.lt_of_lt_of_le (h.assigned other k hk) hlength
  case held =>
    intro k hk
    exact Nat.lt_of_lt_of_le (h.held k (hmutex k hk)) hlength

theorem startCall (h : Backed r s) {point : StartPoint}
    (ht : s.controllers t = .starting point)
    (hcall : Control.startCall r caught s t os point = some after) :
    Backed r after := by
  have hcontrolled := h.toControlled.startCall ht hcall
  cases Control.startCall_step hcall with
  | spawned _ =>
      exact h.controller hcontrolled rfl (by simp)
        (fun _ => Or.inl) (by simp [Point.assigns]) (fun _ => id)
  | assign k =>
      apply h.controller hcontrolled rfl (Nat.le_refl _) _
        (by simp [Point.assigns]) (fun _ => id)
      intro j hj
      exact Or.inr (by rwa [ht])
  | lock _ =>
      exact h.controller hcontrolled rfl (Nat.le_refl _) (fun _ => Or.inl)
        (by simp [Point.assigns]) (by simp)
  | unlock _ =>
      exact h.controller hcontrolled rfl (Nat.le_refl _) (fun _ => Or.inl)
        (by simp [Point.assigns]) (by simp)
  | _ =>
      exact h.controller hcontrolled rfl (Nat.le_refl _) (fun _ => Or.inl)
        (by simp [Point.assigns]) (fun _ => id)

theorem stopCall (h : Backed r s) {point : StopPoint}
    (ht : s.controllers t = .stopping point)
    (hcall : Control.stopCall r s t os point = some after) :
    Backed r after := by
  have hcontrolled := h.toControlled.stopCall ht hcall
  cases Control.stopCall_step hcall with
  | notify workers hnotify =>
      have hlength := congrArg List.length (r.notify_ended _ _ _ hnotify)
      rw [List.length_map, List.length_map] at hlength
      exact h.controller hcontrolled rfl (Nat.le_of_eq hlength.symm)
        (fun _ => Or.inl) (by simp [Point.assigns]) (fun _ => id)
  | get k _ _ =>
      exact h.controller hcontrolled rfl (Nat.le_refl _) (by simp)
        (by simp [Point.assigns]) (fun _ => id)
  | lock _ =>
      exact h.controller hcontrolled rfl (Nat.le_refl _) (fun _ => Or.inl)
        (by simp [Point.assigns]) (by simp)
  | unlock =>
      exact h.controller hcontrolled rfl (Nat.le_refl _) (fun _ => Or.inl)
        (by simp [Point.assigns]) (by simp)
  | _ =>
      exact h.controller hcontrolled rfl (Nat.le_refl _) (fun _ => Or.inl)
        (by simp [Point.assigns]) (fun _ => id)

omit [DecidableEq Thread] in
theorem workerCall (h : Backed r s) {k : Nat} {choice : Choice}
    (hcall : Control.workerCall r s k choice = some after) :
    Backed r after := by
  have hcontrolled := h.toControlled.workerCall hcall
  obtain ⟨worker, next, mutex, hworker, _, hmutex, rfl⟩ :=
    Control.workerCall_cases hcall
  have hk : k < s.workers.length := (List.getElem?_eq_some_iff.mp hworker).1
  obtain ⟨_, hothers⟩ := handOver_cases hmutex (h.workers k worker hworker)
  constructor
  case toControlled => exact hcontrolled
  case future => simpa using h.future
  case assigned => simpa using h.assigned
  case held =>
    intro j hj
    rw [List.length_set]
    by_cases heq : j = k
    · rw [heq]
      exact hk
    · exact h.held j ((hothers (.worker j) (by simpa using heq)).mp hj)

/-- Step lemma. -/
theorem step (h : Backed r s) {action : ControlStep Thread Choice}
    (hstep : Control.step r caught s action = some after) :
    Backed r after := by
  have hcontrolled := h.toControlled.step hstep
  rcases Control.step_cases hstep with ⟨t, _, _, rfl⟩ | ⟨t, _, _, rfl⟩ |
    ⟨t, os, point, _, ht, hcall⟩ | ⟨t, os, point, _, ht, hcall⟩ |
    ⟨k, choice, _, hcall⟩
  · exact h.controller hcontrolled rfl (Nat.le_refl _) (fun _ => Or.inl)
      (by simp [Point.assigns]) (fun _ => id)
  · exact h.controller hcontrolled rfl (Nat.le_refl _) (fun _ => Or.inl)
      (by simp [Point.assigns]) (fun _ => id)
  · exact h.startCall ht hcall
  · exact h.stopCall ht hcall
  · exact h.workerCall hcall

end Backed

/-! ### No deadlock -/

section Deadlock

variable {r : Routine Worker Choice} {s : Control Thread Worker}
  {caught : Bool}

theorem handOver_isSome {mutex : Option (Holder Thread)}
    {who : Holder Thread} {before : Bool} (held : Bool)
    (hbefore : before = true ↔ mutex = some who)
    (hmutex : mutex = none ∨ mutex = some who) :
    ∃ after, handOver mutex who before held = some after := by
  cases before with
  | true => cases held <;> exact ⟨_, rfl⟩
  | false =>
      have hfree : mutex = none := by
        apply hmutex.resolve_right
        rw [← hbefore]
        exact Bool.false_ne_true
      cases held <;> simp [handOver, hfree]

/-- A worker that has not ended takes a step unless another party has locked
the mutex. -/
theorem Backed.works (h : Backed r s) (hlive : Live r) {k : Nat}
    {worker : Worker} (hworker : s.workers[k]? = some worker)
    (hended : r.ended worker = false)
    (hmutex : s.mutex = none ∨ s.mutex = some (.worker k)) :
    ∃ choice after, Control.workerCall r s k choice = some after := by
  obtain ⟨choice, next, hadvance⟩ := hlive.advances s.mStop worker hended
  obtain ⟨mutex, hhanded⟩ := handOver_isSome (r.holds next)
    (h.workers k worker hworker) hmutex
  refine ⟨choice, { s with mutex := mutex, workers := s.workers.set k next }, ?_⟩
  simp only [Control.workerCall, hworker, hadvance, hhanded,
    Option.bind_eq_bind, Option.bind_some]

variable [DecidableEq Thread] {t : Thread}

/-- A start call waits at its lock only. -/
theorem Control.startCall_isSome (caught : Bool) {point : StartPoint}
    (hlock : point = .lock → s.mutex = none) :
    ∃ after, Control.startCall r caught s t ⟨true, none⟩ point =
      some after := by
  cases point with
  | lock => simp [Control.startCall, hlock rfl]
  | _ => exact ⟨_, rfl⟩

/-- A stop call waits at its lock, and in `get` for a worker. -/
theorem Control.stopCall_isSome (hlive : Live r) {point : StopPoint}
    (hlock : point = .lock → s.mutex = none)
    (hget : point = .get → ∀ k, s.mFut = some k → s.ended r k = true) :
    ∃ os after, Control.stopCall r s t os point = some after := by
  cases point with
  | lock => exact ⟨⟨true, none⟩, by simp [Control.stopCall, hlock rfl]⟩
  | notify =>
      obtain ⟨woken, workers, hnotify⟩ := hlive.notifies s.workers
      exact ⟨⟨true, woken⟩, by simp [Control.stopCall, hnotify]⟩
  | get =>
      cases hmFut : s.mFut with
      | none => exact ⟨⟨true, none⟩, by simp [Control.stopCall, hmFut]⟩
      | some k =>
          have hended := hget rfl k hmFut
          exact ⟨⟨true, none⟩, by simp [Control.stopCall, hmFut, hended]⟩
  | _ => exact ⟨⟨true, none⟩, _, rfl⟩

namespace Backed

/-- A controller takes a step unless it waits for the mutex or for a worker
that has not ended. -/
theorem proceeds (caught : Bool) (hlive : Live r) (ht : s.controllers t ≠ .idle)
    (hlock : (s.controllers t).holds = false → s.mutex = none)
    (hget : s.controllers t = .stopping .get →
      ∀ k, s.mFut = some k → s.ended r k = true) :
    ∃ os after, Control.step r caught s (.proceed t os) = some after := by
  cases hpoint : s.controllers t with
  | idle => exact absurd hpoint ht
  | starting point =>
      rw [hpoint] at hlock
      have hfree : point = .lock → s.mutex = none := by
        rintro rfl
        exact hlock rfl
      obtain ⟨after, hcall⟩ :=
        Control.startCall_isSome (r := r) (t := t) caught hfree
      exact ⟨⟨true, none⟩, after, by simpa only [Control.step, hpoint]⟩
  | stopping point =>
      rw [hpoint] at hlock hget
      have hfree : point = .lock → s.mutex = none := by
        rintro rfl
        exact hlock rfl
      have hjoined : point = .get →
          ∀ k, s.mFut = some k → s.ended r k = true := by
        rintro rfl
        exact hget rfl
      obtain ⟨os, after, hcall⟩ :=
        Control.stopCall_isSome (t := t) hlive hfree hjoined
      exact ⟨os, after, by simpa only [Control.step, hpoint]⟩

/-- Until the calls have returned and the workers have ended, one of them
takes a step. -/
theorem progress (h : Backed r s) (hlive : Live r) (hbusy : ¬ s.Settled r) :
    ∃ action after, action.Continues ∧
      Control.step r caught s action = some after := by
  have hworks : ∀ {k worker}, s.workers[k]? = some worker →
      r.ended worker = false →
      s.mutex = none ∨ s.mutex = some (.worker k) →
      ∃ action after, action.Continues ∧
        Control.step r caught s action = some after := by
    intro k worker hworker hended hmutex
    obtain ⟨choice, after, hcall⟩ := h.works hlive hworker hended hmutex
    exact ⟨.work k choice, after, trivial, hcall⟩
  cases hmutex : s.mutex with
  | some holder =>
      cases holder with
      | controller t =>
          -- whoever holds the mutex is not waiting
          have hholds := (h.controllers t).mpr hmutex
          have ht : s.controllers t ≠ .idle := by
            intro hidle
            rw [hidle] at hholds
            contradiction
          obtain ⟨os, after, hstep⟩ := proceeds caught hlive ht
            (by simp [hholds]) (by intro hget; rw [hget] at hholds; contradiction)
          exact ⟨.proceed t os, after, trivial, hstep⟩
      | worker k =>
          have hworker := List.getElem?_eq_getElem (h.held k hmutex)
          have hholds := (h.workers k _ hworker).mpr hmutex
          apply hworks hworker _ (Or.inr hmutex)
          rw [← Bool.not_eq_true]
          intro hended
          rw [hlive.released _ hended] at hholds
          contradiction
  | none =>
      by_cases hidle : ∀ t, s.controllers t = .idle
      · -- some worker has not ended
        have hleft : ∃ worker ∈ s.workers, r.ended worker = false := by
          by_contra hall
          apply hbusy
          constructor
          case idle => exact hidle
          case ended => simpa using hall
        obtain ⟨worker, hmem, hended⟩ := hleft
        obtain ⟨k, hworker⟩ := List.mem_iff_getElem?.mp hmem
        exact hworks hworker hended (Or.inl hmutex)
      · obtain ⟨t, ht⟩ := not_forall.mp hidle
        by_cases hjoined : ∀ k, s.mFut = some k → s.ended r k = true
        · obtain ⟨os, after, hstep⟩ := proceeds caught hlive ht
            (fun _ => hmutex) (fun _ => hjoined)
          exact ⟨.proceed t os, after, trivial, hstep⟩
        · -- the worker that may be waited for takes a step
          simp only [not_forall, Bool.not_eq_true] at hjoined
          obtain ⟨k, hmFut, hleft⟩ := hjoined
          have hworker := List.getElem?_eq_getElem (h.future k hmFut)
          rw [Control.ended, hworker, Option.any_some] at hleft
          exact hworks hworker hleft (Or.inl hmutex)

end Backed

end Deadlock

/-! ### The steps that are left -/

/-- The steps a start call may still take, and those of the worker that it may
spawn. -/
def StartPoint.stepsLeft (spawned : Nat) : StartPoint → Nat
  | .lock => spawned + 7
  | .valid => spawned + 6
  | .store => spawned + 5
  | .async => spawned + 4
  | .assign _ => 3
  | .unlock _ => 2
  | .returns _ => 1

def StopPoint.stepsLeft : StopPoint → Nat
  | .load => 8
  | .lock => 7
  | .store => 6
  | .unlock => 5
  | .notify => 4
  | .valid => 3
  | .get => 2
  | .returns => 1

@[inherit_doc StartPoint.stepsLeft]
def Point.stepsLeft (spawned : Nat) : Point → Nat
  | .idle => 0
  | .starting point => point.stepsLeft spawned
  | .stopping point => point.stepsLeft

/-- The steps left to the calls of `threads` and to the workers. -/
def Control.stepsLeft (r : Routine Worker Choice) (rank : Worker → Nat)
    (threads : Finset Thread) (s : Control Thread Worker) : Nat :=
  ∑ t ∈ threads, (s.controllers t).stepsLeft (rank r.spawned) +
    (s.workers.map rank).sum

/-- At `mStop` every step of a worker lowers its rank, and no notification
raises one. -/
structure Descends (r : Routine Worker Choice) (rank : Worker → Nat)
    (mStop : Bool) : Prop where
  advance : ∀ worker choice next, r.advance mStop worker choice = some next →
    rank next < rank worker
  notify : ∀ woken workers after, r.notify woken workers = some after →
    (after.map rank).sum ≤ (workers.map rank).sum

section StepsLeft

variable {r : Routine Worker Choice} {rank : Worker → Nat}
  {threads : Finset Thread} {s after : Control Thread Worker}
  [DecidableEq Thread] {t : Thread} {os : Answer} {caught : Bool}

/-- The calls after one of them has moved. -/
theorem callsLeft_update (spawned : Nat) (controllers : Thread → Point)
    (p : Point) (ht : t ∈ threads) :
    ∑ u ∈ threads, (Function.update controllers t p u).stepsLeft spawned +
        (controllers t).stepsLeft spawned =
      ∑ u ∈ threads, (controllers u).stepsLeft spawned + p.stepsLeft spawned := by
  have hothers : ∑ u ∈ threads.erase t,
      (Function.update controllers t p u).stepsLeft spawned =
        ∑ u ∈ threads.erase t, (controllers u).stepsLeft spawned := by
    apply Finset.sum_congr rfl
    intro u hu
    rw [Function.update_of_ne (Finset.ne_of_mem_erase hu)]
  rw [← Finset.add_sum_erase threads _ ht, hothers,
    ← Finset.add_sum_erase threads (fun u => (controllers u).stepsLeft spawned)
      ht, Function.update_self]
  omega

/-- A step of a controller that leaves less to its call, or to the workers. -/
theorem Control.stepsLeft_controller {p before : Point} (hmem : t ∈ threads)
    (ht : s.controllers t = before)
    (hcontrollers : after.controllers = Function.update s.controllers t p)
    (hless : p.stepsLeft (rank r.spawned) + (after.workers.map rank).sum <
      before.stepsLeft (rank r.spawned) + (s.workers.map rank).sum) :
    after.stepsLeft r rank threads < s.stepsLeft r rank threads := by
  have hcalls := callsLeft_update (rank r.spawned) s.controllers p hmem
  rw [Control.stepsLeft, Control.stepsLeft, hcontrollers]
  rw [ht] at hcalls
  omega

theorem Control.stepsLeft_startCall {point : StartPoint}
    (hmem : t ∈ threads) (ht : s.controllers t = .starting point)
    (hcall : Control.startCall r caught s t os point = some after) :
    after.stepsLeft r rank threads < s.stepsLeft r rank threads := by
  cases Control.startCall_step hcall with
  | spawned _ =>
      apply Control.stepsLeft_controller hmem ht rfl
      simp only [List.map_append, List.map_singleton, List.sum_append,
        List.sum_singleton, Point.stepsLeft, StartPoint.stepsLeft]
      omega
  | _ =>
      apply Control.stepsLeft_controller hmem ht rfl
      simp only [Control.goto, Point.stepsLeft, StartPoint.stepsLeft]
      omega

theorem Control.stepsLeft_stopCall {point : StopPoint}
    (hdescends : Descends r rank s.mStop) (hmem : t ∈ threads)
    (ht : s.controllers t = .stopping point)
    (hcall : Control.stopCall r s t os point = some after) :
    after.stepsLeft r rank threads < s.stepsLeft r rank threads := by
  cases Control.stopCall_step hcall with
  | notify workers hnotify =>
      have hle := hdescends.notify _ _ _ hnotify
      apply Control.stepsLeft_controller hmem ht rfl
      simp only [Point.stepsLeft, StopPoint.stepsLeft]
      omega
  | _ =>
      apply Control.stepsLeft_controller hmem ht rfl
      simp only [Control.goto, Point.stepsLeft, StopPoint.stepsLeft]
      omega

omit [DecidableEq Thread] in
theorem Control.stepsLeft_workerCall (hdescends : Descends r rank s.mStop)
    {k : Nat} {choice : Choice}
    (hcall : Control.workerCall r s k choice = some after) :
    after.stepsLeft r rank threads < s.stepsLeft r rank threads := by
  obtain ⟨worker, next, mutex, hworker, hadvance, _, rfl⟩ :=
    Control.workerCall_cases hcall
  have hless := hdescends.advance worker choice next hadvance
  have hsum := Runs.sum_map_set rank hworker next
  simp only [Control.stepsLeft]
  omega

/-- Step lemma: a step that begins no call leaves fewer steps. -/
theorem Control.stepsLeft_step (hdescends : Descends r rank s.mStop)
    (hthreads : ∀ t, s.controllers t ≠ .idle → t ∈ threads)
    {action : ControlStep Thread Choice} (hcontinues : action.Continues)
    (hstep : Control.step r caught s action = some after) :
    after.stepsLeft r rank threads < s.stepsLeft r rank threads := by
  rcases Control.step_cases hstep with ⟨t, rfl, _, _⟩ | ⟨t, rfl, _, _⟩ |
    ⟨t, os, point, _, ht, hcall⟩ | ⟨t, os, point, _, ht, hcall⟩ |
    ⟨k, choice, _, hcall⟩
  · exact hcontinues.elim
  · exact hcontinues.elim
  · have hmem : t ∈ threads := hthreads t (by simp [ht])
    exact Control.stepsLeft_startCall hmem ht hcall
  · have hmem : t ∈ threads := hthreads t (by simp [ht])
    exact Control.stepsLeft_stopCall hdescends hmem ht hcall
  · exact Control.stepsLeft_workerCall hdescends hcall

/-- No thread enters a call by a step that begins none. -/
theorem Control.idle_of_continues {action : ControlStep Thread Choice}
    (hcontinues : action.Continues)
    (hstep : Control.step r caught s action = some after)
    (ht : s.controllers t = .idle) : after.controllers t = .idle := by
  rcases Control.step_cases hstep with ⟨u, rfl, _, _⟩ | ⟨u, rfl, _, _⟩ |
    ⟨u, os, point, _, hu, hcall⟩ | ⟨u, os, point, _, hu, hcall⟩ |
    ⟨k, choice, _, hcall⟩
  · exact hcontinues.elim
  · exact hcontinues.elim
  · obtain ⟨p, hp, _⟩ := Control.startCall_controllers hcall
    have hne : t ≠ u := by
      rintro rfl
      rw [ht] at hu
      contradiction
    rw [hp, Function.update_of_ne hne, ht]
  · obtain ⟨p, hp⟩ := Control.stopCall_controllers hcall
    have hne : t ≠ u := by
      rintro rfl
      rw [ht] at hu
      contradiction
    rw [hp, Function.update_of_ne hne, ht]
  · obtain ⟨_, _, _, _, _, _, rfl⟩ := Control.workerCall_cases hcall
    exact ht

/-- The calls in progress are those of `threads`. -/
structure CallsWithin (r : Routine Worker Choice) (threads : Finset Thread)
    (s : Control Thread Worker) : Prop extends Backed r s where
  threads : ∀ t, s.controllers t ≠ .idle → t ∈ threads

theorem CallsWithin.step (h : CallsWithin r threads s)
    {action : ControlStep Thread Choice} (hcontinues : action.Continues)
    (hstep : Control.step r caught s action = some after) :
    CallsWithin r threads after := by
  constructor
  case toBacked => exact h.toBacked.step hstep
  case threads =>
    intro t ht
    apply h.threads t
    intro hidle
    exact ht (Control.idle_of_continues hcontinues hstep hidle)

/-- Where no call is in progress but those of `threads`. -/
theorem callsWithin_of_reachable
    (hreached : Runs.Reachable (Control.step r caught) (fun _ _ => True)
      Control.initial s)
    (hthreads : ∀ t, s.controllers t ≠ .idle → t ∈ threads) :
    CallsWithin r threads s := by
  constructor
  case toBacked =>
    apply hreached.invariant _ (initial_backed r)
    intro state action next hstate _ hstep
    exact hstate.step hstep
  case threads => exact hthreads

omit [DecidableEq Thread] in
/-- At most one worker has steps left. -/
theorem Controlled.stepsLeft_le (h : Controlled r s) {calls spawned : Nat}
    (hended : ∀ worker, r.ended worker = true → rank worker = 0)
    (hcalls : ∀ t ∈ threads,
      (s.controllers t).stepsLeft (rank r.spawned) ≤ calls)
    (hrank : ∀ worker, rank worker ≤ spawned) :
    s.stepsLeft r rank threads ≤ calls * threads.card + spawned := by
  have hthreads : ∑ t ∈ threads, (s.controllers t).stepsLeft (rank r.spawned) ≤
      threads.card * calls := Finset.sum_le_card_nsmul threads _ calls hcalls
  have hworkers : (s.workers.map rank).sum ≤ spawned := by
    apply Runs.sum_le_of_pairwise
    · intro number hnumber
      obtain ⟨worker, _, rfl⟩ := List.mem_map.mp hnumber
      exact hrank worker
    · rw [List.pairwise_map, List.pairwise_iff_getElem]
      intro i j hi hj hlt
      by_cases hfirst : r.ended s.workers[i] = true
      · exact Or.inl (hended _ hfirst)
      · right
        apply hended
        by_contra hsecond
        have hsame := h.unfinished_unique (List.getElem?_eq_getElem hi)
          (List.getElem?_eq_getElem hj) (by simpa using hfirst)
          (by simpa using hsecond)
        omega
  rw [Control.stepsLeft, Nat.mul_comm calls]
  omega

end StepsLeft

/-- A stop call stays one until it returns. -/
theorem Control.stopCall_stays {r : Routine Worker Choice}
    [DecidableEq Thread] {s after : Control Thread Worker} {t : Thread}
    {os : Answer} {point : StopPoint}
    (hcall : Control.stopCall r s t os point = some after) :
    ∃ p, after.controllers = Function.update s.controllers t p ∧
      ∀ next, p ≠ .starting next := by
  cases Control.stopCall_step hcall <;> exact ⟨_, rfl, by simp⟩

/-! ### The timer -/

namespace TaskTimer

/-- The steps left to a worker once `mStop` is true, whatever `onTimer`
returns. -/
def ExecutePoint.rank : ExecutePoint → Nat
  | .waiting => 6
  | .call => 6
  | .woken _ => 5
  | .ticking => 5
  | .lock => 4
  | .predicate => 4
  | .lastPredicate => 4
  | .check => 3
  | .unlock => 2
  | .leaving => 1
  | .finished => 0

theorem execute_live : Live execute where
  advances := by
    intro mStop worker hended
    cases worker with
    | ticking => exact ⟨.ticked none, _, rfl⟩
    | waiting => exact ⟨.wake true, _, rfl⟩
    | finished => contradiction
    | _ => exact ⟨.go, _, rfl⟩
  released := by
    intro worker hended
    rw [of_decide_eq_true hended]
    rfl
  notifies := by
    intro workers
    by_cases hwaiting : .waiting ∈ workers
    · obtain ⟨k, hk⟩ := List.mem_iff_getElem?.mp hwaiting
      exact ⟨some k, workers.set k (.woken false), by
        simp [execute, notifyOne, hk]⟩
    · exact ⟨none, workers, by simp [execute, notifyOne, hwaiting]⟩

theorem execute_descends : Descends execute ExecutePoint.rank true where
  advance := by
    intro worker choice next hadvance
    revert hadvance
    change advance true worker choice = some next → _
    fun_cases advance true worker choice
    case case9 timedOut =>
      intro hadvance
      cases timedOut <;> cases hadvance <;> decide
    all_goals
      intro hadvance
      cases hadvance
    all_goals simp [ExecutePoint.rank]
  notify := by
    intro woken workers after hnotify
    cases woken with
    | none =>
        simp only [execute, notifyOne, Option.ite_none_left_eq_some,
          Option.some.injEq] at hnotify
        rw [hnotify.2]
    | some k =>
        simp only [execute, notifyOne, Option.ite_none_right_eq_some,
          Option.some.injEq] at hnotify
        obtain ⟨hwaiting, rfl⟩ := hnotify
        have hsum := Runs.sum_map_set ExecutePoint.rank hwaiting (.woken false)
        simp only [ExecutePoint.rank] at hsum
        omega

variable {Thread : Type} [DecidableEq Thread]

/-- Over every run of any number of threads, until every call has returned and
every worker has ended, a call or a worker can take a step. -/
theorem never_deadlocks (actions : List (ControlStep Thread ExecuteChoice)) :
    Runs.Throughout step
      (fun s => ¬ s.Settled execute → ∃ action after,
        ControlStep.Continues action ∧ step s action = some after)
      (Control.initial : Control Thread ExecutePoint) actions := by
  rw [step_eq]
  apply Runs.Throughout.of_invariant
  · intro s action after hbacked hstep
    exact Backed.step hbacked hstep
  · intro s hbacked
    exact Backed.progress hbacked execute_live
  · exact initial_backed execute

/-- `mStop` is true, and no call is in progress but stop calls of
`threads`. -/
structure Stopped (threads : Finset Thread)
    (s : Control Thread ExecutePoint) : Prop
    extends CallsWithin execute threads s where
  stopped : s.mStop = true
  stops : ∀ t point, s.controllers t ≠ .starting point

namespace Stopped

variable {threads : Finset Thread} {s after : Control Thread ExecutePoint}

/-- Step lemma. -/
theorem step (h : Stopped threads s) {action : ControlStep Thread ExecuteChoice}
    (hcontinues : action.Continues)
    (hstep : Control.step execute true s action = some after) :
    Stopped threads after := by
  have hrest : after.mStop = true ∧
      ∀ t point, after.controllers t ≠ .starting point := by
    rcases Control.step_cases hstep with ⟨t, rfl, _, _⟩ | ⟨t, rfl, _, _⟩ |
      ⟨t, os, point, _, ht, hcall⟩ | ⟨t, os, point, _, _, hcall⟩ |
      ⟨k, choice, _, hcall⟩
    · exact hcontinues.elim
    · exact hcontinues.elim
    · exact absurd ht (h.stops t point)
    · constructor
      · rcases Control.stopCall_shared hcall with ⟨hstop, _⟩ | ⟨_, hstop, _⟩ |
          ⟨_, hstop, _⟩
        · rw [hstop, h.stopped]
        · exact hstop
        · rw [hstop, h.stopped]
      · obtain ⟨p, hp, hstays⟩ := Control.stopCall_stays hcall
        intro other next
        rw [hp]
        by_cases heq : other = t
        · rw [heq, Function.update_self]
          exact hstays next
        · rw [Function.update_of_ne heq]
          exact h.stops other next
    · obtain ⟨_, _, _, _, _, _, rfl⟩ := Control.workerCall_cases hcall
      exact ⟨h.stopped, h.stops⟩
  exact ⟨h.toCallsWithin.step hcontinues hstep, hrest.1, hrest.2⟩

end Stopped

/-- Once `mStop` is true, and while no call begins, the stop calls in progress
return and the worker ends, whatever `onTimer` returns and however long the
waits: no run is stuck before, and none has more steps than eight for each call
and six for the worker. -/
theorem stopTimer_returns {s : Control Thread ExecutePoint}
    (hreached : Runs.Reachable step (fun _ _ => True) Control.initial s)
    (hstopped : s.mStop = true)
    (hstops : ∀ t point, s.controllers t ≠ .starting point)
    {threads : Finset Thread}
    (hthreads : ∀ t, s.controllers t ≠ .idle → t ∈ threads) :
    Runs.Inevitable step (fun _ action => action.Continues)
      (fun later => later.Settled execute) (8 * threads.card + 6) s := by
  rw [step_eq] at hreached ⊢
  have hstart : Stopped threads s :=
    ⟨callsWithin_of_reachable hreached hthreads, hstopped, hstops⟩
  refine Runs.inevitable_of_variant
    (Control.stepsLeft execute ExecutePoint.rank threads) ?_ ?_ hstart ?_
  · intro state hstate hleft
    exact hstate.progress execute_live hleft
  · intro state action next hstate hcontinues hstep
    constructor
    · exact hstate.step hcontinues hstep
    · apply Control.stepsLeft_step _ hstate.threads hcontinues hstep
      rw [hstate.stopped]
      exact execute_descends
  · apply hstart.stepsLeft_le
    · intro worker hended
      rw [of_decide_eq_true hended]
      rfl
    · intro t _
      cases ht : s.controllers t with
      | idle => exact Nat.zero_le 8
      | starting point => exact absurd ht (hstops t point)
      | stopping point => cases point <;> simp [Point.stepsLeft, StopPoint.stepsLeft]
    · intro worker
      cases worker <;> simp [ExecutePoint.rank]

/-- The worker waits for its next tick when the other thread has set `mStop`
and is about to notify it. -/
def stoppedWaiting : List (ControlStep Bool ExecuteChoice) :=
  List.flatten
    [[.start false], List.replicate 7 (.proceed false ⟨true, none⟩),
      List.replicate 3 (.work 0 .go),
      [.work 0 (.ticked (some .timerContinue)), .work 0 .go, .stop true],
      List.replicate 4 (.proceed true ⟨true, none⟩)]

theorem stoppedWaiting_returns :
    ∃ s, Runs.run step Control.initial stoppedWaiting = some s ∧
      s.controllers true = .stopping .notify ∧ s.workers = [.waiting] ∧
      Runs.Inevitable step (fun _ action => action.Continues)
        (fun later => later.Settled execute) 14 s := by
  have hfacts : (Runs.run step Control.initial stoppedWaiting).map
      (fun s => (s.mStop, s.controllers false, s.controllers true, s.workers)) =
        some (true, .idle, .stopping .notify, [.waiting]) := by decide
  obtain ⟨s, hrun, hfacts⟩ := Option.map_eq_some_iff.mp hfacts
  simp only [Prod.mk.injEq] at hfacts
  obtain ⟨hstopped, hstarter, hstopper, hworkers⟩ := hfacts
  have hreached := Runs.Reachable.refl.of_run (Runs.everyStep_true _ _) hrun
  have hstops : ∀ t point, s.controllers t ≠ .starting point := by
    intro t point
    cases t with
    | false => simp [hstarter]
    | true => simp [hstopper]
  have hthreads : ∀ t, s.controllers t ≠ .idle → t ∈ ({true} : Finset Bool) := by
    intro t ht
    cases t with
    | false => exact absurd hstarter ht
    | true => exact Finset.mem_singleton_self true
  exact ⟨s, hrun, hstopper, hworkers,
    stopTimer_returns hreached hstopped hstops hthreads⟩

end TaskTimer

/-! ### The task -/

namespace Task

@[inherit_doc TaskTimer.ExecutePoint.rank]
def RunPoint.rank : RunPoint → Nat
  | .spawned => 2
  | .running => 1
  | .ended => 0

theorem onRun_live : Live onRun where
  advances := by
    intro mStop worker hended
    cases worker with
    | spawned => exact ⟨(), _, rfl⟩
    | running => exact ⟨(), _, rfl⟩
    | ended => contradiction
  released := fun _ _ => rfl
  notifies := fun workers => ⟨none, workers, rfl⟩

theorem onRun_descends (mStop : Bool) : Descends onRun RunPoint.rank mStop where
  advance := by
    intro worker choice next hadvance
    cases worker <;> cases hadvance <;> decide
  notify := by
    intro woken workers after hnotify
    cases hnotify
    exact Nat.le_refl _

variable {Thread : Type} [DecidableEq Thread]

/-- When `onRun` returns or throws, all calls return, start calls too, unless
further ones begin. -/
theorem calls_return {s : Control Thread RunPoint}
    (hreached : Runs.Reachable step (fun _ _ => True) Control.initial s)
    {threads : Finset Thread}
    (hthreads : ∀ t, s.controllers t ≠ .idle → t ∈ threads) :
    Runs.Inevitable step (fun _ action => action.Continues)
      (fun later => later.Settled onRun) (9 * threads.card + 2) s := by
  rw [step_eq] at hreached ⊢
  have hstart : CallsWithin onRun threads s :=
    callsWithin_of_reachable hreached hthreads
  refine Runs.inevitable_of_variant
    (Control.stepsLeft onRun RunPoint.rank threads) ?_ ?_ hstart ?_
  · intro state hstate hleft
    exact hstate.progress onRun_live hleft
  · intro state action next hstate hcontinues hstep
    constructor
    · exact hstate.step hcontinues hstep
    · exact Control.stepsLeft_step (onRun_descends _) hstate.threads hcontinues
        hstep
  · apply hstart.stepsLeft_le
    · intro worker hended
      rw [of_decide_eq_true hended]
      rfl
    · intro t _
      cases s.controllers t with
      | idle => exact Nat.zero_le 9
      | starting point =>
          cases point <;>
            simp [Point.stepsLeft, StartPoint.stepsLeft, onRun, RunPoint.rank]
      | stopping point =>
          cases point <;> simp [Point.stepsLeft, StopPoint.stepsLeft]
    · intro worker
      cases worker <;> simp [RunPoint.rank]

/-- One thread is about to spawn a worker, the other waits for the mutex to
stop it. -/
def stoppedEarly : List (ControlStep Bool Unit) :=
  List.flatten
    [[.start false], List.replicate 3 (.proceed false ⟨true, none⟩),
      [.stop true, .proceed true ⟨true, none⟩]]

theorem stoppedEarly_returns :
    ∃ s, Runs.run step Control.initial stoppedEarly = some s ∧
      s.controllers false = .starting .async ∧
      s.controllers true = .stopping .lock ∧
      Runs.Inevitable step (fun _ action => action.Continues)
        (fun later => later.Settled onRun) 20 s := by
  have hrun : Runs.run step Control.initial stoppedEarly = some _ := rfl
  have hreached := Runs.Reachable.refl.of_run (Runs.everyStep_true _ _) hrun
  have hreturn := calls_return hreached fun t _ => Finset.mem_univ t
  exact ⟨_, hrun, rfl, rfl, hreturn⟩

end Task

end Saigon
