/-
Which stop calls wait for the workers that were spawned before they began.  A
call that goes through the mutex does, whoever else stops or starts the worker
meanwhile; a call that reads `mStop` as true returns at once.
-/
import Saigon.OneWorker

namespace Saigon

variable {Thread Worker Choice : Type}

/-! ### Workers that have ended stay so -/

section Ended

variable {r : Routine Worker Choice} {s after : Control Thread Worker} {k : Nat}

theorem Control.ended_iff : s.ended r k = true ↔
    ∃ worker, s.workers[k]? = some worker ∧ r.ended worker = true := by
  rw [Control.ended, Option.any_eq_true]

/-- A worker that has ended has been spawned. -/
theorem Control.lt_of_ended (hended : s.ended r k = true) :
    k < s.workers.length := by
  obtain ⟨worker, hworker, _⟩ := Control.ended_iff.mp hended
  exact (List.getElem?_eq_some_iff.mp hworker).1

theorem Control.ended_congr (hworkers : after.workers = s.workers) :
    after.ended r k = s.ended r k := by
  rw [Control.ended, Control.ended, hworkers]

/-- Notified workers end as the workers before them. -/
theorem Control.ended_notify {woken : Option Nat}
    (hnotify : r.notify woken s.workers = some after.workers) :
    after.ended r k = s.ended r k := by
  have hview := congrArg (fun views => views[k]?.any id)
    (r.notify_ended _ _ _ hnotify)
  simpa [Control.ended, Option.any_map] using hview

variable [DecidableEq Thread] {t : Thread} {os : Answer}

theorem Control.ended_of_startCall {caught : Bool} {point : StartPoint}
    (hcall : Control.startCall r caught s t os point = some after)
    (hended : s.ended r k = true) : after.ended r k = true := by
  rcases Control.startCall_shared hcall with ⟨_, hworkers⟩ |
    ⟨_, _, hworkers⟩ | ⟨_, _, hworkers⟩
  · rw [Control.ended_congr hworkers, hended]
  · rw [Control.ended_congr hworkers, hended]
  · rw [Control.ended, hworkers,
      List.getElem?_append_left (Control.lt_of_ended hended)]
    exact hended

theorem Control.ended_of_stopCall {point : StopPoint}
    (hcall : Control.stopCall r s t os point = some after) :
    after.ended r k = s.ended r k := by
  rcases Control.stopCall_shared hcall with ⟨_, hworkers⟩ |
    ⟨_, _, hworkers⟩ | ⟨_, _, hnotify⟩
  · exact Control.ended_congr hworkers
  · exact Control.ended_congr hworkers
  · exact Control.ended_notify hnotify

omit [DecidableEq Thread] in
theorem Control.ended_of_workerCall {j : Nat} {choice : Choice}
    (hcall : Control.workerCall r s j choice = some after)
    (hended : s.ended r k = true) : after.ended r k = true := by
  obtain ⟨worker, next, mutex, hworker, hadvance, _, rfl⟩ :=
    Control.workerCall_cases hcall
  have hne : j ≠ k := by
    rintro rfl
    obtain ⟨worker', hworker', hended⟩ := Control.ended_iff.mp hended
    rw [hworker, Option.some.injEq] at hworker'
    rw [← hworker'] at hended
    rw [r.ended_stays _ _ _ hended] at hadvance
    contradiction
  rw [Control.ended, List.getElem?_set_ne hne]
  exact hended

end Ended

/-! ### The workers a call has to wait for -/

/-- The points of a stop call from locking the mutex to `get`. -/
def Point.joining : Point → Bool
  | .stopping .store => true
  | .stopping .unlock => true
  | .stopping .notify => true
  | .stopping .valid => true
  | .stopping .get => true
  | _ => false

variable [DecidableEq Thread]

/-- Note the number of workers when a stop call begins. -/
def noteBegun (s : Control Thread Worker) :
    ControlStep Thread Choice → (Thread → Nat) → Thread → Nat
  | .stop t, begun => Function.update begun t s.workers.length
  | _, begun => begun

/-- A step beside the notes. -/
def Control.noted (r : Routine Worker Choice) (caught : Bool) :
    Control Thread Worker × (Thread → Nat) → ControlStep Thread Choice →
      Option (Control Thread Worker × (Thread → Nat)) :=
  Runs.observe (Control.step r caught) noteBegun

omit [DecidableEq Thread] in
/-- Whenever a stop call has returned, every worker that was spawned before it
began has ended. -/
def JoinedOnReturn (r : Routine Worker Choice)
    (s : Control Thread Worker × (Thread → Nat)) : Prop :=
  ∀ t, s.1.controllers t = .stopping .returns →
    ∀ k, k < s.2 t → s.1.ended r k = true

/-- A stop call that reads `mStop` as true and leaves finds that the workers
spawned before it began have ended. -/
def ExitsJoined (r : Routine Worker Choice)
    (s : Control Thread Worker × (Thread → Nat)) :
    ControlStep Thread Choice → Prop
  | .proceed t _ => s.1.controllers t = .stopping .load → s.1.mStop = true →
      ∀ k, k < s.2 t → s.1.ended r k = true
  | _ => True

/-- Beside the one worker: a call past the lock may find a future that is yet
to be assigned, but only that of a worker spawned since it began. -/
structure Joins (r : Routine Worker Choice)
    (s : Control Thread Worker × (Thread → Nat)) : Prop
    extends Controlled r s.1 where
  begun : ∀ t, s.2 t ≤ s.1.workers.length
  later : ∀ t other k, (s.1.controllers t).joining = true →
    (s.1.controllers other).assigns = some k → s.2 t ≤ k
  returned : JoinedOnReturn r s

omit [DecidableEq Thread] in
theorem initial_joins (r : Routine Worker Choice) :
    Joins r ((Control.initial : Control Thread Worker), fun _ => 0) where
  toControlled := initial_controlled r
  begun := fun _ => Nat.zero_le _
  later := fun _ _ k _ _ => Nat.zero_le k
  returned := by
    intro t hreturns
    contradiction

namespace Joins

variable {r : Routine Worker Choice}
  {s : Control Thread Worker × (Thread → Nat)}
  {after : Control Thread Worker} {t : Thread} {p : Point} {os : Answer}

omit [DecidableEq Thread] in
/-- Past the lock, when no future is left to wait for, the workers spawned
before the call began have ended. -/
theorem joined (h : Joins r s) (ht : (s.1.controllers t).joining = true)
    (hmFut : ∀ k, s.1.mFut = some k → s.1.ended r k = true) {k : Nat}
    (hk : k < s.2 t) : s.1.ended r k = true := by
  have hlength := Nat.lt_of_lt_of_le hk (h.begun t)
  have hworker := List.getElem?_eq_getElem hlength
  rw [← Bool.not_eq_false]
  intro hleft
  have hended : r.ended s.1.workers[k] = false := by
    rwa [Control.ended, hworker, Option.any_some] at hleft
  rcases h.unfinished k _ hworker hended with hfuture | ⟨other, hother⟩
  · rw [hmFut k hfuture] at hleft
    contradiction
  · exact Nat.not_le_of_lt hk (h.later t other k ht hother)

/-- A step of a controller. -/
theorem controller (h : Joins r s) (hcontrolled : Controlled r after)
    (hcontrollers : after.controllers = Function.update s.1.controllers t p)
    (hended : ∀ k, s.1.ended r k = true → after.ended r k = true)
    (hlength : s.1.workers.length ≤ after.workers.length)
    (hjoining : p.joining = true →
      (s.1.controllers t).joining = true ∨ s.1.mutex = none)
    (hassigns : ∀ k, p.assigns = some k → s.1.workers.length ≤ k)
    (hreturns : p = .stopping .returns →
      ∀ k, k < s.2 t → s.1.ended r k = true) : Joins r (after, s.2) := by
  constructor
  case toControlled => exact hcontrolled
  case begun =>
    intro other
    exact Nat.le_trans (h.begun other) hlength
  case later =>
    intro first other k hfirst hother
    simp only [hcontrollers] at hfirst hother
    by_cases heq : other = t
    · rw [heq, Function.update_self] at hother
      exact Nat.le_trans (h.begun first) (hassigns k hother)
    · rw [Function.update_of_ne heq] at hother
      by_cases hmine : first = t
      · rw [hmine, Function.update_self] at hfirst
        rcases hjoining hfirst with hbefore | hfree
        · rw [hmine]
          exact h.later t other k hbefore hother
        · -- whoever is to assign a future has the mutex
          have hheld := (h.controllers other).mp (Point.holds_of_assigns hother).1
          rw [hfree] at hheld
          contradiction
      · rw [Function.update_of_ne hmine] at hfirst
        exact h.later first other k hfirst hother
  case returned =>
    intro other hother k hk
    apply hended
    simp only [hcontrollers] at hother
    by_cases heq : other = t
    · rw [heq, Function.update_self] at hother
      rw [heq] at hk
      exact hreturns hother k hk
    · rw [Function.update_of_ne heq] at hother
      exact h.returned other hother k hk

theorem startCall (h : Joins r s) {caught : Bool} {point : StartPoint}
    (ht : s.1.controllers t = .starting point)
    (hcall : Control.startCall r caught s.1 t os point = some after) :
    Joins r (after, s.2) := by
  obtain ⟨p, hp, hstarts, hassigns⟩ := Control.startCall_controllers hcall
  refine h.controller (h.toControlled.startCall ht hcall) hp
    (fun k => Control.ended_of_startCall hcall) ?_ ?_ ?_ ?_
  · rcases Control.startCall_shared hcall with ⟨_, hworkers⟩ |
      ⟨_, _, hworkers⟩ | ⟨_, _, hworkers⟩ <;> simp [hworkers]
  · intro hjoining
    rcases p with _ | _ | point
    · contradiction
    · contradiction
    · exact absurd rfl (hstarts point)
  · intro k hk
    exact Nat.le_of_eq (hassigns k (Point.assigns_iff.mp hk)).symm
  · intro hreturns
    exact absurd hreturns (hstarts _)

/-- A call that leaves early needs the condition, one that goes through the
mutex does not. -/
theorem stopCall (h : Joins r s) {point : StopPoint}
    (ht : s.1.controllers t = .stopping point)
    (hexits : point = .load → s.1.mStop = true →
      ∀ k, k < s.2 t → s.1.ended r k = true)
    (hcall : Control.stopCall r s.1 t os point = some after) :
    Joins r (after, s.2) := by
  have hcontrolled := h.toControlled.stopCall ht hcall
  have hended : ∀ k, s.1.ended r k = true → after.ended r k = true := by
    intro k hk
    rw [Control.ended_of_stopCall hcall, hk]
  have hlength : after.workers.length = s.1.workers.length := by
    rcases Control.stopCall_shared hcall with ⟨_, hworkers⟩ |
      ⟨_, _, hworkers⟩ | ⟨_, _, hnotify⟩
    · rw [hworkers]
    · rw [hworkers]
    · simpa using congrArg List.length (r.notify_ended _ _ _ hnotify)
  have hgoes : ∀ next : StopPoint,
      after.controllers = Function.update s.1.controllers t (.stopping next) →
      (Point.joining (.stopping next) = true →
        (s.1.controllers t).joining = true ∨ s.1.mutex = none) →
      (next = .returns → ∀ k, k < s.2 t → s.1.ended r k = true) →
      Joins r (after, s.2) := by
    intro next hnext hjoining hreturns
    exact h.controller hcontrolled hnext hended (Nat.le_of_eq hlength.symm)
      hjoining (by simp [Point.assigns]) (fun heq => hreturns (by simpa using heq))
  have hpast : Point.joining (.stopping point) = true →
      (s.1.controllers t).joining = true := by
    rw [ht]
    exact id
  cases Control.stopCall_step hcall with
  | stopped hstop =>
      exact hgoes _ rfl (by simp [Point.joining]) (fun _ => hexits rfl hstop)
  | load _ => exact hgoes _ rfl (by simp [Point.joining]) (by simp)
  | lock hfree => exact hgoes _ rfl (fun _ => Or.inr hfree) (by simp)
  | store => exact hgoes _ rfl (fun _ => Or.inl (hpast rfl)) (by simp)
  | unlock => exact hgoes _ rfl (fun _ => Or.inl (hpast rfl)) (by simp)
  | notify _ _ => exact hgoes _ rfl (fun _ => Or.inl (hpast rfl)) (by simp)
  | valid _ _ => exact hgoes _ rfl (fun _ => Or.inl (hpast rfl)) (by simp)
  | invalid hmFut =>
      exact hgoes _ rfl (fun _ => Or.inl (hpast rfl))
        (fun _ k => h.joined (hpast rfl) (by simp [hmFut]))
  | get j hmFut hj =>
      exact hgoes _ rfl (fun _ => Or.inl (hpast rfl))
        (fun _ k => h.joined (hpast rfl) (by simpa [hmFut] using hj))
  | threw hmFut =>
      exact hgoes _ rfl (fun _ => Or.inl (hpast rfl))
        (fun _ k => h.joined (hpast rfl) (by simp [hmFut]))
  | returns =>
      exact h.controller (p := .idle) hcontrolled rfl hended
        (Nat.le_of_eq hlength.symm) (by simp [Point.joining])
        (by simp [Point.assigns]) (by simp)

omit [DecidableEq Thread] in
theorem workerCall (h : Joins r s) {k : Nat} {choice : Choice}
    (hcall : Control.workerCall r s.1 k choice = some after) :
    Joins r (after, s.2) := by
  have hcontrolled := h.toControlled.workerCall hcall
  have hended : ∀ j, s.1.ended r j = true → after.ended r j = true :=
    fun j => Control.ended_of_workerCall hcall
  obtain ⟨worker, next, mutex, _, _, _, rfl⟩ := Control.workerCall_cases hcall
  constructor
  case toControlled => exact hcontrolled
  case begun =>
    intro t
    simpa using h.begun t
  case later => exact h.later
  case returned =>
    intro t hreturns j hj
    exact hended j (h.returned t hreturns j hj)

/-- A stop call begins. -/
theorem begins (h : Joins r s) (ht : s.1.controllers t = .idle) :
    Joins r (s.1.goto t (.stopping .load),
      Function.update s.2 t s.1.workers.length) := by
  constructor
  case toControlled =>
    exact h.toControlled.move ht rfl rfl rfl (Or.inl rfl) rfl rfl rfl
  case begun =>
    intro other
    by_cases heq : other = t
    · simp [heq, Control.goto]
    · simpa [heq, Control.goto] using h.begun other
  case later =>
    intro first other k hfirst hother
    by_cases hmine : first = t
    · simp [hmine, Control.goto, Point.joining] at hfirst
    · by_cases heq : other = t
      · simp [heq, Control.goto, Point.assigns] at hother
      · simp only [Control.goto, Function.update_of_ne hmine,
          Function.update_of_ne heq] at hfirst hother ⊢
        exact h.later first other k hfirst hother
  case returned =>
    intro other hreturns k hk
    by_cases heq : other = t
    · simp [heq, Control.goto] at hreturns
    · simp only [Control.goto, Function.update_of_ne heq] at hreturns hk
      exact h.returned other hreturns k hk

/-- Step lemma. -/
theorem step (h : Joins r s) {caught : Bool}
    {action : ControlStep Thread Choice}
    {next : Control Thread Worker × (Thread → Nat)}
    (hok : ExitsJoined r s action)
    (hstep : Control.noted r caught s action = some next) : Joins r next := by
  obtain ⟨after, hafter, rfl⟩ := Option.map_eq_some_iff.mp hstep
  rcases Control.step_cases hafter with ⟨t, rfl, ht, rfl⟩ | ⟨t, rfl, ht, rfl⟩ |
    ⟨t, os, point, rfl, ht, hcall⟩ | ⟨t, os, point, rfl, ht, hcall⟩ |
    ⟨k, choice, rfl, hcall⟩
  · have hmoved : Controlled r (s.1.goto t (.starting .lock)) :=
      h.toControlled.move ht rfl rfl rfl (Or.inl rfl) rfl rfl rfl
    exact h.controller hmoved rfl (fun _ hk => hk) (Nat.le_refl _)
      (by simp [Point.joining]) (by simp [Point.assigns]) (by simp)
  · exact h.begins ht
  · exact h.startCall ht hcall
  · apply h.stopCall ht _ hcall
    rintro rfl
    exact hok ht
  · exact h.workerCall hcall

end Joins

/-- Leaving early while such a worker has not ended breaks the promise. -/
theorem exitsJoined_of_joinedOnReturn {r : Routine Worker Choice}
    {caught : Bool} {s : Control Thread Worker × (Thread → Nat)}
    {action : ControlStep Thread Choice}
    (hnext : ∀ next, Control.noted r caught s action = some next →
      JoinedOnReturn r next) : ExitsJoined r s action := by
  cases action with
  | proceed t os =>
      intro ht hstop k hk
      have hstep : Control.step r caught s.1 (.proceed t os) =
          some (s.1.goto t (.stopping .returns)) := by
        simp [Control.step, ht, Control.stopCall, hstop]
      have hreturned := hnext _ (Runs.observe_of_step hstep) t
        (Function.update_self t _ _)
      exact hreturned k hk
  | start t => trivial
  | stop t => trivial
  | work k choice => trivial

/-- Over every run, stop calls return with the workers spawned before they
began ended exactly when those that leave early do. -/
theorem joinedOnReturn_iff {r : Routine Worker Choice} {caught : Bool}
    (actions : List (ControlStep Thread Choice)) :
    Runs.Throughout (Control.noted r caught) (JoinedOnReturn r)
        ((Control.initial : Control Thread Worker), fun _ => 0) actions ↔
      Runs.EveryStep (Control.noted r caught) (ExitsJoined r)
        (Control.initial, fun _ => 0) actions :=
  Runs.throughout_iff_everyStep
    (fun _ _ _ h hok hstep => Joins.step h hok hstep)
    (fun _ h => h.returned)
    (fun _ _ _ hnext => exitsJoined_of_joinedOnReturn hnext)
    (initial_joins r)

end Saigon
