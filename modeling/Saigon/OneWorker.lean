/-
The mutex is exclusive and workers come one at a time: a start call spawns
while the future is invalid, and the future becomes invalid only once its
worker has ended.
-/
import Saigon.StartStop

namespace Saigon

variable {Thread Worker Choice : Type}

/-- The points between locking and unlocking the mutex. -/
def StartPoint.holds : StartPoint → Bool
  | .lock => false
  | .returns _ => false
  | _ => true

@[inherit_doc StartPoint.holds]
def StopPoint.holds : StopPoint → Bool
  | .store => true
  | .unlock => true
  | _ => false

@[inherit_doc StartPoint.holds]
def Point.holds : Point → Bool
  | .idle => false
  | .starting point => point.holds
  | .stopping point => point.holds

/-- The points at which a start call has found the future invalid. -/
def Point.spawning : Point → Bool
  | .starting .store => true
  | .starting .async => true
  | .starting (.assign _) => true
  | _ => false

/-- The worker whose future is yet to be assigned. -/
def Point.assigns : Point → Option Nat
  | .starting (.assign k) => some k
  | _ => none

/-- Whoever has locked the mutex holds it, a start call about to spawn has
found the future invalid, and the future of a worker that has not ended is
`mFut` or about to be. -/
structure Controlled (r : Routine Worker Choice)
    (s : Control Thread Worker) : Prop where
  controllers : ∀ t, (s.controllers t).holds = true ↔
    s.mutex = some (.controller t)
  workers : ∀ k worker, s.workers[k]? = some worker →
    (r.holds worker = true ↔ s.mutex = some (.worker k))
  spawning : ∀ t, (s.controllers t).spawning = true → s.mFut = none
  unfinished : ∀ k worker, s.workers[k]? = some worker →
    r.ended worker = false →
      s.mFut = some k ∨ ∃ t, (s.controllers t).assigns = some k

theorem initial_controlled (r : Routine Worker Choice) :
    Controlled r (Control.initial : Control Thread Worker) where
  controllers := by
    intro t
    simp [Control.initial, Point.holds]
  workers := by
    intro k worker hworker
    contradiction
  spawning := by
    intro t hspawning
    rfl
  unfinished := by
    intro k worker hworker
    contradiction

theorem Point.assigns_iff {p : Point} {k : Nat} :
    p.assigns = some k ↔ p = .starting (.assign k) := by
  rcases p with _ | point | point
  · simp [assigns]
  · cases point <;> simp [assigns]
  · simp [assigns]

theorem Point.holds_of_assigns {p : Point} {k : Nat}
    (hassigns : p.assigns = some k) : p.holds = true ∧ p.spawning = true := by
  rw [assigns_iff] at hassigns
  rw [hassigns]
  exact ⟨rfl, rfl⟩

theorem Point.holds_of_spawning {p : Point} (hspawning : p.spawning = true) :
    p.holds = true := by
  rcases p with _ | point | point
  · contradiction
  · cases point <;> first | rfl | contradiction
  · contradiction

/-- Only the mutex of the thread that took the step may change. -/
theorem handOver_cases {mutex after : Option (Holder Thread)}
    {who : Holder Thread} {before held : Bool}
    (hmutex : handOver mutex who before held = some after)
    (hbefore : before = true ↔ mutex = some who) :
    (held = true ↔ after = some who) ∧
      ∀ other, other ≠ who → (after = some other ↔ mutex = some other) := by
  cases before with
  | false =>
      cases held with
      | false =>
          rw [handOver, Option.some.injEq] at hmutex
          rw [← hmutex]
          exact ⟨hbefore, fun _ _ => Iff.rfl⟩
      | true =>
          cases hfree : mutex with
          | none =>
              simp only [handOver, hfree, Option.isNone_none, ↓reduceIte,
                Option.some.injEq] at hmutex
              rw [← hmutex]
              simp [eq_comm]
          | some holder => simp [handOver, hfree] at hmutex
  | true =>
      cases held with
      | false =>
          rw [handOver, Option.some.injEq] at hmutex
          rw [← hmutex, hbefore.mp rfl]
          simp [eq_comm]
      | true =>
          rw [handOver, Option.some.injEq] at hmutex
          rw [← hmutex]
          exact ⟨hbefore, fun _ _ => Iff.rfl⟩

namespace Controlled

variable {r : Routine Worker Choice} {s after : Control Thread Worker}

/-- One thread at a time is between locking and unlocking. -/
theorem holder_unique (h : Controlled r s) {first second : Thread}
    (hfirst : (s.controllers first).holds = true)
    (hsecond : (s.controllers second).holds = true) : first = second := by
  rw [h.controllers] at hfirst hsecond
  rw [hfirst, Option.some.injEq, Holder.controller.injEq] at hsecond
  exact hsecond

/-- While a controller holds the mutex no worker does. -/
theorem worker_holds (h : Controlled r s) {t : Thread}
    (ht : (s.controllers t).holds = true) {k : Nat} {worker : Worker}
    (hworker : s.workers[k]? = some worker) : r.holds worker = false := by
  rw [h.controllers] at ht
  rw [← Bool.not_eq_true, h.workers k worker hworker, ht]
  simp

/-- At most one worker has not ended. -/
theorem unfinished_unique (h : Controlled r s) {j k : Nat}
    {first second : Worker} (hfirst : s.workers[j]? = some first)
    (hsecond : s.workers[k]? = some second) (hj : r.ended first = false)
    (hk : r.ended second = false) : j = k := by
  rcases h.unfinished j first hfirst hj with hj | ⟨t, ht⟩ <;>
    rcases h.unfinished k second hsecond hk with hk | ⟨t', ht'⟩
  · rw [hj, Option.some.injEq] at hk
    exact hk
  · rw [h.spawning t' (Point.holds_of_assigns ht').2] at hj
    contradiction
  · rw [h.spawning t (Point.holds_of_assigns ht).2] at hk
    contradiction
  · have hsame := h.holder_unique (Point.holds_of_assigns ht).1
      (Point.holds_of_assigns ht').1
    rw [hsame, ht', Option.some.injEq] at ht
    exact ht.symm

/-- When a start call is about to clear `mStop` every worker has ended. -/
theorem ended_of_store (h : Controlled r s) {t : Thread}
    (ht : s.controllers t = .starting .store) {worker : Worker}
    (hworker : worker ∈ s.workers) : r.ended worker = true := by
  obtain ⟨k, hk⟩ := List.mem_iff_getElem?.mp hworker
  have hheld : (s.controllers t).holds = true := by
    rw [ht]
    rfl
  rw [← Bool.not_eq_false]
  intro hended
  rcases h.unfinished k worker hk hended with hmFut | ⟨other, hother⟩
  · rw [h.spawning t (by rw [ht]; rfl)] at hmFut
    contradiction
  · have hsame := h.holder_unique (Point.holds_of_assigns hother).1 hheld
    rw [hsame, ht] at hother
    contradiction

variable [DecidableEq Thread] {t : Thread} {p : Point}

/-- A step of a controller: its own point agrees with the mutex and the
future, and whoever else had locked the mutex still has. -/
theorem controller (h : Controlled r s)
    (hcontrollers : after.controllers = Function.update s.controllers t p)
    (hworkers : after.workers = s.workers)
    (hholds : p.holds = true ↔ after.mutex = some (.controller t))
    (hmutex : ∀ who, who ≠ .controller t →
      (after.mutex = some who ↔ s.mutex = some who))
    (hspawning : p.spawning = true → after.mFut = none)
    (hothers : ∀ other, other ≠ t → (s.controllers other).spawning = true →
      after.mFut = none)
    (hunfinished : ∀ k, s.ended r k = false →
      s.mFut = some k ∨ (s.controllers t).assigns = some k →
        after.mFut = some k ∨ p.assigns = some k) :
    Controlled r after := by
  constructor
  case controllers =>
    intro other
    by_cases heq : other = t
    · rw [hcontrollers, heq, Function.update_self]
      exact hholds
    · rw [hcontrollers, Function.update_of_ne heq,
        hmutex (.controller other) (by simpa using heq)]
      exact h.controllers other
  case workers =>
    intro k worker hworker
    rw [hworkers] at hworker
    rw [hmutex (.worker k) (by simp)]
    exact h.workers k worker hworker
  case spawning =>
    intro other hother
    by_cases heq : other = t
    · rw [hcontrollers, heq, Function.update_self] at hother
      exact hspawning hother
    · rw [hcontrollers, Function.update_of_ne heq] at hother
      exact hothers other heq hother
  case unfinished =>
    intro k worker hworker hended
    rw [hworkers] at hworker
    have hleft : s.ended r k = false := by
      rw [Control.ended, hworker, Option.any_some, hended]
    have hmine : s.mFut = some k ∨ (s.controllers t).assigns = some k →
        after.mFut = some k ∨
          ∃ t, (after.controllers t).assigns = some k := by
      intro hbefore
      apply (hunfinished k hleft hbefore).imp_right
      intro hassigns
      refine ⟨t, ?_⟩
      rw [hcontrollers, Function.update_self, hassigns]
    rcases h.unfinished k worker hworker hended with hk | ⟨other, hother⟩
    · exact hmine (Or.inl hk)
    · by_cases heq : other = t
      · rw [heq] at hother
        exact hmine (Or.inr hother)
      · refine Or.inr ⟨other, ?_⟩
        rw [hcontrollers, Function.update_of_ne heq, hother]

section Mutex

variable {before : Point} (h : Controlled r s) (ht : s.controllers t = before)
  (hcontrollers : after.controllers = Function.update s.controllers t p)
  (hworkers : after.workers = s.workers) (hmFut : after.mFut = s.mFut)
  (hspawning : p.spawning = false ∨ s.mFut = none)
  (hassigns : before.assigns = none)
include h ht hcontrollers hworkers hmFut hspawning hassigns

/-- A step that leaves the future alone, at whatever it does to the mutex. -/
theorem sameFuture (hholds : p.holds = true ↔ after.mutex = some (.controller t))
    (hmutex : ∀ who, who ≠ .controller t →
      (after.mutex = some who ↔ s.mutex = some who)) : Controlled r after := by
  apply h.controller hcontrollers hworkers hholds hmutex
  · intro hnext
    rw [hmFut]
    exact hspawning.resolve_left (by simp [hnext])
  · intro other _ hother
    rw [hmFut]
    exact h.spawning other hother
  · intro k _ hbefore
    rw [ht, hassigns] at hbefore
    rw [hmFut]
    exact Or.inl (hbefore.resolve_right (by simp))

theorem move (hmutex : after.mutex = s.mutex)
    (hholds : p.holds = before.holds) : Controlled r after := by
  apply h.sameFuture ht hcontrollers hworkers hmFut hspawning hassigns
  · rw [hholds, hmutex, ← ht]
    exact h.controllers t
  · intro who _
    rw [hmutex]

theorem lock (hmutex : after.mutex = some (.controller t))
    (hfree : s.mutex = none) (hholds : p.holds = true) : Controlled r after := by
  apply h.sameFuture ht hcontrollers hworkers hmFut hspawning hassigns
  · simp [hholds, hmutex]
  · intro who hne
    simpa [hmutex, hfree] using hne.symm

theorem unlock (hmutex : after.mutex = none)
    (hheld : before.holds = true) (hholds : p.holds = false) :
    Controlled r after := by
  have hbefore : s.mutex = some (.controller t) := by
    rw [← h.controllers t, ht, hheld]
  apply h.sameFuture ht hcontrollers hworkers hmFut hspawning hassigns
  · simp [hholds, hmutex]
  · intro who hne
    simpa [hmutex, hbefore] using hne.symm

end Mutex

/-- The new worker's future is assigned. -/
theorem assign (h : Controlled r s) {k : Nat}
    (ht : s.controllers t = .starting (.assign k)) :
    Controlled r { s.goto t (.starting (.unlock true)) with mFut := some k } := by
  have hheld : (s.controllers t).holds = true := by
    rw [ht]
    rfl
  refine h.controller rfl rfl ?_ (fun _ _ => Iff.rfl) (by simp [Point.spawning])
    ?_ ?_
  · exact iff_of_true rfl ((h.controllers t).mp hheld)
  · intro other hne hother
    exact absurd (h.holder_unique (Point.holds_of_spawning hother) hheld) hne
  · intro j _ hbefore
    rw [h.spawning t (by rw [ht]; rfl), ht] at hbefore
    exact Or.inl (hbefore.resolve_left (by simp))

/-- `get` leaves the future invalid once its worker has ended. -/
theorem get (h : Controlled r s) {k : Nat}
    (ht : s.controllers t = .stopping .get) (hmFut : s.mFut = some k)
    (hended : s.ended r k = true) :
    Controlled r { s.goto t (.stopping .returns) with mFut := none } := by
  refine h.controller rfl rfl ?_ (fun _ _ => Iff.rfl) (by simp [Point.spawning])
    (fun _ _ _ => rfl) ?_
  · have hfree := h.controllers t
    rw [ht] at hfree
    exact hfree
  · intro j hleft hbefore
    rw [ht, hmFut, Option.some.injEq] at hbefore
    rcases hbefore with rfl | hassigns
    · rw [hended] at hleft
      contradiction
    · contradiction

omit [DecidableEq Thread] in
/-- A step of a worker that has not ended. -/
theorem work (h : Controlled r s) {k : Nat} {worker next : Worker}
    {mutex : Option (Holder Thread)} (hworker : s.workers[k]? = some worker)
    (hended : r.ended worker = false)
    (hmutex : handOver s.mutex (.worker k) (r.holds worker) (r.holds next) =
      some mutex) :
    Controlled r { s with mutex := mutex, workers := s.workers.set k next } := by
  obtain ⟨hmine, hothers⟩ := handOver_cases hmutex (h.workers k worker hworker)
  have hk : k < s.workers.length := (List.getElem?_eq_some_iff.mp hworker).1
  constructor
  case controllers =>
    intro t
    rw [hothers (.controller t) (by simp)]
    exact h.controllers t
  case workers =>
    intro j other hother
    by_cases heq : j = k
    · rw [heq, List.getElem?_set_self hk, Option.some.injEq] at hother
      rw [heq, ← hother]
      exact hmine
    · rw [List.getElem?_set_ne (Ne.symm heq)] at hother
      rw [hothers (.worker j) (by simpa using heq)]
      exact h.workers j other hother
  case spawning => exact h.spawning
  case unfinished =>
    intro j other hother hleft
    by_cases heq : j = k
    · rw [heq]
      exact h.unfinished k worker hworker hended
    · rw [List.getElem?_set_ne (Ne.symm heq)] at hother
      exact h.unfinished j other hother hleft

omit [DecidableEq Thread] in
/-- The workers after a notification. -/
theorem notify (h : Controlled r s) {workers : List Worker}
    (hholds : workers.map r.holds = s.workers.map r.holds)
    (hended : workers.map r.ended = s.workers.map r.ended) :
    Controlled r { s with workers := workers } := by
  have hsame : ∀ {view : Worker → Bool}, workers.map view = s.workers.map view →
      ∀ {k : Nat} {worker : Worker}, workers[k]? = some worker →
        ∃ before, s.workers[k]? = some before ∧ view before = view worker := by
    intro view hview k worker hworker
    have hk := congrArg (fun views => views[k]?) hview
    simp only [List.getElem?_map, hworker, Option.map_some] at hk
    exact Option.map_eq_some_iff.mp hk.symm
  constructor
  case controllers => exact h.controllers
  case workers =>
    intro k worker hworker
    obtain ⟨before, hbefore, hview⟩ := hsame hholds hworker
    rw [← hview]
    exact h.workers k before hbefore
  case spawning => exact h.spawning
  case unfinished =>
    intro k worker hworker hleft
    obtain ⟨before, hbefore, hview⟩ := hsame hended hworker
    rw [← hview] at hleft
    exact h.unfinished k before hbefore hleft

/-- A start call that has found the future invalid spawns a worker. -/
theorem spawn (h : Controlled r s)
    (ht : s.controllers t = .starting .async) :
    Controlled r { s.goto t (.starting (.assign s.workers.length)) with
      workers := s.workers ++ [r.spawned] } := by
  have hheld : s.mutex = some (.controller t) := by
    apply (h.controllers t).mp
    rw [ht]
    rfl
  have hmoved : Controlled r (s.goto t (.starting (.assign s.workers.length))) := by
    have hmFut : s.mFut = none := h.spawning t (by rw [ht]; rfl)
    exact h.move ht rfl rfl rfl (Or.inr hmFut) rfl rfl rfl
  have hcases : ∀ {k : Nat} {worker : Worker}, (s.workers ++ [r.spawned])[k]? = some worker →
      s.workers[k]? = some worker ∨ k = s.workers.length ∧ r.spawned = worker := by
    intro k worker hworker
    rw [List.getElem?_append] at hworker
    by_cases hk : k < s.workers.length
    · rw [if_pos hk] at hworker
      exact Or.inl hworker
    · rw [if_neg hk, List.getElem?_singleton] at hworker
      by_cases hzero : k - s.workers.length = 0
      · rw [if_pos hzero, Option.some.injEq] at hworker
        exact Or.inr ⟨by omega, hworker⟩
      · rw [if_neg hzero] at hworker
        contradiction
  constructor
  case controllers => exact hmoved.controllers
  case workers =>
    intro k worker hworker
    rcases hcases hworker with hold | ⟨_, rfl⟩
    · exact hmoved.workers k worker hold
    · simp [r.spawned_holds, Control.goto, hheld]
  case spawning => exact hmoved.spawning
  case unfinished =>
    intro k worker hworker hleft
    rcases hcases hworker with hold | ⟨hlast, _⟩
    · exact hmoved.unfinished k worker hold hleft
    · exact Or.inr ⟨t, by simp [Control.goto, Point.assigns, hlast]⟩

/-- A step of a start call. -/
theorem startCall (h : Controlled r s) {caught : Bool} {os : Answer}
    {point : StartPoint} (ht : s.controllers t = .starting point)
    (hcall : Control.startCall r caught s t os point = some after) :
    Controlled r after := by
  cases Control.startCall_step hcall with
  | lock hfree =>
      exact h.lock ht rfl rfl rfl (Or.inl rfl) rfl rfl hfree rfl
  | running k _ =>
      exact h.move ht rfl rfl rfl (Or.inl rfl) rfl rfl rfl
  | invalid hmFut =>
      exact h.move ht rfl rfl rfl (Or.inr hmFut) rfl rfl rfl
  | store =>
      have hmFut : s.mFut = none := h.spawning t (by rw [ht]; rfl)
      exact h.move ht rfl rfl rfl (Or.inr hmFut) rfl rfl rfl
  | spawned _ => exact h.spawn ht
  | threw _ =>
      exact h.move ht rfl rfl rfl (Or.inl rfl) rfl rfl rfl
  | assign k => exact h.assign ht
  | unlock result =>
      exact h.unlock ht rfl rfl rfl (Or.inl rfl) rfl rfl rfl rfl
  | returns result =>
      exact h.move ht rfl rfl rfl (Or.inl rfl) rfl rfl rfl

/-- A step of a stop call. -/
theorem stopCall (h : Controlled r s) {os : Answer} {point : StopPoint}
    (ht : s.controllers t = .stopping point)
    (hcall : Control.stopCall r s t os point = some after) :
    Controlled r after := by
  cases Control.stopCall_step hcall with
  | lock hfree =>
      exact h.lock ht rfl rfl rfl (Or.inl rfl) rfl rfl hfree rfl
  | unlock =>
      exact h.unlock ht rfl rfl rfl (Or.inl rfl) rfl rfl rfl rfl
  | notify workers hnotify =>
      have hmoved : Controlled r (s.goto t (.stopping .valid)) :=
        h.move ht rfl rfl rfl (Or.inl rfl) rfl rfl rfl
      exact hmoved.notify (r.notify_holds _ _ _ hnotify)
        (r.notify_ended _ _ _ hnotify)
  | get k hmFut hended => exact h.get ht hmFut hended
  | _ =>
      exact h.move ht rfl rfl rfl (Or.inl rfl) rfl rfl rfl

omit [DecidableEq Thread] in
theorem workerCall (h : Controlled r s) {k : Nat} {choice : Choice}
    (hcall : Control.workerCall r s k choice = some after) :
    Controlled r after := by
  obtain ⟨worker, next, mutex, hworker, hadvance, hmutex, rfl⟩ :=
    Control.workerCall_cases hcall
  apply h.work hworker _ hmutex
  cases hended : r.ended worker with
  | false => rfl
  | true =>
      rw [r.ended_stays _ _ _ hended] at hadvance
      contradiction

/-- Step lemma: whatever party takes it, a step keeps the mutex exclusive and
the workers one at a time. -/
theorem step (h : Controlled r s) {caught : Bool}
    {action : ControlStep Thread Choice}
    (hstep : Control.step r caught s action = some after) :
    Controlled r after := by
  rcases Control.step_cases hstep with ⟨t, _, ht, rfl⟩ | ⟨t, _, ht, rfl⟩ |
    ⟨t, os, point, _, ht, hcall⟩ | ⟨t, os, point, _, ht, hcall⟩ |
    ⟨k, choice, _, hcall⟩
  · exact h.move ht rfl rfl rfl (Or.inl rfl) rfl rfl rfl
  · exact h.move ht rfl rfl rfl (Or.inl rfl) rfl rfl rfl
  · exact h.startCall ht hcall
  · exact h.stopCall ht hcall
  · exact h.workerCall hcall

end Controlled

end Saigon
