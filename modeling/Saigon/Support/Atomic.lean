/-
Objects whose calls take effect in one step.  A thread calls, its call takes
effect at some later step, and after that the thread returns with the result:
the machine that linearizability compares an object with.
-/
import Saigon.Support.Threads
import Saigon.Support.Simulation

namespace Atomic

universe u v w x

variable {Thread : Type u} {S : Type v} {Op : Type w} {R : Type x}

/-- Where a thread is with its call. -/
inductive Phase (Op : Type w) (R : Type x) where
  | idle
  | called (op : Op)
  | returning (result : R)

inductive Turn (Op : Type w) where
  | call (op : Op)
  | commit
  | finish

/-- What a client sees of a thread. -/
inductive Event (Op : Type w) (R : Type x) where
  | called (op : Op)
  | returned (result : R)
deriving DecidableEq

/-- A turn of a thread, by its phase. -/
def act (perform : S → Op → Option (R × S)) (state : S) :
    Phase Op R → Turn Op → Option (S × Phase Op R)
  | .idle, .call op => some (state, .called op)
  | .called op, .commit =>
      (perform state op).map fun answer => (answer.2, .returning answer.1)
  | .returning _, .finish => some (state, .idle)
  | _, _ => none

def shows : Phase Op R → Turn Op → Option (Event Op R)
  | .idle, .call op => some (.called op)
  | .returning result, .finish => some (.returned result)
  | _, _ => none

/-- The calls and the results, each with its thread. -/
def event (s : Threads Thread S (Phase Op R)) (turn : Thread × Turn Op) :
    Option (Thread × Event Op R) :=
  (shows (s.locals turn.1) turn.2).map fun seen => (turn.1, seen)

/-- What a step of a thread may be to the object: nothing, or the effect of
its call. -/
inductive Commits (perform : S → Op → Option (R × S)) (state : S) :
    Phase Op R → S → Phase Op R → Prop
  | stutter (phase : Phase Op R) : Commits perform state phase state phase
  | commit {op : Op} {result : R} {after : S}
      (hperform : perform state op = some (result, after)) :
      Commits perform state (.called op) after (.returning result)

variable [DecidableEq Thread] {perform : S → Op → Option (R × S)}
  {rel : Threads Thread S (Phase Op R) → Prop} {shared after : S}
  {locals : Thread → Phase Op R} {t : Thread}

theorem matches_of_commits {next : Phase Op R}
    (hcommits : Commits perform shared (locals t) after next)
    (hrel : rel ⟨after, Function.update locals t next⟩) :
    Runs.Matches (Threads.step (act perform)) event rel ⟨shared, locals⟩ [] := by
  generalize hphase : locals t = phase at hcommits
  cases hcommits with
  | stutter _ =>
      apply Runs.Matches.refl
      rw [← hphase, Function.update_eq_self] at hrel
      exact hrel
  | @commit op result _ hperform =>
      have hstep : Threads.step (act perform) ⟨shared, locals⟩ (t, .commit) =
          some ⟨after, Function.update locals t (.returning result)⟩ := by
        apply Threads.step_of_act
        simp [hphase, act, hperform]
      apply Runs.Matches.silent hstep _ hrel
      simp [event, shows, hphase]

theorem matches_call {op : Op} (hphase : locals t = .idle)
    (hrel : rel ⟨shared, Function.update locals t (.called op)⟩) :
    Runs.Matches (Threads.step (act perform)) event rel ⟨shared, locals⟩
      [(t, .called op)] := by
  have hstep : Threads.step (act perform) ⟨shared, locals⟩ (t, .call op) =
      some ⟨shared, Function.update locals t (.called op)⟩ := by
    apply Threads.step_of_act
    simp [hphase, act]
  have hsingle : Runs.Matches (Threads.step (act perform)) event rel
      ⟨shared, locals⟩ _ := Runs.Matches.single hstep hrel
  simpa [event, shows, hphase] using hsingle

theorem matches_finish {result : R} (hphase : locals t = .returning result)
    (hrel : rel ⟨shared, Function.update locals t .idle⟩) :
    Runs.Matches (Threads.step (act perform)) event rel ⟨shared, locals⟩
      [(t, .returned result)] := by
  have hstep : Threads.step (act perform) ⟨shared, locals⟩ (t, .finish) =
      some ⟨shared, Function.update locals t .idle⟩ := by
    apply Threads.step_of_act
    simp [hphase, act]
  have hsingle : Runs.Matches (Threads.step (act perform)) event rel
      ⟨shared, locals⟩ _ := Runs.Matches.single hstep hrel
  simpa [event, shows, hphase] using hsingle

end Atomic
