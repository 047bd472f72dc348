/-
Threads that take turns at shared state, one step of one thread at a time.  A
step reads and writes the shared state and the local state of its own thread.
What each thread needs of the shared state is proved for one thread beside any
other one, whatever their number.
-/
import Saigon.Support.Runs
import Mathlib.Logic.Function.Basic
import Mathlib.Logic.Relation

universe u v w x

/-- The shared state, and the local state of each thread. -/
structure Threads (Thread : Type u) (S : Type v) (L : Type w) where
  shared : S
  locals : Thread → L

namespace Threads

variable {Thread : Type u} {S : Type v} {L : Type w} {C : Type x}
  {act : S → L → C → Option (S × L)}

/-- One step of a thread; it may have a choice. -/
def step [DecidableEq Thread] (act : S → L → C → Option (S × L))
    (s : Threads Thread S L) (turn : Thread × C) :
    Option (Threads Thread S L) :=
  (act s.shared (s.locals turn.1) turn.2).map fun next =>
    ⟨next.1, Function.update s.locals turn.1 next.2⟩

theorem step_cases [DecidableEq Thread] {s after : Threads Thread S L}
    {t : Thread} {c : C} (hstep : step act s (t, c) = some after) :
    ∃ shared next, act s.shared (s.locals t) c = some (shared, next) ∧
      after = ⟨shared, Function.update s.locals t next⟩ := by
  obtain ⟨⟨shared, next⟩, hact, rfl⟩ := Option.map_eq_some_iff.mp hstep
  exact ⟨shared, next, hact, rfl⟩

theorem step_of_act [DecidableEq Thread] {s : Threads Thread S L} {t : Thread}
    {c : C} {shared : S} {next : L}
    (hact : act s.shared (s.locals t) c = some (shared, next)) :
    step act s (t, c) =
      some ⟨shared, Function.update s.locals t next⟩ := by
  rw [step, hact, Option.map_some]

/-- What one thread does while the others take no turn, with one choice
throughout. -/
def Alone (act : S → L → C → Option (S × L)) (c : C) :
    S × L → S × L → Prop :=
  Relation.ReflTransGen fun here next => act here.1 here.2 c = some next

/-- What a thread does alone is a run. -/
theorem Alone.run [DecidableEq Thread] {c : C} {s : Threads Thread S L}
    {t : Thread} {last : S × L} (halone : Alone act c (s.shared, s.locals t) last) :
    ∃ count, Runs.run (step act) s (List.replicate count (t, c)) =
      some ⟨last.1, Function.update s.locals t last.2⟩ := by
  generalize hhere : (s.shared, s.locals t) = here at halone
  induction halone using Relation.ReflTransGen.head_induction_on
    generalizing s with
  | refl =>
      refine ⟨0, ?_⟩
      rw [← hhere, Function.update_eq_self]
      rfl
  | head hact _ ih =>
      next middle _ =>
        subst hhere
        have hstep := step_of_act (s := s) (t := t) hact
        obtain ⟨count, hcount⟩ := ih
          (s := ⟨middle.1, Function.update s.locals t middle.2⟩)
          (by simp only [Function.update_self])
        refine ⟨count + 1, ?_⟩
        rw [List.replicate_succ, Runs.run_cons, hstep, Option.bind_some, hcount]
        simp only [Function.update_idem]

/-- The shared state is good, each thread is in order beside it, and any two
threads keep apart. -/
structure Modular (good : S → Prop) (inOrder : S → L → Prop)
    (apart : L → L → Prop) (s : Threads Thread S L) : Prop where
  good : good s.shared
  inOrder : ∀ t, inOrder s.shared (s.locals t)
  apart : ∀ t other, t ≠ other → apart (s.locals t) (s.locals other)

/-- What is to be shown of one thread, and of one other beside it: an admitted
step keeps the shared state good and its own thread in order, and leaves the
other one in order. -/
structure KeepsOrder (act : S → L → C → Option (S × L)) (ok : S → L → C → Prop)
    (good : S → Prop) (inOrder : S → L → Prop) (apart : L → L → Prop) :
    Prop where
  own : ∀ shared here c after next, good shared → inOrder shared here →
    ok shared here c → act shared here c = some (after, next) →
    good after ∧ inOrder after next
  other : ∀ shared here other c after next, good shared →
    inOrder shared here → inOrder shared other → apart here other →
    ok shared here c → act shared here c = some (after, next) →
    inOrder after other
  symm : ∀ here other, apart here other → apart other here

/-- Threads keep apart in pairs when one of them changes. -/
theorem pairwise_update [DecidableEq Thread] {apart : L → L → Prop}
    (hsymm : ∀ here other, apart here other → apart other here)
    {locals : Thread → L} {t : Thread} {next : L}
    (hlocals : ∀ first second, first ≠ second →
      apart (locals first) (locals second))
    (hnext : ∀ other, other ≠ t → apart next (locals other)) :
    ∀ first second, first ≠ second →
      apart (Function.update locals t next first)
        (Function.update locals t next second) := by
  intro first second hne
  by_cases hfirst : first = t
  · subst hfirst
    rw [Function.update_self, Function.update_of_ne (Ne.symm hne)]
    exact hnext second (Ne.symm hne)
  · by_cases hsecond : second = t
    · subst hsecond
      rw [Function.update_self, Function.update_of_ne hfirst]
      exact hsymm _ _ (hnext first hfirst)
    · rw [Function.update_of_ne hfirst, Function.update_of_ne hsecond]
      exact hlocals first second hne

/-- The thread-modular invariant rule.  An admitted step after which its thread
still keeps apart from the others keeps the invariant. -/
theorem Modular.step [DecidableEq Thread] {ok : S → L → C → Prop}
    {good : S → Prop} {inOrder : S → L → Prop} {apart : L → L → Prop}
    (hkeeps : KeepsOrder act ok good inOrder apart) {s after : Threads Thread S L}
    (hs : s.Modular good inOrder apart) {t : Thread} {c : C}
    (hok : ok s.shared (s.locals t) c)
    (hstep : Threads.step act s (t, c) = some after)
    (hapart : ∀ other, other ≠ t →
      apart (after.locals t) (s.locals other)) :
    after.Modular good inOrder apart := by
  obtain ⟨shared, next, hact, rfl⟩ := step_cases hstep
  obtain ⟨hgood, hown⟩ :=
    hkeeps.own _ _ _ _ _ hs.good (hs.inOrder t) hok hact
  simp only [Function.update_self] at hapart
  constructor
  case good => exact hgood
  case inOrder =>
    intro other
    by_cases heq : other = t
    · simp only [heq, Function.update_self]
      exact hown
    · simp only [Function.update_of_ne heq]
      exact hkeeps.other _ _ _ _ _ _ hs.good (hs.inOrder t) (hs.inOrder other)
        (hs.apart t other (Ne.symm heq)) hok hact
  case apart => exact pairwise_update hkeeps.symm hs.apart hapart

end Threads
