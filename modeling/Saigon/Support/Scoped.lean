/-
Code with exceptions whose scopes are left through guards.  A discipline says
what a guard is and whether it acts when its scope is left.  Two disciplines
that agree about one guard make every code run alike, however its scopes and
exceptions are nested, as long as not too many exceptions are in flight.
-/
import Mathlib.Data.List.Basic
import Mathlib.Data.Int.Order.Basic

namespace Scoped

universe u v w x

/-- Guards are counted from the innermost.  The copy of the function of a new
guard may throw. -/
inductive Code (P : Type u) (Label : Type v) where
  | skip
  | act (label : Label)
  | throwing
  | seq (first second : Code P Label)
  | attempt (body handler : Code P Label)
  | guarded (policy : P) (copyFails : Bool) (exitFunction body : Code P Label)
  | release (guard : Nat)

/-- How code is left; a second exception that leaves a guard terminates the
program. -/
inductive Outcome where
  | completed
  | thrown
  | terminated
deriving DecidableEq

/-- What a guard of each policy is, made at a count of the exceptions in
flight, and whether it acts at a count and as its scope is left. -/
structure Discipline (P : Type u) (G : Type w) where
  make : P → Int → G
  release : G → G
  shouldExecute : G → Int → Bool → Bool

structure State (G : Type w) (Label : Type v) where
  uncaught : Int
  guards : List G
  trace : List Label

variable {P : Type u} {Label : Type v} {G : Type w} {H : Type x}

/-- A scope is left: its guard acts, or does not. -/
def leave (disc : Discipline P G)
    (exitFunction : State G Label → Outcome × State G Label)
    (outcome : Outcome) (s : State G Label) : Outcome × State G Label :=
  match outcome, s.guards with
  | .terminated, _ => (.terminated, s)
  | outcome, [] => (outcome, s)
  | outcome, guard :: guards =>
      let s := { s with guards := guards }
      if disc.shouldExecute guard s.uncaught (outcome = .thrown) then
        match outcome, exitFunction s with
        | .thrown, (.thrown, s) => (.terminated, s)
        | .thrown, (.completed, s) => (.thrown, s)
        | _, result => result
      else (outcome, s)

def run (disc : Discipline P G) :
    Code P Label → State G Label → Outcome × State G Label
  | .skip, s => (.completed, s)
  | .act label, s => (.completed, { s with trace := s.trace ++ [label] })
  | .throwing, s => (.thrown, { s with uncaught := s.uncaught + 1 })
  | .seq first second, s =>
      match run disc first s with
      | (.completed, s) => run disc second s
      | other => other
  | .attempt body handler, s =>
      match run disc body s with
      | (.thrown, s) => run disc handler { s with uncaught := s.uncaught - 1 }
      | other => other
  | .guarded policy copyFails exitFunction body, s =>
      let s := { s with guards := disc.make policy s.uncaught :: s.guards }
      let (outcome, s) :=
        if copyFails then (.thrown, { s with uncaught := s.uncaught + 1 })
        else run disc body s
      leave disc (run disc exitFunction) outcome s
  | .release guard, s =>
      (.completed, { s with guards := s.guards.modify guard disc.release })

/-- How many exceptions the nesting of the code allows in flight at once. -/
def Code.depth : Code P Label → Nat
  | .skip => 0
  | .act _ => 0
  | .throwing => 1
  | .seq first second => max first.depth second.depth
  | .attempt body handler => max body.depth handler.depth
  | .guarded _ _ exitFunction body => max (exitFunction.depth + 1) body.depth
  | .release _ => 0

/-! ### Two disciplines -/

/-- Two disciplines that agree about a guard made at any count below `limit`:
when its scope is left, one more exception is in flight exactly if it is left
by an exception. -/
structure Agree (A : Discipline P G) (B : Discipline P H)
    (rel : Int → G → H → Prop) (limit : Int) : Prop where
  make : ∀ policy count, 0 ≤ count → count < limit →
    rel count (A.make policy count) (B.make policy count)
  release : ∀ count guard other, rel count guard other →
    rel count (A.release guard) (B.release other)
  completed : ∀ count guard other, rel count guard other →
    A.shouldExecute guard count false = B.shouldExecute other count false
  thrown : ∀ count guard other, rel count guard other →
    A.shouldExecute guard (count + 1) true =
      B.shouldExecute other (count + 1) true

/-- Guards that are alike one by one, with the counts they were made at. -/
def Alike (rel : Int → G → H → Prop) : List Int → List G → List H → Prop
  | [], [], [] => True
  | count :: counts, guard :: guards, other :: others =>
      rel count guard other ∧ Alike rel counts guards others
  | _, _, _ => False

variable {A : Discipline P G} {B : Discipline P H} {rel : Int → G → H → Prop}
  {limit : Int}

theorem Alike.modify (hagree : Agree A B rel limit) {counts : List Int}
    {guards : List G} {others : List H} (halike : Alike rel counts guards others)
    (i : Nat) :
    Alike rel counts (guards.modify i A.release) (others.modify i B.release) := by
  induction counts generalizing guards others i with
  | nil =>
      cases guards <;> cases others <;> first | exact halike.elim | skip
      rw [List.modify_nil, List.modify_nil]
      exact halike
  | cons count counts ih =>
      cases guards <;> cases others <;> first | exact halike.elim | skip
      obtain ⟨hhead, htail⟩ := halike
      cases i with
      | zero => exact ⟨hagree.release _ _ _ hhead, htail⟩
      | succ i => exact ⟨hhead, ih htail i⟩

/-- States with the same count and trace, and guards that are alike. -/
structure Related (rel : Int → G → H → Prop) (counts : List Int)
    (s : State G Label) (s' : State H Label) : Prop where
  uncaught : s.uncaught = s'.uncaught
  trace : s.trace = s'.trace
  guards : Alike rel counts s.guards s'.guards

/-- Runs that end alike, with the count they began with, or one more if an
exception leaves them. -/
structure EndAlike (rel : Int → G → H → Prop) (counts : List Int) (count : Int)
    (r : Outcome × State G Label) (r' : Outcome × State H Label) : Prop where
  outcome : r.1 = r'.1
  trace : r.2.trace = r'.2.trace
  related : r.1 ≠ .terminated → Related rel counts r.2 r'.2
  completed : r.1 = .completed → r.2.uncaught = count
  thrown : r.1 = .thrown → r.2.uncaught = count + 1

namespace EndAlike

variable {counts : List Int} {count : Int} {s : State G Label}
  {s' : State H Label}

theorem of_completed (hs : Related rel counts s s') (hcount : s.uncaught = count) :
    EndAlike rel counts count (.completed, s) (.completed, s') :=
  ⟨rfl, hs.trace, fun _ => hs, fun _ => hcount, Outcome.noConfusion⟩

theorem of_thrown (hs : Related rel counts s s') (hcount : s.uncaught = count + 1) :
    EndAlike rel counts count (.thrown, s) (.thrown, s') :=
  ⟨rfl, hs.trace, fun _ => hs, Outcome.noConfusion, fun _ => hcount⟩

theorem of_terminated (htrace : s.trace = s'.trace) :
    EndAlike rel counts count (.terminated, s) (.terminated, s') :=
  ⟨rfl, htrace, fun hne => absurd rfl hne, Outcome.noConfusion,
    Outcome.noConfusion⟩

end EndAlike

/-- A scope is left alike, when its guards are alike and the function of them
runs alike. -/
theorem leave_alike (hagree : Agree A B rel limit) {counts : List Int}
    {count : Int} {f : State G Label → Outcome × State G Label}
    {f' : State H Label → Outcome × State H Label}
    (hf : ∀ s s', Related rel counts s s' → s.uncaught ≤ count + 1 →
      0 ≤ s.uncaught → EndAlike rel counts s.uncaught (f s) (f' s'))
    (hcount : 0 ≤ count) {r : Outcome × State G Label}
    {r' : Outcome × State H Label}
    (hr : EndAlike rel (count :: counts) count r r') :
    EndAlike rel counts count (leave A f r.1 r.2) (leave B f' r'.1 r'.2) := by
  obtain ⟨outcome, s⟩ := r
  obtain ⟨outcome', s'⟩ := r'
  obtain rfl : outcome = outcome' := hr.outcome
  cases outcome with
  | terminated => exact .of_terminated hr.trace
  | completed =>
      obtain ⟨huncaught, htrace, hguards⟩ := hr.related Outcome.noConfusion
      have hhere : s.uncaught = count := hr.completed rfl
      obtain ⟨uncaught, guards, trace⟩ := s
      obtain ⟨uncaught', others, trace'⟩ := s'
      simp only at huncaught htrace hguards hhere
      subst huncaught htrace hhere
      cases guards <;> cases others <;> first | exact hguards.elim | skip
      next guard guards other others =>
        have hsame := hagree.completed _ _ _ hguards.1
        have hrelated : Related rel counts ⟨uncaught, guards, trace⟩
            ⟨uncaught, others, trace⟩ :=
          ⟨rfl, rfl, hguards.2⟩
        simp only [leave, reduceCtorEq, decide_false, ← hsame]
        split
        · have hle : uncaught ≤ uncaught + 1 := by omega
          exact hf _ _ hrelated hle hcount
        · exact .of_completed hrelated rfl
  | thrown =>
      obtain ⟨huncaught, htrace, hguards⟩ := hr.related Outcome.noConfusion
      have hhere : s.uncaught = count + 1 := hr.thrown rfl
      obtain ⟨uncaught, guards, trace⟩ := s
      obtain ⟨uncaught', others, trace'⟩ := s'
      simp only at huncaught htrace hguards hhere
      subst huncaught htrace hhere
      cases guards <;> cases others <;> first | exact hguards.elim | skip
      next guard guards other others =>
        have hsame := hagree.thrown _ _ _ hguards.1
        have hrelated : Related rel counts ⟨count + 1, guards, trace⟩
            ⟨count + 1, others, trace⟩ :=
          ⟨rfl, rfl, hguards.2⟩
        simp only [leave, decide_true, ← hsame]
        split
        · -- the function runs while the exception is in flight
          have hpos : 0 ≤ count + 1 := by omega
          have hend := hf _ _ hrelated (Int.le_refl _) hpos
          revert hend
          generalize f _ = e
          generalize f' _ = e'
          obtain ⟨outcome, after⟩ := e
          obtain ⟨outcome', after'⟩ := e'
          intro hend
          obtain rfl : outcome = outcome' := hend.outcome
          cases outcome with
          | completed =>
              exact .of_thrown (hend.related Outcome.noConfusion) (hend.completed rfl)
          | thrown => exact .of_terminated hend.trace
          | terminated => exact .of_terminated hend.trace
        · exact .of_thrown hrelated rfl

/-- Code runs alike under two disciplines that agree.  The induction is on the
code, with the counts its enclosing guards were made at. -/
theorem run_alike (hagree : Agree A B rel limit) (code : Code P Label)
    {counts : List Int} {s : State G Label} {s' : State H Label}
    (hs : Related rel counts s s') (hcount : 0 ≤ s.uncaught)
    (hlimit : s.uncaught + code.depth ≤ limit) :
    EndAlike rel counts s.uncaught (run A code s) (run B code s') := by
  induction code generalizing counts s s' with
  | skip => exact .of_completed hs rfl
  | act label =>
      have htrace : s.trace ++ [label] = s'.trace ++ [label] := by rw [hs.trace]
      exact .of_completed ⟨hs.uncaught, htrace, hs.guards⟩ rfl
  | throwing =>
      have huncaught : s.uncaught + 1 = s'.uncaught + 1 := by rw [hs.uncaught]
      exact .of_thrown ⟨huncaught, hs.trace, hs.guards⟩ rfl
  | release guard =>
      exact .of_completed ⟨hs.uncaught, hs.trace, hs.guards.modify hagree guard⟩ rfl
  | seq first second ihFirst ihSecond =>
      simp only [Code.depth] at hlimit
      have hfirst := ihFirst hs hcount (by omega)
      rw [run, run]
      generalize run A first s = r at hfirst
      generalize run B first s' = r' at hfirst
      obtain ⟨outcome, middle⟩ := r
      obtain ⟨outcome', middle'⟩ := r'
      obtain rfl : outcome = outcome' := hfirst.outcome
      cases outcome with
      | completed =>
          have hmiddle : middle.uncaught = s.uncaught := hfirst.completed rfl
          have hrelated : Related rel counts middle middle' :=
            hfirst.related Outcome.noConfusion
          have hsecond := ihSecond hrelated (by omega) (by omega)
          rw [hmiddle] at hsecond
          exact hsecond
      | thrown => exact hfirst
      | terminated => exact hfirst
  | attempt body handler ihBody ihHandler =>
      simp only [Code.depth] at hlimit
      have hbody := ihBody hs hcount (by omega)
      rw [run, run]
      generalize run A body s = r at hbody
      generalize run B body s' = r' at hbody
      obtain ⟨outcome, middle⟩ := r
      obtain ⟨outcome', middle'⟩ := r'
      obtain rfl : outcome = outcome' := hbody.outcome
      cases outcome with
      | completed => exact hbody
      | terminated => exact hbody
      | thrown =>
          have hmiddle : middle.uncaught = s.uncaught + 1 := hbody.thrown rfl
          obtain ⟨huncaught, htrace, hguards⟩ := hbody.related Outcome.noConfusion
          have hcaught : middle.uncaught - 1 = s.uncaught := by omega
          have hcaught' : middle.uncaught - 1 = middle'.uncaught - 1 := by
            rw [huncaught]
          have hrelated : Related rel counts
              { middle with uncaught := middle.uncaught - 1 }
              { middle' with uncaught := middle'.uncaught - 1 } :=
            ⟨hcaught', htrace, hguards⟩
          have hhandler := ihHandler hrelated (by simp only; omega)
            (by simp only; omega)
          simp only [hcaught] at hhandler ⊢
          exact hhandler
  | guarded policy copyFails exitFunction body ihExit ihBody =>
      simp only [Code.depth] at hlimit
      have hmake := hagree.make policy s.uncaught hcount (by omega)
      have hpushed : Related rel (s.uncaught :: counts)
          { s with guards := A.make policy s.uncaught :: s.guards }
          { s' with guards := B.make policy s'.uncaught :: s'.guards } := by
        refine ⟨hs.uncaught, hs.trace, ?_, hs.guards⟩
        rw [← hs.uncaught]
        exact hmake
      rw [run, run]
      apply leave_alike hagree _ hcount
      · cases copyFails with
        | true =>
            have huncaught : s.uncaught + 1 = s'.uncaught + 1 := by rw [hs.uncaught]
            exact .of_thrown ⟨huncaught, hpushed.trace, hpushed.guards⟩ rfl
        | false => exact ihBody hpushed hcount (by simp only; omega)
      · intro after after' hafter hle hpos
        exact ihExit hafter hpos (by omega)

end Scoped
