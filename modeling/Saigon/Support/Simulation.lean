/-
Forward simulation.  Some steps of a machine show an event, and the trace of a
run is what its steps show.  When each step of one machine is matched by steps
of another that show the same, every run of the first has the trace of some
run of the second.
-/
import Saigon.Support.Runs

namespace Runs

universe u v u' v' w

variable {S : Type u} {A : Type v} {S' : Type u'} {A' : Type v'} {E : Type w}
  {step : S → A → Option S} {step' : S' → A' → Option S'}

/-- What the steps of a run show, up to a step that is not enabled. -/
def trace (step : S → A → Option S) (event : S → A → Option E) :
    S → List A → List E
  | _, [] => []
  | state, action :: rest =>
      match step state action with
      | none => []
      | some next => (event state action).toList ++ trace step event next rest

theorem trace_cons_of_step {event : S → A → Option E} {state next : S}
    {action : A} (hstep : step state action = some next) (rest : List A) :
    trace step event state (action :: rest) =
      (event state action).toList ++ trace step event next rest := by
  simp only [trace, hstep]

theorem run_append {state middle : S} {first : List A}
    (hfirst : run step state first = some middle) (second : List A) :
    run step state (first ++ second) = run step middle second := by
  induction first generalizing state with
  | nil =>
      rw [run_nil, Option.some.injEq] at hfirst
      rw [hfirst, List.nil_append]
  | cons action rest ih =>
      rw [run_cons, Option.bind_eq_some_iff] at hfirst
      obtain ⟨next, hstep, hrest⟩ := hfirst
      rw [List.cons_append, run_cons, hstep, Option.bind_some]
      exact ih hrest

theorem trace_append {event : S → A → Option E} {state middle : S}
    {first : List A} (hfirst : run step state first = some middle)
    (second : List A) :
    trace step event state (first ++ second) =
      trace step event state first ++ trace step event middle second := by
  induction first generalizing state with
  | nil =>
      rw [run_nil, Option.some.injEq] at hfirst
      rw [hfirst, List.nil_append, trace, List.nil_append]
  | cons action rest ih =>
      rw [run_cons, Option.bind_eq_some_iff] at hfirst
      obtain ⟨next, hstep, hrest⟩ := hfirst
      rw [List.cons_append, trace_cons_of_step hstep, trace_cons_of_step hstep,
        ih hrest, List.append_assoc]

/-- The second machine has steps that lead to a state related by `rel` and show
`shown`. -/
def Matches (step' : S' → A' → Option S') (event' : S' → A' → Option E)
    (rel : S' → Prop) (state' : S') (shown : List E) : Prop :=
  ∃ actions next, run step' state' actions = some next ∧
    trace step' event' state' actions = shown ∧ rel next

namespace Matches

variable {event' : S' → A' → Option E} {rel : S' → Prop} {state' next' : S'}

/-- No step at all. -/
theorem refl (hrel : rel state') : Matches step' event' rel state' [] :=
  ⟨[], state', rfl, rfl, hrel⟩

/-- A single step. -/
theorem single {action : A'} (hstep : step' state' action = some next')
    (hrel : rel next') :
    Matches step' event' rel state' (event' state' action).toList := by
  refine ⟨[action], next', ?_, ?_, hrel⟩
  · rw [run_cons, hstep]
    rfl
  · rw [trace_cons_of_step hstep, trace, List.append_nil]

/-- A step that shows nothing. -/
theorem silent {action : A'} (hstep : step' state' action = some next')
    (hevent : event' state' action = none) (hrel : rel next') :
    Matches step' event' rel state' [] := by
  have hsingle : Matches step' event' rel state' _ := single hstep hrel
  rw [hevent] at hsingle
  exact hsingle

end Matches

/-- The simulation rule: the traces of admitted runs are traces of the second
machine. -/
theorem matches_of_simulation {event : S → A → Option E}
    {event' : S' → A' → Option E} {rel : S → S' → Prop} {ok : S → A → Prop}
    (hsim : ∀ state state' action next, rel state state' → ok state action →
      step state action = some next →
      Matches step' event' (rel next) state' (event state action).toList)
    {state last : S} {state' : S'} {actions : List A}
    (hrel : rel state state') (hok : EveryStep step ok state actions)
    (hrun : run step state actions = some last) :
    Matches step' event' (rel last) state' (trace step event state actions) := by
  induction actions generalizing state state' with
  | nil =>
      rw [run_nil, Option.some.injEq] at hrun
      exact Matches.refl (hrun ▸ hrel)
  | cons action rest ih =>
      rw [run_cons, Option.bind_eq_some_iff] at hrun
      obtain ⟨next, hstep, hrest⟩ := hrun
      obtain ⟨first, middle, hfirst, hshown, hmiddle⟩ :=
        hsim state state' action next hrel hok.1 hstep
      obtain ⟨second, final, hsecond, hshown', hfinal⟩ :=
        ih hmiddle (hok.2 next hstep) hrest
      refine ⟨first ++ second, final, ?_, ?_, hfinal⟩
      · rw [run_append hfirst, hsecond]
      · rw [trace_append hfirst, hshown, hshown', trace_cons_of_step hstep]

/-- A relation that some state of the second machine stands in is kept. -/
theorem exists_rel_of_simulation {event : S → A → Option E}
    {event' : S' → A' → Option E} {rel : S → S' → Prop} {ok : S → A → Prop}
    (hsim : ∀ state state' action next, rel state state' → ok state action →
      step state action = some next →
      Matches step' event' (rel next) state' (event state action).toList)
    {origin reached : S} {origin' : S'} (hrel : rel origin origin')
    (hreached : Reachable step ok origin reached) :
    ∃ reached', rel reached reached' := by
  have hkeep : ∀ state action next, (∃ state', rel state state') →
      ok state action → step state action = some next →
      ∃ next', rel next next' := by
    rintro state action next ⟨state', hstate⟩ hok hstep
    obtain ⟨_, next', _, _, hnext⟩ := hsim state state' action next hstate hok hstep
    exact ⟨next', hnext⟩
  exact Reachable.invariant hkeep ⟨origin', hrel⟩ hreached

/-! ### Refinement mappings -/

/-- No step of the second machine, or the admitted step given. -/
def Performs (step' : S' → A' → Option S') (ok' : S' → A' → Prop)
    (state' next' : S') : Option A' → Prop
  | none => next' = state'
  | some action' => ok' state' action' ∧ step' state' action' = some next'

/-- The refinement rule.  When each admitted step performs its effect on what
the state stands for, an admitted run is defined, and its effects are an
admitted run of the second machine. -/
theorem run_effects_of_refinement {stands : S → S'} {inv : S → Prop}
    {ok : S → A → Prop} {ok' : S' → A' → Prop} {effect : S → A → Option A'}
    (hkeep : ∀ state action, inv state → ok state action →
      ∃ next, step state action = some next ∧ inv next ∧
        Performs step' ok' (stands state) (stands next) (effect state action))
    {state : S} {actions : List A} (hinv : inv state)
    (hok : EveryStep step ok state actions) :
    ∃ last, run step state actions = some last ∧ inv last ∧
      EveryStep step' ok' (stands state) (trace step effect state actions) ∧
      run step' (stands state) (trace step effect state actions) =
        some (stands last) := by
  induction actions generalizing state with
  | nil => exact ⟨state, rfl, hinv, trivial, rfl⟩
  | cons action rest ih =>
      obtain ⟨next, hstep, hnext, hperforms⟩ := hkeep state action hinv hok.1
      obtain ⟨last, hrun, hlast, hok', hrun'⟩ := ih hnext (hok.2 next hstep)
      have hwhole : run step state (action :: rest) = some last := by
        rw [run_cons, hstep, Option.bind_some, hrun]
      refine ⟨last, hwhole, hlast, ?_⟩
      rw [trace_cons_of_step hstep]
      cases heffect : effect state action with
      | none =>
          rw [heffect, Performs] at hperforms
          rw [hperforms] at hok' hrun'
          exact ⟨hok', hrun'⟩
      | some action' =>
          rw [heffect, Performs] at hperforms
          obtain ⟨haction, hstep'⟩ := hperforms
          rw [Option.toList_some, List.singleton_append, run_cons, hstep']
          refine ⟨⟨haction, ?_⟩, hrun'⟩
          intro other hother
          rw [hstep', Option.some.injEq] at hother
          exact hother ▸ hok'

end Runs
