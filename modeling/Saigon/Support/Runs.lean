/-
Runs of a partial deterministic machine.  A step that returns `none` is
undefined behaviour of the modelled code, so a property asserted of every
state of a run also asserts that the run never gets stuck.  The last section
reads `none` as an action that is not enabled instead.
-/
import Mathlib.Data.List.Basic

namespace Runs

universe u v

variable {S : Type u} {A : Type v}

/-- Follow a list of actions; an undefined step aborts the run. -/
def run (step : S → A → Option S) : S → List A → Option S
  | state, [] => some state
  | state, action :: rest => (step state action).bind (run step · rest)

/-- Every step of the run is defined and every state it reaches, the first
one included, satisfies `good`. -/
def EveryState (step : S → A → Option S) (good : S → Prop) :
    S → List A → Prop
  | state, [] => good state
  | state, action :: rest => good state ∧
      ∃ next, step state action = some next ∧ EveryState step good next rest

/-- Every action of the run is taken in a state where `ok` admits it. -/
def EveryStep (step : S → A → Option S) (ok : S → A → Prop) :
    S → List A → Prop
  | _, [] => True
  | state, action :: rest => ok state action ∧
      ∀ next, step state action = some next → EveryStep step ok next rest

variable {step : S → A → Option S}

@[simp] theorem run_nil (state : S) : run step state [] = some state := rfl

theorem run_cons (state : S) (action : A) (rest : List A) :
    run step state (action :: rest) =
      (step state action).bind (run step · rest) := rfl

theorem EveryState.head {good : S → Prop} {state : S} {actions : List A}
    (hevery : EveryState step good state actions) : good state := by
  cases actions with
  | nil => exact hevery
  | cons action rest => exact hevery.1

/-- The prefix reading: each prefix of the actions runs to a good state. -/
theorem everyState_iff_prefix {good : S → Prop} {state : S}
    {actions : List A} :
    EveryState step good state actions ↔
      ∀ taken, taken <+: actions →
        ∃ reached, run step state taken = some reached ∧ good reached := by
  induction actions generalizing state with
  | nil =>
      simp only [EveryState, List.prefix_nil, forall_eq, run_nil,
        Option.some.injEq, exists_eq_left']
  | cons action rest ih =>
      constructor
      · rintro ⟨hgood, next, hstep, hrest⟩ taken htaken
        rcases List.prefix_cons_iff.mp htaken with rfl | ⟨tail, rfl, htail⟩
        · exact ⟨state, rfl, hgood⟩
        · obtain ⟨reached, hrun, hreached⟩ := ih.mp hrest tail htail
          exact ⟨reached, by rw [run_cons, hstep]; exact hrun, hreached⟩
      · intro hprefix
        have hgood : good state := by
          obtain ⟨reached, hrun, hreached⟩ := hprefix [] (List.nil_prefix)
          rw [run_nil, Option.some.injEq] at hrun
          exact hrun ▸ hreached
        obtain ⟨first, hfirst, _⟩ := hprefix [action]
          (List.cons_prefix_cons.mpr ⟨rfl, List.nil_prefix⟩)
        rw [run_cons, Option.bind_eq_some_iff] at hfirst
        rcases hfirst with ⟨next, hstep, _⟩
        refine ⟨hgood, next, hstep, ih.mpr ?_⟩
        intro taken htaken
        obtain ⟨reached, hrun, hreached⟩ := hprefix (action :: taken)
          (List.cons_prefix_cons.mpr ⟨rfl, htaken⟩)
        rw [run_cons, hstep] at hrun
        exact ⟨reached, hrun, hreached⟩

/-- A good property may be weakened along the run. -/
theorem EveryState.mono {good better : S → Prop}
    (himp : ∀ state, better state → good state) {state : S}
    {actions : List A} (hevery : EveryState step better state actions) :
    EveryState step good state actions := by
  induction actions generalizing state with
  | nil => exact himp state hevery
  | cons action rest ih =>
      rcases hevery with ⟨hstate, next, hstep, hrest⟩
      exact ⟨himp state hstate, next, hstep, ih hrest⟩

/-- The run lemma.  An invariant that every admitted step keeps, and under
which every admitted step is defined, holds in every state of the run. -/
theorem everyState_of_invariant {inv : S → Prop} {ok : S → A → Prop}
    (hkeep : ∀ state action, inv state → ok state action →
      ∃ next, step state action = some next ∧ inv next)
    {state : S} {actions : List A} (hinv : inv state)
    (hok : EveryStep step ok state actions) :
    EveryState step inv state actions := by
  induction actions generalizing state with
  | nil => exact hinv
  | cons action rest ih =>
      obtain ⟨next, hstep, hnext⟩ := hkeep state action hinv hok.1
      exact ⟨hinv, next, hstep, ih hnext (hok.2 next hstep)⟩

theorem EveryStep.and {first second : S → A → Prop} {state : S}
    {actions : List A} (hfirst : EveryStep step first state actions)
    (hsecond : EveryStep step second state actions) :
    EveryStep step (fun state action => first state action ∧
      second state action) state actions := by
  induction actions generalizing state with
  | nil => trivial
  | cons action rest ih =>
      refine ⟨⟨hfirst.1, hsecond.1⟩, fun next hstep => ?_⟩
      exact ih (hfirst.2 next hstep) (hsecond.2 next hstep)

theorem EveryStep.mono {ok better : S → A → Prop}
    (himp : ∀ state action, ok state action → better state action) {state : S}
    {actions : List A} (hevery : EveryStep step ok state actions) :
    EveryStep step better state actions := by
  induction actions generalizing state with
  | nil => trivial
  | cons action rest ih =>
      exact ⟨himp state action hevery.1,
        fun next hstep => ih (hevery.2 next hstep)⟩

theorem everyStep_true (state : S) (actions : List A) :
    EveryStep step (fun _ _ => True) state actions := by
  induction actions generalizing state with
  | nil => trivial
  | cons action rest ih => exact ⟨trivial, fun next _ => ih next⟩

/-- The exactness lemma.  Among the runs whose steps are all given, when
moreover an admitted step is the only way to reach a good state, a run is good
throughout exactly when every step of it is admitted. -/
theorem everyState_iff_everyStep {inv good : S → Prop}
    {given ok : S → A → Prop}
    (hkeep : ∀ state action, inv state → given state action →
      ok state action → ∃ next, step state action = some next ∧ inv next)
    (hgood : ∀ state, inv state → good state)
    (hexact : ∀ state action next, inv state → given state action →
      step state action = some next → good next → ok state action)
    {state : S} {actions : List A} (hinv : inv state)
    (hgiven : EveryStep step given state actions) :
    EveryState step good state actions ↔
      EveryStep step ok state actions := by
  constructor
  · intro hevery
    induction actions generalizing state with
    | nil => trivial
    | cons action rest ih =>
        rcases hevery with ⟨_, next, hstep, hrest⟩
        have hok := hexact state action next hinv hgiven.1 hstep hrest.head
        obtain ⟨kept, hkept, hinvKept⟩ := hkeep state action hinv hgiven.1 hok
        refine ⟨hok, fun other hother => ?_⟩
        rw [hstep, Option.some.injEq] at hother hkept
        subst hother hkept
        exact ih hinvKept (hgiven.2 _ hstep) hrest
  · intro hok
    refine (everyState_of_invariant ?_ hinv (hgiven.and hok)).mono hgood
    intro state action hstate hboth
    exact hkeep state action hstate hboth.1 hboth.2

/-- Along a run whose steps are admitted, the last state satisfies the
invariant. -/
theorem run_of_invariant {inv : S → Prop} {ok : S → A → Prop}
    (hkeep : ∀ state action, inv state → ok state action →
      ∃ next, step state action = some next ∧ inv next)
    {state : S} {actions : List A} (hinv : inv state)
    (hok : EveryStep step ok state actions) :
    ∃ last, run step state actions = some last ∧ inv last :=
  everyState_iff_prefix.mp (everyState_of_invariant hkeep hinv hok)
    actions (List.prefix_refl actions)

/-- What is computed of the end of a run is true of a good state. -/
theorem EveryState.observed {F : Type*} {good : S → Prop} {state : S}
    {actions : List A} (hevery : EveryState step good state actions)
    {view : S → F} {facts : F}
    (hview : (run step state actions).map view = some facts) :
    ∃ reached, good reached ∧ view reached = facts := by
  obtain ⟨reached, hrun, hgood⟩ :=
    everyState_iff_prefix.mp hevery actions (List.prefix_refl actions)
  rw [hrun, Option.map_some, Option.some.injEq] at hview
  exact ⟨reached, hgood, hview⟩

/-- Admission along a concrete run can be evaluated. -/
instance decidableEveryStep {ok : S → A → Prop}
    [∀ state action, Decidable (ok state action)] :
    ∀ (state : S) (actions : List A), Decidable (EveryStep step ok state actions)
  | _, [] => isTrue trivial
  | state, action :: rest =>
      match hstep : step state action with
      | none => decidable_of_iff (ok state action)
          ⟨fun hok => ⟨hok, fun next hnext => by
            rw [hstep] at hnext
            contradiction⟩, And.left⟩
      | some next =>
          have : Decidable (EveryStep step ok next rest) :=
            decidableEveryStep next rest
          decidable_of_iff (ok state action ∧ EveryStep step ok next rest)
            ⟨fun hok => ⟨hok.1, fun other hother => by
              rw [hstep, Option.some.injEq] at hother
              exact hother ▸ hok.2⟩, fun hok => ⟨hok.1, hok.2 next hstep⟩⟩

/-! ### Ghost state -/

section Ghost

variable {G : Type u}

/-- The machine beside ghost state that each step notes something in. -/
def observe (step : S → A → Option S) (note : S → A → G → G)
    (state : S × G) (action : A) : Option (S × G) :=
  (step state.1 action).map fun next => (next, note state.1 action state.2)

theorem observe_of_step {note : S → A → G → G} {state : S × G} {action : A}
    {next : S} (hstep : step state.1 action = some next) :
    observe step note state action =
      some (next, note state.1 action state.2) := by
  rw [observe, hstep, Option.map_some]

/-- Ghost state admits every run that the machine admits. -/
theorem EveryStep.observe {ok : S → A → Prop} {note : S → A → G → G}
    {state : S} (ghost : G) {actions : List A}
    (hok : EveryStep step ok state actions) :
    EveryStep (Runs.observe step note) (fun state action => ok state.1 action)
      (state, ghost) actions := by
  induction actions generalizing state ghost with
  | nil => trivial
  | cons action rest ih =>
      refine ⟨hok.1, fun next hnext => ?_⟩
      obtain ⟨reached, hstep, rfl⟩ := Option.map_eq_some_iff.mp hnext
      exact ih _ (hok.2 reached hstep)

end Ghost

/-! ### Actions that may be disabled

For machines of several parties a step that returns `none` is an action that
is not enabled, and a run is any sequence of enabled actions. -/

/-- The states that admitted steps reach. -/
inductive Reachable (step : S → A → Option S) (ok : S → A → Prop)
    (origin : S) : S → Prop
  | refl : Reachable step ok origin origin
  | tail {state next : S} {action : A} :
      Reachable step ok origin state → ok state action →
        step state action = some next → Reachable step ok origin next

/-- The invariant rule. -/
theorem Reachable.invariant {inv : S → Prop} {ok : S → A → Prop}
    (hkeep : ∀ state action next, inv state → ok state action →
      step state action = some next → inv next)
    {origin reached : S} (horigin : inv origin)
    (hreached : Reachable step ok origin reached) : inv reached := by
  induction hreached with
  | refl => exact horigin
  | tail _ hok hstep ih => exact hkeep _ _ _ ih hok hstep

/-- Where an admitted run ends is reachable. -/
theorem Reachable.of_run {ok : S → A → Prop} {origin state last : S}
    {actions : List A} (hstate : Reachable step ok origin state)
    (hok : EveryStep step ok state actions)
    (hrun : run step state actions = some last) :
    Reachable step ok origin last := by
  induction actions generalizing state with
  | nil =>
      rw [run_nil, Option.some.injEq] at hrun
      exact hrun ▸ hstate
  | cons action rest ih =>
      rw [run_cons, Option.bind_eq_some_iff] at hrun
      obtain ⟨next, hstep, hrest⟩ := hrun
      exact ih (hstate.tail hok.1 hstep) (hok.2 next hstep) hrest

/-- Every state of the run, up to an action that is not enabled, satisfies
`good`. -/
def Throughout (step : S → A → Option S) (good : S → Prop) :
    S → List A → Prop
  | state, [] => good state
  | state, action :: rest => good state ∧
      ∀ next, step state action = some next → Throughout step good next rest

theorem Throughout.head {good : S → Prop} {state : S} {actions : List A}
    (hall : Throughout step good state actions) : good state := by
  cases actions with
  | nil => exact hall
  | cons action rest => exact hall.1

/-- The last state of the run is good. -/
theorem Throughout.last {good : S → Prop} {state last : S} {actions : List A}
    (hall : Throughout step good state actions)
    (hrun : run step state actions = some last) : good last := by
  induction actions generalizing state with
  | nil =>
      rw [run_nil, Option.some.injEq] at hrun
      exact hrun ▸ hall
  | cons action rest ih =>
      rw [run_cons, Option.bind_eq_some_iff] at hrun
      obtain ⟨next, hstep, hrest⟩ := hrun
      exact ih (hall.2 next hstep) hrest

/-- What an invariant of the admitted steps implies of each of them. -/
theorem EveryStep.of_invariant {inv : S → Prop} {ok better : S → A → Prop}
    (hkeep : ∀ state action next, inv state → ok state action →
      step state action = some next → inv next)
    (himp : ∀ state action, inv state → ok state action → better state action)
    {state : S} {actions : List A} (hinv : inv state)
    (hok : EveryStep step ok state actions) :
    EveryStep step better state actions := by
  induction actions generalizing state with
  | nil => trivial
  | cons action rest ih =>
      constructor
      · exact himp state action hinv hok.1
      · intro next hstep
        exact ih (hkeep state action next hinv hok.1 hstep) (hok.2 next hstep)

/-- What an invariant of the admitted steps implies holds throughout. -/
theorem Throughout.of_everyStep {inv good : S → Prop} {ok : S → A → Prop}
    (hkeep : ∀ state action next, inv state → ok state action →
      step state action = some next → inv next)
    (himp : ∀ state, inv state → good state) {state : S} {actions : List A}
    (hinv : inv state) (hok : EveryStep step ok state actions) :
    Throughout step good state actions := by
  induction actions generalizing state with
  | nil => exact himp state hinv
  | cons action rest ih =>
      constructor
      · exact himp state hinv
      · intro next hstep
        exact ih (hkeep state action next hinv hok.1 hstep) (hok.2 next hstep)

/-- What an invariant of every step implies holds throughout. -/
theorem Throughout.of_invariant {inv good : S → Prop}
    (hkeep : ∀ state action next, inv state → step state action = some next →
      inv next) (himp : ∀ state, inv state → good state) {state : S}
    (hinv : inv state) (actions : List A) :
    Throughout step good state actions :=
  of_everyStep (fun state action next h _ => hkeep state action next h) himp
    hinv (everyStep_true state actions)

/-- The exactness lemma.  When admitted steps keep an invariant that implies
`good`, and an enabled step that is not admitted reaches a state that is not
good, a run is good throughout exactly when its steps are admitted. -/
theorem throughout_iff_everyStep {inv good : S → Prop} {ok : S → A → Prop}
    (hkeep : ∀ state action next, inv state → ok state action →
      step state action = some next → inv next)
    (hgood : ∀ state, inv state → good state)
    (hexact : ∀ state action, inv state →
      (∀ next, step state action = some next → good next) → ok state action)
    {state : S} {actions : List A} (hinv : inv state) :
    Throughout step good state actions ↔ EveryStep step ok state actions := by
  constructor
  · intro hall
    induction actions generalizing state with
    | nil => trivial
    | cons action rest ih =>
        have hok : ok state action :=
          hexact state action hinv fun next hstep => (hall.2 next hstep).head
        constructor
        · exact hok
        · intro next hstep
          exact ih (hkeep state action next hinv hok hstep) (hall.2 next hstep)
  · exact Throughout.of_everyStep hkeep hgood hinv

end Runs
