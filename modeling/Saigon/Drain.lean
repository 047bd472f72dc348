/-
What draining does to lookups.  `next_available_item` marks the map empty
without touching `mKeys` or `mData`, and `operator[]` clears the mark before
anything else, so a lookup depends on calls that name neither its key nor its
slot.
-/
import Saigon.WithinCapacity

namespace Saigon

variable {KEY T : Type} {cap : Capacity} [DecidableEq KEY] [MappedType T]

/-! ### The frame of an assignment -/

/-- The map beside the number of slots handed out. -/
abbrev Counted (KEY T : Type) (cap : Capacity) := CircleMap KEY T cap × Nat

def noteAllocated (m : CircleMap KEY T cap) (step : MapStep KEY T)
    (allocated : Nat) : Nat :=
  match step with
  | .put key _ => allocated + if m.Misses key then 1 else 0
  | .erase _ => allocated
  | .next => allocated

def countedStep : Counted KEY T cap → MapStep KEY T →
    Option (Counted KEY T cap) :=
  Runs.observe mapStep noteAllocated

def countedStart : Counted KEY T cap := (CircleMap.fresh, 0)

/-- At most `N` slots are handed out. -/
def BelowCapacity (s : Counted KEY T cap) : MapStep KEY T → Prop
  | .put key _ => s.1.Misses key → s.2 < cap.slots
  | .erase _ => True
  | .next => True

/-- `m[put] = value` leaves the lookup of `key` exactly as it was. -/
def LookupKept (s : Counted KEY T cap) (put key : KEY) (value : T) : Prop :=
  ∃ after, s.1.put put value = some after ∧ after.find key = s.1.find key

/-- Nothing is hidden behind the emptiness flag under this key: the map is not
marked empty, or the key has no valid index, or its slot holds `T{}`. -/
def NotHidden (s : Counted KEY T cap) (key : KEY) : Prop :=
  s.1.empty = false ∨ s.1.slotOf key = none ∨
    s.1.entry key = some emptyItem

theorem mapStep_filling {m : CircleMap KEY T cap} {allocated : Nat}
    (hm : m.Filling allocated) (step : MapStep KEY T)
    (hbelow : BelowCapacity (m, allocated) step) :
    ∃ after, mapStep m step = some after ∧
      after.Filling (noteAllocated m step allocated) := by
  cases step with
  | put key value =>
      exact ⟨_, mapStep_put hm.toSized key value, hm.assigned hbelow value⟩
  | erase key => exact ⟨_, mapStep_erase hm.toSized key, hm.without key⟩
  | next =>
      exact mapStep_next_keeps hm.toSized hm (fun _ hnext => hm.advance hnext)
        hm.drain

/-- Step lemma: below capacity the ring keeps filling. -/
theorem countedStep_filling (s : Counted KEY T cap) (step : MapStep KEY T)
    (hs : s.1.Filling s.2) (hbelow : BelowCapacity s step) :
    ∃ after, countedStep s step = some after ∧ after.1.Filling after.2 := by
  obtain ⟨after, hstep, hafter⟩ := mapStep_filling hs step hbelow
  exact ⟨_, Runs.observe_of_step hstep, hafter⟩

/-- The assignment clears the flag, so what it hid is found again. -/
theorem lookupKept_iff {s : Counted KEY T cap} (hs : s.1.Filling s.2)
    {put key : KEY} (hne : key ≠ put)
    (hbelow : s.1.Misses put → s.2 < cap.slots) (value : T) :
    LookupKept s put key value ↔ NotHidden s key := by
  have hsized := hs.toSized
  have hput := CircleMap.put_eq hsized put value
  have hafter : (s.1.assigned put value).find key =
      some ((s.1.entry key).getD emptyItem) := by
    rw [CircleMap.find_eq (hsized.assigned put value),
      CircleMap.assigned_mEmpty,
      CircleMap.entry_assigned hs.toTidy (hs.hasRoom hbelow),
      Function.update_of_ne hne]
    rfl
  have hkept : LookupKept s put key value ↔
      some ((s.1.entry key).getD emptyItem) = s.1.find key := by
    rw [← hafter]
    constructor
    · rintro ⟨after, hcall, hsame⟩
      rw [hput, Option.some.injEq] at hcall
      rw [hcall, hsame]
    · intro hsame
      exact ⟨_, hput, hsame⟩
  rw [hkept, CircleMap.find_eq hsized, Option.some.injEq, NotHidden,
    CircleMap.empty]
  cases s.1.mEmpty with
  | false => simp
  | true =>
      cases hslot : s.1.slotOf key with
      | none => simp [(CircleMap.entry_eq_none_iff s.1 key).mpr hslot]
      | some slot => simp [CircleMap.entry_of_slotOf hslot]

/-- Within capacity, in every reachable state, an assignment to one key leaves
the lookup of another as it was exactly when the emptiness flag hides nothing
under the other. -/
theorem lookup_kept_iff_not_hidden (cap : Capacity)
    (steps : List (MapStep KEY T))
    (hsteps : Runs.EveryStep countedStep BelowCapacity
      (countedStart : Counted KEY T cap) steps) :
    Runs.EveryState countedStep
      (fun s => ∀ put key value, key ≠ put →
        BelowCapacity s (.put put value) →
        (LookupKept s put key value ↔ NotHidden s key))
      (countedStart : Counted KEY T cap) steps := by
  apply (Runs.everyState_of_invariant countedStep_filling
    CircleMap.fresh_filling hsteps).mono
  intro s hs put key value hne hbelow
  exact lookupKept_iff hs hne hbelow value

instance (s : Counted KEY T cap) : ∀ step, Decidable (BelowCapacity s step)
  | .put key _ => inferInstanceAs (Decidable
      (s.1.Misses key → s.2 < cap.slots))
  | .erase _ => inferInstanceAs (Decidable True)
  | .next => inferInstanceAs (Decidable True)

/-- One entry, drained: the case in which the lookup is not kept. -/
theorem two_slots_kept_iff_not_hidden :
    Runs.EveryState countedStep
      (fun s => ∀ put key value, key ≠ put →
        BelowCapacity s (.put put value) →
        (LookupKept s put key value ↔ NotHidden s key))
      (countedStart : Counted Nat DataType twoSlots) [.put 1 ⟨1⟩, .next] :=
  lookup_kept_iff_not_hidden twoSlots _ (by decide)

/-- The drained key comes back when another key is assigned. -/
theorem drained_key_reappears :
    Runs.EveryStep countedStep BelowCapacity
        (countedStart : Counted Nat DataType twoSlots) [.put 1 ⟨1⟩, .next] ∧
      ¬ Runs.EveryState countedStep
        (fun s => ∀ put key value, key ≠ put →
          BelowCapacity s (.put put value) → LookupKept s put key value)
        (countedStart : Counted Nat DataType twoSlots)
        [.put 1 ⟨1⟩, .next] := by
  constructor
  · decide
  · intro hevery
    have hfacts : (Runs.run countedStep
        (countedStart : Counted Nat DataType twoSlots)
        [.put 1 ⟨1⟩, .next]).map (fun s =>
          (s.2, s.1.find 1, (s.1.put 2 ⟨2⟩).map fun after => after.find 1)) =
        some (1, some ⟨0⟩, some (some ⟨1⟩)) := by decide
    obtain ⟨reached, hkept, hfacts⟩ := hevery.observed hfacts
    simp only [Prod.mk.injEq] at hfacts
    rcases hfacts with ⟨hcount, hbefore, hafter⟩
    obtain ⟨after, hput, hsame⟩ := hkept 2 1 ⟨2⟩ (by decide)
      (fun _ => by rw [hcount]; decide)
    rw [hput, Option.map_some, hsame, hbefore] at hafter
    exact absurd hafter (by decide)

/-! ### A consumer between the two steps of an insertion -/

/-- The producer forms a reference and assigns through it; the consumer calls
`next_available_item`. -/
inductive HandoverStep (KEY T : Type) where
  | subscript (key : KEY)
  | assign (value : T)
  | next

/-- The map beside the producer's program point and the insertion completed
by the step just taken. -/
structure Handover (KEY T : Type) (cap : Capacity) where
  map : CircleMap KEY T cap
  /-- formed and not yet assigned through, with its key -/
  reference : Option (KEY × UInt32)
  allocated : Nat
  /-- since the reference was formed the consumer called with no truthy item
  outside the slot at the pop cursor -/
  sawNothing : Bool
  completed : Option (KEY × T)

def handoverStart : Handover KEY T cap :=
  ⟨CircleMap.fresh, none, 0, false, none⟩

def handoverStep (s : Handover KEY T cap) :
    HandoverStep KEY T → Option (Handover KEY T cap)
  | .subscript key => do
      let (slot, map) ← s.map.subscript key
      some
        { map := map
          reference := some (key, slot)
          allocated := s.allocated + if s.map.Misses key then 1 else 0
          sawNothing := false
          completed := none }
  | .assign value => do
      let (key, slot) ← s.reference
      let map ← s.map.assign slot value
      some
        { s with
          map := map
          reference := none
          completed := some (key, value) }
  | .next => do
      let (_, map) ← s.map.nextAvailableItem
      some
        { s with
          map := map
          sawNothing := s.sawNothing || decide ¬ s.map.OtherOccupied
          completed := none }

/-- The producer alternates its two steps, assigns truthy values and is handed
at most `N` slots; the consumer calls when `empty()` is false. -/
def HandoverProtocol (s : Handover KEY T cap) : HandoverStep KEY T → Prop
  | .subscript key => s.reference = none ∧
      (s.map.Misses key → s.allocated < cap.slots)
  | .assign value => s.reference ≠ none ∧ truthy value = true
  | .next => s.map.empty = false

/-- An insertion completed by the last step is visible. -/
def CompletedVisible (s : Handover KEY T cap) : Prop :=
  ∀ key value, s.completed = some (key, value) →
    s.map.empty = false ∧ s.map.find key = some value

/-- The producer assigns only if the consumer saw some item outside the slot
at the pop cursor at each call since the reference was formed. -/
def Undisturbed (s : Handover KEY T cap) : HandoverStep KEY T → Prop
  | .subscript _ => True
  | .assign _ => s.sawNothing = false
  | .next => True

/-- A filling ring in which the flag of a pending insertion is exactly what
the consumer saw. -/
structure HandoverTidy (s : Handover KEY T cap) : Prop where
  filling : s.map.Filling s.allocated
  reference : ∀ key slot, s.reference = some (key, slot) →
    s.map.slotOf key = some slot ∧ s.map.mEmpty = s.sawNothing
  completed : ∀ key value, s.completed = some (key, value) →
    s.map.mEmpty = false ∧ s.map.entry key = some value

omit [DecidableEq KEY] in
theorem handoverStart_tidy :
    HandoverTidy (handoverStart : Handover KEY T cap) where
  filling := CircleMap.fresh_filling
  reference := by
    intro key slot hreference
    contradiction
  completed := by
    intro key value hcompleted
    contradiction

namespace HandoverTidy

variable {s : Handover KEY T cap}

omit [DecidableEq KEY] in
theorem completedVisible (hs : HandoverTidy s) : CompletedVisible s := by
  intro key value hcompleted
  obtain ⟨hempty, hentry⟩ := hs.completed key value hcompleted
  refine ⟨hempty, ?_⟩
  rw [CircleMap.find_eq hs.filling.toSized, hempty, hentry]
  rfl

theorem subscript (hs : HandoverTidy s) {key : KEY}
    (hbelow : s.map.Misses key → s.allocated < cap.slots) :
    ∃ after, handoverStep s (.subscript key) = some after ∧
      HandoverTidy after := by
  refine ⟨_, by
    rw [handoverStep, CircleMap.subscript_eq hs.filling.toSized]
    rfl, ?_⟩
  refine ⟨hs.filling.place hbelow, ?_, ?_⟩
  · intro other slot hreference
    simp only [Option.some.injEq, Prod.mk.injEq] at hreference
    rcases hreference with ⟨rfl, rfl⟩
    exact ⟨CircleMap.place_slotOf_self s.map key,
      CircleMap.place_mEmpty s.map key⟩
  · intro other value hcompleted
    contradiction

/-- The state after the producer's assignment, and its flag. -/
theorem assign_eq (hs : HandoverTidy s) (value : T) {key : KEY}
    {slot : UInt32} (hreference : s.reference = some (key, slot)) :
    handoverStep s (.assign value) = some
      { s with
        map := s.map.store slot value
        reference := none
        completed := some (key, value) } := by
  obtain ⟨hslot, _⟩ := hs.reference key slot hreference
  have hassign := CircleMap.assign_eq hs.filling.toSized
    (hs.filling.slotLt key slot hslot) value
  simp only [handoverStep, hreference, hassign, Option.bind_eq_bind,
    Option.bind_some]

theorem assign (hs : HandoverTidy s) (value : T)
    (hpending : s.reference ≠ none) (hseen : s.sawNothing = false) :
    ∃ after, handoverStep s (.assign value) = some after ∧
      HandoverTidy after := by
  obtain ⟨⟨key, slot⟩, hreference⟩ := Option.ne_none_iff_exists'.mp hpending
  obtain ⟨hslot, hempty⟩ := hs.reference key slot hreference
  refine ⟨_, hs.assign_eq value hreference, ?_⟩
  refine ⟨hs.filling.store hslot value, ?_, ?_⟩
  · intro other found hnone
    contradiction
  · intro other given hcompleted
    simp only [Option.some.injEq, Prod.mk.injEq] at hcompleted
    rcases hcompleted with ⟨rfl, rfl⟩
    refine ⟨hempty.trans hseen, ?_⟩
    rw [CircleMap.entry_store hs.filling.toTidy hslot, Function.update_self]

/-- The consumer's call: the flag of a pending insertion stays what the
consumer saw. -/
theorem next (hs : HandoverTidy s) (hflag : s.map.empty = false) :
    ∃ after, handoverStep s .next = some after ∧ HandoverTidy after := by
  have hsized := hs.filling.toSized
  by_cases hother : s.map.OtherOccupied
  · obtain ⟨steps, next, hcall, _, _, hnext, _⟩ :=
      CircleMap.nextAvailableItem_advance hsized.ring hflag hother
    refine ⟨_, by
      simp only [handoverStep, hcall, Option.bind_eq_bind, Option.bind_some]
      rfl, ?_⟩
    constructor
    case filling =>
      apply hs.filling.advance
      rw [hnext]
      exact Nat.mod_lt _ cap.slots_pos
    case reference =>
      intro key slot hreference
      simpa [hother] using hs.reference key slot hreference
    case completed =>
      intro key value hcompleted
      contradiction
  · refine ⟨_, by
      simp only [handoverStep, Option.bind_eq_bind, Option.bind_some,
        CircleMap.nextAvailableItem_drain hsized.ring hflag hother]
      rfl, ?_⟩
    constructor
    case filling => exact hs.filling.drain
    case reference =>
      intro key slot hreference
      simpa [hother] using (hs.reference key slot hreference).1
    case completed =>
      intro key value hcompleted
      contradiction

end HandoverTidy

/-- Step lemma: undisturbed steps of the protocol keep the ring filling and
completed insertions visible. -/
theorem handoverStep_tidy (s : Handover KEY T cap) (step : HandoverStep KEY T)
    (hs : HandoverTidy s) (hstep : HandoverProtocol s step)
    (hundisturbed : Undisturbed s step) :
    ∃ after, handoverStep s step = some after ∧ HandoverTidy after := by
  cases step with
  | subscript key => exact hs.subscript hstep.2
  | assign value => exact hs.assign value hstep.1 hundisturbed
  | next => exact hs.next hstep

/-- A completed insertion that is visible was not disturbed. -/
theorem undisturbed_of_completedVisible (s : Handover KEY T cap)
    (step : HandoverStep KEY T) (after : Handover KEY T cap)
    (hs : HandoverTidy s) (hprotocol : HandoverProtocol s step)
    (hstep : handoverStep s step = some after)
    (hvisible : CompletedVisible after) : Undisturbed s step := by
  cases step with
  | subscript key => trivial
  | assign value =>
      obtain ⟨⟨key, slot⟩, hreference⟩ :=
        Option.ne_none_iff_exists'.mp hprotocol.1
      rw [hs.assign_eq value hreference, Option.some.injEq] at hstep
      subst hstep
      have hempty := (hvisible key value rfl).1
      exact (hs.reference key slot hreference).2.symm.trans hempty
  | next => trivial

/-- Over every interleaving of the protocol, each insertion is visible when it
completes exactly when at each consumer call between its two steps some slot
other than the one at the pop cursor holds a truthy item. -/
theorem insertion_visible_iff_undisturbed (cap : Capacity)
    (steps : List (HandoverStep KEY T))
    (hprotocol : Runs.EveryStep handoverStep HandoverProtocol
      (handoverStart : Handover KEY T cap) steps) :
    Runs.EveryState handoverStep CompletedVisible
        (handoverStart : Handover KEY T cap) steps ↔
      Runs.EveryStep handoverStep Undisturbed
        (handoverStart : Handover KEY T cap) steps :=
  Runs.everyState_iff_everyStep handoverStep_tidy
    (fun _ hs => hs.completedVisible) undisturbed_of_completedVisible
    handoverStart_tidy hprotocol

instance (s : Handover KEY T cap) :
    ∀ step, Decidable (HandoverProtocol s step)
  | .subscript key => have : Decidable (s.reference = none) :=
        decidable_of_iff (s.reference.isNone = true) Option.isNone_iff_eq_none
      inferInstanceAs (Decidable (s.reference = none ∧
        (s.map.Misses key → s.allocated < cap.slots)))
  | .assign value => have : Decidable (s.reference ≠ none) :=
        decidable_of_iff (s.reference.isSome = true) Option.isSome_iff_ne_none
      inferInstanceAs (Decidable (s.reference ≠ none ∧ truthy value = true))
  | .next => inferInstanceAs (Decidable (s.map.empty = false))

/-- The consumer comes between the two steps of the second insertion. -/
theorem second_insertion_visible_iff_undisturbed :
    Runs.EveryState handoverStep CompletedVisible
        (handoverStart : Handover Nat DataType twoSlots)
        [.subscript 1, .assign ⟨1⟩, .subscript 2, .next, .assign ⟨2⟩] ↔
      Runs.EveryStep handoverStep Undisturbed
        (handoverStart : Handover Nat DataType twoSlots)
        [.subscript 1, .assign ⟨1⟩, .subscript 2, .next, .assign ⟨2⟩] :=
  insertion_visible_iff_undisturbed twoSlots _ (by decide)

/-- The consumer drains the map between the two steps of the first
insertion, and the assigned value is not found. -/
theorem insertion_lost_to_consumer :
    Runs.EveryStep handoverStep HandoverProtocol
        (handoverStart : Handover Nat DataType oneSlot)
        [.subscript 1, .next, .assign ⟨1⟩] ∧
      ¬ Runs.EveryState handoverStep CompletedVisible
        (handoverStart : Handover Nat DataType oneSlot)
        [.subscript 1, .next, .assign ⟨1⟩] := by
  constructor
  · decide
  · intro hevery
    have hfacts : (Runs.run handoverStep
        (handoverStart : Handover Nat DataType oneSlot)
        [.subscript 1, .next, .assign ⟨1⟩]).map (fun s =>
          (s.completed, s.map.empty)) = some (some (1, ⟨1⟩), true) := by decide
    obtain ⟨reached, hvisible, hfacts⟩ := hevery.observed hfacts
    simp only [Prod.mk.injEq] at hfacts
    rcases hfacts with ⟨hcompleted, hempty⟩
    rw [(hvisible 1 ⟨1⟩ hcompleted).1] at hempty
    contradiction

end Saigon
