/-
The first item put into a drained map.  Draining moves the pop cursor one slot
past the last item so as to meet the slot that the next insertion uses; a key
that still names an old slot, and a slot given to a key erased since, move one
cursor and not the other.
-/
import Saigon.Drain

namespace Saigon

namespace CircleMap

variable {KEY T : Type} {cap : Capacity}

/-- The slot `m[key]` uses is the one at the pop cursor: `mKeys` stores it, or
stores no valid index and the push counter stands at it. -/
def MeetsPopCursor (m : CircleMap KEY T cap) (key : KEY) : Prop :=
  m.mKeys key = some m.mPopIndex ∨
    m.Misses key ∧ m.mPushIndex % cap.N = m.mPopIndex

/-- Marked empty, a map of two or more slots has none truthy at its cursor. -/
def PopVacant [MappedType T] (m : CircleMap KEY T cap) : Prop :=
  m.mEmpty = true → cap.slots = 1 ∨ ¬ m.Occupied m.mPopIndex.toNat

variable {m : CircleMap KEY T cap}

theorem meetsPopCursor_iff (hm : m.Sized) (key : KEY) :
    m.MeetsPopCursor key ↔ m.placeSlot key = m.mPopIndex := by
  rw [MeetsPopCursor, misses_iff hm]
  cases hslot : m.slotOf key with
  | none =>
      constructor
      · rintro (hkey | ⟨_, hpush⟩)
        · have hne := Capacity.ne_invalidIndex hm.popLt
          rw [(slotOf_eq_some_iff m key _).mpr ⟨hkey, hne⟩] at hslot
          contradiction
        · rw [placeSlot, hslot]
          exact hpush
      · intro hplace
        rw [placeSlot, hslot] at hplace
        exact Or.inr ⟨rfl, hplace⟩
  | some slot =>
      have hkey := ((slotOf_eq_some_iff m key slot).mp hslot).1
      simp [hkey, placeSlot, hslot]

variable [MappedType T]

theorem fresh_popVacant (hfalsy : truthy (emptyItem : T) = false) :
    (fresh : CircleMap KEY T cap).PopVacant := by
  intro _
  right
  rw [Occupied, fresh_itemAt, hfalsy]
  simp

/-- The cursor steps past the only slot that may be truthy. -/
theorem drain_popVacant (hm : m.Sized) (hother : ¬ m.OtherOccupied) :
    m.drain.PopVacant := by
  intro _
  by_cases hone : cap.slots = 1
  · exact Or.inl hone
  · right
    intro hocc
    have hstep : m.drain.mPopIndex.toNat =
        (m.mPopIndex.toNat + 1) % cap.slots := cap.step_toNat hm.popLt
    have hlt : 1 < cap.slots := by
      have hpos := cap.slots_pos
      omega
    apply hother
    refine ⟨m.drain.mPopIndex.toNat, hm.drain.popLt, ?_, hocc⟩
    rw [hstep]
    exact Circular.add_mod_ne_self hm.popLt Nat.one_pos hlt

variable [DecidableEq KEY]

theorem PopVacant.without (hvacant : m.PopVacant) (hm : m.Sized)
    (hfalsy : truthy (emptyItem : T) = false) (key : KEY) :
    (m.without key).PopVacant := by
  intro hempty
  rw [without_mEmpty] at hempty
  apply (hvacant hempty).imp_right
  intro hfree hocc
  rw [Occupied, without_itemAt hm, without_mPopIndex] at hocc
  split at hocc
  · rw [hfalsy] at hocc
    contradiction
  · exact hfree hocc

/-- After `m[key] = value` the front is `value` where the two slots meet, and
what it was where they do not. -/
theorem front_assigned (hm : m.Sized) (key : KEY) (value : T) :
    (m.assigned key value).front = some
      (if m.placeSlot key = m.mPopIndex then value
        else m.itemAt m.mPopIndex.toNat) := by
  rw [front_eq (hm.assigned key value), assigned_mPopIndex, assigned_itemAt hm]
  by_cases hmeets : m.placeSlot key = m.mPopIndex
  · simp [hmeets]
  · have hapart : m.mPopIndex.toNat ≠ (m.placeSlot key).toNat :=
      fun hsame => hmeets (UInt32.toNat_inj.mp hsame).symm
    simp [hmeets, hapart]

/-- Into a map marked empty, a truthy value goes to the front exactly when the
slots meet. -/
theorem front_assigned_iff (hm : m.Sized) (hvacant : m.PopVacant)
    (hempty : m.mEmpty = true) (key : KEY) {value : T}
    (htruthy : truthy value = true) :
    (m.assigned key value).front = some value ↔ m.MeetsPopCursor key := by
  rw [meetsPopCursor_iff hm, front_assigned hm, Option.some.injEq]
  constructor
  · intro hfront
    by_contra hapart
    rw [if_neg hapart] at hfront
    rcases hvacant hempty with hone | hfree
    · apply hapart
      have hplace := placeSlot_lt hm key
      have hpop := hm.popLt
      apply UInt32.toNat_inj.mp
      omega
    · apply hfree
      rw [Occupied, hfront, htruthy]
  · intro hmeets
    rw [if_pos hmeets]

end CircleMap

variable {KEY T : Type} {cap : Capacity} [DecidableEq KEY] [MappedType T]

/-- The map beside the number of slots handed out, and the value that the last
step put into it if it was marked empty. -/
abbrev Refilled (KEY T : Type) (cap : Capacity) := Counted KEY T cap × Option T

def noteRefill (s : Counted KEY T cap) (step : MapStep KEY T)
    (_ : Option T) : Option T :=
  match step with
  | .put _ value => if s.1.empty then some value else none
  | .erase _ => none
  | .next => none

def refillStep : Refilled KEY T cap → MapStep KEY T →
    Option (Refilled KEY T cap) :=
  Runs.observe countedStep noteRefill

def refillStart : Refilled KEY T cap := (countedStart, none)

/-- Values put are truthy, at most `N` slots are handed out, and the consumer
calls when `empty()` is false. -/
def RefillProtocol (s : Refilled KEY T cap) : MapStep KEY T → Prop
  | .put key value => truthy value = true ∧
      (s.1.1.Misses key → s.1.2 < cap.slots)
  | .erase _ => True
  | .next => s.1.1.empty = false

/-- A value just put into a map that was marked empty is its front. -/
def FirstIsFront (s : Refilled KEY T cap) : Prop :=
  ∀ value, s.2 = some value → s.1.1.front = some value

/-- A key put into a map marked empty uses the slot at the pop cursor. -/
def RefillsAtCursor (s : Refilled KEY T cap) : MapStep KEY T → Prop
  | .put key _ => s.1.1.empty = true → s.1.1.MeetsPopCursor key
  | .erase _ => True
  | .next => True

/-- A filling ring whose cursor is at no item while it is marked empty. -/
structure RefillTidy (s : Refilled KEY T cap) : Prop where
  filling : s.1.1.Filling s.1.2
  vacant : s.1.1.PopVacant
  first : FirstIsFront s

omit [DecidableEq KEY] in
theorem refillStart_tidy (hfalsy : truthy (emptyItem : T) = false) :
    RefillTidy (refillStart : Refilled KEY T cap) where
  filling := CircleMap.fresh_filling
  vacant := CircleMap.fresh_popVacant hfalsy
  first := by
    intro value hvalue
    contradiction

namespace RefillTidy

variable {s : Refilled KEY T cap}

/-- The state after `m[key] = value`. -/
theorem put_eq (hs : RefillTidy s) (key : KEY) (value : T) :
    refillStep s (.put key value) = some
      ((s.1.1.assigned key value,
        s.1.2 + if s.1.1.Misses key then 1 else 0),
        if s.1.1.empty then some value else none) := by
  have hput := mapStep_put hs.filling.toSized key value
  exact Runs.observe_of_step (Runs.observe_of_step hput)

/-- The value put is the front exactly when the slots meet. -/
theorem firstIsFront_put_iff (hs : RefillTidy s) {key : KEY} {value : T}
    (htruthy : truthy value = true) {after : Refilled KEY T cap}
    (hstep : refillStep s (.put key value) = some after) :
    FirstIsFront after ↔ RefillsAtCursor s (.put key value) := by
  rw [hs.put_eq, Option.some.injEq] at hstep
  subst hstep
  cases hempty : s.1.1.empty with
  | false => simp [FirstIsFront, RefillsAtCursor, hempty]
  | true =>
      have hfront := CircleMap.front_assigned_iff hs.filling.toSized hs.vacant
        hempty key htruthy
      simpa [FirstIsFront, RefillsAtCursor, hempty] using hfront

theorem put (hs : RefillTidy s) {key : KEY} {value : T}
    (hprotocol : RefillProtocol s (.put key value))
    (hmeets : RefillsAtCursor s (.put key value)) :
    ∃ after, refillStep s (.put key value) = some after ∧ RefillTidy after := by
  refine ⟨_, hs.put_eq key value, ?_⟩
  constructor
  case filling => exact hs.filling.assigned hprotocol.2 value
  case vacant =>
    intro hempty
    rw [CircleMap.assigned_mEmpty] at hempty
    contradiction
  case first =>
    exact (hs.firstIsFront_put_iff hprotocol.1 (hs.put_eq key value)).mpr hmeets

theorem erase (hs : RefillTidy s) (hfalsy : truthy (emptyItem : T) = false)
    (key : KEY) :
    ∃ after, refillStep s (.erase key) = some after ∧ RefillTidy after := by
  have herase := mapStep_erase hs.filling.toSized key
  refine ⟨_, Runs.observe_of_step (Runs.observe_of_step herase), ?_⟩
  constructor
  case filling => exact hs.filling.without key
  case vacant => exact hs.vacant.without hs.filling.toSized hfalsy key
  case first =>
    intro value hvalue
    contradiction

theorem next (hs : RefillTidy s) (hempty : s.1.1.mEmpty = false) :
    ∃ after, refillStep s .next = some after ∧ RefillTidy after := by
  have hmoved : ∃ map, mapStep s.1.1 .next = some map ∧
      map.Filling s.1.2 ∧ map.PopVacant := by
    rcases mapStep_next hs.filling.toSized with ⟨hmarked, _⟩ |
      ⟨_, _, next, hnext, hstep⟩ | ⟨_, hother, hstep⟩
    · rw [hempty] at hmarked
      contradiction
    · refine ⟨_, hstep, hs.filling.advance hnext, ?_⟩
      intro hmarked
      rw [CircleMap.advance_mEmpty, hempty] at hmarked
      contradiction
    · exact ⟨_, hstep, hs.filling.drain,
        CircleMap.drain_popVacant hs.filling.toSized hother⟩
  obtain ⟨map, hstep, hfilling, hvacant⟩ := hmoved
  refine ⟨_, Runs.observe_of_step (Runs.observe_of_step hstep), ?_⟩
  constructor
  case filling => exact hfilling
  case vacant => exact hvacant
  case first =>
    intro value hvalue
    contradiction

end RefillTidy

/-- Step lemma: as long as keys put into a map marked empty use the slot at the
cursor, what is put there is the front. -/
theorem refillStep_tidy (hfalsy : truthy (emptyItem : T) = false)
    (s : Refilled KEY T cap) (step : MapStep KEY T) (hs : RefillTidy s)
    (hprotocol : RefillProtocol s step) (hmeets : RefillsAtCursor s step) :
    ∃ after, refillStep s step = some after ∧ RefillTidy after := by
  cases step with
  | put key value => exact hs.put hprotocol hmeets
  | erase key => exact hs.erase hfalsy key
  | next => exact hs.next hprotocol

/-- Within capacity, every first item put into a map marked empty is its front
exactly when each of them is put under a key whose slot is the one at the pop
cursor. -/
theorem first_item_is_front_iff (hfalsy : truthy (emptyItem : T) = false)
    (cap : Capacity) (steps : List (MapStep KEY T))
    (hprotocol : Runs.EveryStep refillStep RefillProtocol
      (refillStart : Refilled KEY T cap) steps) :
    Runs.EveryState refillStep FirstIsFront
        (refillStart : Refilled KEY T cap) steps ↔
      Runs.EveryStep refillStep RefillsAtCursor
        (refillStart : Refilled KEY T cap) steps := by
  apply Runs.everyState_iff_everyStep (refillStep_tidy hfalsy) _ _
    (refillStart_tidy hfalsy) hprotocol
  · intro s hs
    exact hs.first
  · intro s step after hs hstepProtocol hstep hfirst
    cases step with
    | put key value =>
        exact (hs.firstIsFront_put_iff hstepProtocol.1 hstep).mp hfirst
    | erase key => trivial
    | next => trivial

instance (s : Refilled KEY T cap) : ∀ step, Decidable (RefillProtocol s step)
  | .put key value => inferInstanceAs (Decidable
      (truthy value = true ∧ (s.1.1.Misses key → s.1.2 < cap.slots)))
  | .erase _ => inferInstanceAs (Decidable True)
  | .next => inferInstanceAs (Decidable (s.1.1.empty = false))

/-- The second key is given the slot that draining moved the cursor to. -/
theorem two_slots_first_item_is_front_iff :
    Runs.EveryState refillStep FirstIsFront
        (refillStart : Refilled Nat DataType twoSlots)
        [.put 1 ⟨1⟩, .next, .put 2 ⟨2⟩] ↔
      Runs.EveryStep refillStep RefillsAtCursor
        (refillStart : Refilled Nat DataType twoSlots)
        [.put 1 ⟨1⟩, .next, .put 2 ⟨2⟩] :=
  first_item_is_front_iff (by decide) twoSlots _ (by decide)

/-- A run that ends with a front other than the item just put. -/
theorem not_firstIsFront_of_run {steps : List (MapStep KEY T)} {value front : T}
    (hne : front ≠ value)
    (hfacts : (Runs.run refillStep (refillStart : Refilled KEY T cap)
      steps).map (fun s => (s.2, s.1.1.front)) = some (some value, some front)) :
    ¬ Runs.EveryState refillStep FirstIsFront
      (refillStart : Refilled KEY T cap) steps := by
  intro hevery
  obtain ⟨reached, hfirst, hfacts⟩ := hevery.observed hfacts
  simp only [Prod.mk.injEq] at hfacts
  rw [hfirst value hfacts.1, Option.some.injEq] at hfacts
  exact hne hfacts.2.symm

/-- The front is no item at all after a drained key is assigned again, and
after an insertion behind a slot whose key was erased. -/
theorem first_item_is_not_front :
    (Runs.EveryStep refillStep RefillProtocol
        (refillStart : Refilled Nat DataType twoSlots)
        [.put 1 ⟨1⟩, .next, .put 1 ⟨2⟩] ∧
      ¬ Runs.EveryState refillStep FirstIsFront
        (refillStart : Refilled Nat DataType twoSlots)
        [.put 1 ⟨1⟩, .next, .put 1 ⟨2⟩]) ∧
    Runs.EveryStep refillStep RefillProtocol
        (refillStart : Refilled Nat DataType ⟨3, by decide, by decide⟩)
        [.put 1 ⟨1⟩, .put 2 ⟨2⟩, .erase 2, .next, .put 3 ⟨3⟩] ∧
      ¬ Runs.EveryState refillStep FirstIsFront
        (refillStart : Refilled Nat DataType ⟨3, by decide, by decide⟩)
        [.put 1 ⟨1⟩, .put 2 ⟨2⟩, .erase 2, .next, .put 3 ⟨3⟩] := by
  constructor
  · constructor
    · decide
    · have hne : (⟨0⟩ : DataType) ≠ ⟨2⟩ := by decide
      exact not_firstIsFront_of_run hne (by decide)
  · constructor
    · decide
    · have hne : (⟨0⟩ : DataType) ≠ ⟨3⟩ := by decide
      exact not_firstIsFront_of_run hne (by decide)

end Saigon
