/-
The discipline under which a `circle_map` is a finite map: no slot is named
by two keys, and a slot no key names holds a default item.  `operator[]`
keeps it exactly when the slot it hands out is free, so the whole question is
which runs give out occupied slots.
-/
import Saigon.CircleMapSlots
import Saigon.Support.Ledger
import Saigon.Support.Runs

namespace Saigon

namespace CircleMap

variable {KEY T : Type} {cap : Capacity} [MappedType T]

/-- No two keys name one slot. -/
def UniqueSlots (m : CircleMap KEY T cap) : Prop :=
  ∀ first second slot, m.slotOf first = some slot →
    m.slotOf second = some slot → first = second

/-- Unique slots, and default items in all slots that no key names. -/
structure Tidy (m : CircleMap KEY T cap) : Prop extends m.Sized where
  slotInj : m.UniqueSlots
  freeDefault : ∀ pos, pos < cap.slots →
    (∀ key slot, m.slotOf key = some slot → slot.toNat ≠ pos) →
    m.itemAt pos = emptyItem

/-- Should `operator[]` miss on this key, the slot it hands out is free. -/
def HasRoom (m : CircleMap KEY T cap) (key : KEY) : Prop :=
  m.slotOf key = none → ∀ other, m.slotOf other ≠ some m.pushSlot

theorem fresh_tidy : (fresh : CircleMap KEY T cap).Tidy where
  toSized := fresh_sized
  slotInj := by
    intro first second slot hfirst
    rw [fresh_slotOf] at hfirst
    contradiction
  freeDefault := by
    intro pos _ _
    exact fresh_itemAt pos

/-- In a tidy map the slot of a fresh key holds a default item. -/
theorem Tidy.room_default {m : CircleMap KEY T cap} (hm : m.Tidy) {key : KEY}
    (hroom : m.HasRoom key) (hslot : m.slotOf key = none) :
    m.itemAt m.pushSlot.toNat = emptyItem := by
  apply hm.freeDefault _ m.pushSlot_lt
  intro other slot hother heq
  apply hroom hslot other
  rw [hother, UInt32.toNat_inj.mp heq]

namespace Tidy

variable {m : CircleMap KEY T cap}

theorem store (hm : m.Tidy) {key : KEY} {slot : UInt32}
    (hslot : m.slotOf key = some slot) (value : T) :
    (m.store slot value).Tidy := by
  refine ⟨hm.toSized.store slot value, hm.slotInj, ?_⟩
  intro pos hpos hfree
  have hne : pos ≠ slot.toNat := Ne.symm (hfree key slot hslot)
  rw [store_itemAt hm.toSized (hm.slotLt key slot hslot), if_neg hne]
  exact hm.freeDefault pos hpos hfree

theorem advance (hm : m.Tidy) {next : UInt32}
    (hnext : next.toNat < cap.slots) : (m.advance next).Tidy :=
  ⟨hm.toSized.advance hnext, hm.slotInj, hm.freeDefault⟩

theorem drain (hm : m.Tidy) : m.drain.Tidy :=
  ⟨hm.toSized.drain, hm.slotInj, hm.freeDefault⟩

variable [DecidableEq KEY]

theorem place (hm : m.Tidy) {key : KEY} (hroom : m.HasRoom key) :
    (m.place key).Tidy := by
  refine ⟨hm.toSized.place key, ?_, ?_⟩
  · intro first second slot hfirst hsecond
    rw [place_slotOf] at hfirst hsecond
    -- the slot of `key` is its own: found under it, or free
    have hown : ∀ other, other ≠ key → m.slotOf other ≠ some (m.placeSlot key) := by
      intro other hne hother
      cases hslot : m.slotOf key with
      | none =>
          rw [placeSlot, hslot, Option.getD_none] at hother
          exact hroom hslot other hother
      | some found =>
          rw [placeSlot, hslot, Option.getD_some] at hother
          exact hne (hm.slotInj other key found hother hslot)
    split at hfirst <;> split at hsecond
    · next heq heq' => rw [heq, heq']
    · next hne =>
        rw [← Option.some.inj hfirst] at hsecond
        exact absurd hsecond (hown second hne)
    · next hne _ =>
        rw [← Option.some.inj hsecond] at hfirst
        exact absurd hfirst (hown first hne)
    · exact hm.slotInj first second slot hfirst hsecond
  · intro pos hpos hfree
    rw [place_itemAt]
    apply hm.freeDefault pos hpos
    intro other slot hother
    by_cases heq : other = key
    · apply hfree key slot
      rw [place_slotOf, if_pos rfl, placeSlot, ← heq, hother, Option.getD_some]
    · apply hfree other slot
      rw [place_slotOf, if_neg heq, hother]

theorem assigned (hm : m.Tidy) {key : KEY} (hroom : m.HasRoom key)
    (value : T) : (m.assigned key value).Tidy :=
  (hm.place hroom).store (place_slotOf_self m key) value

theorem without (hm : m.Tidy) (key : KEY) : (m.without key).Tidy := by
  refine ⟨hm.toSized.without key, ?_, ?_⟩
  · intro first second slot hfirst hsecond
    rw [without_slotOf] at hfirst hsecond
    split at hfirst <;> split at hsecond
    · contradiction
    · contradiction
    · contradiction
    · exact hm.slotInj first second slot hfirst hsecond
  · intro pos hpos hfree
    rw [without_itemAt hm.toSized]
    split
    · rfl
    · next hne =>
        apply hm.freeDefault pos hpos
        intro other slot hother heq
        by_cases hkey : other = key
        · subst hkey
          exact hne (by rw [hother, Option.map_some, heq])
        · apply hfree other slot _ heq
          rw [without_slotOf, if_neg hkey, hother]

end Tidy

/-- Every occupied slot is the slot of an entry, when `T{}` is falsy. -/
theorem Tidy.occupied_named {m : CircleMap KEY T cap} (hm : m.Tidy)
    (hfalsy : truthy (emptyItem : T) = false) {pos : Nat}
    (hpos : pos < cap.slots) (hocc : m.Occupied pos) :
    ∃ key slot, m.slotOf key = some slot ∧ slot.toNat = pos := by
  by_contra hnone
  have hdefault := hm.freeDefault pos hpos fun key slot hslot heq =>
    hnone ⟨key, slot, hslot, heq⟩
  rw [Occupied, hdefault, hfalsy] at hocc
  contradiction

/-! ### The finite map a tidy map stands for -/

section Entries

variable {m : CircleMap KEY T cap}

theorem fresh_entry (key : KEY) :
    (fresh : CircleMap KEY T cap).entry key = none := rfl

variable [DecidableEq KEY]

/-- `operator[]` creates a default entry or leaves the entries alone. -/
theorem entry_place (hm : m.Tidy) {key : KEY} (hroom : m.HasRoom key) :
    (m.place key).entry = Function.update m.entry key
      (some ((m.entry key).getD emptyItem)) := by
  funext other
  by_cases heq : other = key
  · subst heq
    rw [Function.update_self, entry, place_slotOf, if_pos rfl, Option.map_some,
      place_itemAt]
    cases hslot : m.slotOf other with
    | none =>
        rw [placeSlot, hslot, Option.getD_none, hm.room_default hroom hslot,
          (entry_eq_none_iff m other).mpr hslot, Option.getD_none]
    | some slot =>
        rw [placeSlot, hslot, Option.getD_some, entry_of_slotOf hslot,
          Option.getD_some]
  · rw [Function.update_of_ne heq, entry, place_slotOf, if_neg heq, entry]
    simp only [place_itemAt]

/-- A write through the slot of a key changes the entry of that key only. -/
theorem entry_store (hm : m.Tidy) {key : KEY} {slot : UInt32}
    (hslot : m.slotOf key = some slot) (value : T) :
    (m.store slot value).entry = Function.update m.entry key (some value) := by
  have hstore := store_itemAt hm.toSized (hm.slotLt key slot hslot) value
  funext other
  by_cases heq : other = key
  · subst heq
    rw [Function.update_self, entry, store_slotOf, hslot, Option.map_some,
      hstore, if_pos rfl]
  · rw [Function.update_of_ne heq]
    cases hother : m.slotOf other with
    | none => simp [entry, hother]
    | some found =>
        have hne : found.toNat ≠ slot.toNat := by
          intro hsame
          rw [UInt32.toNat_inj.mp hsame] at hother
          exact heq (hm.slotInj other key slot hother hslot)
        simp [entry, hother, hstore, hne]

theorem entry_assigned (hm : m.Tidy) {key : KEY} (hroom : m.HasRoom key)
    (value : T) : (m.assigned key value).entry =
      Function.update m.entry key (some value) := by
  rw [assigned, entry_store (hm.place hroom) (place_slotOf_self m key),
    entry_place hm hroom, Function.update_idem]

theorem entry_without (hm : m.Tidy) (key : KEY) :
    (m.without key).entry = Function.update m.entry key none := by
  funext other
  by_cases heq : other = key
  · subst heq
    rw [Function.update_self, entry, without_slotOf, if_pos rfl,
      Option.map_none]
  · rw [Function.update_of_ne heq, entry, without_slotOf, if_neg heq, entry]
    cases hother : m.slotOf other with
    | none => rfl
    | some slot =>
        have hne : (m.slotOf key).map UInt32.toNat ≠ some slot.toNat := by
          intro hsame
          obtain ⟨found, hfound, htoNat⟩ := Option.map_eq_some_iff.mp hsame
          rw [UInt32.toNat_inj.mp htoNat] at hfound
          exact heq (hm.slotInj other key slot hother hfound)
        rw [Option.map_some, Option.map_some,
          without_itemAt hm.toSized, if_neg hne]

end Entries

/-! ### Entries recorded in a ledger -/

section Recording

variable {m : CircleMap KEY T cap} [DecidableEq KEY] {ledger : Ledger KEY T}

theorem entry_assigned_recorded (hm : m.Tidy)
    (hrecord : m.entry = ledger.lookup) {key : KEY} (hroom : m.HasRoom key)
    (value : T) :
    (m.assigned key value).entry = (ledger.assign key value).lookup := by
  rw [entry_assigned hm hroom, hrecord, Ledger.lookup_assign]

theorem entry_without_recorded (hm : m.Tidy)
    (hrecord : m.entry = ledger.lookup) (key : KEY) :
    (m.without key).entry = (ledger.erase key).lookup := by
  rw [entry_without hm, hrecord, Ledger.lookup_erase]

/-- The recorded keys are the keys that name a slot. -/
theorem mem_recorded_iff (hrecord : m.entry = ledger.lookup) (key : KEY) :
    key ∈ ledger.keys ↔ ∃ slot, m.slotOf key = some slot := by
  rw [← Option.ne_none_iff_exists', ne_eq, ← entry_eq_none_iff, hrecord,
    Ledger.lookup_eq_none_iff, not_not]

end Recording

end CircleMap

/-- The calls a client thread makes on the map. -/
inductive MapStep (KEY T : Type) where
  | put (key : KEY) (value : T)
  | erase (key : KEY)
  | next

variable {KEY T : Type} {cap : Capacity} [DecidableEq KEY] [MappedType T]

/-- One call. -/
def mapStep (m : CircleMap KEY T cap) :
    MapStep KEY T → Option (CircleMap KEY T cap)
  | .put key value => m.put key value
  | .erase key => m.erase key
  | .next => m.nextAvailableItem.map Prod.snd

theorem mapStep_put {m : CircleMap KEY T cap} (hm : m.Sized) (key : KEY)
    (value : T) : mapStep m (.put key value) = some (m.assigned key value) :=
  CircleMap.put_eq hm key value

theorem mapStep_erase {m : CircleMap KEY T cap} (hm : m.Sized) (key : KEY) :
    mapStep m (.erase key) = some (m.without key) :=
  CircleMap.erase_eq hm key

/-- The cursor movements of `next_available_item`: to another item, past the
last one, or not at all. -/
theorem mapStep_next {m : CircleMap KEY T cap} (hm : m.Sized) :
    (m.mEmpty = true ∧ mapStep m .next = some m) ∨
    (m.mEmpty = false ∧ m.OtherOccupied ∧ ∃ next : UInt32,
      next.toNat < cap.slots ∧ mapStep m .next = some (m.advance next)) ∨
    (m.mEmpty = false ∧ ¬ m.OtherOccupied ∧
      mapStep m .next = some m.drain) := by
  by_cases hempty : m.mEmpty = true
  · refine Or.inl ⟨hempty, ?_⟩
    rw [mapStep, CircleMap.nextAvailableItem_empty hempty, Option.map_some]
  · rw [Bool.not_eq_true] at hempty
    by_cases hother : m.OtherOccupied
    · obtain ⟨steps, next, hcall, _, _, hnext, _⟩ :=
        CircleMap.nextAvailableItem_advance hm.ring hempty hother
      refine Or.inr (Or.inl ⟨hempty, hother, next, ?_, ?_⟩)
      · rw [hnext]
        exact Nat.mod_lt _ cap.slots_pos
      · rw [mapStep, hcall, Option.map_some]
    · refine Or.inr (Or.inr ⟨hempty, hother, ?_⟩)
      rw [mapStep, CircleMap.nextAvailableItem_drain hm.ring hempty hother,
        Option.map_some]

/-- What the cursor movements keep, the consumer's call keeps. -/
theorem mapStep_next_keeps {m : CircleMap KEY T cap} (hm : m.Sized)
    {inv : CircleMap KEY T cap → Prop} (hstay : inv m)
    (hadvance : ∀ next : UInt32, next.toNat < cap.slots → inv (m.advance next))
    (hdrain : inv m.drain) :
    ∃ after, mapStep m .next = some after ∧ inv after := by
  rcases mapStep_next hm with ⟨_, hstep⟩ | ⟨_, _, next, hnext, hstep⟩ |
    ⟨_, _, hstep⟩
  · exact ⟨_, hstep, hstay⟩
  · exact ⟨_, hstep, hadvance next hnext⟩
  · exact ⟨_, hstep, hdrain⟩

/-- A call is given a free slot if it needs one. -/
def GivenFreeSlot (m : CircleMap KEY T cap) : MapStep KEY T → Prop
  | .put key _ => m.HasRoom key
  | .erase _ => True
  | .next => True

theorem mapStep_tidy {m : CircleMap KEY T cap} (hm : m.Tidy)
    (step : MapStep KEY T) (hfree : GivenFreeSlot m step) :
    ∃ after, mapStep m step = some after ∧ after.Tidy := by
  cases step with
  | put key value =>
      exact ⟨_, mapStep_put hm.toSized key value, hm.assigned hfree value⟩
  | erase key => exact ⟨_, mapStep_erase hm.toSized key, hm.without key⟩
  | next =>
      exact mapStep_next_keeps hm.toSized hm (fun _ hnext => hm.advance hnext)
        hm.drain

/-! ### Keys that share no slot -/

/-- The value each key was last assigned, erased since or not. -/
def noteAssigned (_ : CircleMap KEY T cap) (step : MapStep KEY T)
    (latest : KEY → Option T) : KEY → Option T :=
  match step with
  | .put key value => Function.update latest key (some value)
  | .erase _ => latest
  | .next => latest

/-- The map beside the value each key was last assigned. -/
abbrev Recorded (KEY T : Type) (cap : Capacity) :=
  CircleMap KEY T cap × (KEY → Option T)

def recordedStep : Recorded KEY T cap → MapStep KEY T →
    Option (Recorded KEY T cap) :=
  Runs.observe mapStep noteAssigned

def recordedStart : Recorded KEY T cap := (CircleMap.fresh, fun _ => none)

/-- What unique slots are for: `find` answers with a key's own value, and
`erase` of one key leaves the others. -/
structure KeysIsolated (s : Recorded KEY T cap) : Prop where
  uniqueSlots : s.1.UniqueSlots
  ownValue : ∀ key, ∃ value, s.1.find key = some value ∧
    (value = emptyItem ∨ s.2 key = some value)
  eraseFrame : ∀ key other, other ≠ key →
    ∃ after, s.1.erase key = some after ∧ after.find other = s.1.find other

/-- Tidy slots whose entries are the values last assigned. -/
structure RecordedTidy (s : Recorded KEY T cap) : Prop where
  tidy : s.1.Tidy
  entryLatest : ∀ key value, s.1.entry key = some value →
    s.2 key = some value

omit [DecidableEq KEY] in
theorem recordedStart_tidy :
    RecordedTidy (recordedStart : Recorded KEY T cap) := by
  refine ⟨CircleMap.fresh_tidy, ?_⟩
  intro key value hentry
  rw [recordedStart, CircleMap.fresh_entry] at hentry
  contradiction

theorem RecordedTidy.isolated {s : Recorded KEY T cap} (hs : RecordedTidy s) :
    KeysIsolated s := by
  have hsized := hs.tidy.toSized
  refine ⟨hs.tidy.slotInj, ?_, ?_⟩
  · intro key
    refine ⟨_, CircleMap.find_eq hsized key, ?_⟩
    cases hempty : s.1.mEmpty with
    | true => exact Or.inl rfl
    | false =>
        cases hentry : s.1.entry key with
        | none => exact Or.inl rfl
        | some value => exact Or.inr (hs.entryLatest key value hentry)
  · intro key other hne
    refine ⟨_, CircleMap.erase_eq hsized key, ?_⟩
    rw [CircleMap.find_eq (hsized.without key), CircleMap.find_eq hsized,
      CircleMap.without_mEmpty, CircleMap.entry_without hs.tidy,
      Function.update_of_ne hne]

/-- Step lemma: a call that is given a free slot keeps slots tidy and entries
up to date. -/
theorem recordedStep_tidy (s : Recorded KEY T cap) (step : MapStep KEY T)
    (hs : RecordedTidy s) (hfree : GivenFreeSlot s.1 step) :
    ∃ after, recordedStep s step = some after ∧ RecordedTidy after := by
  obtain ⟨after, hstep, htidy⟩ := mapStep_tidy hs.tidy step hfree
  refine ⟨_, Runs.observe_of_step hstep, htidy, ?_⟩
  intro key value hentry
  cases step with
  | put put given =>
      rw [mapStep_put hs.tidy.toSized, Option.some.injEq] at hstep
      subst hstep
      rw [CircleMap.entry_assigned hs.tidy hfree] at hentry
      by_cases heq : key = put
      · subst heq
        simpa [noteAssigned] using hentry
      · rw [Function.update_of_ne heq] at hentry
        simpa [noteAssigned, heq] using hs.entryLatest key value hentry
  | erase erased =>
      rw [mapStep_erase hs.tidy.toSized, Option.some.injEq] at hstep
      subst hstep
      rw [CircleMap.entry_without hs.tidy] at hentry
      by_cases heq : key = erased
      · subst heq
        simp at hentry
      · rw [Function.update_of_ne heq] at hentry
        exact hs.entryLatest key value hentry
  | next =>
      apply hs.entryLatest key value
      obtain ⟨moved, hcall, hsame⟩ : ∃ moved,
          mapStep s.1 .next = some moved ∧ moved.entry = s.1.entry :=
        mapStep_next_keeps hs.tidy.toSized rfl (fun _ _ => rfl) rfl
      rw [hcall, Option.some.injEq] at hstep
      rw [← hsame, hstep]
      exact hentry

/-- Handing an occupied slot to a second key is visible at once. -/
theorem givenFreeSlot_of_uniqueSlots (s : Recorded KEY T cap)
    (step : MapStep KEY T) (after : Recorded KEY T cap) (hs : RecordedTidy s)
    (hstep : recordedStep s step = some after)
    (hunique : after.1.UniqueSlots) : GivenFreeSlot s.1 step := by
  cases step with
  | put key value =>
      intro hslot other hother
      rw [recordedStep, Runs.observe_of_step (mapStep_put hs.tidy.toSized key
        value), Option.some.injEq] at hstep
      subst hstep
      have hne : other ≠ key := by
        rintro rfl
        rw [hslot] at hother
        contradiction
      apply hne
      apply hunique other key s.1.pushSlot
      · rw [CircleMap.assigned_slotOf, if_neg hne, hother]
      · rw [CircleMap.assigned_slotOf, if_pos rfl, CircleMap.placeSlot, hslot,
          Option.getD_none]
  | erase key => trivial
  | next => trivial

/-- Slots stay unique, lookups stay with their own key and erasures stay
local exactly along the runs in which every miss of `operator[]` is given a
slot that no key names. -/
theorem keysIsolated_iff_givenFreeSlot (cap : Capacity)
    (steps : List (MapStep KEY T)) :
    Runs.EveryState recordedStep KeysIsolated
        (recordedStart : Recorded KEY T cap) steps ↔
      Runs.EveryStep recordedStep (fun s step => GivenFreeSlot s.1 step)
        (recordedStart : Recorded KEY T cap) steps := by
  apply Runs.everyState_iff_everyStep _ _ _ recordedStart_tidy
    (Runs.everyStep_true _ _)
  · intro s step hs _ hfree
    exact recordedStep_tidy s step hs hfree
  · intro s hs
    exact hs.isolated
  · intro s step after hs _ hstep hgood
    exact givenFreeSlot_of_uniqueSlots s step after hs hstep hgood.uniqueSlots

/-- The one slot of the ring is recycled and the older key still names it. -/
theorem recycled_slot_has_two_keys :
    ¬ Runs.EveryState recordedStep KeysIsolated
      (recordedStart : Recorded Nat DataType oneSlot)
      [.put 1 ⟨1⟩, .put 2 ⟨2⟩] := by
  intro hevery
  have hfacts : (Runs.run recordedStep
      (recordedStart : Recorded Nat DataType oneSlot)
      [.put 1 ⟨1⟩, .put 2 ⟨2⟩]).map (fun s =>
        (s.1.slotOf 1, s.1.slotOf 2)) = some (some 0, some 0) := by decide
  obtain ⟨reached, hisolated, hfacts⟩ := hevery.observed hfacts
  simp only [Prod.mk.injEq] at hfacts
  rcases hfacts with ⟨hfirst, hsecond⟩
  exact absurd (hisolated.uniqueSlots 1 2 0 hfirst hsecond) (by decide)

end Saigon
