/-
The two views of a `circle_map`: by key through `mKeys`, and by position
through the loops over `mData`.  Keys may share a recycled slot, but an item
that iteration meets is always the item of some key.
-/
import Saigon.SlotDiscipline
import Saigon.Walk

namespace Saigon

variable {KEY T : Type} {cap : Capacity} [MappedType T]

namespace CircleMap

variable {m : CircleMap KEY T cap}

/-- The items `rloop_all` visits are the truthy items of the vector. -/
theorem mem_visited (hm : m.Sized) (item : T) :
    item ∈ m.itemsAt (Circular.backward cap.slots m.mPopIndex.toNat cap.slots) ↔
      truthy item = true ∧ ∃ pos, pos < cap.slots ∧ m.itemAt pos = item := by
  simp only [itemsAt, List.mem_filter, List.mem_map,
    Circular.mem_backward hm.popLt]
  exact and_comm

/-- Every truthy item is the item of some key. -/
structure Named (m : CircleMap KEY T cap) : Prop extends m.Sized where
  named : ∀ pos, pos < cap.slots → m.Occupied pos →
    ∃ key slot, m.slotOf key = some slot ∧ slot.toNat = pos

/-- The two views show the same items. -/
structure ViewsAgree (m : CircleMap KEY T cap) : Prop where
  named : ∀ pos, pos < cap.slots → m.Occupied pos →
    ∃ key slot, m.slotOf key = some slot ∧ slot.toNat = pos
  sameItems : ∃ items, m.rloopItems = some items ∧
    (∀ item, item ∈ items → ∃ key, m.find key = some item) ∧
    ∀ key value, m.find key = some value → truthy value = true →
      value ∈ items

namespace Named

theorem viewsAgree (hm : m.Named) (hfalsy : truthy (emptyItem : T) = false)
    (hempty : m.mEmpty = false) : m.ViewsAgree := by
  refine ⟨hm.named, _, rloopItems_eq hm.toSized.ring hempty, ?_, ?_⟩
  · intro item hitem
    obtain ⟨htruthy, pos, hpos, rfl⟩ := (mem_visited hm.toSized item).mp hitem
    obtain ⟨key, slot, hslot, rfl⟩ := hm.named pos hpos htruthy
    refine ⟨key, ?_⟩
    rw [find_eq hm.toSized, hempty, entry_of_slotOf hslot]
    rfl
  · intro key value hfind htruthy
    rw [find_eq hm.toSized, hempty, Option.some.injEq] at hfind
    cases hslot : m.slotOf key with
    | none =>
        rw [(entry_eq_none_iff m key).mpr hslot] at hfind
        -- a truthy result is not the default of an absent key
        have hdefault : value = emptyItem := hfind.symm
        rw [hdefault, hfalsy] at htruthy
        contradiction
    | some slot =>
        rw [entry_of_slotOf hslot] at hfind
        exact (mem_visited hm.toSized value).mpr ⟨htruthy, slot.toNat,
          hm.slotLt key slot hslot, hfind⟩

variable [DecidableEq KEY]

/-- The written slot belongs to the key, and no other key loses its slot. -/
theorem assigned (hm : m.Named) (key : KEY) (value : T) :
    (m.assigned key value).Named := by
  refine ⟨hm.toSized.assigned key value, ?_⟩
  intro pos hpos hocc
  by_cases hwritten : pos = (m.placeSlot key).toNat
  · refine ⟨key, m.placeSlot key, ?_, hwritten.symm⟩
    rw [assigned_slotOf, if_pos rfl]
  · rw [Occupied, assigned_itemAt hm.toSized, if_neg hwritten] at hocc
    obtain ⟨other, slot, hslot, hat⟩ := hm.named pos hpos hocc
    have hne : other ≠ key := by
      rintro rfl
      rw [placeSlot, hslot, Option.getD_some] at hwritten
      exact hwritten hat.symm
    refine ⟨other, slot, ?_, hat⟩
    rw [assigned_slotOf, if_neg hne, hslot]

/-- Erasing a key that shares its slot empties the slot for all of them. -/
theorem without (hm : m.Named) (hfalsy : truthy (emptyItem : T) = false)
    (key : KEY) : (m.without key).Named := by
  refine ⟨hm.toSized.without key, ?_⟩
  intro pos hpos hocc
  rw [Occupied, without_itemAt hm.toSized] at hocc
  split at hocc
  · rw [hfalsy] at hocc
    contradiction
  · next hkept =>
      obtain ⟨other, slot, hslot, hat⟩ := hm.named pos hpos hocc
      have hne : other ≠ key := by
        rintro rfl
        rw [hslot, Option.map_some, hat] at hkept
        exact hkept rfl
      refine ⟨other, slot, ?_, hat⟩
      rw [without_slotOf, if_neg hne, hslot]

end Named

end CircleMap

variable [DecidableEq KEY]

/-- Step lemma: no call orphans an item. -/
theorem mapStep_named (hfalsy : truthy (emptyItem : T) = false)
    (m : CircleMap KEY T cap) (step : MapStep KEY T) (hm : m.Named) :
    ∃ after, mapStep m step = some after ∧ after.Named := by
  cases step with
  | put key value =>
      exact ⟨_, mapStep_put hm.toSized key value, hm.assigned key value⟩
  | erase key =>
      exact ⟨_, mapStep_erase hm.toSized key, hm.without hfalsy key⟩
  | next =>
      exact mapStep_next_keeps hm.toSized hm
        (fun _ hnext => ⟨hm.toSized.advance hnext, hm.named⟩)
        ⟨hm.toSized.drain, hm.named⟩

/-- Over every run, of any length, the keyed and the positional view of a map
not marked empty show the same items. -/
theorem views_agree (hfalsy : truthy (emptyItem : T) = false) (cap : Capacity)
    (steps : List (MapStep KEY T)) :
    Runs.EveryState mapStep
      (fun m => m.empty = false → m.ViewsAgree)
      (CircleMap.fresh : CircleMap KEY T cap) steps := by
  have hfresh : (CircleMap.fresh : CircleMap KEY T cap).Named := by
    refine ⟨CircleMap.fresh_sized, ?_⟩
    intro pos _ hocc
    rw [CircleMap.Occupied, CircleMap.fresh_itemAt, hfalsy] at hocc
    contradiction
  refine (Runs.everyState_of_invariant ?_ hfresh
    (Runs.everyStep_true _ steps)).mono ?_
  · intro m step hm _
    exact mapStep_named hfalsy m step hm
  · intro m hm hempty
    exact hm.viewsAgree hfalsy hempty

/-- Two keys share the recycled slot, and erasing one empties it. -/
theorem one_slot_views_agree :
    Runs.EveryState mapStep
      (fun m => m.empty = false → m.ViewsAgree)
      (CircleMap.fresh : CircleMap Nat DataType oneSlot)
      [.put 1 ⟨1⟩, .put 2 ⟨2⟩, .erase 1, .put 1 ⟨3⟩, .next] :=
  views_agree rfl oneSlot _

end Saigon
