/-
Slots of a `circle_map`: which slot a key names, what a slot holds, and the
size invariant under which no operation subscripts outside `mData`.  Every
operation gets its equation here, and later modules cite these equations
instead of unfolding the operations.
-/
import Saigon.CircleMap
import Saigon.Support.Circular

namespace Saigon

namespace Capacity

/-- The capacity as a natural number. -/
def slots (cap : Capacity) : Nat := cap.N.toNat

theorem slots_pos (cap : Capacity) : 0 < cap.slots := by
  have hpos := cap.positive
  rw [UInt32.lt_iff_toNat_lt] at hpos
  exact hpos

theorem slots_lt (cap : Capacity) : cap.slots < 4294967295 := by
  have hlt := cap.ltMax
  rw [UInt32.lt_iff_toNat_lt] at hlt
  exact hlt

/-- The tombstone is computed without wrap. -/
theorem invalidIndex_toNat (cap : Capacity) :
    cap.invalidIndex.toNat = cap.slots + 1 := by
  have hlt := cap.slots_lt
  simp only [invalidIndex, slots, UInt32.toNat_add, UInt32.toNat_one] at hlt ⊢
  omega

theorem ne_invalidIndex {cap : Capacity} {index : UInt32}
    (hlt : index.toNat < cap.slots) : index ≠ cap.invalidIndex := by
  rintro rfl
  rw [invalidIndex_toNat] at hlt
  omega

/-- Stepping a slot index forward and reducing it never wraps the type. -/
theorem step_toNat (cap : Capacity) {index : UInt32}
    (hlt : index.toNat < cap.slots) :
    ((index + 1) % cap.N).toNat = (index.toNat + 1) % cap.slots := by
  have hslots := cap.slots_lt
  rw [UInt32.toNat_mod, UInt32.toNat_add, UInt32.toNat_one, slots]
  congr 1
  omega

end Capacity

namespace CircleMap

variable {KEY T : Type} {cap : Capacity}

/-- The valid slot index `mKeys` stores for a key: absent keys and
tombstones have none. -/
def slotOf (m : CircleMap KEY T cap) (key : KEY) : Option UInt32 :=
  (m.mKeys key).filter fun index => index ≠ cap.invalidIndex

/-- The slot the next miss of `operator[]` hands out. -/
def pushSlot (m : CircleMap KEY T cap) : UInt32 := m.mPushIndex % cap.N

/-- The content of a slot, in a map whose vector has it. -/
def itemAt [MappedType T] (m : CircleMap KEY T cap) (slot : Nat) : T :=
  (m.mData[slot]?).getD emptyItem

/-- The slot holds an item that converts to `true`. -/
def Occupied [MappedType T] (m : CircleMap KEY T cap) (slot : Nat) : Prop :=
  truthy (m.itemAt slot) = true

/-- The entry stored under a key, whatever the emptiness flag says. -/
def entry [MappedType T] (m : CircleMap KEY T cap) (key : KEY) : Option T :=
  (m.slotOf key).map fun slot => m.itemAt slot.toNat

/-- Every index the operations can use is inside the vector. -/
structure Sized (m : CircleMap KEY T cap) : Prop where
  dataLength : m.mData.length = cap.slots
  popLt : m.mPopIndex.toNat < cap.slots
  slotLt : ∀ key slot, m.slotOf key = some slot → slot.toNat < cap.slots

/-- What the loops over `mData` need of a map: the keys do not matter. -/
structure Ring (m : CircleMap KEY T cap) : Prop where
  dataLength : m.mData.length = cap.slots
  popLt : m.mPopIndex.toNat < cap.slots

theorem Sized.ring {m : CircleMap KEY T cap} (hm : m.Sized) : m.Ring :=
  ⟨hm.dataLength, hm.popLt⟩

theorem pushSlot_toNat (m : CircleMap KEY T cap) :
    m.pushSlot.toNat = m.mPushIndex.toNat % cap.slots := by
  rw [pushSlot, UInt32.toNat_mod, Capacity.slots]

theorem pushSlot_lt (m : CircleMap KEY T cap) :
    m.pushSlot.toNat < cap.slots := by
  rw [pushSlot_toNat]
  exact Nat.mod_lt _ cap.slots_pos

theorem slotOf_eq_some_iff (m : CircleMap KEY T cap) (key : KEY)
    (slot : UInt32) : m.slotOf key = some slot ↔
      m.mKeys key = some slot ∧ slot ≠ cap.invalidIndex := by
  simp [slotOf, Option.filter_eq_some_iff]

theorem slotOf_eq_none_iff (m : CircleMap KEY T cap) (key : KEY) :
    m.slotOf key = none ↔
      m.mKeys key = none ∨ m.mKeys key = some cap.invalidIndex := by
  cases hkey : m.mKeys key with
  | none => simp [slotOf, hkey]
  | some index => simp [slotOf, hkey, Option.filter_some]

theorem entry_eq_none_iff [MappedType T] (m : CircleMap KEY T cap)
    (key : KEY) : m.entry key = none ↔ m.slotOf key = none := by
  simp [entry]

theorem entry_of_slotOf [MappedType T] {m : CircleMap KEY T cap} {key : KEY}
    {slot : UInt32} (hslot : m.slotOf key = some slot) :
    m.entry key = some (m.itemAt slot.toNat) := by
  simp [entry, hslot]

theorem item?_of_lt [MappedType T] {m : CircleMap KEY T cap} (hm : m.Ring)
    {pos : UInt32} (hpos : pos.toNat < cap.slots) :
    m.item? pos = some (m.itemAt pos.toNat) := by
  have hlt : pos.toNat < m.mData.length := by rw [hm.dataLength]; exact hpos
  simp [item?, itemAt, List.getElem?_eq_getElem hlt]

/-! ### The results of the operations -/

/-- The map after `operator[]` misses on `key`. -/
def allocate [DecidableEq KEY] (m : CircleMap KEY T cap) (key : KEY) :
    CircleMap KEY T cap where
  mEmpty := false
  mPushIndex := m.mPushIndex + 1
  mPopIndex := m.mPopIndex
  mData := m.mData
  mKeys := Function.update m.mKeys key (some m.pushSlot)

/-- The map after a write to a slot. -/
def store (m : CircleMap KEY T cap) (slot : UInt32) (value : T) :
    CircleMap KEY T cap :=
  { m with mData := m.mData.set slot.toNat value }

/-- The map after `erase` finds `key` at `slot`. -/
def drop [DecidableEq KEY] [MappedType T] (m : CircleMap KEY T cap)
    (key : KEY) (slot : UInt32) : CircleMap KEY T cap :=
  { m.store slot emptyItem with
    mKeys := Function.update m.mKeys key (some cap.invalidIndex) }

/-- The map after `next_available_item` finds another item at `next`. -/
def advance (m : CircleMap KEY T cap) (next : UInt32) : CircleMap KEY T cap :=
  { m with mPopIndex := next }

/-- The map after `next_available_item` finds nothing else. -/
def drain (m : CircleMap KEY T cap) : CircleMap KEY T cap :=
  { m with mEmpty := true, mPopIndex := (m.mPopIndex + 1) % cap.N }

section Views

variable (m : CircleMap KEY T cap)

@[simp] theorem updateEmpty_mEmpty (val : Bool) :
    (m.updateEmpty val).mEmpty = val := rfl
@[simp] theorem updateEmpty_mPushIndex (val : Bool) :
    (m.updateEmpty val).mPushIndex = m.mPushIndex := rfl
@[simp] theorem updateEmpty_mPopIndex (val : Bool) :
    (m.updateEmpty val).mPopIndex = m.mPopIndex := rfl
@[simp] theorem updateEmpty_slotOf (val : Bool) (key : KEY) :
    (m.updateEmpty val).slotOf key = m.slotOf key := rfl
@[simp] theorem updateEmpty_itemAt [MappedType T] (val : Bool) (slot : Nat) :
    (m.updateEmpty val).itemAt slot = m.itemAt slot := rfl

@[simp] theorem store_mEmpty (slot : UInt32) (value : T) :
    (m.store slot value).mEmpty = m.mEmpty := rfl
@[simp] theorem store_mPushIndex (slot : UInt32) (value : T) :
    (m.store slot value).mPushIndex = m.mPushIndex := rfl
@[simp] theorem store_mPopIndex (slot : UInt32) (value : T) :
    (m.store slot value).mPopIndex = m.mPopIndex := rfl
@[simp] theorem store_slotOf (slot : UInt32) (value : T) (key : KEY) :
    (m.store slot value).slotOf key = m.slotOf key := rfl

@[simp] theorem advance_mEmpty (next : UInt32) :
    (m.advance next).mEmpty = m.mEmpty := rfl
@[simp] theorem advance_mPushIndex (next : UInt32) :
    (m.advance next).mPushIndex = m.mPushIndex := rfl
@[simp] theorem advance_mPopIndex (next : UInt32) :
    (m.advance next).mPopIndex = next := rfl
@[simp] theorem advance_slotOf (next : UInt32) (key : KEY) :
    (m.advance next).slotOf key = m.slotOf key := rfl
@[simp] theorem advance_itemAt [MappedType T] (next : UInt32) (slot : Nat) :
    (m.advance next).itemAt slot = m.itemAt slot := rfl

@[simp] theorem drain_mEmpty : m.drain.mEmpty = true := rfl
@[simp] theorem drain_mPushIndex : m.drain.mPushIndex = m.mPushIndex := rfl
@[simp] theorem drain_slotOf (key : KEY) :
    m.drain.slotOf key = m.slotOf key := rfl
@[simp] theorem drain_itemAt [MappedType T] (slot : Nat) :
    m.drain.itemAt slot = m.itemAt slot := rfl

variable [DecidableEq KEY]

@[simp] theorem allocate_mEmpty (key : KEY) :
    (m.allocate key).mEmpty = false := rfl
@[simp] theorem allocate_mPushIndex (key : KEY) :
    (m.allocate key).mPushIndex = m.mPushIndex + 1 := rfl
@[simp] theorem allocate_mPopIndex (key : KEY) :
    (m.allocate key).mPopIndex = m.mPopIndex := rfl
@[simp] theorem allocate_itemAt [MappedType T] (key : KEY) (slot : Nat) :
    (m.allocate key).itemAt slot = m.itemAt slot := rfl

theorem allocate_slotOf (key other : KEY) :
    (m.allocate key).slotOf other =
      if other = key then some m.pushSlot else m.slotOf other := by
  have hne : m.pushSlot ≠ cap.invalidIndex :=
    Capacity.ne_invalidIndex m.pushSlot_lt
  by_cases heq : other = key
  · simp [slotOf, allocate, heq, hne, Option.filter_some]
  · simp [slotOf, allocate, heq]

variable [MappedType T]

@[simp] theorem drop_mEmpty (key : KEY) (slot : UInt32) :
    (m.drop key slot).mEmpty = m.mEmpty := rfl
@[simp] theorem drop_mPushIndex (key : KEY) (slot : UInt32) :
    (m.drop key slot).mPushIndex = m.mPushIndex := rfl
@[simp] theorem drop_mPopIndex (key : KEY) (slot : UInt32) :
    (m.drop key slot).mPopIndex = m.mPopIndex := rfl
@[simp] theorem drop_itemAt (key : KEY) (slot : UInt32) (pos : Nat) :
    (m.drop key slot).itemAt pos = (m.store slot emptyItem).itemAt pos := rfl

theorem drop_slotOf (key other : KEY) (slot : UInt32) :
    (m.drop key slot).slotOf other =
      if other = key then none else m.slotOf other := by
  by_cases heq : other = key
  · simp [slotOf, drop, heq, Option.filter_some]
  · simp [slotOf, drop, store, heq]

end Views

theorem store_itemAt [MappedType T] {m : CircleMap KEY T cap} (hm : m.Sized)
    {slot : UInt32} (hslot : slot.toNat < cap.slots) (value : T) (pos : Nat) :
    (m.store slot value).itemAt pos =
      if pos = slot.toNat then value else m.itemAt pos := by
  have hlt : slot.toNat < m.mData.length := by rw [hm.dataLength]; exact hslot
  by_cases heq : pos = slot.toNat
  · simp [itemAt, store, heq, hlt]
  · simp [itemAt, store, List.getElem?_set_ne (Ne.symm heq), heq]

/-! ### One equation for each operation -/

theorem findInternal_eq (m : CircleMap KEY T cap) (key : KEY) :
    m.findInternal key =
      if m.mEmpty then cap.invalidIndex
      else (m.slotOf key).getD cap.invalidIndex := by
  cases hempty : m.mEmpty with
  | true => simp [findInternal, empty, hempty]
  | false =>
      cases hkey : m.mKeys key with
      | none => simp [findInternal, empty, hempty, slotOf, hkey]
      | some index =>
          by_cases hinvalid : index = cap.invalidIndex <;>
            simp [findInternal, empty, hempty, slotOf, hkey, hinvalid,
              Option.filter_some]

theorem findInternal_of_slotOf {m : CircleMap KEY T cap} {key : KEY}
    {slot : UInt32} (hempty : m.mEmpty = false)
    (hslot : m.slotOf key = some slot) : m.findInternal key = slot := by
  simp [findInternal_eq, hempty, hslot]

theorem findInternal_of_none {m : CircleMap KEY T cap} {key : KEY}
    (hslot : m.slotOf key = none) :
    m.findInternal key = cap.invalidIndex := by
  simp [findInternal_eq, hslot]

/-- `find` answers through the emptiness flag first and the keyed entry
second. -/
theorem find_eq [MappedType T] {m : CircleMap KEY T cap} (hm : m.Sized)
    (key : KEY) : m.find key =
      some (if m.mEmpty then emptyItem else (m.entry key).getD emptyItem) := by
  cases hempty : m.mEmpty with
  | true => simp [find, findInternal_eq, hempty]
  | false =>
      cases hslot : m.slotOf key with
      | none => simp [find, findInternal_of_none hslot, entry, hslot]
      | some slot =>
          have hlt := hm.slotLt key slot hslot
          have hne := Capacity.ne_invalidIndex hlt
          simp [find, findInternal_of_slotOf hempty hslot, entry, hslot,
            Ne.symm hne, item?_of_lt hm.ring hlt]

theorem assign_eq {m : CircleMap KEY T cap} (hm : m.Sized) {slot : UInt32}
    (hslot : slot.toNat < cap.slots) (value : T) :
    m.assign slot value = some (m.store slot value) := by
  have hlt : slot.toNat < m.mData.length := by rw [hm.dataLength]; exact hslot
  simp [assign, store, hlt]

theorem front_eq [MappedType T] {m : CircleMap KEY T cap} (hm : m.Sized) :
    m.front = some (m.itemAt m.mPopIndex.toNat) := by
  have hpop : m.getPopIndex = m.mPopIndex := by
    apply UInt32.toNat_inj.mp
    rw [getPopIndex, UInt32.toNat_mod]
    exact Nat.mod_eq_of_lt hm.popLt
  rw [front, hpop, item?_of_lt hm.ring hm.popLt]

section Keyed

variable [DecidableEq KEY]

theorem subscript_hit {m : CircleMap KEY T cap} (hm : m.Sized) {key : KEY}
    {slot : UInt32} (hslot : m.slotOf key = some slot) :
    m.subscript key = some (slot, m.updateEmpty false) := by
  have hlt := hm.slotLt key slot hslot
  have hne := Capacity.ne_invalidIndex hlt
  have hfind : (m.updateEmpty false).findInternal key = slot :=
    findInternal_of_slotOf rfl hslot
  have hdata : slot.toNat < (m.updateEmpty false).mData.length := by
    change slot.toNat < m.mData.length
    rw [hm.dataLength]
    exact hlt
  simp [subscript, hfind, Ne.symm hne, slotReference, hdata]

theorem subscript_miss {m : CircleMap KEY T cap} (hm : m.Sized) {key : KEY}
    (hslot : m.slotOf key = none) :
    m.subscript key = some (m.pushSlot, m.allocate key) := by
  have hfind : (m.updateEmpty false).findInternal key = cap.invalidIndex :=
    findInternal_of_none hslot
  have hdata : m.pushSlot.toNat < m.mData.length := by
    rw [hm.dataLength]
    exact m.pushSlot_lt
  have hreturn : (m.allocate key).slotReference m.pushSlot =
      some (m.pushSlot, m.allocate key) := by
    simp [slotReference, allocate, hdata]
  simp only [subscript, hfind, ne_eq, not_true_eq_false, ↓reduceIte]
  exact hreturn

variable [MappedType T]

theorem erase_absent {m : CircleMap KEY T cap} {key : KEY}
    (hslot : m.slotOf key = none) : m.erase key = some m := by
  rcases (slotOf_eq_none_iff m key).mp hslot with hkey | hkey
  · simp [erase, hkey]
  · simp [erase, hkey]

theorem erase_present {m : CircleMap KEY T cap} (hm : m.Sized) {key : KEY}
    {slot : UInt32} (hslot : m.slotOf key = some slot) :
    m.erase key = some (m.drop key slot) := by
  obtain ⟨hkey, hne⟩ := (slotOf_eq_some_iff m key slot).mp hslot
  have hassign := assign_eq hm (hm.slotLt key slot hslot) (emptyItem : T)
  simp [erase, hkey, hne, hassign, drop, store]

end Keyed

/-! ### The size invariant is kept -/

theorem fresh_slotOf [MappedType T] (key : KEY) :
    (fresh : CircleMap KEY T cap).slotOf key = none := rfl

theorem fresh_itemAt [MappedType T] (slot : Nat) :
    (fresh : CircleMap KEY T cap).itemAt slot = emptyItem := by
  by_cases hlt : slot < cap.N.toNat
  · simp [itemAt, fresh, hlt]
  · simp [itemAt, fresh, hlt]

theorem fresh_sized [MappedType T] : (fresh : CircleMap KEY T cap).Sized where
  dataLength := List.length_replicate
  popLt := cap.slots_pos
  slotLt := by
    intro key slot hslot
    rw [fresh_slotOf] at hslot
    contradiction

namespace Sized

variable {m : CircleMap KEY T cap}

theorem updateEmpty (hm : m.Sized) (val : Bool) : (m.updateEmpty val).Sized :=
  ⟨hm.dataLength, hm.popLt, hm.slotLt⟩

theorem store (hm : m.Sized) (slot : UInt32) (value : T) :
    (m.store slot value).Sized :=
  ⟨List.length_set.trans hm.dataLength, hm.popLt, hm.slotLt⟩

theorem advance (hm : m.Sized) {next : UInt32}
    (hnext : next.toNat < cap.slots) : (m.advance next).Sized :=
  ⟨hm.dataLength, hnext, hm.slotLt⟩

theorem drain (hm : m.Sized) : m.drain.Sized := by
  refine ⟨hm.dataLength, ?_, hm.slotLt⟩
  change ((m.mPopIndex + 1) % cap.N).toNat < cap.slots
  rw [cap.step_toNat hm.popLt]
  exact Nat.mod_lt _ cap.slots_pos

theorem allocate [DecidableEq KEY] (hm : m.Sized) (key : KEY) :
    (m.allocate key).Sized := by
  refine ⟨hm.dataLength, hm.popLt, ?_⟩
  intro other slot hslot
  rw [allocate_slotOf] at hslot
  split at hslot
  · cases hslot
    exact m.pushSlot_lt
  · exact hm.slotLt other slot hslot

theorem drop [DecidableEq KEY] [MappedType T] (hm : m.Sized) (key : KEY)
    (slot : UInt32) : (m.drop key slot).Sized := by
  refine ⟨List.length_set.trans hm.dataLength, hm.popLt, ?_⟩
  intro other index hindex
  rw [drop_slotOf] at hindex
  split at hindex
  · contradiction
  · exact hm.slotLt other index hindex

end Sized

/-! ### Hit and miss in one equation -/

section Placed

variable [DecidableEq KEY]

/-- A call of `operator[]` that does not find its key. -/
def Misses (m : CircleMap KEY T cap) (key : KEY) : Prop :=
  (m.updateEmpty false).findInternal key = cap.invalidIndex

instance (m : CircleMap KEY T cap) (key : KEY) : Decidable (m.Misses key) :=
  inferInstanceAs (Decidable (_ = _))

/-- The slot `operator[]` returns a reference to. -/
def placeSlot (m : CircleMap KEY T cap) (key : KEY) : UInt32 :=
  (m.slotOf key).getD m.pushSlot

/-- The map `operator[]` leaves behind. -/
def place (m : CircleMap KEY T cap) (key : KEY) : CircleMap KEY T cap :=
  if m.slotOf key = none then m.allocate key else m.updateEmpty false

/-- The map `erase` leaves behind. -/
def without [MappedType T] (m : CircleMap KEY T cap) (key : KEY) :
    CircleMap KEY T cap :=
  match m.slotOf key with
  | none => m
  | some slot => m.drop key slot

/-- The map `m[key] = value` leaves behind. -/
def assigned (m : CircleMap KEY T cap) (key : KEY) (value : T) :
    CircleMap KEY T cap :=
  (m.place key).store (m.placeSlot key) value

variable {m : CircleMap KEY T cap}

omit [DecidableEq KEY] in
theorem misses_iff (hm : m.Sized) (key : KEY) :
    m.Misses key ↔ m.slotOf key = none := by
  cases hslot : m.slotOf key with
  | none =>
      have hfind : (m.updateEmpty false).findInternal key = cap.invalidIndex :=
        findInternal_of_none hslot
      simp [Misses, hfind]
  | some slot =>
      have hfind : (m.updateEmpty false).findInternal key = slot :=
        findInternal_of_slotOf rfl hslot
      simp [Misses, hfind, Capacity.ne_invalidIndex (hm.slotLt key slot hslot)]

omit [DecidableEq KEY] in
theorem placeSlot_lt (hm : m.Sized) (key : KEY) :
    (m.placeSlot key).toNat < cap.slots := by
  cases hslot : m.slotOf key with
  | none => simpa [placeSlot, hslot] using m.pushSlot_lt
  | some slot => simpa [placeSlot, hslot] using hm.slotLt key slot hslot

theorem subscript_eq (hm : m.Sized) (key : KEY) :
    m.subscript key = some (m.placeSlot key, m.place key) := by
  cases hslot : m.slotOf key with
  | none => simp [subscript_miss hm hslot, placeSlot, place, hslot]
  | some slot => simp [subscript_hit hm hslot, placeSlot, place, hslot]

theorem place_slotOf (m : CircleMap KEY T cap) (key other : KEY) :
    (m.place key).slotOf other =
      if other = key then some (m.placeSlot key) else m.slotOf other := by
  cases hslot : m.slotOf key with
  | none => simp [place, placeSlot, hslot, allocate_slotOf]
  | some slot =>
      by_cases heq : other = key <;> simp [place, placeSlot, hslot, heq]

theorem place_slotOf_self (m : CircleMap KEY T cap) (key : KEY) :
    (m.place key).slotOf key = some (m.placeSlot key) := by
  rw [place_slotOf, if_pos rfl]

@[simp] theorem place_mEmpty (m : CircleMap KEY T cap) (key : KEY) :
    (m.place key).mEmpty = false := by
  by_cases hslot : m.slotOf key = none <;> simp [place, hslot]

@[simp] theorem place_mPopIndex (m : CircleMap KEY T cap) (key : KEY) :
    (m.place key).mPopIndex = m.mPopIndex := by
  by_cases hslot : m.slotOf key = none <;> simp [place, hslot]

@[simp] theorem place_itemAt [MappedType T] (m : CircleMap KEY T cap)
    (key : KEY) (slot : Nat) : (m.place key).itemAt slot = m.itemAt slot := by
  by_cases hslot : m.slotOf key = none <;> simp [place, hslot]

theorem place_mPushIndex (m : CircleMap KEY T cap) (key : KEY) :
    (m.place key).mPushIndex =
      if m.slotOf key = none then m.mPushIndex + 1 else m.mPushIndex := by
  by_cases hslot : m.slotOf key = none <;> simp [place, hslot]

/-- The push counter counts the misses of `operator[]` until it wraps. -/
theorem place_pushCursor (hm : m.Sized) {key : KEY} {count : Nat}
    (hcount : m.mPushIndex.toNat = count)
    (hbelow : m.Misses key → count + 1 < 4294967296) :
    (m.place key).mPushIndex.toNat = count + if m.Misses key then 1 else 0 := by
  rw [place_mPushIndex, ← hcount]
  by_cases hmiss : m.Misses key
  · have hlt := hbelow hmiss
    rw [← hcount] at hlt
    rw [if_pos ((misses_iff hm key).mp hmiss), if_pos hmiss, UInt32.toNat_add,
      UInt32.toNat_one]
    exact Nat.mod_eq_of_lt hlt
  · rw [if_neg (mt (misses_iff hm key).mpr hmiss), if_neg hmiss, Nat.add_zero]

theorem Sized.place (hm : m.Sized) (key : KEY) : (m.place key).Sized := by
  by_cases hslot : m.slotOf key = none
  · simpa [CircleMap.place, hslot] using hm.allocate key
  · simpa [CircleMap.place, hslot] using hm.updateEmpty false

theorem put_eq (hm : m.Sized) (key : KEY) (value : T) :
    m.put key value = some (m.assigned key value) := by
  have hstore := assign_eq (hm.place key) (placeSlot_lt hm key) value
  simp [put, subscript_eq hm key, hstore, assigned]

theorem Sized.assigned (hm : m.Sized) (key : KEY) (value : T) :
    (m.assigned key value).Sized :=
  (hm.place key).store _ value

@[simp] theorem assigned_mEmpty (m : CircleMap KEY T cap) (key : KEY)
    (value : T) : (m.assigned key value).mEmpty = false := by
  simp [CircleMap.assigned]

@[simp] theorem assigned_mPopIndex (m : CircleMap KEY T cap) (key : KEY)
    (value : T) : (m.assigned key value).mPopIndex = m.mPopIndex := by
  simp [CircleMap.assigned]

@[simp] theorem assigned_mPushIndex (m : CircleMap KEY T cap) (key : KEY)
    (value : T) :
    (m.assigned key value).mPushIndex = (m.place key).mPushIndex := rfl

theorem assigned_slotOf (m : CircleMap KEY T cap) (key other : KEY)
    (value : T) : (m.assigned key value).slotOf other =
      if other = key then some (m.placeSlot key) else m.slotOf other := by
  rw [CircleMap.assigned, store_slotOf, place_slotOf]

/-- An in-place update moves no key. -/
theorem assigned_slotOf_hit {key : KEY} {slot : UInt32}
    (hslot : m.slotOf key = some slot) (value : T) (other : KEY) :
    (m.assigned key value).slotOf other = m.slotOf other := by
  rw [assigned_slotOf]
  split
  · next heq => rw [heq, hslot, placeSlot, hslot, Option.getD_some]
  · rfl

theorem assigned_itemAt [MappedType T] (hm : m.Sized) (key : KEY) (value : T)
    (pos : Nat) : (m.assigned key value).itemAt pos =
      if pos = (m.placeSlot key).toNat then value else m.itemAt pos := by
  rw [CircleMap.assigned, store_itemAt (hm.place key) (placeSlot_lt hm key),
    place_itemAt]

variable [MappedType T]

theorem erase_eq (hm : m.Sized) (key : KEY) :
    m.erase key = some (m.without key) := by
  cases hslot : m.slotOf key with
  | none => simp [erase_absent hslot, without, hslot]
  | some slot => simp [erase_present hm hslot, without, hslot]

theorem Sized.without (hm : m.Sized) (key : KEY) : (m.without key).Sized := by
  cases hslot : m.slotOf key with
  | none => simpa [CircleMap.without, hslot] using hm
  | some slot => simpa [CircleMap.without, hslot] using hm.drop key slot

theorem without_slotOf (m : CircleMap KEY T cap) (key other : KEY) :
    (m.without key).slotOf other =
      if other = key then none else m.slotOf other := by
  cases hslot : m.slotOf key with
  | none =>
      by_cases heq : other = key <;> simp [CircleMap.without, hslot, heq]
  | some slot => simp [CircleMap.without, hslot, drop_slotOf]

@[simp] theorem without_mEmpty (m : CircleMap KEY T cap) (key : KEY) :
    (m.without key).mEmpty = m.mEmpty := by
  cases hslot : m.slotOf key <;> simp [CircleMap.without, hslot]

@[simp] theorem without_mPushIndex (m : CircleMap KEY T cap) (key : KEY) :
    (m.without key).mPushIndex = m.mPushIndex := by
  cases hslot : m.slotOf key <;> simp [CircleMap.without, hslot]

@[simp] theorem without_mPopIndex (m : CircleMap KEY T cap) (key : KEY) :
    (m.without key).mPopIndex = m.mPopIndex := by
  cases hslot : m.slotOf key <;> simp [CircleMap.without, hslot]

theorem without_itemAt (hm : m.Sized) (key : KEY) (pos : Nat) :
    (m.without key).itemAt pos =
      if (m.slotOf key).map UInt32.toNat = some pos then emptyItem
      else m.itemAt pos := by
  cases hslot : m.slotOf key with
  | none => simp [CircleMap.without, hslot]
  | some slot =>
      simp [CircleMap.without, hslot,
        store_itemAt hm (hm.slotLt key slot hslot), eq_comm]

end Placed

/-! ### The circular search for the next item -/

/-- The search stops at the first occupied slot after `next`, or `rounds`
slots on when it meets none earlier. -/
theorem scanNext_spec [MappedType T] {m : CircleMap KEY T cap} (hm : m.Ring)
    (rounds : Nat) {next : UInt32} (hnext : next.toNat < cap.slots) :
    ∃ steps found, m.scanNext rounds next = some found ∧ steps ≤ rounds ∧
      found.toNat = (next.toNat + steps) % cap.slots ∧
      (∀ earlier, 0 < earlier → earlier < steps →
        ¬ m.Occupied ((next.toNat + earlier) % cap.slots)) ∧
      (steps < rounds →
        0 < steps ∧ m.Occupied ((next.toNat + steps) % cap.slots)) := by
  induction rounds generalizing next with
  | zero =>
      refine ⟨0, next, rfl, Nat.le_refl _, (Nat.mod_eq_of_lt hnext).symm, ?_, ?_⟩
      · intro earlier _ hlt
        exact absurd hlt (Nat.not_lt_zero _)
      · intro hlt
        exact absurd hlt (Nat.lt_irrefl _)
  | succ rounds ih =>
      have hstep := cap.step_toNat hnext
      have hlt : ((next + 1) % cap.N).toNat < cap.slots := by
        rw [hstep]
        exact Nat.mod_lt _ cap.slots_pos
      have hread := item?_of_lt hm hlt
      by_cases hocc : truthy (m.itemAt ((next + 1) % cap.N).toNat) = true
      · refine ⟨1, (next + 1) % cap.N, ?_, Nat.le_add_left _ _, hstep, ?_, ?_⟩
        · simp only [scanNext, hread, Option.bind_eq_bind, Option.bind_some,
            hocc, ↓reduceIte]
        · intro earlier hpos hearlier
          omega
        · intro _
          exact ⟨Nat.one_pos, by rw [← hstep]; exact hocc⟩
      · obtain ⟨steps, found, hscan, hle, hfound, hfree, hend⟩ := ih hlt
        -- positions counted from the advanced cursor, counted from the old one
        have hshift : ∀ k, (((next + 1) % cap.N).toNat + k) % cap.slots =
            (next.toNat + (k + 1)) % cap.slots := by
          intro k
          rw [hstep, Nat.mod_add_mod, Nat.add_right_comm, Nat.add_assoc]
        refine ⟨steps + 1, found, ?_, Nat.succ_le_succ hle, ?_, ?_, ?_⟩
        · simpa only [scanNext, hread, Option.bind_eq_bind, Option.bind_some,
            hocc, Bool.false_eq_true, ↓reduceIte] using hscan
        · rw [hfound, hshift]
        · intro earlier hpos hearlier
          obtain ⟨before, rfl⟩ := Nat.exists_eq_succ_of_ne_zero hpos.ne'
          rcases Nat.eq_zero_or_pos before with rfl | hbefore
          · rw [← hstep]
            exact hocc
          · rw [← hshift]
            exact hfree before hbefore (Nat.lt_of_succ_lt_succ hearlier)
        · intro hrounds
          rw [← hshift]
          exact ⟨Nat.succ_pos _, (hend (Nat.lt_of_succ_lt_succ hrounds)).2⟩

/-- Some slot other than the one at the pop cursor is occupied. -/
def OtherOccupied [MappedType T] (m : CircleMap KEY T cap) : Prop :=
  ∃ slot, slot < cap.slots ∧ slot ≠ m.mPopIndex.toNat ∧ m.Occupied slot

instance [MappedType T] (m : CircleMap KEY T cap) :
    Decidable m.OtherOccupied :=
  decidable_of_iff (∃ slot : Fin cap.slots, slot.val ≠ m.mPopIndex.toNat ∧
      truthy (m.itemAt slot.val) = true)
    ⟨fun ⟨slot, hne, hocc⟩ => ⟨slot.val, slot.isLt, hne, hocc⟩,
      fun ⟨slot, hlt, hne, hocc⟩ => ⟨⟨slot, hlt⟩, hne, hocc⟩⟩

theorem nextAvailableItem_empty [MappedType T] {m : CircleMap KEY T cap}
    (hempty : m.mEmpty = true) :
    m.nextAvailableItem = some (m.mPopIndex, m) := by
  simp [nextAvailableItem, empty, hempty]

/-- With another item in the ring the pop cursor moves to the nearest one
ahead and nothing else changes. -/
theorem nextAvailableItem_advance [MappedType T] {m : CircleMap KEY T cap}
    (hm : m.Ring) (hempty : m.mEmpty = false) (hother : m.OtherOccupied) :
    ∃ steps next, m.nextAvailableItem = some (next, m.advance next) ∧
      0 < steps ∧ steps < cap.slots ∧
      next.toNat = (m.mPopIndex.toNat + steps) % cap.slots ∧
      m.Occupied next.toNat ∧
      ∀ earlier, 0 < earlier → earlier < steps →
        ¬ m.Occupied ((m.mPopIndex.toNat + earlier) % cap.slots) := by
  obtain ⟨steps, next, hscan, hle, hnext, hfree, hend⟩ :=
    scanNext_spec hm cap.N.toNat hm.popLt
  rcases hother with ⟨slot, hslot, hne, hocc⟩
  have harrive := Circular.add_offset hm.popLt hslot
  have hoffset : Circular.offset cap.slots m.mPopIndex.toNat slot ≠ 0 := by
    intro hzero
    rw [hzero, Nat.add_zero, Nat.mod_eq_of_lt hm.popLt] at harrive
    exact hne harrive.symm
  have hlt : steps < cap.slots := by
    refine Nat.lt_of_le_of_ne hle fun hall => ?_
    refine hfree (Circular.offset cap.slots m.mPopIndex.toNat slot)
      (Nat.pos_of_ne_zero hoffset) ?_ (by rw [harrive]; exact hocc)
    rw [hall]
    exact Circular.offset_lt hm.popLt
  obtain ⟨hpos, hfound⟩ := hend hlt
  have hmoved : next ≠ m.mPopIndex := by
    intro hsame
    apply Circular.add_mod_ne_self hm.popLt hpos hlt
    rw [← hnext, hsame]
  refine ⟨steps, next, ?_, hpos, hlt, hnext, ?_, hfree⟩
  · simp [nextAvailableItem, empty, hempty, hscan, hmoved, advance]
  · rw [hnext]
    exact hfound

/-- With no other item the map is marked empty and the pop cursor steps past
the item already processed. -/
theorem nextAvailableItem_drain [MappedType T] {m : CircleMap KEY T cap}
    (hm : m.Ring) (hempty : m.mEmpty = false) (hother : ¬ m.OtherOccupied) :
    m.nextAvailableItem = some ((m.mPopIndex + 1) % cap.N, m.drain) := by
  obtain ⟨steps, next, hscan, hle, hnext, _, hend⟩ :=
    scanNext_spec hm cap.N.toNat hm.popLt
  have hall : steps = cap.slots := by
    refine Nat.le_antisymm hle (Nat.le_of_not_lt fun hlt => hother ?_)
    obtain ⟨hpos, hocc⟩ := hend hlt
    exact ⟨_, Nat.mod_lt _ cap.slots_pos,
      Circular.add_mod_ne_self hm.popLt hpos hlt, hocc⟩
  have hback : next = m.mPopIndex := by
    apply UInt32.toNat_inj.mp
    rw [hnext, hall, Nat.add_mod_right]
    exact Nat.mod_eq_of_lt hm.popLt
  simp [nextAvailableItem, empty, hempty, hscan, hback, drain, updateEmpty]

/-- Whatever it finds, `next_available_item` returns and keeps the sizes. -/
theorem nextAvailableItem_sized [MappedType T] {m : CircleMap KEY T cap}
    (hm : m.Sized) :
    ∃ next after, m.nextAvailableItem = some (next, after) ∧ after.Sized := by
  by_cases hempty : m.mEmpty = true
  · exact ⟨_, _, nextAvailableItem_empty hempty, hm⟩
  · rw [Bool.not_eq_true] at hempty
    by_cases hother : m.OtherOccupied
    · obtain ⟨steps, next, hcall, _, _, hnext, _⟩ :=
        nextAvailableItem_advance hm.ring hempty hother
      refine ⟨_, _, hcall, hm.advance ?_⟩
      rw [hnext]
      exact Nat.mod_lt _ cap.slots_pos
    · exact ⟨_, _, nextAvailableItem_drain hm.ring hempty hother, hm.drain⟩

end CircleMap

end Saigon
