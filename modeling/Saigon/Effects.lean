/-
Where the assignments, lookups and erases of several threads take effect.  An
assignment does when it has read the index of its key or takes a new one, an
erase when it resets its slot, and a lookup, or an erase that finds nothing,
at its last access.  The map is compared with the map of the effects so far,
key by key and thread by thread.
-/
import Saigon.AtomicCalls
import Saigon.SlotDiscipline

namespace Saigon

variable {KEY T : Type} {cap : Capacity}

/-! ### What a thread uses -/

namespace Activity

/-- The key a thread assigns or erases. -/
def writes : Activity KEY T → Option KEY
  | .putting key _ _ => some key
  | .erasing key _ => some key
  | _ => none

/-- The key a thread assigns, erases or looks for. -/
def uses : Activity KEY T → Option KEY
  | .putting key _ _ => some key
  | .finding key _ => some key
  | .erasing key _ => some key
  | _ => none

/-- The slot that an assignment is going to write. -/
def holds : Activity KEY T → Option UInt32
  | .putting _ _ (.insert slot) => some slot
  | .putting _ _ (.store slot) => some slot
  | .putting _ _ (.assign slot) => some slot
  | _ => none

/-- It is about to take a new slot. -/
def Allocates : Activity KEY T → Prop
  | .putting _ _ .pushIndex => True
  | _ => False

instance : ∀ here : Activity KEY T, Decidable here.Allocates
  | .putting _ _ .pushIndex => inferInstanceAs (Decidable True)
  | .putting _ _ (.updateEmpty _) | .putting _ _ (.findInternal _)
  | .putting _ _ (.insert _) | .putting _ _ (.store _) | .putting _ _ (.assign _)
  | .idle | .finding _ _ | .erasing _ _ | .fronting _ | .advancing _
  | .walking _ _ | .testing | .returning _ => inferInstanceAs (Decidable False)

/-- No key that one of them writes is used by the other. -/
structure KeysApart (here other : Activity KEY T) : Prop where
  writes : ∀ key, here.writes = some key → other.uses ≠ some key
  uses : ∀ key, here.uses = some key → other.writes ≠ some key

def Puts : Activity KEY T → Prop
  | .putting _ _ _ => True
  | _ => False

/-- The phase of a call: it is past its effect at the last accesses of an
assignment and of an erase. -/
def phase : Activity KEY T → Atomic.Phase (MapCall KEY T) (Result T)
  | .idle => .idle
  | .putting _ _ (.insert _) => .returning .done
  | .putting _ _ (.store _) => .returning .done
  | .putting _ _ (.assign _) => .returning .done
  | .putting key value _ => .called (.put key value)
  | .finding key _ => .called (.find key)
  | .erasing _ .invalidate => .returning .done
  | .erasing key _ => .called (.erase key)
  | .fronting _ => .called .front
  | .advancing _ => .called .nextAvailableItem
  | .walking ⟨false, some pre⟩ _ => .called (.findIf pre)
  | .walking ⟨true, some pre⟩ _ => .called (.rfindIf pre)
  | .walking ⟨false, none⟩ _ => .called .loopAll
  | .walking ⟨true, none⟩ _ => .called .rloopAll
  | .testing => .called .empty
  | .returning result => .returning result

theorem uses_of_writes {here : Activity KEY T} {key : KEY}
    (hwrites : here.writes = some key) : here.uses = some key := by
  cases here <;> first | exact hwrites | contradiction

theorem KeysApart.symm {here other : Activity KEY T}
    (hapart : here.KeysApart other) : other.KeysApart here := by
  constructor
  case writes =>
    intro key hother hhere
    exact hapart.uses key hhere hother
  case uses =>
    intro key hother hhere
    exact hapart.writes key hhere hother

/-- A call in progress uses no other key after a step, and writes one only if
it wrote it before. -/
theorem KeysApart.of_subset {here next other : Activity KEY T}
    (hapart : here.KeysApart other)
    (hwrites : ∀ key, next.writes = some key → here.writes = some key)
    (huses : ∀ key, next.uses = some key → here.uses = some key) :
    next.KeysApart other := by
  constructor
  case writes => exact fun key hkey => hapart.writes key (hwrites key hkey)
  case uses => exact fun key hkey => hapart.uses key (huses key hkey)

end Activity

namespace CircleMap

variable [MappedType T]

/-! ### The map beside the map of the effects -/

/-- The maps agree about a key and the item in its slot. -/
structure Agrees (m a : CircleMap KEY T cap) (key : KEY) : Prop where
  index : m.mKeys key = a.mKeys key
  item : ∀ slot, a.slotOf key = some slot →
    m.itemAt slot.toNat = a.itemAt slot.toNat

/-- The map `a` of the effects has the cursors of `m` and is tidy.  It is marked
empty where `m` is, and only while no key has a slot. -/
structure Follows (m a : CircleMap KEY T cap) : Prop where
  sized : m.Sized
  tidy : a.Tidy
  marked : a.mEmpty = true → ∀ key, a.slotOf key = none
  flag : m.mEmpty = true → a.mEmpty = true
  pushIndex : m.mPushIndex = a.mPushIndex
  popIndex : m.mPopIndex = a.mPopIndex

/-- An index that a lookup is about to return is a slot. -/
def Tested (m : CircleMap KEY T cap) (key : KEY) : FindInternalPoint → Prop
  | .read => m.slotOf key ≠ none
  | _ => True

/-- What an assignment knows: nothing has changed under its key before its
effect, and after it the map of the effects has its value. -/
def PutInStep (m a : CircleMap KEY T cap) (key : KEY) (value : T) :
    PutPoint → Prop
  | .updateEmpty _ => m.Agrees a key
  | .findInternal point =>
      m.Agrees a key ∧ m.mEmpty = false ∧ m.Tested key point
  | .pushIndex => m.Agrees a key ∧ m.mEmpty = false ∧ a.slotOf key = none
  | .insert slot => a.slotOf key = some slot ∧ a.itemAt slot.toNat = value
  | .store slot => a.slotOf key = some slot ∧ a.itemAt slot.toNat = value
  | .assign slot => m.mKeys key = a.mKeys key ∧ a.slotOf key = some slot ∧
      a.itemAt slot.toNat = value

def FindInStep (m a : CircleMap KEY T cap) (key : KEY) : FindPoint → Prop
  | .findInternal point => m.Agrees a key ∧ m.Tested key point
  | .read slot => m.Agrees a key ∧ a.slotOf key = some slot

def EraseInStep (m a : CircleMap KEY T cap) (key : KEY) : ErasePoint → Prop
  | .find => m.Agrees a key
  | .test => m.Agrees a key
  | .subscript => m.Agrees a key ∧ m.slotOf key ≠ none
  | .reset slot => m.Agrees a key ∧ a.slotOf key = some slot
  | .invalidate => a.mKeys key = some cap.invalidIndex

/-- What a thread knows of the two maps. -/
def InStep (m a : CircleMap KEY T cap) : Activity KEY T → Prop
  | .idle => True
  | .returning _ => True
  | .putting key value point => m.PutInStep a key value point
  | .finding key point => m.FindInStep a key point
  | .erasing key point => m.EraseInStep a key point
  | _ => False

/-- What a step that uses `key` changes: at most the index of this key and the
items of the slots it has before and after. -/
structure Footprint (key : KEY) (m a after followed : CircleMap KEY T cap) :
    Prop where
  keys : ∀ other, other ≠ key → after.mKeys other = m.mKeys other
  effectKeys : ∀ other, other ≠ key → followed.mKeys other = a.mKeys other
  items : ∀ pos, (∀ slot, a.slotOf key = some slot → slot.toNat ≠ pos) →
    after.itemAt pos = m.itemAt pos
  effectItems : ∀ pos, (∀ slot, a.slotOf key = some slot → slot.toNat ≠ pos) →
    (∀ slot, followed.slotOf key = some slot → slot.toNat ≠ pos) →
    followed.itemAt pos = a.itemAt pos
  freed : ∀ slot, a.slotOf key = some slot → followed.slotOf key ≠ some slot →
    after.itemAt slot.toNat = followed.itemAt slot.toNat
  flag : after.mEmpty = true → m.mEmpty = true

variable {m a after followed : CircleMap KEY T cap} {key : KEY}

omit [MappedType T] in
theorem slotOf_congr {m after : CircleMap KEY T cap}
    (hkeys : after.mKeys key = m.mKeys key) : after.slotOf key = m.slotOf key := by
  rw [slotOf, hkeys, slotOf]

theorem Agrees.slotOf (hagrees : m.Agrees a key) : m.slotOf key = a.slotOf key :=
  slotOf_congr hagrees.index

namespace Footprint

theorem refl (key : KEY) (m a : CircleMap KEY T cap) :
    Footprint key m a m a := by
  constructor
  case freed => exact fun slot hslot hne => absurd hslot hne
  case flag => exact id
  all_goals intros; rfl

/-- Another key keeps its slot, and the items there stay. -/
theorem other (hprint : Footprint key m a after followed) (ha : a.UniqueSlots)
    (hfollowed : followed.UniqueSlots) {other : KEY} (hne : other ≠ key) :
    followed.slotOf other = a.slotOf other ∧
      ∀ slot, a.slotOf other = some slot →
        after.itemAt slot.toNat = m.itemAt slot.toNat ∧
          followed.itemAt slot.toNat = a.itemAt slot.toNat := by
  have hsame : followed.slotOf other = a.slotOf other :=
    slotOf_congr (hprint.effectKeys other hne)
  have haway : ∀ {map : CircleMap KEY T cap} {slot : UInt32}, map.UniqueSlots →
      map.slotOf other = some slot →
      ∀ found, map.slotOf key = some found → found.toNat ≠ slot.toNat := by
    intro map slot hmap hother found hfound heq
    rw [UInt32.toNat_inj.mp heq] at hfound
    exact hne (hmap other key slot hother hfound)
  constructor
  · exact hsame
  · intro slot hslot
    have hbefore := haway ha hslot
    have hafter := haway hfollowed (hsame.trans hslot)
    exact ⟨hprint.items _ hbefore, hprint.effectItems _ hbefore hafter⟩

theorem agrees (hprint : Footprint key m a after followed) (ha : a.UniqueSlots)
    (hfollowed : followed.UniqueSlots) {other : KEY} (hne : other ≠ key)
    (hagrees : m.Agrees a other) : after.Agrees followed other := by
  obtain ⟨hslot, hitems⟩ := hprint.other ha hfollowed hne
  constructor
  case index =>
    rw [hprint.keys other hne, hprint.effectKeys other hne, hagrees.index]
  case item =>
    intro slot hother
    rw [hslot] at hother
    obtain ⟨hm, hfollowed⟩ := hitems slot hother
    rw [hm, hfollowed, hagrees.item slot hother]

/-- A thread that uses another key stays in step. -/
theorem inStep (hprint : Footprint key m a after followed) (ha : a.UniqueSlots)
    (hfollowed : followed.UniqueSlots) {other : Activity KEY T}
    (hne : other.uses ≠ some key) (hother : m.InStep a other) :
    after.InStep followed other := by
  have hdiffers : ∀ key', other.uses = some key' → key' ≠ key := by
    intro key' huses heq
    exact hne (heq ▸ huses)
  have hflag : m.mEmpty = false → after.mEmpty = false := by
    intro hm
    by_contra hafter
    rw [Bool.not_eq_false] at hafter
    rw [hprint.flag hafter] at hm
    contradiction
  cases other with
  | idle => trivial
  | returning result => trivial
  | putting key' value point =>
      have haside := hdiffers key' rfl
      obtain ⟨hslot, hitems⟩ := hprint.other ha hfollowed haside
      have hagrees := fun h => hprint.agrees ha hfollowed haside h
      have hown := slotOf_congr (hprint.keys key' haside)
      have heffect : ∀ slot, a.slotOf key' = some slot ∧ a.itemAt slot.toNat = value →
          followed.slotOf key' = some slot ∧ followed.itemAt slot.toNat = value := by
        rintro slot ⟨hkey, hvalue⟩
        exact ⟨hslot.trans hkey, (hitems slot hkey).2.trans hvalue⟩
      cases point with
      | updateEmpty point => exact hagrees hother
      | findInternal point =>
          obtain ⟨hagree, hempty, htested⟩ := hother
          refine ⟨hagrees hagree, hflag hempty, ?_⟩
          cases point with
          | read =>
              rw [Tested, hown]
              exact htested
          | _ => trivial
      | pushIndex =>
          obtain ⟨hagree, hempty, hnone⟩ := hother
          exact ⟨hagrees hagree, hflag hempty, hslot.trans hnone⟩
      | insert slot => exact heffect slot hother
      | store slot => exact heffect slot hother
      | assign slot =>
          obtain ⟨hkey, hhere⟩ := hother
          refine ⟨?_, heffect slot hhere⟩
          rw [hprint.keys key' haside, hprint.effectKeys key' haside, hkey]
  | finding key' point =>
      have haside := hdiffers key' rfl
      obtain ⟨hslot, _⟩ := hprint.other ha hfollowed haside
      have hown := slotOf_congr (hprint.keys key' haside)
      cases point with
      | findInternal point =>
          obtain ⟨hagree, htested⟩ := hother
          refine ⟨hprint.agrees ha hfollowed haside hagree, ?_⟩
          cases point with
          | read =>
              rw [Tested, hown]
              exact htested
          | _ => trivial
      | read slot =>
          exact ⟨hprint.agrees ha hfollowed haside hother.1, hslot.trans hother.2⟩
  | erasing key' point =>
      have haside := hdiffers key' rfl
      obtain ⟨hslot, _⟩ := hprint.other ha hfollowed haside
      have hagrees := fun h => hprint.agrees ha hfollowed haside h
      have hown := slotOf_congr (hprint.keys key' haside)
      cases point with
      | find => exact hagrees hother
      | test => exact hagrees hother
      | subscript =>
          refine ⟨hagrees hother.1, ?_⟩
          rw [hown]
          exact hother.2
      | reset slot => exact ⟨hagrees hother.1, hslot.trans hother.2⟩
      | invalidate => exact (hprint.effectKeys key' haside).trans hother
  | _ => exact hother.elim

/-- The slots that no key has hold the same items. -/
theorem free (hprint : Footprint key m a after followed)
    (hfree : ∀ pos, (∀ other slot, a.slotOf other = some slot →
      slot.toNat ≠ pos) → m.itemAt pos = a.itemAt pos) {pos : Nat}
    (hpos : ∀ other slot, followed.slotOf other = some slot → slot.toNat ≠ pos) :
    after.itemAt pos = followed.itemAt pos := by
  by_cases hkey : ∃ slot, a.slotOf key = some slot ∧ slot.toNat = pos
  · obtain ⟨slot, hslot, rfl⟩ := hkey
    apply hprint.freed slot hslot
    intro hfollowed
    exact hpos key slot hfollowed rfl
  · have hbefore : ∀ slot, a.slotOf key = some slot → slot.toNat ≠ pos := by
      intro slot hslot heq
      exact hkey ⟨slot, hslot, heq⟩
    rw [hprint.items pos hbefore, hprint.effectItems pos hbefore (hpos key)]
    apply hfree
    intro other slot hslot
    by_cases heq : other = key
    · exact hbefore slot (heq ▸ hslot)
    · apply hpos other slot
      rw [slotOf_congr (hprint.effectKeys other heq), hslot]

end Footprint

section Changes

variable [DecidableEq KEY] {value : T}

omit [DecidableEq KEY] in
/-- Where a key has a slot, the map of the effects is not marked empty. -/
theorem Follows.not_empty (hm : m.Follows a) {slot : UInt32}
    (hslot : a.slotOf key = some slot) : a.mEmpty = false := by
  by_contra hempty
  rw [Bool.not_eq_false] at hempty
  rw [hm.marked hempty key] at hslot
  contradiction

/-! ### The changes of the two maps -/

omit [DecidableEq KEY] in
theorem Follows.updateEmpty (hm : m.Follows a) :
    (m.updateEmpty false).Follows a := by
  constructor
  case sized => exact hm.sized.updateEmpty false
  case tidy => exact hm.tidy
  case marked => exact hm.marked
  case flag =>
    intro hempty
    contradiction
  case pushIndex => exact hm.pushIndex
  case popIndex => exact hm.popIndex

omit [DecidableEq KEY] in
theorem Footprint.updateEmpty (key : KEY) (m a : CircleMap KEY T cap) :
    Footprint key m a (m.updateEmpty false) a := by
  have hsame := Footprint.refl key m a
  constructor
  case keys => exact hsame.keys
  case effectKeys => exact hsame.effectKeys
  case items => exact hsame.items
  case effectItems => exact hsame.effectItems
  case freed => exact hsame.freed
  case flag =>
    intro hempty
    contradiction

/-- The index of the key changes, and nothing else. -/
theorem Follows.storeIndex (hm : m.Follows a) (key : KEY) {index : UInt32}
    (hindex : index.toNat < cap.slots ∨ index = cap.invalidIndex) :
    (m.storeIndex key index).Follows a :=
  ⟨hm.sized.storeIndex key hindex, hm.tidy, hm.marked, hm.flag, hm.pushIndex,
    hm.popIndex⟩

theorem Footprint.storeIndex (m a : CircleMap KEY T cap) (key : KEY)
    (index : UInt32) : Footprint key m a (m.storeIndex key index) a := by
  have hsame := Footprint.refl key m a
  constructor
  case keys =>
    intro other hne
    rw [storeIndex_mKeys, Function.update_of_ne hne]
  case effectKeys => exact hsame.effectKeys
  case items => exact hsame.items
  case effectItems => exact hsame.effectItems
  case freed => exact hsame.freed
  case flag => exact hsame.flag

omit [MappedType T] in
theorem insertKey_eq (m : CircleMap KEY T cap) (key : KEY) :
    m.insertKey key = m.storeIndex key ((m.mKeys key).getD 0) := rfl

omit [DecidableEq KEY] [MappedType T] in
/-- What `mKeys[key]` yields is a slot or the tombstone. -/
theorem Sized.insertKey_index (hm : m.Sized) (key : KEY) :
    ((m.mKeys key).getD 0).toNat < cap.slots ∨
      (m.mKeys key).getD 0 = cap.invalidIndex := by
  cases hkey : m.mKeys key with
  | none => exact Or.inl cap.slots_pos
  | some index => exact hm.indicesInRange.stored key index hkey

omit [DecidableEq KEY] in
theorem Follows.store (hm : m.Follows a) (slot : UInt32) (value : T) :
    (m.store slot value).Follows a :=
  ⟨hm.sized.store slot value, hm.tidy, hm.marked, hm.flag, hm.pushIndex,
    hm.popIndex⟩

omit [DecidableEq KEY] in
theorem Footprint.store (hm : m.Follows a) {slot : UInt32}
    (hslot : a.slotOf key = some slot) (value : T) :
    Footprint key m a (m.store slot value) a := by
  have hsame := Footprint.refl key m a
  constructor
  case keys => exact hsame.keys
  case effectKeys => exact hsame.effectKeys
  case items =>
    intro pos hpos
    have hlt := hm.tidy.slotLt key slot hslot
    rw [store_itemAt hm.sized hlt, if_neg (Ne.symm (hpos slot hslot))]
  case effectItems => exact hsame.effectItems
  case freed => exact fun found hfound hne => absurd hfound hne
  case flag => exact hsame.flag

/-- The map of the effects after an assignment, while the value has not been
stored yet. -/
theorem Follows.assigned (hm : m.Follows a) (hroom : a.HasRoom key)
    (hmark : m.mEmpty = false) {push : UInt32}
    (hpush : push = (a.place key).mPushIndex) (value : T) :
    Follows { m with mPushIndex := push } (a.assigned key value) := by
  constructor
  case sized => exact ⟨hm.sized.dataLength, hm.sized.popLt, hm.sized.slotLt⟩
  case tidy => exact hm.tidy.assigned hroom value
  case marked =>
    intro hempty
    rw [assigned_mEmpty] at hempty
    contradiction
  case flag =>
    intro hempty
    rw [hmark] at hempty
    contradiction
  case pushIndex => exact hpush
  case popIndex => rw [assigned_mPopIndex, ← hm.popIndex]

omit [MappedType T] in
theorem assigned_mKeys (a : CircleMap KEY T cap) (key : KEY) (value : T) :
    (a.assigned key value).mKeys =
      Function.update a.mKeys key (some (a.placeSlot key)) := by
  cases hslot : a.slotOf key with
  | none =>
      change (a.place key).mKeys = _
      rw [place, if_pos hslot, placeSlot, hslot, Option.getD_none]
      rfl
  | some slot =>
      have hkey := ((slotOf_eq_some_iff a key slot).mp hslot).1
      have hne : a.slotOf key ≠ none := by simp [hslot]
      change (a.place key).mKeys = _
      rw [place, if_neg hne, placeSlot, hslot, Option.getD_some, ← hkey,
        Function.update_eq_self]
      rfl

theorem Footprint.assigned (hm : m.Follows a) (key : KEY) (value : T)
    (push : UInt32) :
    Footprint key m a { m with mPushIndex := push } (a.assigned key value) := by
  have hplace : (a.assigned key value).slotOf key = some (a.placeSlot key) := by
    rw [assigned_slotOf, if_pos rfl]
  constructor
  case keys => exact fun _ _ => rfl
  case effectKeys =>
    intro other hne
    rw [assigned_mKeys, Function.update_of_ne hne]
  case items => exact fun _ _ => rfl
  case effectItems =>
    intro pos _ hpos
    rw [assigned_itemAt hm.tidy.toSized, if_neg]
    exact Ne.symm (hpos _ hplace)
  case freed =>
    intro slot hslot hne
    have hsame : a.placeSlot key = slot := by
      rw [placeSlot, hslot, Option.getD_some]
    rw [hplace, hsame] at hne
    contradiction
  case flag => exact id

/-- The map of the effects after an erase, while the key still has its slot. -/
theorem Follows.without (hm : m.Follows a) {slot : UInt32}
    (hslot : a.slotOf key = some slot) :
    (m.store slot emptyItem).Follows (a.without key) := by
  constructor
  case sized => exact hm.sized.store slot emptyItem
  case tidy => exact hm.tidy.without key
  case marked =>
    intro hempty
    rw [without_mEmpty, hm.not_empty hslot] at hempty
    contradiction
  case flag =>
    intro hempty
    rw [without_mEmpty]
    exact hm.flag hempty
  case pushIndex => exact hm.pushIndex.trans (without_mPushIndex a key).symm
  case popIndex => exact hm.popIndex.trans (without_mPopIndex a key).symm

theorem without_mKeys {slot : UInt32} (hslot : a.slotOf key = some slot) :
    (a.without key).mKeys =
      Function.update a.mKeys key (some cap.invalidIndex) := by
  rw [without, hslot]
  rfl

theorem Footprint.without (hm : m.Follows a) {slot : UInt32}
    (hslot : a.slotOf key = some slot) :
    Footprint key m a (m.store slot emptyItem) (a.without key) := by
  have hlt := hm.tidy.slotLt key slot hslot
  constructor
  case keys => exact fun _ _ => rfl
  case effectKeys =>
    intro other hne
    rw [without_mKeys hslot, Function.update_of_ne hne]
  case items =>
    intro pos hpos
    rw [store_itemAt hm.sized hlt, if_neg (Ne.symm (hpos slot hslot))]
  case effectItems =>
    intro pos hpos _
    rw [without_itemAt hm.tidy.toSized, if_neg]
    rw [hslot, Option.map_some, Option.some.injEq]
    exact hpos slot hslot
  case freed =>
    intro found hfound _
    rw [hslot, Option.some.injEq] at hfound
    subst hfound
    rw [store_itemAt hm.sized hlt, if_pos rfl, without_itemAt hm.tidy.toSized,
      if_pos (by rw [hslot, Option.map_some])]
  case flag => exact id

end Changes

end CircleMap

end Saigon
