/-
Erasing out of order.  `erase` empties slots without moving the pop cursor,
and the push cursor keeps going round, so slot order from the pop cursor is
insertion order exactly as long as the push cursor does not lap the pop
cursor: no insertion is given its slot while a key is live.
-/
import Saigon.SlotDiscipline
import Saigon.Support.Ledger

namespace Saigon

/-- Inserting a key, cancelling one out of order, consuming one in order. -/
inductive OrderStep (KEY T : Type) where
  | insert (key : KEY) (value : T)
  | erase (key : KEY)
  | consume (key : KEY)

/-- The map beside its live entries in insertion order. -/
structure OrderRun (KEY T : Type) (cap : Capacity) where
  map : CircleMap KEY T cap
  live : Ledger KEY T
  allocated : Nat

/-- The first truthy slot at or after the pop cursor in circular order. -/
def CircleMap.firstOccupied {KEY T : Type} {cap : Capacity} [MappedType T]
    (m : CircleMap KEY T cap) : Option Nat :=
  Circular.firstFrom cap.slots m.mPopIndex.toNat fun pos => truthy (m.itemAt pos)

/-- How far behind the pop cursor a slot lies in circular order. -/
def CircleMap.behindPop {KEY T : Type} {cap : Capacity}
    (m : CircleMap KEY T cap) (slot : UInt32) : Nat :=
  Circular.offset cap.slots m.mPopIndex.toNat slot.toNat

/-- How many steps lead from the pop cursor on to the push cursor. -/
def CircleMap.popToPush {KEY T : Type} {cap : Capacity}
    (m : CircleMap KEY T cap) : Nat :=
  Circular.stepsTo cap.slots m.mPopIndex.toNat m.pushSlot.toNat

variable {KEY T : Type} {cap : Capacity} [DecidableEq KEY] [MappedType T]

def orderStart : OrderRun KEY T cap := ⟨CircleMap.fresh, Ledger.empty, 0⟩

def orderStep (s : OrderRun KEY T cap) :
    OrderStep KEY T → Option (OrderRun KEY T cap)
  | .insert key value => do
      let map ← s.map.put key value
      some
        { map := map
          live := s.live.assign key value
          allocated := s.allocated + if s.map.Misses key then 1 else 0 }
  | .erase key => do
      let map ← s.map.erase key
      some { s with map := map, live := s.live.erase key }
  | .consume key => do
      let map ← s.map.erase key
      let (_, map) ← map.nextAvailableItem
      some { s with map := map, live := s.live.erase key }

/-- Insert truthy values under keys that are not live, below capacity and
never over a live slot; erase live keys; consume the key at the first truthy
slot; allocate fewer than `2^32` slots. -/
def Cancellable (s : OrderRun KEY T cap) : OrderStep KEY T → Prop
  | .insert key value => key ∉ s.live.keys ∧ truthy value = true ∧
      s.live.length < cap.slots ∧
      (∀ other ∈ s.live.keys, s.map.slotOf other ≠ some s.map.pushSlot) ∧
      s.allocated + 1 < 4294967296
  | .erase key => key ∈ s.live.keys
  | .consume key => key ∈ s.live.keys ∧
      ∀ slot ∈ s.map.slotOf key, s.map.firstOccupied = some slot.toNat

/-- No insertion is given the slot at the pop cursor while a key is live. -/
def ClearOfPop (s : OrderRun KEY T cap) : OrderStep KEY T → Prop
  | .insert _ _ => s.live.keys ≠ [] → s.map.pushSlot ≠ s.map.mPopIndex
  | .erase _ => True
  | .consume _ => True

/-- The first truthy slot from the pop cursor on holds the oldest entry. -/
def OldestFirst (s : OrderRun KEY T cap) : Prop :=
  ∀ key value rest, s.live.entries = (key, value) :: rest →
    ∃ slot, s.map.slotOf key = some slot ∧
      s.map.itemAt slot.toNat = value ∧
      s.map.firstOccupied = some slot.toNat

/-- Seen from the pop cursor the live entries lie in insertion order, all of
them before the push cursor comes. -/
structure SlotOrdered (s : OrderRun KEY T cap) : Prop where
  tidy : s.map.Tidy
  entries : s.map.entry = s.live.lookup
  pushCursor : s.map.mPushIndex.toNat = s.allocated
  behind : ∀ key slot, s.map.slotOf key = some slot →
    s.map.behindPop slot < s.map.popToPush
  truthyValues : ∀ key value, s.live.lookup key = some value →
    truthy value = true
  ordered : s.live.keys.Pairwise fun older newer =>
    ∀ first second, s.map.slotOf older = some first →
      s.map.slotOf newer = some second →
      s.map.behindPop first < s.map.behindPop second
  flag : ∀ key, key ∈ s.live.keys → s.map.mEmpty = false

theorem orderStart_ordered : SlotOrdered (orderStart : OrderRun KEY T cap) where
  tidy := CircleMap.fresh_tidy
  entries := rfl
  pushCursor := rfl
  behind := by
    intro key slot hslot
    contradiction
  truthyValues := by
    intro key value hlookup
    contradiction
  ordered := List.Pairwise.nil
  flag := by
    intro key hkey
    contradiction

namespace SlotOrdered

variable {s : OrderRun KEY T cap}

theorem mem_keys_iff (hs : SlotOrdered s) (key : KEY) :
    key ∈ s.live.keys ↔ ∃ slot, s.map.slotOf key = some slot :=
  CircleMap.mem_recorded_iff hs.entries key

/-- The slot of a live key is occupied. -/
theorem occupied (hs : SlotOrdered s) {key : KEY} {slot : UInt32}
    (hslot : s.map.slotOf key = some slot) : s.map.Occupied slot.toNat := by
  apply hs.truthyValues key
  rw [← hs.entries, CircleMap.entry_of_slotOf hslot]

theorem oldestFirst (hs : SlotOrdered s)
    (hfalsy : truthy (emptyItem : T) = false) : OldestFirst s := by
  intro key value rest hentries
  have hmem : (key, value) ∈ s.live.entries := by
    rw [hentries]
    exact List.mem_cons_self
  obtain ⟨slot, hslot⟩ :=
    (hs.mem_keys_iff key).mp (Ledger.mem_keys_of_mem hmem)
  have hlookup := Ledger.lookup_of_mem hmem
  rw [← hs.entries, CircleMap.entry_of_slotOf hslot, Option.some.injEq] at hlookup
  refine ⟨slot, hslot, hlookup, ?_⟩
  apply Circular.firstFrom_eq_some (p := fun pos => truthy (s.map.itemAt pos))
    hs.tidy.popLt (hs.tidy.slotLt key slot hslot) (hs.occupied hslot)
  intro pos hpos hocc
  obtain ⟨other, found, hfound, rfl⟩ := hs.tidy.occupied_named hfalsy hpos hocc
  have hother := (hs.mem_keys_iff other).mpr ⟨found, hfound⟩
  have hordered := hs.ordered
  rw [Ledger.keys, hentries, List.map_cons, List.pairwise_cons] at hordered
  rw [Ledger.keys, hentries, List.map_cons, List.mem_cons] at hother
  rcases hother with rfl | hother
  · rw [hslot, Option.some.injEq] at hfound
    rw [hfound]
  · exact (hordered.1 other hother slot found hslot hfound).le

theorem slotOf_eq_none (hs : SlotOrdered s) {key : KEY}
    (hkey : key ∉ s.live.keys) : s.map.slotOf key = none := by
  by_contra hfound
  exact hkey ((hs.mem_keys_iff key).mpr (Option.ne_none_iff_exists'.mp hfound))

/-- A slot clear of the pop cursor lies behind the slots of all live keys. -/
theorem lands_behind (hs : SlotOrdered s) {key : KEY} {value : T}
    (hclear : ClearOfPop s (.insert key value)) :
    ∀ other slot, s.map.slotOf other = some slot →
      s.map.behindPop slot < s.map.behindPop s.map.pushSlot := by
  intro other slot hslot
  have hother := (hs.mem_keys_iff other).mpr ⟨slot, hslot⟩
  have hne : s.map.pushSlot.toNat ≠ s.map.mPopIndex.toNat :=
    mt UInt32.toNat_inj.mp (hclear (List.ne_nil_of_mem hother))
  have hlap := hs.behind other slot hslot
  rwa [CircleMap.popToPush, Circular.stepsTo_eq_offset hs.tidy.popLt
    s.map.pushSlot_lt hne] at hlap

/-- An allocation moves the push cursor one step on from the slot given. -/
theorem popToPush_assigned (hs : SlotOrdered s) {key : KEY} (value : T)
    (hslot : s.map.slotOf key = none)
    (hcount : s.allocated + 1 < 4294967296) :
    (s.map.assigned key value).popToPush =
      s.map.behindPop s.map.pushSlot + 1 := by
  have hmiss := (CircleMap.misses_iff hs.tidy.toSized key).mpr hslot
  have hcursor := CircleMap.place_pushCursor hs.tidy.toSized hs.pushCursor
    fun _ : s.map.Misses key => hcount
  rw [if_pos hmiss] at hcursor
  rw [CircleMap.popToPush, CircleMap.assigned_mPopIndex,
    CircleMap.pushSlot_toNat, CircleMap.assigned_mPushIndex, hcursor,
    ← hs.pushCursor, ← Nat.mod_add_mod, ← CircleMap.pushSlot_toNat]
  exact Circular.stepsTo_succ hs.tidy.popLt s.map.pushSlot_lt

/-- A key that lands behind the live ones is the newest in slot order too. -/
theorem ordered_assigned (hs : SlotOrdered s) {key : KEY} {value : T}
    (hkey : key ∉ s.live.keys) (hslot : s.map.slotOf key = none)
    (hclear : ClearOfPop s (.insert key value)) :
    (s.live.keys ++ [key]).Pairwise fun older newer => ∀ first second,
      (s.map.assigned key value).slotOf older = some first →
      (s.map.assigned key value).slotOf newer = some second →
      (s.map.assigned key value).behindPop first <
        (s.map.assigned key value).behindPop second := by
  have hold : ∀ other ∈ s.live.keys,
      (s.map.assigned key value).slotOf other = s.map.slotOf other := by
    intro other hother
    have hne : other ≠ key := by
      rintro rfl
      exact hkey hother
    rw [CircleMap.assigned_slotOf, if_neg hne]
  have hnew : (s.map.assigned key value).slotOf key = some s.map.pushSlot := by
    rw [CircleMap.assigned_slotOf, if_pos rfl, CircleMap.placeSlot, hslot,
      Option.getD_none]
  have hpop : ∀ slot, (s.map.assigned key value).behindPop slot =
      s.map.behindPop slot := by
    intro slot
    rw [CircleMap.behindPop, CircleMap.assigned_mPopIndex, CircleMap.behindPop]
  rw [List.pairwise_append]
  refine ⟨?_, List.pairwise_singleton _ _, ?_⟩
  · apply hs.ordered.imp_of_mem
    intro older newer holder hnewer hlt first second hfirst hsecond
    rw [hold older holder] at hfirst
    rw [hold newer hnewer] at hsecond
    rw [hpop, hpop]
    exact hlt first second hfirst hsecond
  · intro older holder newer hnewer first second hfirst hsecond
    rw [List.mem_singleton] at hnewer
    subst hnewer
    rw [hold older holder] at hfirst
    rw [hnew, Option.some.injEq] at hsecond
    rw [hpop, hpop, ← hsecond]
    exact hs.lands_behind hclear older first hfirst

theorem insert (hs : SlotOrdered s) {key : KEY} {value : T}
    (hok : Cancellable s (.insert key value))
    (hclear : ClearOfPop s (.insert key value)) :
    ∃ after, orderStep s (.insert key value) = some after ∧
      SlotOrdered after := by
  rcases hok with ⟨hkey, htruthy, _, hfree, hcount⟩
  have hslot := hs.slotOf_eq_none hkey
  have hroom : s.map.HasRoom key := by
    intro _ other hother
    exact hfree other ((hs.mem_keys_iff other).mpr ⟨_, hother⟩) hother
  refine ⟨_, by rw [orderStep, CircleMap.put_eq hs.tidy.toSized]; rfl, ?_⟩
  constructor
  case tidy => exact hs.tidy.assigned hroom value
  case entries =>
    exact CircleMap.entry_assigned_recorded hs.tidy hs.entries hroom value
  case pushCursor =>
    exact CircleMap.place_pushCursor hs.tidy.toSized hs.pushCursor
      fun _ => hcount
  case behind =>
    intro other slot hother
    rw [hs.popToPush_assigned value hslot hcount, CircleMap.behindPop,
      CircleMap.assigned_mPopIndex]
    rw [CircleMap.assigned_slotOf, CircleMap.placeSlot, hslot,
      Option.getD_none] at hother
    apply Nat.lt_succ_of_le
    split at hother
    · cases hother
      exact Nat.le_refl _
    · exact (hs.lands_behind hclear other slot hother).le
  case truthyValues =>
    exact Ledger.forall_lookup_assign hs.truthyValues htruthy key
  case ordered =>
    rw [Ledger.keys_assign_of_not_mem hkey value]
    exact hs.ordered_assigned hkey hslot hclear
  case flag =>
    intro other _
    exact CircleMap.assigned_mEmpty _ _ _

/-- Erasing keeps the order of what is left. -/
theorem without (hs : SlotOrdered s) (key : KEY) :
    SlotOrdered { s with map := s.map.without key, live := s.live.erase key } := by
  have hsub : (s.live.erase key).keys.Sublist s.live.keys :=
    (Ledger.entries_erase_sublist s.live key).map Prod.fst
  constructor
  case tidy => exact hs.tidy.without key
  case entries => exact CircleMap.entry_without_recorded hs.tidy hs.entries key
  case pushCursor => exact (congrArg UInt32.toNat
    (CircleMap.without_mPushIndex s.map key)).trans hs.pushCursor
  case behind =>
    intro other slot hother
    rw [CircleMap.without_slotOf] at hother
    split at hother
    · contradiction
    · rw [CircleMap.behindPop, CircleMap.without_mPopIndex, CircleMap.popToPush,
        CircleMap.without_mPopIndex, CircleMap.pushSlot,
        CircleMap.without_mPushIndex]
      exact hs.behind other slot hother
  case truthyValues =>
    intro other found hlookup
    exact hs.truthyValues other found (Ledger.lookup_of_lookup_erase hlookup)
  case ordered =>
    apply (hs.ordered.sublist hsub).imp
    intro older newer hlt first second hfirst hsecond
    rw [CircleMap.without_slotOf] at hfirst hsecond
    split at hfirst
    · contradiction
    · split at hsecond
      · contradiction
      · rw [CircleMap.behindPop, CircleMap.behindPop,
          CircleMap.without_mPopIndex]
        exact hlt first second hfirst hsecond
  case flag =>
    intro other hother
    rw [CircleMap.without_mEmpty]
    exact hs.flag other (hsub.subset hother)

/-- Moving the pop cursor over free slots keeps the order. -/
theorem advance (hs : SlotOrdered s) {steps : Nat} {next : UInt32}
    (hnext : next.toNat = (s.map.mPopIndex.toNat + steps) % cap.slots)
    (hskip : ∀ key slot, s.map.slotOf key = some slot →
      steps ≤ s.map.behindPop slot) :
    SlotOrdered { s with map := s.map.advance next } := by
  have hlt : next.toNat < cap.slots := by
    rw [hnext]
    exact Nat.mod_lt _ cap.slots_pos
  have hrotate : ∀ key slot, s.map.slotOf key = some slot →
      (s.map.advance next).behindPop slot = s.map.behindPop slot - steps := by
    intro key slot hslot
    rw [CircleMap.behindPop, CircleMap.advance_mPopIndex, hnext]
    exact Circular.offset_rotate hs.tidy.popLt (hs.tidy.slotLt key slot hslot)
      (hskip key slot hslot)
  refine ⟨hs.tidy.advance hlt, hs.entries, hs.pushCursor, ?_,
    hs.truthyValues, ?_, hs.flag⟩
  · intro key slot hslot
    have hskipped := hskip key slot hslot
    have hbefore := hs.behind key slot hslot
    have hpush : (s.map.advance next).popToPush =
        s.map.popToPush - steps := by
      rw [CircleMap.popToPush, CircleMap.advance_mPopIndex, hnext]
      exact Circular.stepsTo_rotate s.map.pushSlot_lt
        (Nat.lt_of_le_of_lt hskipped hbefore)
    rw [hrotate key slot hslot, hpush]
    omega
  · apply hs.ordered.imp
    intro older newer hbefore first second hfirst hsecond
    rw [hrotate older first hfirst, hrotate newer second hsecond]
    have hskipped := hskip older first hfirst
    have hless := hbefore first second hfirst hsecond
    omega

/-- `next_available_item` keeps the order when no live entry is left at the
pop cursor. -/
theorem next (hs : SlotOrdered s) (hempty : s.map.mEmpty = false)
    (hcursor : ∀ key slot, s.map.slotOf key = some slot →
      s.map.behindPop slot ≠ 0) :
    ∃ found map, s.map.nextAvailableItem = some (found, map) ∧
      SlotOrdered { s with map := map } := by
  have hsized := hs.tidy.toSized
  by_cases hother : s.map.OtherOccupied
  · obtain ⟨steps, next, hcall, hpos, _, hnext, _, hfree⟩ :=
      CircleMap.nextAvailableItem_advance hsized.ring hempty hother
    refine ⟨_, _, hcall, hs.advance hnext ?_⟩
    intro key slot hslot
    by_contra hshort
    apply hfree (s.map.behindPop slot)
      (Nat.pos_of_ne_zero (hcursor key slot hslot)) (Nat.lt_of_not_le hshort)
    rw [CircleMap.behindPop, Circular.add_offset hsized.popLt
      (hsized.slotLt key slot hslot)]
    exact hs.occupied hslot
  · have hnone : ∀ key, s.map.slotOf key = none := by
      intro key
      by_contra hfound
      obtain ⟨slot, hslot⟩ := Option.ne_none_iff_exists'.mp hfound
      refine hother ⟨slot.toNat, hsized.slotLt key slot hslot, ?_,
        hs.occupied hslot⟩
      intro hsame
      apply hcursor key slot hslot
      rw [CircleMap.behindPop, hsame]
      exact Circular.offset_self hsized.popLt
    refine ⟨_, _, CircleMap.nextAvailableItem_drain hsized.ring hempty hother,
      hs.tidy.drain, hs.entries, hs.pushCursor, ?_, hs.truthyValues, ?_, ?_⟩
    · intro key slot hslot
      rw [CircleMap.drain_slotOf, hnone] at hslot
      contradiction
    · apply hs.ordered.imp
      intro older newer _ first second holder _
      rw [CircleMap.drain_slotOf, hnone] at holder
      contradiction
    · intro key hlive
      obtain ⟨slot, hslot⟩ := (hs.mem_keys_iff key).mp hlive
      rw [hnone] at hslot
      contradiction

/-- The slot at the cursor itself held the consumed key or nothing. -/
theorem consumed_cursor (hs : SlotOrdered s) {key : KEY} {slot : UInt32}
    (hslot : s.map.slotOf key = some slot)
    (hfirst : s.map.firstOccupied = some slot.toNat) :
    ∀ other found, (s.map.without key).slotOf other = some found →
      (s.map.without key).behindPop found ≠ 0 := by
  intro other found hfound hzero
  rw [CircleMap.without_slotOf] at hfound
  split at hfound
  · contradiction
  · next hne =>
      rw [CircleMap.behindPop, CircleMap.without_mPopIndex] at hzero
      have hle := Circular.firstFrom_least hs.tidy.popLt hfirst
        (hs.tidy.slotLt other found hfound) (hs.occupied hfound)
      have hsame : slot.toNat = found.toNat := by
        apply Circular.offset_inj hs.tidy.popLt
          (hs.tidy.slotLt key slot hslot) (hs.tidy.slotLt other found hfound)
        omega
      rw [UInt32.toNat_inj.mp hsame] at hslot
      exact hne (hs.tidy.slotInj other key found hfound hslot)

theorem consume (hs : SlotOrdered s) {key : KEY}
    (hok : Cancellable s (.consume key)) :
    ∃ after, orderStep s (.consume key) = some after ∧ SlotOrdered after := by
  rcases hok with ⟨hkey, hfirst⟩
  obtain ⟨slot, hslot⟩ := (hs.mem_keys_iff key).mp hkey
  have hempty : (s.map.without key).mEmpty = false := by
    rw [CircleMap.without_mEmpty, hs.flag key hkey]
  obtain ⟨found, map, hcall, hafter⟩ := (hs.without key).next hempty
    (hs.consumed_cursor hslot (hfirst slot hslot))
  refine ⟨_, ?_, hafter⟩
  simp only [orderStep, CircleMap.erase_eq hs.tidy.toSized, hcall,
    Option.bind_eq_bind, Option.bind_some]

/-- The newest entry at the pop cursor is met before the oldest one. -/
theorem clear_of_oldestFirst (hs : SlotOrdered s) {key : KEY} {value : T}
    {after : OrderRun KEY T cap} (hok : Cancellable s (.insert key value))
    (hstep : orderStep s (.insert key value) = some after)
    (holdest : OldestFirst after) : ClearOfPop s (.insert key value) := by
  rcases hok with ⟨hkey, htruthy, _, hfree, _⟩
  have hsized := hs.tidy.toSized
  have hslot := hs.slotOf_eq_none hkey
  intro hlive hlap
  rw [orderStep, CircleMap.put_eq hsized] at hstep
  cases hstep
  obtain ⟨⟨oldest, held⟩, rest, hentries⟩ :=
    List.exists_cons_of_ne_nil (mt List.map_eq_nil_iff.mpr hlive)
  have hmem : oldest ∈ s.live.keys :=
    Ledger.mem_keys_of_mem (hentries ▸ List.mem_cons_self)
  have hne : oldest ≠ key := by
    rintro rfl
    exact hkey hmem
  have hinserted : (s.live.assign key value).entries =
      (oldest, held) :: (rest ++ [(key, value)]) := by
    rw [Ledger.entries_assign_of_not_mem hkey, hentries, List.cons_append]
  obtain ⟨slot, hnamed, _, hfirst⟩ := holdest oldest held _ hinserted
  rw [CircleMap.assigned_slotOf, if_neg hne] at hnamed
  have hnewest :
      (s.map.assigned key value).itemAt s.map.mPopIndex.toNat = value := by
    rw [CircleMap.assigned_itemAt hsized, CircleMap.placeSlot, hslot,
      Option.getD_none, hlap, if_pos rfl]
  have hmet : (s.map.assigned key value).firstOccupied =
      some s.map.mPopIndex.toNat := by
    rw [CircleMap.firstOccupied, CircleMap.assigned_mPopIndex]
    apply Circular.firstFrom_self hsized.popLt
    rw [hnewest, htruthy]
  rw [hmet, Option.some.injEq] at hfirst
  rw [← UInt32.toNat_inj.mp hfirst, ← hlap] at hnamed
  exact hfree oldest hmem hnamed

end SlotOrdered

/-- Step lemma: insertions clear of the pop cursor, erasures in any order and
consumes all keep the order. -/
theorem orderStep_ordered
    (s : OrderRun KEY T cap) (step : OrderStep KEY T) (hs : SlotOrdered s)
    (hok : Cancellable s step) (hclear : ClearOfPop s step) :
    ∃ after, orderStep s step = some after ∧ SlotOrdered after := by
  cases step with
  | insert key value => exact hs.insert hok hclear
  | erase key =>
      refine ⟨_, ?_, hs.without key⟩
      rw [orderStep, CircleMap.erase_eq hs.tidy.toSized]
      rfl
  | consume key => exact hs.consume hok

/-- Out-of-order cancellation keeps delivery order exactly along the runs in
which no insertion is given the slot at the pop cursor while a key is live. -/
theorem cancellation_keeps_order_iff
    (hfalsy : truthy (emptyItem : T) = false) (cap : Capacity)
    (steps : List (OrderStep KEY T))
    (hsteps : Runs.EveryStep orderStep Cancellable
      (orderStart : OrderRun KEY T cap) steps) :
    Runs.EveryState orderStep OldestFirst
        (orderStart : OrderRun KEY T cap) steps ↔
      Runs.EveryStep orderStep ClearOfPop
        (orderStart : OrderRun KEY T cap) steps := by
  apply Runs.everyState_iff_everyStep orderStep_ordered _ _ orderStart_ordered
    hsteps
  · intro s hs
    exact hs.oldestFirst hfalsy
  · intro s step after hs hok hstep hgood
    cases step with
    | insert key value => exact hs.clear_of_oldestFirst hok hstep hgood
    | erase key => trivial
    | consume key => trivial

instance (s : OrderRun KEY T cap) : ∀ step, Decidable (Cancellable s step)
  | .insert key value => inferInstanceAs (Decidable (key ∉ s.live.keys ∧
      truthy value = true ∧ s.live.length < cap.slots ∧
      (∀ other ∈ s.live.keys, s.map.slotOf other ≠ some s.map.pushSlot) ∧
      s.allocated + 1 < 4294967296))
  | .erase key => inferInstanceAs (Decidable (key ∈ s.live.keys))
  | .consume key =>
      have : Decidable (∀ slot ∈ s.map.slotOf key,
          s.map.firstOccupied = some slot.toNat) :=
        Option.decidableForallMem _
      inferInstanceAs (Decidable (key ∈ s.live.keys ∧
        ∀ slot ∈ s.map.slotOf key, s.map.firstOccupied = some slot.toNat))

/-- The newer of two entries is cancelled and the older one consumed. -/
theorem two_slots_keep_order :
    Runs.EveryState orderStep OldestFirst
        (orderStart : OrderRun Nat DataType twoSlots)
        [.insert 1 ⟨1⟩, .insert 2 ⟨2⟩, .erase 2, .consume 1] ↔
      Runs.EveryStep orderStep ClearOfPop
        (orderStart : OrderRun Nat DataType twoSlots)
        [.insert 1 ⟨1⟩, .insert 2 ⟨2⟩, .erase 2, .consume 1] :=
  cancellation_keeps_order_iff rfl twoSlots _ (by decide)

/-! ### Lapping the pop cursor -/

/-- The oldest of two entries is cancelled, and the next insertion laps the
pop cursor, which now meets the newest entry first. -/
theorem cancellation_can_reverse_order :
    Runs.EveryStep orderStep Cancellable
        (orderStart : OrderRun Nat DataType twoSlots)
        [.insert 1 ⟨1⟩, .insert 2 ⟨2⟩, .erase 1, .insert 3 ⟨3⟩] ∧
      ¬ Runs.EveryState orderStep OldestFirst
        (orderStart : OrderRun Nat DataType twoSlots)
        [.insert 1 ⟨1⟩, .insert 2 ⟨2⟩, .erase 1, .insert 3 ⟨3⟩] := by
  constructor
  · decide
  · intro hevery
    have hfacts : (Runs.run orderStep
        (orderStart : OrderRun Nat DataType twoSlots)
        [.insert 1 ⟨1⟩, .insert 2 ⟨2⟩, .erase 1, .insert 3 ⟨3⟩]).map (fun s =>
          (s.live.entries, s.map.slotOf 2, s.map.firstOccupied)) =
        some ([(2, ⟨2⟩), (3, ⟨3⟩)], some 1, some 0) := by decide
    obtain ⟨reached, holdest, hfacts⟩ := hevery.observed hfacts
    simp only [Prod.mk.injEq] at hfacts
    rcases hfacts with ⟨hentries, hslot, hfirst⟩
    obtain ⟨slot, hnamed, _, hfound⟩ := holdest _ _ _ hentries
    rw [hslot, Option.some.injEq] at hnamed
    rw [hfirst, ← hnamed] at hfound
    exact absurd hfound (by decide)

end Saigon
