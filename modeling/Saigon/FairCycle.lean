/-
Repeated calls of `next_available_item`.  Each call takes the first truthy
slot ahead of the pop cursor, so the truthy slots, listed from the cursor on,
turn by one; as many calls as there are truthy slots turn the list once round.
-/
import Saigon.CircleMapSlots
import Mathlib.Data.List.Perm.Subperm

namespace Saigon

namespace CircleMap

variable {KEY T : Type} {cap : Capacity} [MappedType T]

/-- A number of calls in a row: the indices they return and the map after
them. -/
def nextAvailableItems (m : CircleMap KEY T cap) :
    Nat → Option (List UInt32 × CircleMap KEY T cap)
  | 0 => some ([], m)
  | calls + 1 => do
      let (index, after) ← m.nextAvailableItem
      let (indices, last) ← after.nextAvailableItems calls
      some (index :: indices, last)

/-- The truthy slots. -/
def occupiedSlots (m : CircleMap KEY T cap) : List Nat :=
  (List.range cap.slots).filter fun slot => truthy (m.itemAt slot)

/-- The truthy slots from the one after the pop cursor on, the slot at the
cursor last. -/
def occupiedAhead (m : CircleMap KEY T cap) : List Nat :=
  (Circular.ahead cap.slots m.mPopIndex.toNat).filter fun slot =>
    truthy (m.itemAt slot)

/-- The forward steps, from one to `N`, from the pop cursor on to a slot. -/
def stepsAhead (m : CircleMap KEY T cap) (slot : Nat) : Nat :=
  Circular.stepsTo cap.slots m.mPopIndex.toNat slot

/-- The nearest truthy slot strictly after the pop cursor. -/
structure NearestAhead (m : CircleMap KEY T cap) (next : UInt32) : Prop where
  inside : next.toNat < cap.slots
  occupied : m.Occupied next.toNat
  moves : next ≠ m.mPopIndex
  nearest : ∀ slot, slot < cap.slots → m.Occupied slot →
    m.stepsAhead next.toNat ≤ m.stepsAhead slot

/-- Each truthy slot once, in circular order from the pop cursor on. -/
structure FullRound (m : CircleMap KEY T cap) (indices : List UInt32) :
    Prop where
  once : indices.Nodup
  truthySlots : ∀ slot, slot ∈ indices.map UInt32.toNat ↔
    slot < cap.slots ∧ m.Occupied slot
  circular : indices.Pairwise fun first second =>
    m.stepsAhead first.toNat < m.stepsAhead second.toNat

/-- A map in which `next_available_item` goes round: the slot at the cursor and
another one are truthy. -/
structure Circling (m : CircleMap KEY T cap) : Prop extends m.Ring where
  notEmpty : m.mEmpty = false
  popOccupied : m.Occupied m.mPopIndex.toNat
  otherOccupied : m.OtherOccupied

variable {m : CircleMap KEY T cap}

theorem mem_occupiedAhead (hm : m.Ring) (slot : Nat) :
    slot ∈ m.occupiedAhead ↔ slot < cap.slots ∧ m.Occupied slot := by
  rw [occupiedAhead, List.mem_filter, Circular.mem_ahead hm.popLt]
  rfl

theorem pairwise_occupiedAhead (m : CircleMap KEY T cap) :
    m.occupiedAhead.Pairwise fun first second =>
      m.stepsAhead first < m.stepsAhead second := by
  have hwalk := Circular.pairwise_positions
    (Nat.mod_lt (m.mPopIndex.toNat + 1) cap.slots_pos)
  exact (hwalk.imp Nat.succ_lt_succ).filter _

/-- The slot at the cursor comes last. -/
theorem occupiedAhead_of_pop (hm : m.Ring)
    (hpop : m.Occupied m.mPopIndex.toNat) :
    ∃ others, m.occupiedAhead = others ++ [m.mPopIndex.toNat] := by
  have hlast : [m.mPopIndex.toNat].filter (fun slot => truthy (m.itemAt slot)) =
      [m.mPopIndex.toNat] := List.filter_cons_of_pos hpop
  rw [occupiedAhead, Circular.ahead_eq hm.popLt, List.filter_append, hlast]
  exact ⟨_, rfl⟩

theorem length_occupiedAhead (m : CircleMap KEY T cap) :
    m.occupiedAhead.length = m.occupiedSlots.length := by
  have hstart := Nat.mod_lt (m.mPopIndex.toNat + 1) cap.slots_pos
  exact ((Circular.positions_perm hstart).filter _).length_eq

/-- With two truthy slots, one is not the slot at the cursor. -/
theorem otherOccupied_of_two (htwo : 2 ≤ m.occupiedSlots.length) :
    m.OtherOccupied := by
  by_contra hnone
  have hsubset : m.occupiedSlots ⊆ [m.mPopIndex.toNat] := by
    intro slot hslot
    rw [occupiedSlots, List.mem_filter, List.mem_range] at hslot
    by_contra hne
    exact hnone ⟨slot, hslot.1, by simpa using hne, hslot.2⟩
  have hnodup : m.occupiedSlots.Nodup := List.nodup_range.filter _
  have hle := (List.Nodup.subperm hnodup hsubset).length_le
  rw [List.length_singleton] at hle
  omega

/-- One call moves the cursor to the nearest truthy slot and changes nothing
else. -/
theorem nextAvailableItem_nearest (hm : m.Ring) (hempty : m.mEmpty = false)
    (hother : m.OtherOccupied) :
    ∃ next, m.nextAvailableItem = some (next, m.advance next) ∧
      m.NearestAhead next := by
  obtain ⟨steps, next, hcall, hpos, hlt, hnext, hocc, hfree⟩ :=
    nextAvailableItem_advance hm hempty hother
  have hsteps : m.stepsAhead next.toNat = steps := by
    rw [stepsAhead, hnext, Circular.stepsTo_add hpos hlt.le]
  refine ⟨next, hcall, ?_⟩
  constructor
  case inside =>
    rw [hnext]
    exact Nat.mod_lt _ cap.slots_pos
  case occupied => exact hocc
  case moves =>
    intro hsame
    apply Circular.add_mod_ne_self hm.popLt hpos hlt
    rw [← hnext, hsame]
  case nearest =>
    intro slot hslot hslotOcc
    rw [hsteps]
    by_contra hearlier
    apply hfree (m.stepsAhead slot) (Circular.stepsTo_pos _ _ _) (by omega)
    rw [stepsAhead, Circular.add_stepsTo hslot]
    exact hslotOcc

/-- The nearest truthy slot is the first one ahead. -/
theorem NearestAhead.eq_head {next : UInt32} (hnext : m.NearestAhead next)
    (hm : m.Ring) {first : Nat} {rest : List Nat}
    (hahead : m.occupiedAhead = first :: rest) : next.toNat = first := by
  have hmem := (mem_occupiedAhead hm next.toNat).mpr
    ⟨hnext.inside, hnext.occupied⟩
  have hfirst : first ∈ m.occupiedAhead := by
    rw [hahead]
    exact List.mem_cons_self
  have horder := pairwise_occupiedAhead m
  rw [hahead, List.pairwise_cons] at horder
  rw [hahead, List.mem_cons] at hmem
  rcases hmem with heq | hlater
  · exact heq
  · have hlt := horder.1 next.toNat hlater
    obtain ⟨hinside, hocc⟩ := (mem_occupiedAhead hm first).mp hfirst
    exact absurd hlt (Nat.not_lt.mpr (hnext.nearest first hinside hocc))

namespace Circling

/-- Step lemma: the map keeps going round. -/
theorem next (hm : m.Circling) :
    ∃ next, m.nextAvailableItem = some (next, m.advance next) ∧
      m.NearestAhead next ∧ (m.advance next).Circling := by
  obtain ⟨next, hcall, hnext⟩ :=
    nextAvailableItem_nearest hm.toRing hm.notEmpty hm.otherOccupied
  refine ⟨next, hcall, hnext, ?_⟩
  constructor
  case toRing => exact ⟨hm.dataLength, hnext.inside⟩
  case notEmpty => exact hm.notEmpty
  case popOccupied => exact hnext.occupied
  case otherOccupied =>
    refine ⟨m.mPopIndex.toNat, hm.popLt, ?_, hm.popOccupied⟩
    intro hsame
    exact hnext.moves (UInt32.toNat_inj.mp hsame).symm

/-- After any number of calls, the next one returns the nearest slot. -/
theorem nearest_after (hm : m.Circling) (calls : Nat) :
    ∃ indices last next, m.nextAvailableItems calls = some (indices, last) ∧
      last.nextAvailableItem = some (next, last.advance next) ∧
      last.NearestAhead next := by
  induction calls generalizing m with
  | zero =>
      obtain ⟨next, hcall, hnext, _⟩ := hm.next
      exact ⟨[], m, next, rfl, hcall, hnext⟩
  | succ calls ih =>
      obtain ⟨index, hcall, _, hafter⟩ := hm.next
      obtain ⟨indices, last, next, hcalls, hlast, hnext⟩ := ih hafter
      refine ⟨index :: indices, last, next, ?_, hlast, hnext⟩
      simp only [nextAvailableItems, hcall, hcalls, Option.bind_eq_bind,
        Option.bind_some]

/-- Run lemma: calls return the truthy slots ahead one by one, and each slot
returned goes behind those that are still ahead. -/
theorem round (hm : m.Circling) {taken left : List Nat}
    (hahead : m.occupiedAhead = taken ++ left) :
    ∃ indices slot, m.nextAvailableItems taken.length =
        some (indices, m.advance slot) ∧
      indices.map UInt32.toNat = taken ∧ (m.advance slot).Circling ∧
      (m.advance slot).occupiedAhead = left ++ taken := by
  induction taken generalizing m left with
  | nil =>
      refine ⟨[], m.mPopIndex, rfl, rfl, hm, ?_⟩
      rw [List.append_nil]
      exact hahead
  | cons first rest ih =>
      obtain ⟨next, hcall, hnext, hafter⟩ := hm.next
      have hfirst : next.toNat = first := hnext.eq_head hm.toRing hahead
      have hturned : (m.advance next).occupiedAhead = rest ++ (left ++ [first]) := by
        have hfilter := Circular.filter_ahead_of_cons hahead
        rw [List.append_eq, List.append_assoc, ← hfirst] at hfilter
        rw [← hfirst]
        exact hfilter
      obtain ⟨indices, slot, hcalls, hindices, hlast, hround⟩ := ih hafter hturned
      refine ⟨next :: indices, slot, ?_, ?_, hlast, ?_⟩
      · simp only [List.length_cons, nextAvailableItems, hcall, hcalls,
          Option.bind_eq_bind, Option.bind_some]
        rfl
      · rw [List.map_cons, hfirst, hindices]
      · exact hround.trans (List.append_assoc left [first] rest)

/-- As many calls as there are truthy slots return each of them and leave the
map as it was. -/
theorem fullRound (hm : m.Circling) :
    ∃ indices, m.nextAvailableItems m.occupiedSlots.length = some (indices, m) ∧
      m.FullRound indices := by
  obtain ⟨indices, slot, hcalls, hindices, hlast, hround⟩ :=
    hm.round (List.append_nil m.occupiedAhead).symm
  have hback : slot = m.mPopIndex := by
    obtain ⟨others, hothers⟩ := occupiedAhead_of_pop hm.toRing hm.popOccupied
    obtain ⟨others', hothers'⟩ :=
      occupiedAhead_of_pop hlast.toRing hlast.popOccupied
    rw [List.nil_append, hothers', hothers] at hround
    have hend := (List.append_inj' hround rfl).2
    exact UInt32.toNat_inj.mp (List.singleton_inj.mp hend)
  subst hback
  refine ⟨indices, ?_, ?_⟩
  · rw [← length_occupiedAhead m]
    exact hcalls
  have horder : indices.Pairwise fun first second =>
      m.stepsAhead first.toNat < m.stepsAhead second.toNat := by
    have hpairwise := pairwise_occupiedAhead m
    rwa [← hindices, List.pairwise_map] at hpairwise
  constructor
  case once =>
    apply horder.imp
    rintro first second hlt rfl
    exact Nat.lt_irrefl _ hlt
  case truthySlots =>
    intro slot
    rw [hindices]
    exact mem_occupiedAhead hm.toRing slot
  case circular => exact horder

end Circling

/-- Once marked empty, the map answers with its cursor for good. -/
theorem nextAvailableItems_empty (hempty : m.mEmpty = true) (calls : Nat) :
    m.nextAvailableItems calls =
      some (List.replicate calls m.mPopIndex, m) := by
  induction calls with
  | zero => rfl
  | succ calls ih =>
      simp only [nextAvailableItems, nextAvailableItem_empty hempty, ih,
        Option.bind_eq_bind, Option.bind_some, List.replicate_succ]

/-- With two or more truthy slots, one of them at the cursor, calls go round
them fairly; with no truthy slot beside the one at the cursor, the first call
marks the map empty and steps past the cursor, and no call after it changes
anything. -/
theorem next_available_item_fair (m : CircleMap KEY T cap) (hm : m.Ring)
    (hempty : m.mEmpty = false) :
    (m.Occupied m.mPopIndex.toNat → 2 ≤ m.occupiedSlots.length →
      (∃ indices,
        m.nextAvailableItems m.occupiedSlots.length = some (indices, m) ∧
        m.FullRound indices) ∧
      ∀ calls, ∃ indices last next,
        m.nextAvailableItems calls = some (indices, last) ∧
        last.nextAvailableItem = some (next, last.advance next) ∧
        last.NearestAhead next) ∧
    (¬ m.OtherOccupied → ∀ further,
      m.nextAvailableItems (1 + further) = some
        (List.replicate (1 + further) ((m.mPopIndex + 1) % cap.N), m.drain)) := by
  constructor
  · intro hpop htwo
    have hcircling : m.Circling := by
      constructor
      case toRing => exact hm
      case notEmpty => exact hempty
      case popOccupied => exact hpop
      case otherOccupied => exact otherOccupied_of_two htwo
    exact ⟨hcircling.fullRound, hcircling.nearest_after⟩
  · intro hother further
    rw [Nat.add_comm]
    simp only [nextAvailableItems, nextAvailableItem_drain hm hempty hother,
      nextAvailableItems_empty m.drain_mEmpty further, Option.bind_eq_bind,
      Option.bind_some, List.replicate_succ]
    rfl

/-- A map whose slots hold the given items, with the cursor at the last of
them. -/
def fourSlots (items : List DataType) :
    CircleMap Nat DataType ⟨4, by decide, by decide⟩ where
  mEmpty := false
  mPushIndex := 4
  mPopIndex := 3
  mData := items
  mKeys := fun key => if key = 1 then some 3 else none

/-- Three truthy slots, and the one at the cursor only. -/
theorem four_slots_fair :
    (∃ indices, (fourSlots [⟨5⟩, ⟨0⟩, ⟨6⟩, ⟨7⟩]).nextAvailableItems 3 =
        some (indices, fourSlots [⟨5⟩, ⟨0⟩, ⟨6⟩, ⟨7⟩]) ∧
      (fourSlots [⟨5⟩, ⟨0⟩, ⟨6⟩, ⟨7⟩]).FullRound indices) ∧
    (fourSlots [⟨0⟩, ⟨0⟩, ⟨0⟩, ⟨7⟩]).nextAvailableItems 2 =
      some ([0, 0], (fourSlots [⟨0⟩, ⟨0⟩, ⟨0⟩, ⟨7⟩]).drain) := by
  constructor
  · exact ((next_available_item_fair (fourSlots [⟨5⟩, ⟨0⟩, ⟨6⟩, ⟨7⟩])
      ⟨rfl, by decide⟩ rfl).1 rfl (by decide)).1
  · exact (next_available_item_fair (fourSlots [⟨0⟩, ⟨0⟩, ⟨0⟩, ⟨7⟩])
      ⟨rfl, by decide⟩ rfl).2 (by decide) 1

end CircleMap

end Saigon
