/-
Under the push-thread / pop-thread protocol a `circle_map` is a bounded FIFO
queue with keyed lookup.  The queue is a ledger of entries in insertion order;
the map keeps entry `j` of it in slot `(delivered + j) % N`.
-/
import Saigon.SlotDiscipline
import Saigon.Support.Ledger

namespace Saigon

/-- A push thread assigns, a pop thread consumes. -/
inductive QueueStep (KEY T : Type) where
  | put (key : KEY) (value : T)
  | consume

/-- The map beside the abstract queue and what went in and came out. -/
structure QueueRun (KEY T : Type) (cap : Capacity) where
  map : CircleMap KEY T cap
  queue : Ledger KEY T
  /-- calls of `operator[]` that missed -/
  allocated : Nat
  /-- keys in the order they became live -/
  inserted : List KEY
  /-- consumed keys, with the value `front` showed -/
  delivered : List (KEY × T)
  /-- consumed entries, as the abstract queue has them -/
  dequeued : List (KEY × T)

variable {KEY T : Type} {cap : Capacity} [DecidableEq KEY] [MappedType T]

def queueStart : QueueRun KEY T cap where
  map := CircleMap.fresh
  queue := Ledger.empty
  allocated := 0
  inserted := []
  delivered := []
  dequeued := []

/-- A consume step reads `front`, erases the key of the oldest live entry and
calls `next_available_item`; it is stuck when there is no live entry. -/
def queueStep (s : QueueRun KEY T cap) :
    QueueStep KEY T → Option (QueueRun KEY T cap)
  | .put key value => do
      let map ← s.map.put key value
      some
        { s with
          map := map
          queue := s.queue.assign key value
          allocated := s.allocated + if s.map.Misses key then 1 else 0
          inserted :=
            if key ∈ s.queue.keys then s.inserted else s.inserted ++ [key] }
  | .consume =>
      match s.queue.entries with
      | [] => none
      | (key, value) :: _ => do
          let item ← s.map.front
          let map ← s.map.erase key
          let (_, map) ← map.nextAvailableItem
          some
            { s with
              map := map
              queue := s.queue.erase key
              delivered := s.delivered ++ [(key, item)]
              dequeued := s.dequeued ++ [(key, value)] }

/-- The protocol: only truthy values, a new key only below capacity, fewer
than `2^32` allocations, and no consuming from an empty map. -/
def QueueProtocol (s : QueueRun KEY T cap) : QueueStep KEY T → Prop
  | .put key value => truthy value = true ∧
      (key ∉ s.queue.keys → s.queue.length < cap.slots) ∧
      (s.map.Misses key → s.allocated + 1 < 4294967296)
  | .consume => s.map.empty = false

/-- What a client sees of the map is what it would see of the queue. -/
structure SimulatesQueue (s : QueueRun KEY T cap) : Prop where
  emptyIff : s.map.empty = true ↔ s.queue.entries = []
  frontHead : ∀ key value rest, s.queue.entries = (key, value) :: rest →
    s.map.front = some value
  findLookup : ∀ key,
    s.map.find key = some ((s.queue.lookup key).getD emptyItem)
  deliveredHeads : s.delivered = s.dequeued
  insertionOrder : s.inserted = s.delivered.map Prod.fst ++ s.queue.keys

/-- The ring layout of the queue. -/
structure RingQueue (s : QueueRun KEY T cap) : Prop where
  tidy : s.map.Tidy
  entries : s.map.entry = s.queue.lookup
  truthyValues : ∀ key value, s.queue.lookup key = some value →
    truthy value = true
  fits : s.queue.length ≤ cap.slots
  allocations : s.allocated = s.delivered.length + s.queue.length
  pushCursor : s.map.mPushIndex.toNat = s.allocated
  popCursor : s.map.mPopIndex.toNat = s.delivered.length % cap.slots
  slots : ∀ j key, s.queue.keys[j]? = some key →
    ∃ slot, s.map.slotOf key = some slot ∧
      slot.toNat = (s.delivered.length + j) % cap.slots
  emptyFlag : s.map.mEmpty = s.queue.entries.isEmpty
  deliveredHeads : s.delivered = s.dequeued
  insertionOrder : s.inserted = s.delivered.map Prod.fst ++ s.queue.keys

theorem queueStart_ring : RingQueue (queueStart : QueueRun KEY T cap) where
  tidy := CircleMap.fresh_tidy
  entries := rfl
  truthyValues := by
    intro key value hlookup
    contradiction
  fits := Nat.zero_le _
  allocations := rfl
  pushCursor := rfl
  popCursor := (Nat.zero_mod _).symm
  slots := by
    intro j key hkey
    contradiction
  emptyFlag := rfl
  deliveredHeads := rfl
  insertionOrder := rfl

namespace RingQueue

variable {s : QueueRun KEY T cap}

theorem slotOf_eq_none_iff (hs : RingQueue s) (key : KEY) :
    s.map.slotOf key = none ↔ key ∉ s.queue.keys := by
  rw [← CircleMap.entry_eq_none_iff, hs.entries, Ledger.lookup_eq_none_iff]

/-- The head of the queue is at the pop cursor. -/
theorem head_slot (hs : RingQueue s) {key : KEY} {value : T}
    {rest : List (KEY × T)} (hentries : s.queue.entries = (key, value) :: rest) :
    s.map.slotOf key = some s.map.mPopIndex ∧
      s.map.itemAt s.map.mPopIndex.toNat = value := by
  have hkeys : s.queue.keys[0]? = some key := by
    rw [Ledger.keys, hentries]
    rfl
  obtain ⟨slot, hslot, hpos⟩ := hs.slots 0 key hkeys
  have hpop : slot = s.map.mPopIndex := by
    apply UInt32.toNat_inj.mp
    rw [hpos, hs.popCursor, Nat.add_zero]
  subst hpop
  refine ⟨hslot, ?_⟩
  have hlookup : s.queue.lookup key = some value := by
    apply Ledger.lookup_of_mem
    rw [hentries]
    exact List.mem_cons_self
  rw [← hs.entries, CircleMap.entry_of_slotOf hslot] at hlookup
  exact Option.some.inj hlookup

theorem simulates (hs : RingQueue s) : SimulatesQueue s where
  emptyIff := by
    rw [CircleMap.empty, hs.emptyFlag, List.isEmpty_iff]
  frontHead := by
    intro key value rest hentries
    rw [CircleMap.front_eq hs.tidy.toSized, (hs.head_slot hentries).2]
  findLookup := by
    intro key
    rw [CircleMap.find_eq hs.tidy.toSized, hs.entries, hs.emptyFlag]
    cases hentries : s.queue.entries with
    | nil => simp [Ledger.lookup, hentries]
    | cons entry rest => rfl
  deliveredHeads := hs.deliveredHeads
  insertionOrder := hs.insertionOrder

/-- While the queue is below capacity the push cursor is at a free slot. -/
theorem hasRoom (hs : RingQueue s) {key : KEY}
    (hbelow : key ∉ s.queue.keys → s.queue.length < cap.slots) :
    s.map.HasRoom key := by
  intro hslot other hother
  have hkey := (hs.slotOf_eq_none_iff key).mp hslot
  have hlive := (CircleMap.mem_recorded_iff hs.entries other).mpr ⟨_, hother⟩
  obtain ⟨j, hj⟩ := List.mem_iff_getElem?.mp hlive
  have hjlt : j < s.queue.length := by
    have hlt := (List.getElem?_eq_some_iff.mp hj).1
    rwa [Ledger.length_keys] at hlt
  obtain ⟨slot, hslot', hpos⟩ := hs.slots j other hj
  rw [hother, Option.some.injEq] at hslot'
  rw [← hslot', CircleMap.pushSlot_toNat, hs.pushCursor, hs.allocations] at hpos
  have hlen := hbelow hkey
  have hsame := Circular.add_mod_inj hlen (hjlt.trans hlen) hpos
  omega

/-- In-place update of a live key. -/
theorem put_live (hs : RingQueue s) {key : KEY} {value : T}
    (hkey : key ∈ s.queue.keys) (htruthy : truthy value = true) :
    ∃ after, queueStep s (.put key value) = some after ∧ RingQueue after := by
  obtain ⟨slot, hslot⟩ := (CircleMap.mem_recorded_iff hs.entries key).mp hkey
  have hfound : s.map.slotOf key ≠ none := by
    rw [hslot]
    exact Option.some_ne_none slot
  have hroom : s.map.HasRoom key := fun hnone => absurd hnone hfound
  have hmiss : ¬ s.map.Misses key := by
    rw [CircleMap.misses_iff hs.tidy.toSized]
    exact hfound
  have hkeys := Ledger.keys_assign_of_mem hkey value
  have hlength : (s.queue.assign key value).length = s.queue.length := by
    rw [← Ledger.length_keys, hkeys, Ledger.length_keys]
  refine ⟨_, by rw [queueStep, CircleMap.put_eq hs.tidy.toSized]; rfl, ?_⟩
  constructor
  case tidy => exact hs.tidy.assigned hroom value
  case entries =>
    exact CircleMap.entry_assigned_recorded hs.tidy hs.entries hroom value
  case truthyValues =>
    exact Ledger.forall_lookup_assign hs.truthyValues htruthy key
  case fits =>
    rw [hlength]
    exact hs.fits
  case allocations =>
    rw [if_neg hmiss, Nat.add_zero, hlength]
    exact hs.allocations
  case pushCursor =>
    exact CircleMap.place_pushCursor hs.tidy.toSized hs.pushCursor
      fun hnone => absurd hnone hmiss
  case popCursor =>
    rw [CircleMap.assigned_mPopIndex]
    exact hs.popCursor
  case slots =>
    intro j other hother
    rw [hkeys] at hother
    rw [CircleMap.assigned_slotOf_hit hslot]
    exact hs.slots j other hother
  case emptyFlag =>
    rw [CircleMap.assigned_mEmpty]
    cases hentries : (s.queue.assign key value).entries with
    | nil =>
        rw [← hkeys, Ledger.keys, hentries] at hkey
        contradiction
    | cons entry rest => rfl
  case deliveredHeads => exact hs.deliveredHeads
  case insertionOrder =>
    rw [if_pos hkey, hkeys]
    exact hs.insertionOrder

/-- Insertion of a key that is not live. -/
theorem put_fresh (hs : RingQueue s) {key : KEY} {value : T}
    (hkey : key ∉ s.queue.keys) (htruthy : truthy value = true)
    (hbelow : s.queue.length < cap.slots)
    (hcount : s.allocated + 1 < 4294967296) :
    ∃ after, queueStep s (.put key value) = some after ∧ RingQueue after := by
  have hslot := (hs.slotOf_eq_none_iff key).mpr hkey
  have hroom : s.map.HasRoom key := hs.hasRoom fun _ => hbelow
  have hmiss : s.map.Misses key :=
    (CircleMap.misses_iff hs.tidy.toSized key).mpr hslot
  have hkeys := Ledger.keys_assign_of_not_mem hkey value
  have hlength : (s.queue.assign key value).length = s.queue.length + 1 := by
    rw [← Ledger.length_keys, hkeys, List.length_append, Ledger.length_keys,
      List.length_singleton]
  refine ⟨_, by rw [queueStep, CircleMap.put_eq hs.tidy.toSized]; rfl, ?_⟩
  constructor
  case tidy => exact hs.tidy.assigned hroom value
  case entries =>
    exact CircleMap.entry_assigned_recorded hs.tidy hs.entries hroom value
  case truthyValues =>
    exact Ledger.forall_lookup_assign hs.truthyValues htruthy key
  case fits =>
    rw [hlength]
    exact hbelow
  case allocations =>
    rw [if_pos hmiss, hlength, hs.allocations, Nat.add_assoc]
  case pushCursor =>
    exact CircleMap.place_pushCursor hs.tidy.toSized hs.pushCursor
      fun _ => hcount
  case popCursor =>
    rw [CircleMap.assigned_mPopIndex]
    exact hs.popCursor
  case slots =>
    intro j other hother
    rw [hkeys] at hother
    rw [CircleMap.assigned_slotOf]
    rcases List.getElem?_concat_cases hother with hold | ⟨hlast, rfl⟩
    · have hne : other ≠ key := by
        rintro rfl
        exact hkey (List.mem_of_getElem? hold)
      rw [if_neg hne]
      exact hs.slots j other hold
    · refine ⟨_, if_pos rfl, ?_⟩
      rw [CircleMap.placeSlot, hslot, Option.getD_none,
        CircleMap.pushSlot_toNat, hs.pushCursor, hs.allocations, hlast,
        Ledger.length_keys]
  case emptyFlag =>
    rw [CircleMap.assigned_mEmpty, Ledger.entries_assign_of_not_mem hkey]
    simp
  case deliveredHeads => exact hs.deliveredHeads
  case insertionOrder =>
    rw [if_neg hkey, hkeys, hs.insertionOrder, List.append_assoc]

/-- Without the head the entries are those of the rest of the queue. -/
theorem without_tidy (hs : RingQueue s) (key : KEY) :
    (s.map.without key).Tidy ∧
      (s.map.without key).entry = (s.queue.erase key).lookup :=
  ⟨hs.tidy.without key,
    CircleMap.entry_without_recorded hs.tidy hs.entries key⟩

/-- The pop cursor is still where the head was. -/
theorem without_popCursor (hs : RingQueue s) (key : KEY) :
    (s.map.without key).mPopIndex.toNat = s.delivered.length % cap.slots := by
  rw [CircleMap.without_mPopIndex, hs.popCursor]

/-- What `next_available_item` leaves once the head is erased: the cursor is
behind the head, and the flag says whether there was a rest. -/
structure HeadRemoved (s : QueueRun KEY T cap) (key : KEY)
    (rest : List (KEY × T)) (after : CircleMap KEY T cap) : Prop where
  tidy : after.Tidy
  entry : after.entry = (s.queue.erase key).lookup
  pushIndex : after.mPushIndex = s.map.mPushIndex
  popIndex : after.mPopIndex.toNat = (s.delivered.length + 1) % cap.slots
  emptyFlag : after.mEmpty = rest.isEmpty
  slotOf : ∀ other, after.slotOf other = (s.map.without key).slotOf other

/-- Behind the last entry the map is drained. -/
theorem next_after_last (hs : RingQueue s)
    (hfalsy : truthy (emptyItem : T) = false) (hflag : s.map.mEmpty = false)
    {key : KEY} {value : T} (hentries : s.queue.entries = [(key, value)]) :
    ∃ next after, (s.map.without key).nextAvailableItem = some (next, after) ∧
      HeadRemoved s key [] after := by
  obtain ⟨htidy, hentry⟩ := hs.without_tidy key
  have hempty : (s.map.without key).mEmpty = false := by
    rw [CircleMap.without_mEmpty, hflag]
  have hother : ¬ (s.map.without key).OtherOccupied := by
    rintro ⟨pos, hpos, _, hocc⟩
    obtain ⟨other, slot, hslot, _⟩ := htidy.occupied_named hfalsy hpos hocc
    have hsome := CircleMap.entry_of_slotOf hslot
    rw [hentry, Ledger.lookup, Ledger.entries_erase_head hentries] at hsome
    contradiction
  refine ⟨_, _,
    CircleMap.nextAvailableItem_drain htidy.toSized.ring hempty hother,
    htidy.drain, hentry, CircleMap.without_mPushIndex _ _, ?_, rfl,
    fun _ => rfl⟩
  change (((s.map.without key).mPopIndex + 1) % cap.N).toNat = _
  rw [cap.step_toNat htidy.popLt, hs.without_popCursor, Nat.mod_add_mod]

/-- The second entry is in the occupied slot behind the head. -/
theorem second_occupied (hs : RingQueue s) {key key₂ : KEY} {value value₂ : T}
    {behind : List (KEY × T)}
    (hentries : s.queue.entries = (key, value) :: (key₂, value₂) :: behind) :
    ∃ slot, (s.map.without key).slotOf key₂ = some slot ∧
      slot.toNat = (s.delivered.length + 1) % cap.slots ∧
      (s.map.without key).Occupied slot.toNat := by
  have hkeys : s.queue.keys[1]? = some key₂ := by
    rw [Ledger.keys, hentries]
    rfl
  obtain ⟨slot, hslot, hpos⟩ := hs.slots 1 key₂ hkeys
  have hne : key₂ ≠ key := by
    rintro rfl
    have hnodup := s.queue.nodup
    rw [hentries] at hnodup
    simp at hnodup
  have hslot' : (s.map.without key).slotOf key₂ = some slot := by
    rw [CircleMap.without_slotOf, if_neg hne, hslot]
  have hlookup : (s.queue.erase key).lookup key₂ = some value₂ := by
    apply Ledger.lookup_of_mem
    rw [Ledger.entries_erase_head hentries]
    exact List.mem_cons_self
  refine ⟨slot, hslot', hpos, ?_⟩
  have hitem := CircleMap.entry_of_slotOf hslot'
  rw [(hs.without_tidy key).2, hlookup, Option.some.injEq] at hitem
  rw [CircleMap.Occupied, ← hitem]
  exact hs.truthyValues key₂ value₂ (Ledger.lookup_of_lookup_erase hlookup)

/-- Behind the head comes the second entry, one slot on. -/
theorem next_after_head (hs : RingQueue s) (hflag : s.map.mEmpty = false)
    {key key₂ : KEY} {value value₂ : T} {behind : List (KEY × T)}
    (hentries : s.queue.entries = (key, value) :: (key₂, value₂) :: behind) :
    ∃ next after, (s.map.without key).nextAvailableItem = some (next, after) ∧
      HeadRemoved s key ((key₂, value₂) :: behind) after := by
  obtain ⟨htidy, hentry⟩ := hs.without_tidy key
  obtain ⟨slot, hslot, hpos, hocc⟩ := hs.second_occupied hentries
  have hempty : (s.map.without key).mEmpty = false := by
    rw [CircleMap.without_mEmpty, hflag]
  have htwo : 1 < cap.slots := by
    have hfits := hs.fits
    rw [Ledger.length, hentries, List.length_cons, List.length_cons] at hfits
    omega
  have hstep : ((s.map.without key).mPopIndex.toNat + 1) % cap.slots =
      slot.toNat := by
    rw [hs.without_popCursor, hpos, Nat.mod_add_mod]
  have hapart : slot.toNat ≠ (s.map.without key).mPopIndex.toNat := by
    rw [← hstep]
    exact Circular.add_mod_ne_self htidy.popLt Nat.one_pos htwo
  obtain ⟨steps, next, hcall, hsteps, _, hnext, _, hfree⟩ :=
    CircleMap.nextAvailableItem_advance htidy.toSized.ring hempty
      ⟨slot.toNat, htidy.slotLt key₂ slot hslot, hapart, hocc⟩
  have hone : steps = 1 := by
    by_contra hmore
    apply hfree 1 Nat.one_pos (by omega)
    rw [hstep]
    exact hocc
  rw [hone, hstep] at hnext
  refine ⟨_, _, hcall, htidy.advance ?_, hentry,
    CircleMap.without_mPushIndex _ _, ?_, hempty, fun _ => rfl⟩
  · rw [hnext]
    exact htidy.slotLt key₂ slot hslot
  · rw [CircleMap.advance_mPopIndex, hnext, hpos]

/-- After the head is erased the next occupied slot is the one behind it, or
there is none. -/
theorem next_after_erase (hs : RingQueue s)
    (hfalsy : truthy (emptyItem : T) = false) (hflag : s.map.mEmpty = false)
    {key : KEY} {value : T} {rest : List (KEY × T)}
    (hentries : s.queue.entries = (key, value) :: rest) :
    ∃ next after, (s.map.without key).nextAvailableItem = some (next, after) ∧
      HeadRemoved s key rest after := by
  cases rest with
  | nil => exact hs.next_after_last hfalsy hflag hentries
  | cons second behind => exact hs.next_after_head hflag hentries

/-- Consuming the head. -/
theorem consume (hs : RingQueue s) (hfalsy : truthy (emptyItem : T) = false)
    (hflag : s.map.empty = false) :
    ∃ after, queueStep s .consume = some after ∧ RingQueue after := by
  cases hentries : s.queue.entries with
  | nil =>
      rw [CircleMap.empty, hs.emptyFlag, hentries] at hflag
      contradiction
  | cons entry rest =>
      rcases entry with ⟨key, value⟩
      obtain ⟨hhead, hitem⟩ := hs.head_slot hentries
      obtain ⟨next, map, hcall, hmap⟩ := hs.next_after_erase hfalsy hflag hentries
      have hfront := CircleMap.front_eq hs.tidy.toSized
      rw [hitem] at hfront
      have herase := CircleMap.erase_eq hs.tidy.toSized key
      have hkeys := Ledger.keys_erase_head hentries
      have hlength : s.queue.length = (s.queue.erase key).length + 1 := by
        rw [← Ledger.length_keys, hkeys, List.length_cons, Ledger.length_keys]
      have hnot : key ∉ (s.queue.erase key).keys := by
        have hnodup := s.queue.nodup
        rw [← Ledger.keys, hkeys] at hnodup
        exact (List.nodup_cons.mp hnodup).1
      refine ⟨_, by
        simp only [queueStep, hentries, hfront, herase, hcall,
          Option.bind_eq_bind, Option.bind_some]
        rfl, ?_⟩
      constructor
      case tidy => exact hmap.tidy
      case entries => exact hmap.entry
      case truthyValues =>
        intro other found hlookup
        exact hs.truthyValues other found (Ledger.lookup_of_lookup_erase hlookup)
      case fits =>
        have hfits := hs.fits
        rw [hlength] at hfits
        exact Nat.le_of_succ_le hfits
      case allocations =>
        rw [List.length_append, List.length_singleton, hs.allocations, hlength,
          Nat.add_right_comm, Nat.add_assoc]
      case pushCursor =>
        rw [hmap.pushIndex]
        exact hs.pushCursor
      case popCursor =>
        rw [List.length_append, List.length_singleton]
        exact hmap.popIndex
      case slots =>
        intro j other hother
        have hne : other ≠ key := by
          rintro rfl
          exact hnot (List.mem_of_getElem? hother)
        have hbehind : s.queue.keys[j + 1]? = some other := by
          rw [hkeys, List.getElem?_cons_succ]
          exact hother
        obtain ⟨slot, hslot, hpos⟩ := hs.slots (j + 1) other hbehind
        refine ⟨slot, ?_, ?_⟩
        · rw [hmap.slotOf, CircleMap.without_slotOf, if_neg hne, hslot]
        · rw [hpos, List.length_append, List.length_singleton]
          congr 1
          omega
      case emptyFlag =>
        rw [Ledger.entries_erase_head hentries]
        exact hmap.emptyFlag
      case deliveredHeads => rw [hs.deliveredHeads]
      case insertionOrder =>
        rw [hs.insertionOrder, hkeys, List.map_append, List.append_assoc]
        rfl

end RingQueue

/-- Step lemma: the protocol keeps the ring layout. -/
theorem queueStep_ring (hfalsy : truthy (emptyItem : T) = false)
    (s : QueueRun KEY T cap) (step : QueueStep KEY T) (hs : RingQueue s)
    (hstep : QueueProtocol s step) :
    ∃ after, queueStep s step = some after ∧ RingQueue after := by
  cases step with
  | put key value =>
      rcases hstep with ⟨htruthy, hbelow, hcount⟩
      by_cases hkey : key ∈ s.queue.keys
      · exact hs.put_live hkey htruthy
      · apply hs.put_fresh hkey htruthy (hbelow hkey)
        apply hcount
        rw [CircleMap.misses_iff hs.tidy.toSized]
        exact (hs.slotOf_eq_none_iff key).mpr hkey
  | consume => exact hs.consume hfalsy hstep

/-- Along every run of the protocol the map simulates the queue in every
state, and each inserted entry is delivered at `front` once and in order. -/
theorem circleMap_simulates_queue (hfalsy : truthy (emptyItem : T) = false)
    (cap : Capacity) (steps : List (QueueStep KEY T))
    (hprotocol : Runs.EveryStep queueStep QueueProtocol
      (queueStart : QueueRun KEY T cap) steps) :
    Runs.EveryState queueStep SimulatesQueue
      (queueStart : QueueRun KEY T cap) steps :=
  (Runs.everyState_of_invariant (queueStep_ring hfalsy) queueStart_ring
    hprotocol).mono fun _ hs => hs.simulates

instance (s : QueueRun KEY T cap) : ∀ step, Decidable (QueueProtocol s step)
  | .put key value => inferInstanceAs (Decidable (truthy value = true ∧
      (key ∉ s.queue.keys → s.queue.length < cap.slots) ∧
      (s.map.Misses key → s.allocated + 1 < 4294967296)))
  | .consume => inferInstanceAs (Decidable (s.map.empty = false))

/-- Two slots filled, drained, wrapped and refilled. -/
theorem two_slots_simulate_queue :
    Runs.EveryState queueStep SimulatesQueue
      (queueStart : QueueRun Nat DataType twoSlots)
      [.put 1 ⟨1⟩, .put 2 ⟨2⟩, .consume, .put 3 ⟨3⟩, .put 2 ⟨4⟩, .consume,
        .consume, .put 1 ⟨5⟩] :=
  circleMap_simulates_queue rfl twoSlots _ (by decide)

end Saigon
