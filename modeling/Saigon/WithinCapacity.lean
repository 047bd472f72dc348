/-
Runs that never come round the ring.  While at most `N` slots have been handed
out the allocations fill the vector from the bottom, every valid index lies
below the push cursor, and the map is a finite map.
-/
import Saigon.SlotDiscipline

namespace Saigon

namespace CircleMap

variable {KEY T : Type} {cap : Capacity} [MappedType T]

/-- The first `allocated` slots have been handed out, in order and once. -/
structure Filling (m : CircleMap KEY T cap) (allocated : Nat) : Prop
    extends m.Tidy where
  pushCursor : m.mPushIndex.toNat = allocated
  within : allocated ≤ cap.slots
  below : ∀ key slot, m.slotOf key = some slot → slot.toNat < allocated

theorem fresh_filling : (fresh : CircleMap KEY T cap).Filling 0 where
  toTidy := fresh_tidy
  pushCursor := rfl
  within := Nat.zero_le _
  below := by
    intro key slot hslot
    rw [fresh_slotOf] at hslot
    contradiction

namespace Filling

variable {m : CircleMap KEY T cap} {allocated : Nat}

/-- The slot about to be handed out is the number of slots handed out. -/
theorem pushSlot_toNat (hm : m.Filling allocated)
    (hbelow : allocated < cap.slots) : m.pushSlot.toNat = allocated := by
  rw [CircleMap.pushSlot_toNat, hm.pushCursor]
  exact Nat.mod_eq_of_lt hbelow

theorem hasRoom (hm : m.Filling allocated) {key : KEY}
    (hbelow : m.Misses key → allocated < cap.slots) : m.HasRoom key := by
  intro hslot other hother
  have hlt := hbelow ((misses_iff hm.toSized key).mpr hslot)
  have hpast := hm.below other m.pushSlot hother
  rw [hm.pushSlot_toNat hlt] at hpast
  exact Nat.lt_irrefl _ hpast

/-- The slot `operator[]` uses is handed out after it. -/
theorem placeSlot_below (hm : m.Filling allocated) {key : KEY}
    (hbelow : m.Misses key → allocated < cap.slots) :
    (m.placeSlot key).toNat < allocated + if m.Misses key then 1 else 0 := by
  by_cases hmiss : m.Misses key
  · have hslot := (misses_iff hm.toSized key).mp hmiss
    rw [if_pos hmiss, placeSlot, hslot, Option.getD_none,
      hm.pushSlot_toNat (hbelow hmiss)]
    exact Nat.lt_succ_self _
  · have hfound := mt (misses_iff hm.toSized key).mpr hmiss
    obtain ⟨found, hkey⟩ := Option.ne_none_iff_exists'.mp hfound
    rw [if_neg hmiss, placeSlot, hkey, Option.getD_some]
    exact hm.below key found hkey

theorem store (hm : m.Filling allocated) {key : KEY} {slot : UInt32}
    (hslot : m.slotOf key = some slot) (value : T) :
    (m.store slot value).Filling allocated :=
  ⟨hm.toTidy.store hslot value, hm.pushCursor, hm.within, hm.below⟩

theorem advance (hm : m.Filling allocated) {next : UInt32}
    (hnext : next.toNat < cap.slots) : (m.advance next).Filling allocated :=
  ⟨hm.toTidy.advance hnext, hm.pushCursor, hm.within, hm.below⟩

theorem drain (hm : m.Filling allocated) : m.drain.Filling allocated :=
  ⟨hm.toTidy.drain, hm.pushCursor, hm.within, hm.below⟩

variable [DecidableEq KEY]

theorem without (hm : m.Filling allocated) (key : KEY) :
    (m.without key).Filling allocated := by
  constructor
  case toTidy => exact hm.toTidy.without key
  case pushCursor =>
    rw [without_mPushIndex]
    exact hm.pushCursor
  case within => exact hm.within
  case below =>
    intro other slot hother
    rw [without_slotOf] at hother
    split at hother
    · contradiction
    · exact hm.below other slot hother

/-- `operator[]` hands out one slot more when it misses. -/
theorem place (hm : m.Filling allocated) {key : KEY}
    (hbelow : m.Misses key → allocated < cap.slots) :
    (m.place key).Filling (allocated + if m.Misses key then 1 else 0) := by
  constructor
  case toTidy => exact hm.toTidy.place (hm.hasRoom hbelow)
  case pushCursor =>
    apply place_pushCursor hm.toSized hm.pushCursor
    intro hmiss
    have hlt := hbelow hmiss
    have hslots := cap.slots_lt
    omega
  case within =>
    by_cases hmiss : m.Misses key
    · rw [if_pos hmiss]
      exact hbelow hmiss
    · rw [if_neg hmiss]
      exact hm.within
  case below =>
    intro other slot hother
    rw [place_slotOf] at hother
    split at hother
    · rw [Option.some.injEq] at hother
      rw [← hother]
      exact hm.placeSlot_below hbelow
    · exact Nat.lt_add_right _ (hm.below other slot hother)

theorem assigned (hm : m.Filling allocated) {key : KEY}
    (hbelow : m.Misses key → allocated < cap.slots) (value : T) :
    (m.assigned key value).Filling
      (allocated + if m.Misses key then 1 else 0) :=
  (hm.place hbelow).store (place_slotOf_self m key) value

end Filling

/-- The reference `operator[]` returns shows the entry of the key. -/
theorem subscript_item [DecidableEq KEY] {m : CircleMap KEY T cap}
    (hm : m.Tidy) {key : KEY} (hroom : m.HasRoom key) :
    ∃ slot after, m.subscript key = some (slot, after) ∧
      after.item? slot = some ((m.entry key).getD emptyItem) := by
  have hplaced := hm.place hroom
  have hslot := place_slotOf_self m key
  have hentry := entry_of_slotOf hslot
  rw [entry_place hm hroom, Function.update_self, Option.some.injEq] at hentry
  refine ⟨_, _, subscript_eq hm.toSized key, ?_⟩
  rw [item?_of_lt hplaced.toSized.ring (hplaced.slotLt key _ hslot), hentry]

end CircleMap

/-! ### The finite map -/

/-- The calls of a client that never consumes. -/
inductive EntryStep (KEY T : Type) where
  | subscript (key : KEY)
  | assign (value : T)
  | erase (key : KEY)

/-- The map beside the key and slot of the reference last returned, the
number of slots handed out, and the abstract finite map. -/
structure EntryRun (KEY T : Type) (cap : Capacity) where
  map : CircleMap KEY T cap
  reference : Option (KEY × UInt32)
  allocated : Nat
  /-- the value each key was last assigned since its last erasure -/
  latest : KEY → Option T

variable {KEY T : Type} {cap : Capacity} [DecidableEq KEY] [MappedType T]

def entryStart : EntryRun KEY T cap := ⟨CircleMap.fresh, none, 0, fun _ => none⟩

/-- Erasing a key ends the use of the reference to its entry. -/
def entryStep (s : EntryRun KEY T cap) :
    EntryStep KEY T → Option (EntryRun KEY T cap)
  | .subscript key => do
      let (slot, map) ← s.map.subscript key
      some
        { s with
          map := map
          reference := some (key, slot)
          allocated := s.allocated + if s.map.Misses key then 1 else 0 }
  | .assign value => do
      let (key, slot) ← s.reference
      let map ← s.map.assign slot value
      some
        { s with
          map := map
          latest := Function.update s.latest key (some value) }
  | .erase key => do
      let map ← s.map.erase key
      some
        { s with
          map := map
          reference := s.reference.filter fun reference => reference.1 ≠ key
          latest := Function.update s.latest key none }

/-- At most `N` allocations, and assignments only through a reference. -/
def WithinCapacity (s : EntryRun KEY T cap) : EntryStep KEY T → Prop
  | .subscript key => s.map.Misses key → s.allocated < cap.slots
  | .assign _ => s.reference ≠ none
  | .erase _ => True

/-- What a client of a finite map sees: `find` and `operator[]` show the value
last assigned, and `T{}` where there is none. -/
structure ActsAsFiniteMap (s : EntryRun KEY T cap) : Prop where
  find : ∀ key, s.map.find key = some ((s.latest key).getD emptyItem)
  subscript : ∀ key, (s.map.Misses key → s.allocated < cap.slots) →
    ∃ slot after, s.map.subscript key = some (slot, after) ∧
      after.item? slot = some ((s.latest key).getD emptyItem)
  eraseSubscript : ∀ key, ∃ erased, s.map.erase key = some erased ∧
    (s.allocated < cap.slots →
      ∃ slot after, erased.subscript key = some (slot, after) ∧
        after.item? slot = some emptyItem)

/-- The entries of a filling ring are the abstract finite map. -/
structure EntryTidy (s : EntryRun KEY T cap) : Prop where
  filling : s.map.Filling s.allocated
  reference : ∀ key slot, s.reference = some (key, slot) →
    s.map.slotOf key = some slot
  latest : ∀ key,
    (s.map.entry key).getD emptyItem = (s.latest key).getD emptyItem
  flag : ∀ key slot, s.map.slotOf key = some slot → s.map.mEmpty = false

omit [DecidableEq KEY] in
theorem entryStart_tidy : EntryTidy (entryStart : EntryRun KEY T cap) where
  filling := CircleMap.fresh_filling
  reference := by
    intro key slot hreference
    contradiction
  latest := fun _ => rfl
  flag := by
    intro key slot hslot
    rw [entryStart, CircleMap.fresh_slotOf] at hslot
    contradiction

namespace EntryTidy

variable {s : EntryRun KEY T cap}

theorem actsAsFiniteMap (hs : EntryTidy s) : ActsAsFiniteMap s where
  find := by
    intro key
    rw [CircleMap.find_eq hs.filling.toSized, ← hs.latest]
    cases hempty : s.map.mEmpty with
    | false => simp
    | true =>
        -- only a map that never allocated is still marked empty
        have hnone : s.map.slotOf key = none := by
          by_contra hfound
          obtain ⟨slot, hslot⟩ := Option.ne_none_iff_exists'.mp hfound
          rw [hs.flag key slot hslot] at hempty
          contradiction
        simp [(CircleMap.entry_eq_none_iff s.map key).mpr hnone]
  subscript := by
    intro key hbelow
    rw [← hs.latest]
    exact CircleMap.subscript_item hs.filling.toTidy (hs.filling.hasRoom hbelow)
  eraseSubscript := by
    intro key
    have herased := hs.filling.without key
    refine ⟨_, CircleMap.erase_eq hs.filling.toSized key, fun hbelow => ?_⟩
    have hroom : (s.map.without key).HasRoom key :=
      herased.hasRoom fun _ => hbelow
    obtain ⟨slot, after, hcall, hitem⟩ :=
      CircleMap.subscript_item herased.toTidy hroom
    rw [CircleMap.entry_without hs.filling.toTidy, Function.update_self] at hitem
    exact ⟨slot, after, hcall, hitem⟩

/-- The entries and the finite map change alike. -/
theorem latest_update (hs : EntryTidy s) (key : KEY) (content : Option T) :
    ∀ other, (Function.update s.map.entry key content other).getD emptyItem =
      (Function.update s.latest key content other).getD emptyItem := by
  intro other
  by_cases heq : other = key
  · subst heq
    rw [Function.update_self, Function.update_self]
  · rw [Function.update_of_ne heq, Function.update_of_ne heq]
    exact hs.latest other

theorem subscript (hs : EntryTidy s) {key : KEY}
    (hbelow : s.map.Misses key → s.allocated < cap.slots) :
    ∃ after, entryStep s (.subscript key) = some after ∧ EntryTidy after := by
  have hroom := hs.filling.hasRoom hbelow
  refine ⟨_, by
    rw [entryStep, CircleMap.subscript_eq hs.filling.toSized]
    rfl, ?_⟩
  constructor
  case filling => exact hs.filling.place hbelow
  case reference =>
    intro other slot hreference
    simp only [Option.some.injEq, Prod.mk.injEq] at hreference
    rcases hreference with ⟨rfl, rfl⟩
    exact CircleMap.place_slotOf_self s.map key
  case latest =>
    intro other
    rw [CircleMap.entry_place hs.filling.toTidy hroom, ← hs.latest other]
    by_cases heq : other = key
    · subst heq
      simp
    · rw [Function.update_of_ne heq]
  case flag =>
    intro other slot _
    exact CircleMap.place_mEmpty s.map key

theorem assign (hs : EntryTidy s) (value : T) (href : s.reference ≠ none) :
    ∃ after, entryStep s (.assign value) = some after ∧ EntryTidy after := by
  obtain ⟨⟨key, slot⟩, hreference⟩ := Option.ne_none_iff_exists'.mp href
  have hslot := hs.reference key slot hreference
  have hassign := CircleMap.assign_eq hs.filling.toSized
    (hs.filling.slotLt key slot hslot) value
  refine ⟨_, by
    simp only [entryStep, hreference, hassign, Option.bind_eq_bind,
      Option.bind_some]
    rfl, ?_⟩
  constructor
  case filling => exact hs.filling.store hslot value
  case reference =>
    rw [← hreference]
    exact hs.reference
  case latest =>
    rw [CircleMap.entry_store hs.filling.toTidy hslot]
    exact hs.latest_update key (some value)
  case flag => exact hs.flag

theorem erase (hs : EntryTidy s) (key : KEY) :
    ∃ after, entryStep s (.erase key) = some after ∧ EntryTidy after := by
  refine ⟨_, by
    rw [entryStep, CircleMap.erase_eq hs.filling.toSized]
    rfl, ?_⟩
  constructor
  case filling => exact hs.filling.without key
  case reference =>
    intro other slot hreference
    rw [Option.filter_eq_some_iff] at hreference
    rcases hreference with ⟨hreference, hne⟩
    rw [CircleMap.without_slotOf, if_neg (by simpa using hne)]
    exact hs.reference other slot hreference
  case latest =>
    rw [CircleMap.entry_without hs.filling.toTidy]
    exact hs.latest_update key none
  case flag =>
    intro other slot hother
    rw [CircleMap.without_slotOf] at hother
    rw [CircleMap.without_mEmpty]
    split at hother
    · contradiction
    · exact hs.flag other slot hother

end EntryTidy

/-- Step lemma: calls within capacity keep the entries those of the finite
map. -/
theorem entryStep_tidy (s : EntryRun KEY T cap) (step : EntryStep KEY T)
    (hs : EntryTidy s) (hstep : WithinCapacity s step) :
    ∃ after, entryStep s step = some after ∧ EntryTidy after := by
  cases step with
  | subscript key => exact hs.subscript hstep
  | assign value => exact hs.assign value hstep
  | erase key => exact hs.erase key

/-- Along every run within capacity the map acts as a finite map. -/
theorem circleMap_acts_as_finite_map (cap : Capacity)
    (steps : List (EntryStep KEY T))
    (hsteps : Runs.EveryStep entryStep WithinCapacity
      (entryStart : EntryRun KEY T cap) steps) :
    Runs.EveryState entryStep ActsAsFiniteMap
      (entryStart : EntryRun KEY T cap) steps :=
  (Runs.everyState_of_invariant entryStep_tidy entryStart_tidy
    hsteps).mono fun _ hs => hs.actsAsFiniteMap

instance (s : EntryRun KEY T cap) : ∀ step, Decidable (WithinCapacity s step)
  | .subscript key => inferInstanceAs (Decidable
      (s.map.Misses key → s.allocated < cap.slots))
  | .assign _ => decidable_of_iff (s.reference.isSome = true)
      Option.isSome_iff_ne_none
  | .erase _ => inferInstanceAs (Decidable True)

/-- A key erased, found absent and inserted again, and one left at `T{}`. -/
theorem two_slots_act_as_finite_map :
    Runs.EveryState entryStep ActsAsFiniteMap
      (entryStart : EntryRun Nat DataType twoSlots)
      [.subscript 1, .assign ⟨1⟩, .erase 1, .erase 3, .subscript 1,
        .assign ⟨0⟩] :=
  circleMap_acts_as_finite_map twoSlots _ (by decide)

end Saigon
