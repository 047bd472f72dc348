/-
Slots go round robin: the `n`-th allocation is given slot `n % N` whatever
has been erased meanwhile, until a wrap of the push counter breaks the round.
An allocation is therefore safe when the key that was served `N` allocations
earlier has been erased, and a merely partial occupancy does not make it safe.
-/
import Saigon.SlotDiscipline
import Saigon.Support.Ledger

namespace Saigon

/-- One allocation: the key it served, and whether that key was erased since. -/
structure Turn (KEY : Type) where
  key : KEY
  erased : Bool
deriving DecidableEq

/-- The map beside what was assigned and the log of allocations. -/
structure TurnRun (KEY T : Type) (cap : Capacity) where
  map : CircleMap KEY T cap
  ledger : Ledger KEY T
  turns : List (Turn KEY)

variable {KEY T : Type} {cap : Capacity} [DecidableEq KEY] [MappedType T]

def turnStart : TurnRun KEY T cap := ⟨CircleMap.fresh, Ledger.empty, []⟩

/-- Mark the turns of a key as erased. -/
def markErased (key : KEY) (turns : List (Turn KEY)) : List (Turn KEY) :=
  turns.map fun turn => if turn.key = key then { turn with erased := true } else turn

/-- Assignments and erasures, with their record; a miss of `operator[]` is
an allocation. -/
def turnStep (s : TurnRun KEY T cap) (step : MapStep KEY T) :
    Option (TurnRun KEY T cap) := do
  let map ← mapStep s.map step
  match step with
  | .put key value =>
      some
        { map := map
          ledger := s.ledger.assign key value
          turns := if s.map.Misses key then s.turns ++ [⟨key, false⟩] else s.turns }
  | .erase key =>
      some
        { map := map
          ledger := s.ledger.erase key
          turns := markErased key s.turns }
  | .next => some { s with map := map }

/-- A key is live when it was last assigned a truthy value and has not been
erased since. -/
def TurnRun.Live (s : TurnRun KEY T cap) (key : KEY) : Prop :=
  ∃ value, s.ledger.lookup key = some value ∧ truthy value = true

def TurnRun.liveKeys (s : TurnRun KEY T cap) : List KEY :=
  (s.ledger.entries.filter fun entry => truthy entry.2).map Prod.fst

/-- The turn whose slot the next allocation reuses, once all slots have been
handed out. -/
def TurnRun.due? (s : TurnRun KEY T cap) : Option (Turn KEY) :=
  if s.turns.length < cap.slots then none
  else s.turns[s.turns.length - cap.slots]?

/-- Insert only below capacity, erase only live keys. -/
def WhileRoom (s : TurnRun KEY T cap) : MapStep KEY T → Prop
  | .put key _ => key ∈ s.liveKeys ∨ s.liveKeys.length < cap.slots
  | .erase key => key ∈ s.liveKeys
  | .next => False

/-- The push counter has not wrapped, or its wrap does not break the round. -/
def TurnRun.RoundUnbroken (s : TurnRun KEY T cap) : Prop :=
  cap.slots ∣ 4294967296 ∨ s.turns.length < 4294967296

/-- Allocate only in an unbroken round and after the key served `N` allocations
earlier was erased, and erase only live keys. -/
def InTurn (s : TurnRun KEY T cap) : MapStep KEY T → Prop
  | .put key _ => s.map.Misses key →
      s.RoundUnbroken ∧ ∀ turn ∈ s.due?, turn.erased = true
  | .erase key => key ∈ s.liveKeys
  | .next => False

/-- The slot `operator[]` hands out holds `T{}` and belongs to no live key, and
inserting through it changes the lookup of no other live key. -/
def AllocationSafe (s : TurnRun KEY T cap) (key : KEY) : Prop :=
  ∃ slot after, s.map.subscript key = some (slot, after) ∧
    after.item? slot = some emptyItem ∧
    (∀ other, s.Live other → s.map.slotOf other ≠ some slot) ∧
    ∀ value, ∃ inserted, s.map.put key value = some inserted ∧
      ∀ other, other ≠ key → s.Live other →
        inserted.find other = s.map.find other

/-- Keys that still name their slot were served within the last `N` turns. -/
structure TurnTidy (s : TurnRun KEY T cap) : Prop where
  tidy : s.map.Tidy
  entries : s.map.entry = s.ledger.lookup
  pushCursor : s.map.mPushIndex.toNat = s.turns.length % 4294967296
  standing : ∀ (n : Nat) turn, s.turns[n]? = some turn → turn.erased = false →
    s.turns.length ≤ n + cap.slots ∧ ∃ slot,
      s.map.slotOf turn.key = some slot ∧ slot.toNat = n % cap.slots
  served : ∀ key slot, s.map.slotOf key = some slot →
    ∃ n : Nat, s.turns[n]? = some ⟨key, false⟩
  flag : ∀ key value, s.ledger.lookup key = some value → s.map.mEmpty = false

theorem turnStart_tidy : TurnTidy (turnStart : TurnRun KEY T cap) where
  tidy := CircleMap.fresh_tidy
  entries := rfl
  pushCursor := rfl
  standing := by
    intro n turn hturn
    contradiction
  served := by
    intro key slot hslot
    contradiction
  flag := by
    intro key value hlookup
    contradiction

theorem getElem?_markErased {key : KEY} {turns : List (Turn KEY)} {n : Nat}
    {turn : Turn KEY} (hturn : (markErased key turns)[n]? = some turn)
    (herased : turn.erased = false) :
    turns[n]? = some turn ∧ turn.key ≠ key := by
  rw [markErased, List.getElem?_map] at hturn
  obtain ⟨old, hold, heq⟩ := Option.map_eq_some_iff.mp hturn
  split at heq
  · subst heq
    contradiction
  · next hne =>
      subst heq
      exact ⟨hold, hne⟩

namespace TurnTidy

variable {s : TurnRun KEY T cap}

/-- In an unbroken round the counter names the slot whose turn it is. -/
theorem pushSlot_toNat (hs : TurnTidy s) (hround : s.RoundUnbroken) :
    s.map.pushSlot.toNat = s.turns.length % cap.slots := by
  rw [CircleMap.pushSlot_toNat, hs.pushCursor]
  rcases hround with hdvd | hcount
  · exact Nat.mod_mod_of_dvd _ hdvd
  · rw [Nat.mod_eq_of_lt hcount]

/-- A slot comes round again exactly `N` turns later. -/
theorem due_of_pushSlot (hs : TurnTidy s) (hunbroken : s.RoundUnbroken)
    {key : KEY} (hslot : s.map.slotOf key = some s.map.pushSlot) :
    s.due? = some ⟨key, false⟩ := by
  obtain ⟨n, hn⟩ := hs.served key _ hslot
  obtain ⟨hrecent, slot, hslot', hpos⟩ := hs.standing n _ hn rfl
  rw [hslot, Option.some.injEq] at hslot'
  rw [← hslot', hs.pushSlot_toNat hunbroken] at hpos
  have hlt : n < s.turns.length := (List.getElem?_eq_some_iff.mp hn).1
  have hround : s.turns.length = n + cap.slots := by
    by_contra hne
    have hsame : (n + (s.turns.length - n)) % cap.slots =
        (n + 0) % cap.slots := by
      rw [Nat.add_sub_cancel' hlt.le, hpos, Nat.add_zero]
    have hzero := Circular.add_mod_inj (by omega) cap.slots_pos hsame
    omega
  rw [TurnRun.due?, if_neg (by omega), hround, Nat.add_sub_cancel, hn]

theorem hasRoom (hs : TurnTidy s) {key : KEY} (hround : s.RoundUnbroken)
    (hdue : ∀ turn ∈ s.due?, turn.erased = true) : s.map.HasRoom key := by
  intro _ other hother
  have herased := hdue _ (hs.due_of_pushSlot hround hother)
  contradiction

theorem allocationSafe (hs : TurnTidy s) {key : KEY}
    (hmiss : s.map.Misses key) (hround : s.RoundUnbroken)
    (hdue : ∀ turn ∈ s.due?, turn.erased = true) : AllocationSafe s key := by
  have hsized := hs.tidy.toSized
  have hslot := (CircleMap.misses_iff hsized key).mp hmiss
  have hroom : s.map.HasRoom key := hs.hasRoom hround hdue
  refine ⟨s.map.pushSlot, s.map.allocate key,
    CircleMap.subscript_miss hsized hslot, ?_, ?_, ?_⟩
  · rw [CircleMap.item?_of_lt (hsized.allocate key).ring s.map.pushSlot_lt,
      CircleMap.allocate_itemAt, hs.tidy.room_default hroom hslot]
  · intro other _
    exact hroom hslot other
  · intro value
    refine ⟨_, CircleMap.put_eq hsized key value, ?_⟩
    rintro other hne ⟨held, hheld, _⟩
    rw [CircleMap.find_eq (hsized.assigned key value),
      CircleMap.find_eq hsized, CircleMap.assigned_mEmpty,
      hs.flag other held hheld, CircleMap.entry_assigned hs.tidy hroom,
      Function.update_of_ne hne]

theorem put_hit (hs : TurnTidy s) {key : KEY} (value : T)
    (hmiss : ¬ s.map.Misses key) :
    ∃ after, turnStep s (.put key value) = some after ∧ TurnTidy after := by
  have hsized := hs.tidy.toSized
  have hfound := mt (CircleMap.misses_iff hsized key).mpr hmiss
  obtain ⟨slot, hslot⟩ := Option.ne_none_iff_exists'.mp hfound
  have hroom : s.map.HasRoom key := fun hnone => absurd hnone hfound
  refine ⟨_, by rw [turnStep, mapStep_put hsized]; rfl, ?_⟩
  constructor
  case tidy => exact hs.tidy.assigned hroom value
  case entries =>
    exact CircleMap.entry_assigned_recorded hs.tidy hs.entries hroom value
  case pushCursor =>
    rw [if_neg hmiss, CircleMap.assigned_mPushIndex,
      CircleMap.place_mPushIndex, if_neg hfound]
    exact hs.pushCursor
  case standing =>
    intro n turn hturn herased
    rw [if_neg hmiss] at hturn ⊢
    simp only [CircleMap.assigned_slotOf_hit hslot]
    exact hs.standing n turn hturn herased
  case served =>
    intro other found hother
    rw [CircleMap.assigned_slotOf_hit hslot] at hother
    rw [if_neg hmiss]
    exact hs.served other found hother
  case flag =>
    intro other held _
    exact CircleMap.assigned_mEmpty _ _ _

/-- With the due turn erased, the turns that stand leave room for one more. -/
theorem standing_recent (hs : TurnTidy s)
    (hdue : ∀ turn ∈ s.due?, turn.erased = true) {n : Nat} {turn : Turn KEY}
    (hturn : s.turns[n]? = some turn) (herased : turn.erased = false) :
    s.turns.length + 1 ≤ n + cap.slots := by
  rcases Nat.eq_or_lt_of_le (hs.standing n turn hturn herased).1 with
    hround | hmore
  · have hdueTurn : s.due? = some turn := by
      rw [TurnRun.due?, if_neg (by omega), hround, Nat.add_sub_cancel, hturn]
    rw [hdue turn hdueTurn] at herased
    contradiction
  · exact hmore

/-- After an allocation the new turn stands, and so do those that stood. -/
theorem standing_pushed (hs : TurnTidy s) {key : KEY} (value : T)
    (hslot : s.map.slotOf key = none) (hround : s.RoundUnbroken)
    (hdue : ∀ turn ∈ s.due?, turn.erased = true) {n : Nat} {turn : Turn KEY}
    (hturn : (s.turns ++ [⟨key, false⟩])[n]? = some turn)
    (herased : turn.erased = false) :
    s.turns.length + 1 ≤ n + cap.slots ∧ ∃ slot,
      (s.map.assigned key value).slotOf turn.key = some slot ∧
      slot.toNat = n % cap.slots := by
  rcases List.getElem?_concat_cases hturn with hold | ⟨hlast, rfl⟩
  · obtain ⟨_, slot, hturnSlot, hpos⟩ := hs.standing n turn hold herased
    have hne : turn.key ≠ key := by
      intro heq
      rw [heq, hslot] at hturnSlot
      contradiction
    refine ⟨hs.standing_recent hdue hold herased, slot, ?_, hpos⟩
    rw [CircleMap.assigned_slotOf, if_neg hne, hturnSlot]
  · have hpos := cap.slots_pos
    refine ⟨by omega, s.map.pushSlot, ?_, ?_⟩
    · rw [CircleMap.assigned_slotOf, if_pos rfl, CircleMap.placeSlot, hslot,
        Option.getD_none]
    · rw [hs.pushSlot_toNat hround, hlast]

theorem put_miss (hs : TurnTidy s) {key : KEY} (value : T)
    (hmiss : s.map.Misses key) (hround : s.RoundUnbroken)
    (hdue : ∀ turn ∈ s.due?, turn.erased = true) :
    ∃ after, turnStep s (.put key value) = some after ∧ TurnTidy after := by
  have hsized := hs.tidy.toSized
  have hslot := (CircleMap.misses_iff hsized key).mp hmiss
  have hroom : s.map.HasRoom key := hs.hasRoom hround hdue
  have hlength : (s.turns ++ [Turn.mk key false]).length = s.turns.length + 1 := by
    rw [List.length_append, List.length_singleton]
  refine ⟨_, by rw [turnStep, mapStep_put hsized]; rfl, ?_⟩
  constructor
  case tidy => exact hs.tidy.assigned hroom value
  case entries =>
    exact CircleMap.entry_assigned_recorded hs.tidy hs.entries hroom value
  case pushCursor =>
    rw [if_pos hmiss, hlength, CircleMap.assigned_mPushIndex,
      CircleMap.place_mPushIndex, if_pos hslot, UInt32.toNat_add, hs.pushCursor,
      UInt32.toNat_one, Nat.mod_add_mod]
  case standing =>
    intro n turn hturn herased
    rw [if_pos hmiss] at hturn ⊢
    rw [hlength]
    exact hs.standing_pushed value hslot hround hdue hturn herased
  case served =>
    intro other found hother
    rw [if_pos hmiss]
    rw [CircleMap.assigned_slotOf] at hother
    split at hother
    · next heq =>
        refine ⟨s.turns.length, ?_⟩
        rw [List.getElem?_concat_length, heq]
    · obtain ⟨n, hn⟩ := hs.served other found hother
      refine ⟨n, ?_⟩
      rw [List.getElem?_append_left (List.getElem?_eq_some_iff.mp hn).1, hn]
  case flag =>
    intro other held _
    exact CircleMap.assigned_mEmpty _ _ _

theorem erase (hs : TurnTidy s) (key : KEY) :
    ∃ after, turnStep s (.erase key) = some after ∧ TurnTidy after := by
  have hsized := hs.tidy.toSized
  refine ⟨_, by rw [turnStep, mapStep_erase hsized]; rfl, ?_⟩
  constructor
  case tidy => exact hs.tidy.without key
  case entries => exact CircleMap.entry_without_recorded hs.tidy hs.entries key
  case pushCursor =>
    rw [CircleMap.without_mPushIndex, markErased, List.length_map]
    exact hs.pushCursor
  case standing =>
    intro n turn hturn herased
    obtain ⟨hold, hne⟩ := getElem?_markErased hturn herased
    rw [markErased, List.length_map, CircleMap.without_slotOf, if_neg hne]
    exact hs.standing n turn hold herased
  case served =>
    intro other found hother
    rw [CircleMap.without_slotOf] at hother
    split at hother
    · contradiction
    · next hne =>
        obtain ⟨n, hn⟩ := hs.served other found hother
        refine ⟨n, ?_⟩
        rw [markErased, List.getElem?_map, hn, Option.map_some, if_neg hne]
  case flag =>
    intro other held hlookup
    rw [CircleMap.without_mEmpty]
    exact hs.flag other held (Ledger.lookup_of_lookup_erase hlookup)

end TurnTidy

/-- Step lemma: allocating in turn keeps every named slot within one round. -/
theorem turnStep_tidy (s : TurnRun KEY T cap) (step : MapStep KEY T)
    (hs : TurnTidy s) (hturn : InTurn s step) :
    ∃ after, turnStep s step = some after ∧ TurnTidy after := by
  cases step with
  | put key value =>
      by_cases hmiss : s.map.Misses key
      · obtain ⟨hround, hdue⟩ := hturn hmiss
        exact hs.put_miss value hmiss hround hdue
      · exact hs.put_hit value hmiss
  | erase key => exact hs.erase key
  | next => exact hturn.elim

/-- Along every run that allocates in turn, an allocation in turn is safe. -/
theorem allocation_in_turn_safe (cap : Capacity)
    (steps : List (MapStep KEY T))
    (hturns : Runs.EveryStep turnStep InTurn
      (turnStart : TurnRun KEY T cap) steps) :
    Runs.EveryState turnStep
      (fun s => ∀ key value, InTurn s (.put key value) →
        s.map.Misses key → AllocationSafe s key)
      (turnStart : TurnRun KEY T cap) steps := by
  apply (Runs.everyState_of_invariant turnStep_tidy turnStart_tidy hturns).mono
  intro s hs key value hturn hmiss
  obtain ⟨hround, hdue⟩ := hturn hmiss
  exact hs.allocationSafe hmiss hround hdue

instance (s : TurnRun KEY T cap) : Decidable s.RoundUnbroken :=
  inferInstanceAs
    (Decidable (cap.slots ∣ 4294967296 ∨ s.turns.length < 4294967296))

instance (s : TurnRun KEY T cap) : ∀ step, Decidable (InTurn s step)
  | .put key _ => inferInstanceAs (Decidable (s.map.Misses key →
      s.RoundUnbroken ∧ ∀ turn ∈ s.due?, turn.erased = true))
  | .erase key => inferInstanceAs (Decidable (key ∈ s.liveKeys))
  | .next => inferInstanceAs (Decidable False)

/-- The slot of the first key comes round after that key was erased. -/
theorem two_slots_in_turn_safe :
    Runs.EveryState turnStep
      (fun s => ∀ key value, InTurn s (.put key value) →
        s.map.Misses key → AllocationSafe s key)
      (turnStart : TurnRun Nat DataType twoSlots)
      [.put 1 ⟨1⟩, .put 2 ⟨2⟩, .erase 1, .put 3 ⟨3⟩] :=
  allocation_in_turn_safe twoSlots _ (by decide)

/-! ### Room alone is not enough -/

instance (s : TurnRun KEY T cap) :
    ∀ step, Decidable (WhileRoom s step)
  | .put key _ => inferInstanceAs (Decidable
      (key ∈ s.liveKeys ∨ s.liveKeys.length < cap.slots))
  | .erase key => inferInstanceAs (Decidable (key ∈ s.liveKeys))
  | .next => inferInstanceAs (Decidable False)

/-- With one of two keys live, the slot of the live one is handed out. -/
theorem room_does_not_make_allocation_safe :
    Runs.EveryStep turnStep WhileRoom
        (turnStart : TurnRun Nat DataType twoSlots)
        [.put 1 ⟨1⟩, .put 2 ⟨2⟩, .erase 2] ∧
      ¬ Runs.EveryState turnStep
        (fun s => ∀ key value, WhileRoom s (.put key value) →
          s.map.Misses key → AllocationSafe s key)
        (turnStart : TurnRun Nat DataType twoSlots)
        [.put 1 ⟨1⟩, .put 2 ⟨2⟩, .erase 2] := by
  constructor
  · decide
  · intro hevery
    have hfacts : (Runs.run turnStep
        (turnStart : TurnRun Nat DataType twoSlots)
        [.put 1 ⟨1⟩, .put 2 ⟨2⟩, .erase 2]).map (fun s =>
          (s.liveKeys.length, decide (s.map.Misses 3),
            (s.map.subscript 3).map Prod.fst, s.ledger.lookup 1,
            s.map.slotOf 1)) =
        some (1, true, some 0, some ⟨1⟩, some 0) := by decide
    obtain ⟨reached, hsafe, hfacts⟩ := hevery.observed hfacts
    simp only [Prod.mk.injEq, decide_eq_true_eq] at hfacts
    rcases hfacts with ⟨hlive, hmiss, hslot, hheld, hnamed⟩
    obtain ⟨slot, after, hsubscript, _, hfree, _⟩ :=
      hsafe 3 ⟨3⟩ (Or.inr (by rw [hlive]; decide)) hmiss
    rw [hsubscript, Option.map_some, Option.some.injEq] at hslot
    exact hfree 1 ⟨_, hheld, by decide⟩ (by rw [hnamed, ← hslot])

end Saigon
