/-
The slots `operator[]` hands out over a session of any length.  The push
counter is reduced modulo `N` only when it is read, so the slots go round the
ring until the counter itself wraps.
-/
import Saigon.Session
import Saigon.SlotDiscipline

namespace Saigon

variable {KEY T : Type} {cap : Capacity} [DecidableEq KEY] [MappedType T]

/-- Note the slot `operator[]` returns a reference to when it does not find
its key. -/
def noteAllocation (s : Session KEY T cap) (call : Call KEY T)
    (slots : List Nat) : List Nat :=
  match call with
  | .subscript key =>
      match s.map.subscript key with
      | some (slot, _) =>
          if s.map.Misses key then slots ++ [slot.toNat] else slots
      | none => slots
  | _ => slots

/-- A session on a new map beside the slots allocated so far. -/
def allocationStart (cap : Capacity) : Session KEY T cap × List Nat :=
  (session CircleMap.fresh, [])

/-- The slots that a client's calls on a new map are given, in order. -/
def allocations (cap : Capacity) (calls : List (Call KEY T)) :
    Option (List Nat) :=
  (Runs.run (Runs.observe callStep noteAllocation) (allocationStart cap)
    calls).map Prod.snd

/-- The counter has counted the allocations modulo the index type, and each
slot was read off it. -/
structure Allocating (s : Session KEY T cap × List Nat) : Prop where
  sized : SessionSized s.1
  counted : s.1.map.mPushIndex.toNat = s.2.length % 4294967296
  slots : s.2 = (List.range s.2.length).map fun turn =>
    turn % 4294967296 % cap.slots

omit [DecidableEq KEY] in
theorem allocationStart_allocating :
    Allocating (allocationStart cap : Session KEY T cap × List Nat) where
  sized := session_sized CircleMap.fresh_sized
  counted := rfl
  slots := rfl

/-- Only `operator[]` moves the push counter. -/
theorem callStep_mPushIndex {s after : Session KEY T cap} {call : Call KEY T}
    (hs : SessionSized s) (hstep : callStep s call = some after)
    (hother : ∀ key, call ≠ .subscript key) :
    after.map.mPushIndex = s.map.mPushIndex := by
  cases call <;>
    simp only [callStep, Option.bind_eq_bind, Option.bind_eq_some_iff,
      Option.some.injEq] at hstep
  case subscript key => exact absurd rfl (hother key)
  case assign =>
    rcases hstep with ⟨slot, _, map, hassign, rfl⟩
    rw [CircleMap.assign] at hassign
    split at hassign
    · cases hassign
      rfl
    · contradiction
  case erase key =>
    rcases hstep with ⟨map, herase, rfl⟩
    rw [CircleMap.erase_eq hs.sized] at herase
    cases herase
    exact CircleMap.without_mPushIndex _ _
  case nextAvailableItem =>
    rcases hstep with ⟨⟨slot, map⟩, hcall, rfl⟩
    have hnext : ∃ moved, mapStep s.map .next = some moved ∧
        moved.mPushIndex = s.map.mPushIndex :=
      mapStep_next_keeps hs.sized rfl (fun _ _ => rfl) rfl
    obtain ⟨moved, hmove, hkeep⟩ := hnext
    rw [mapStep, hcall, Option.map_some, Option.some.injEq] at hmove
    exact hmove ▸ hkeep
  case empty =>
    cases hstep
    rfl
  all_goals
    rcases hstep with ⟨_, _, rfl⟩
    rfl

omit [DecidableEq KEY] [MappedType T] in
/-- A miss is given the slot that the count of allocations reduces to. -/
theorem Allocating.push {s : Session KEY T cap × List Nat} (hs : Allocating s)
    {after : Session KEY T cap} (hafter : SessionSized after)
    (hcounter : after.map.mPushIndex = s.1.map.mPushIndex + 1) :
    Allocating (after, s.2 ++ [s.1.map.pushSlot.toNat]) := by
  constructor
  · exact hafter
  · simp only [hcounter, UInt32.toNat_add, hs.counted, UInt32.toNat_one,
      List.length_append, List.length_singleton, Nat.mod_add_mod]
  · simp only [List.length_append, List.length_singleton, List.range_succ,
      List.map_append, List.map_cons, List.map_nil, CircleMap.pushSlot_toNat,
      hs.counted, ← hs.slots]

/-- `operator[]` allocates exactly when it misses. -/
theorem observe_subscript {s : Session KEY T cap × List Nat}
    (hs : Allocating s) (key : KEY) :
    ∃ after slots,
      Runs.observe callStep noteAllocation s (.subscript key) =
        some (after, slots) ∧
      after.map = s.1.map.place key ∧ Allocating (after, slots) ∧
      slots.length = if s.1.map.slotOf key = none then s.2.length + 1
        else s.2.length := by
  have hm := hs.sized.sized
  obtain ⟨after, hstep, hafter⟩ :=
    callStep_sized s.1 (.subscript key) hs.sized trivial
  have hmap : after.map = s.1.map.place key := by
    simp only [callStep, CircleMap.subscript_eq hm, Option.bind_eq_bind,
      Option.bind_some, Option.bind_eq_some_iff, Option.some.injEq] at hstep
    rcases hstep with ⟨_, _, rfl⟩
    rfl
  have hcounter := CircleMap.place_mPushIndex s.1.map key
  refine ⟨after, _, Runs.observe_of_step hstep, hmap, ?_⟩
  simp only [noteAllocation, CircleMap.subscript_eq hm,
    CircleMap.misses_iff hm key]
  by_cases hslot : s.1.map.slotOf key = none
  · simp only [hslot, ↓reduceIte, CircleMap.placeSlot, Option.getD_none] at *
    rw [← hmap] at hcounter
    exact ⟨hs.push hafter hcounter, List.length_append⟩
  · simp only [hslot, ↓reduceIte] at *
    rw [← hmap] at hcounter
    exact ⟨⟨hafter, hcounter ▸ hs.counted, hs.slots⟩, trivial⟩

/-- Step lemma: the allocations follow the counter. -/
theorem observe_allocating (s : Session KEY T cap × List Nat)
    (call : Call KEY T) (hs : Allocating s)
    (huses : call.UsesIssued s.1.references.length) :
    ∃ after, Runs.observe callStep noteAllocation s call = some after ∧
      Allocating after := by
  cases call with
  | subscript key =>
      obtain ⟨after, slots, hstep, _, hafter, _⟩ := observe_subscript hs key
      exact ⟨_, hstep, hafter⟩
  | _ =>
      obtain ⟨after, hstep, hafter⟩ := callStep_sized s.1 _ hs.sized huses
      have hkeep := callStep_mPushIndex hs.sized hstep (by simp)
      exact ⟨_, Runs.observe_of_step hstep, hafter, hkeep ▸ hs.counted,
        hs.slots⟩

/-- Run lemma: what a session on a new map is given. -/
theorem allocations_eq (cap : Capacity) {calls : List (Call KEY T)}
    (hissued : ReferencesIssued 0 calls) :
    ∃ slots, allocations cap calls = some slots ∧
      slots = (List.range slots.length).map fun turn =>
        turn % 4294967296 % cap.slots := by
  have huses : Runs.EveryStep (Runs.observe callStep noteAllocation)
      (fun s call => call.UsesIssued s.1.references.length)
      (allocationStart cap) calls :=
    (everyStep_usesIssued (session CircleMap.fresh) hissued).observe []
  obtain ⟨last, hrun, hlast⟩ := Runs.run_of_invariant observe_allocating
    allocationStart_allocating huses
  refine ⟨last.2, ?_, hlast.slots⟩
  rw [allocations, hrun, Option.map_some]

/-- A session is given its slots cyclically exactly when the counter has not
wrapped or wraps to the slot it would have reached anyway. -/
theorem allocations_cyclic_iff (cap : Capacity) {calls : List (Call KEY T)}
    (hissued : ReferencesIssued 0 calls) :
    ∃ slots, allocations cap calls = some slots ∧
      (Circular.Cyclic cap.slots slots ↔
        cap.slots ∣ 4294967296 ∨ slots.length ≤ 4294967296) := by
  obtain ⟨slots, hslots, heq⟩ := allocations_eq cap hissued
  refine ⟨slots, hslots, ?_⟩
  rw [heq, List.length_map, List.length_range]
  exact Circular.cyclic_wrapped_iff (by decide)

theorem two_slots_allocations_cyclic :
    ∃ slots, allocations twoSlots ([.subscript 1, .erase 1, .subscript 1,
        .subscript 2] : List (Call Nat DataType)) = some slots ∧
      (Circular.Cyclic twoSlots.slots slots ↔
        twoSlots.slots ∣ 4294967296 ∨ slots.length ≤ 4294967296) :=
  allocations_cyclic_iff twoSlots (by decide)

/-! ### Past the wrap -/

/-- A client that creates one key and erases it, time after time. -/
def churn (key : KEY) (times : Nat) : List (Call KEY T) :=
  (List.replicate times [Call.subscript key, Call.erase key]).flatten

omit [DecidableEq KEY] [MappedType T] in
theorem churn_succ (key : KEY) (times : Nat) :
    (churn key (times + 1) : List (Call KEY T)) =
      .subscript key :: .erase key :: churn key times := by
  rw [churn, List.replicate_succ, List.flatten_cons]
  rfl

omit [DecidableEq KEY] [MappedType T] in
theorem referencesIssued_churn (key : KEY) (times issued : Nat) :
    ReferencesIssued issued (churn key times : List (Call KEY T)) := by
  induction times generalizing issued with
  | zero => trivial
  | succ times ih =>
      rw [churn_succ]
      exact ⟨trivial, trivial, ih _⟩

/-- Each time round, the key misses again. -/
theorem run_churn (times : Nat) {key : KEY}
    {s : Session KEY T cap × List Nat} (hs : Allocating s)
    (habsent : s.1.map.slotOf key = none) :
    ∃ last, Runs.run (Runs.observe callStep noteAllocation) s
        (churn key times) = some last ∧
      last.2.length = s.2.length + times := by
  induction times generalizing s with
  | zero => exact ⟨s, rfl, rfl⟩
  | succ times ih =>
      obtain ⟨created, slots, hcreate, _, hcreated, hlength⟩ :=
        observe_subscript hs key
      have hm := hcreated.sized.sized
      let erased := created.answer (created.map.without key) .done
      have herase : callStep created (.erase key) = some erased := by
        rw [callStep, CircleMap.erase_eq hm]
        rfl
      have herased : Allocating (erased, slots) := by
        refine ⟨hcreated.sized.answer (hm.without key) .done, ?_,
          hcreated.slots⟩
        exact (congrArg UInt32.toNat
          (CircleMap.without_mPushIndex created.map key)).trans
            hcreated.counted
      have hgone : erased.map.slotOf key = none := by
        change (created.map.without key).slotOf key = none
        rw [CircleMap.without_slotOf, if_pos rfl]
      obtain ⟨last, hrun, hlast⟩ := ih herased hgone
      refine ⟨last, ?_, ?_⟩
      · rw [churn_succ, Runs.run_cons, hcreate, Option.bind_some, Runs.run_cons,
          Runs.observe_of_step herase, Option.bind_some]
        exact hrun
      · rw [hlast, hlength, if_pos habsent, Nat.add_right_comm, Nat.add_assoc]

/-- The smallest capacity that does not divide the size of the index type. -/
def threeSlots : Capacity := ⟨3, by decide, by decide⟩

/-- The allocation after the counter wraps repeats the slot before it. -/
theorem three_slots_allocations_not_cyclic :
    ∃ slots, ReferencesIssued 0
        (churn 1 4294967297 : List (Call Nat DataType)) ∧
      allocations threeSlots
        (churn 1 4294967297 : List (Call Nat DataType)) = some slots ∧
      slots.length = 4294967297 ∧
      ¬ Circular.Cyclic threeSlots.slots slots := by
  have hissued := referencesIssued_churn (T := DataType) 1 4294967297 0
  obtain ⟨slots, hslots, heq⟩ := allocations_eq threeSlots hissued
  obtain ⟨last, hrun, hlength⟩ := run_churn 4294967297
    (allocationStart_allocating : Allocating
      (allocationStart threeSlots : Session Nat DataType threeSlots × _))
    (CircleMap.fresh_slotOf 1)
  have hcount : slots.length = 4294967297 := by
    rw [allocations, hrun, Option.map_some, Option.some.injEq] at hslots
    rw [← hslots, hlength]
    rfl
  refine ⟨slots, hissued, hslots, hcount, ?_⟩
  rw [heq, hcount, Circular.cyclic_wrapped_iff (by decide)]
  decide

end Saigon
