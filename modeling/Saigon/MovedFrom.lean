/-
Moving a `circle_map`.  The target takes over all five members.  The source
gets back its three counters and two empty containers, and an empty vector is
not the vector of `N` items that a default-constructed map starts with.
-/
import Saigon.Session

namespace Saigon

variable {KEY T : Type} {cap : Capacity}

/-- Operations that subscript `mData` in every map. -/
def Call.demandsSlot : Call KEY T → Bool
  | .subscript _ => true
  | .front => true
  | _ => false

/-- What the other operations show on a map that was never used. -/
def Call.resultUnused [MappedType T] : Call KEY T → Result T
  | .find _ => .item emptyItem
  | .findIf _ => .item emptyItem
  | .rfindIf _ => .item emptyItem
  | .loopAll => .visited []
  | .rloopAll => .visited []
  | .nextAvailableItem => .index 0
  | .empty => .flag true
  | _ => .done

/-- Marked empty, with no keys and the pop cursor at zero, as after default
construction and after being moved from. -/
structure CircleMap.Unused (m : CircleMap KEY T cap) : Prop where
  mEmpty : m.mEmpty = true
  mPopIndex : m.mPopIndex = 0
  mKeys : ∀ key, m.mKeys key = none

namespace CircleMap

theorem fresh_unused [MappedType T] :
    (fresh : CircleMap KEY T cap).Unused := ⟨rfl, rfl, fun _ => rfl⟩

theorem movedFrom_unused : (movedFrom : CircleMap KEY T cap).Unused :=
  ⟨rfl, rfl, fun _ => rfl⟩

theorem moveConstruct_target (m : CircleMap KEY T cap) :
    m.moveConstruct.1 = m := rfl

theorem moveConstruct_source (m : CircleMap KEY T cap) :
    m.moveConstruct.2 = movedFrom := rfl

section Assignment

variable {Address : Type} [DecidableEq Address]
  (memory : Address → CircleMap KEY T cap) {this other : Address}

theorem moveAssign_target (hne : this ≠ other) :
    moveAssign memory this other this = memory other := by
  rw [moveAssign, if_pos hne, Function.update_of_ne hne, Function.update_self,
    moveConstruct_target]

theorem moveAssign_source (hne : this ≠ other) :
    moveAssign memory this other other = movedFrom := by
  rw [moveAssign, if_pos hne, Function.update_self, moveConstruct_source]

end Assignment

end CircleMap

variable [DecidableEq KEY] [MappedType T]

/-- What moving `m` into `d` promises about a later sequence of calls on each
of the two. -/
structure MoveLaw (m d source : CircleMap KEY T cap)
    (calls : List (Call KEY T)) : Prop where
  transferred : results d calls = results m calls
  reset : results source calls =
    results (CircleMap.fresh : CircleMap KEY T cap) calls
  targetInRange : (results d calls).isSome = true
  sourceInRange : (results source calls).isSome = true

/-- A call that demands no slot leaves an unused map alone. -/
theorem callStep_unused {s : Session KEY T cap} (hs : s.map.Unused)
    {call : Call KEY T} (huses : call.UsesIssued 0)
    (hfree : call.demandsSlot = false) :
    callStep s call = some (s.answer s.map call.resultUnused) := by
  have hempty := hs.mEmpty
  cases call with
  | subscript key => contradiction
  | assign reference value => exact absurd huses (Nat.not_lt_zero _)
  | erase key => simp [callStep, CircleMap.erase, hs.mKeys, Call.resultUnused]
  | find key =>
      simp [callStep, CircleMap.find, CircleMap.findInternal, CircleMap.empty,
        hempty, Call.resultUnused]
  | findIf pre =>
      simp [callStep, CircleMap.findIf, CircleMap.empty, hempty,
        Call.resultUnused]
  | rfindIf pre =>
      simp [callStep, CircleMap.rfindIf, CircleMap.empty, hempty,
        Call.resultUnused]
  | loopAll =>
      simp [callStep, CircleMap.loopItems, CircleMap.loopAll, CircleMap.empty,
        hempty, Call.resultUnused]
  | rloopAll =>
      simp [callStep, CircleMap.rloopItems, CircleMap.rloopAll,
        CircleMap.empty, hempty, Call.resultUnused]
  | front => contradiction
  | nextAvailableItem =>
      simp [callStep, CircleMap.nextAvailableItem_empty hempty, hs.mPopIndex,
        Call.resultUnused]
  | empty => simp [callStep, CircleMap.empty, hempty, Call.resultUnused]

/-- A moved-from map has no slot to subscript. -/
theorem callStep_movedFrom {s : Session KEY T cap}
    (hs : s.map = CircleMap.movedFrom) {call : Call KEY T}
    (hdemands : call.demandsSlot = true) : callStep s call = none := by
  cases call with
  | subscript key =>
      simp [callStep, hs, CircleMap.subscript, CircleMap.findInternal,
        CircleMap.movedFrom, CircleMap.empty, CircleMap.updateEmpty,
        CircleMap.nextPushIndex, CircleMap.slotReference]
  | front =>
      simp [callStep, hs, CircleMap.front, CircleMap.item?,
        CircleMap.movedFrom]
  | _ => contradiction

omit [DecidableEq KEY] [MappedType T] in
theorem Call.issues_of_free {call : Call KEY T}
    (hfree : call.demandsSlot = false) : call.issues = 0 := by
  cases call with
  | subscript key => contradiction
  | _ => rfl

/-- Run lemma: a sequence that demands no slot shows the same on every unused
map, whatever its vector. -/
theorem results_unused {m : CircleMap KEY T cap} (hm : m.Unused)
    {calls : List (Call KEY T)} (hissued : ReferencesIssued 0 calls)
    (hfree : ∀ call ∈ calls, call.demandsSlot = false) :
    results m calls = some (calls.map Call.resultUnused) := by
  have hrun : ∀ (calls : List (Call KEY T)) (s : Session KEY T cap),
      s.map.Unused → ReferencesIssued 0 calls →
      (∀ call ∈ calls, call.demandsSlot = false) →
      (Runs.run callStep s calls).map Session.results =
        some (s.results ++ calls.map Call.resultUnused) := by
    intro calls
    induction calls with
    | nil => simp
    | cons call rest ih =>
        intro s hs hissued hfree
        rcases hissued with ⟨huses, hrest⟩
        rw [List.forall_mem_cons] at hfree
        rw [Call.issues_of_free hfree.1] at hrest
        rw [Runs.run_cons, callStep_unused hs huses hfree.1, Option.bind_some,
          ih (s.answer s.map call.resultUnused) hs hrest hfree.2]
        simp [Session.answer]
  exact hrun calls (session m) hm hissued hfree

/-- Run lemma: a sequence that demands a slot subscripts outside the vector of
a moved-from map. -/
theorem results_movedFrom (cap : Capacity) {calls : List (Call KEY T)}
    (hissued : ReferencesIssued 0 calls)
    (hdemands : ∃ call ∈ calls, call.demandsSlot = true) :
    results (CircleMap.movedFrom : CircleMap KEY T cap) calls = none := by
  have hrun : ∀ (calls : List (Call KEY T)) (s : Session KEY T cap),
      s.map = CircleMap.movedFrom → ReferencesIssued 0 calls →
      (∃ call ∈ calls, call.demandsSlot = true) →
      Runs.run callStep s calls = none := by
    intro calls
    induction calls with
    | nil => simp
    | cons call rest ih =>
        intro s hs hissued hdemands
        rcases hissued with ⟨huses, hrest⟩
        cases hcall : call.demandsSlot with
        | true => rw [Runs.run_cons, callStep_movedFrom hs hcall]; rfl
        | false =>
            have hunused : s.map.Unused := by
              rw [hs]
              exact CircleMap.movedFrom_unused
            rcases hdemands with ⟨later, hlater, hlaterDemands⟩
            rcases List.mem_cons.mp hlater with rfl | hlater
            · rw [hcall] at hlaterDemands
              contradiction
            · rw [Call.issues_of_free hcall] at hrest
              rw [Runs.run_cons, callStep_unused hunused huses hcall]
              exact ih _ hs hrest ⟨later, hlater, hlaterDemands⟩
  rw [results, hrun calls _ rfl hissued hdemands, Option.map_none]

/-- The law holds of a sequence exactly when it demands no slot. -/
theorem moveLaw_iff {m : CircleMap KEY T cap} (hm : m.Sized)
    {calls : List (Call KEY T)} (hissued : ReferencesIssued 0 calls) :
    MoveLaw m m CircleMap.movedFrom calls ↔
      ∀ call ∈ calls, call.demandsSlot = false := by
  constructor
  · intro hlaw call hcall
    by_contra hdemands
    have hnone := results_movedFrom cap hissued
      ⟨call, hcall, by simpa using hdemands⟩
    have hsome := hlaw.sourceInRange
    rw [hnone] at hsome
    contradiction
  · intro hfree
    have hmoved : results (CircleMap.movedFrom : CircleMap KEY T cap) calls =
        some (calls.map Call.resultUnused) :=
      results_unused CircleMap.movedFrom_unused hissued hfree
    obtain ⟨last, hrun, _⟩ := session_run_sized hm hissued
    refine ⟨rfl, ?_, ?_, ?_⟩
    · rw [hmoved, results_unused CircleMap.fresh_unused hissued hfree]
    · rw [results, hrun]
      rfl
    · rw [hmoved]
      rfl

/-- For every map a session can reach and every later sequence of calls, move
construction and move assignment keep the law exactly when the sequence calls
neither `operator[]` nor `front`. -/
theorem moveLaw_iff_no_slot_demanded (cap : Capacity)
    (history calls : List (Call KEY T))
    (hhistory : ReferencesIssued 0 history)
    (hcalls : ReferencesIssued 0 calls)
    {Address : Type} [DecidableEq Address] {this other : Address}
    (hne : this ≠ other) :
    ∃ reached : Session KEY T cap,
      Runs.run callStep (session CircleMap.fresh) history = some reached ∧
      (MoveLaw reached.map reached.map.moveConstruct.1
          reached.map.moveConstruct.2 calls ↔
        ∀ call ∈ calls, call.demandsSlot = false) ∧
      ∀ memory : Address → CircleMap KEY T cap, memory other = reached.map →
        (MoveLaw reached.map (CircleMap.moveAssign memory this other this)
            (CircleMap.moveAssign memory this other other) calls ↔
          ∀ call ∈ calls, call.demandsSlot = false) := by
  have hfresh : (CircleMap.fresh : CircleMap KEY T cap).Sized :=
    CircleMap.fresh_sized
  obtain ⟨reached, hrun, hsized⟩ := session_run_sized hfresh hhistory
  refine ⟨reached, hrun, moveLaw_iff hsized.sized hcalls, ?_⟩
  intro memory hother
  rw [CircleMap.moveAssign_target memory hne,
    CircleMap.moveAssign_source memory hne, hother]
  exact moveLaw_iff hsized.sized hcalls

/-- An entry, a move, and a look at the two maps. -/
theorem moved_entry_is_found :
    ∃ reached : Session Nat DataType twoSlots,
      Runs.run callStep (session CircleMap.fresh)
        [.subscript 1, .assign 0 ⟨1⟩] = some reached ∧
      MoveLaw reached.map reached.map.moveConstruct.1
        reached.map.moveConstruct.2 [.find 1, .rloopAll] ∧
      MoveLaw reached.map
        (CircleMap.moveAssign (fun _ => reached.map) true false true)
        (CircleMap.moveAssign (fun _ => reached.map) true false false)
        [.find 1, .rloopAll] := by
  have hapart : true ≠ false := by decide
  let history : List (Call Nat DataType) := [.subscript 1, .assign 0 ⟨1⟩]
  obtain ⟨reached, hrun, hconstruct, hassign⟩ :=
    moveLaw_iff_no_slot_demanded twoSlots history [.find 1, .rloopAll]
      (by decide) (by decide) hapart
  exact ⟨reached, hrun, hconstruct.mpr (by decide),
    (hassign (fun _ => reached.map) rfl).mpr (by decide)⟩

/-- A moved-from map can be given no new entry, and has no front. -/
theorem moved_from_map_has_no_slots :
    ¬ MoveLaw (CircleMap.fresh : CircleMap Nat DataType oneSlot)
        CircleMap.fresh.moveConstruct.1 CircleMap.fresh.moveConstruct.2
        [.subscript 1, .assign 0 ⟨1⟩] ∧
      ¬ MoveLaw (CircleMap.fresh : CircleMap Nat DataType oneSlot)
        CircleMap.fresh.moveConstruct.1 CircleMap.fresh.moveConstruct.2
        [.front] := by
  constructor
  · intro hlaw
    exact absurd hlaw.sourceInRange (by decide)
  · intro hlaw
    exact absurd hlaw.sourceInRange (by decide)

end Saigon
