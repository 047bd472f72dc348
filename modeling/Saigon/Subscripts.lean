/-
No operation subscripts `mData` outside it.  The maps of a program are
constructed empty, copied from and assigned to one another and never moved;
whatever calls are made on them, the indices they store are slots or the
tombstone.
-/
import Saigon.Session

namespace Saigon

/-- The maps of a program, in the order of their construction. -/
abbrev Family (KEY T : Type) (cap : Capacity) := List (Session KEY T cap)

/-- What a program does with its maps, which are counted from zero. -/
inductive FamilyStep (KEY T : Type) where
  | construct
  | copy (source : Nat)
  | copyAssign (target source : Nat)
  | call (target : Nat) (call : Call KEY T)

/-- What the members of a map may name: the pop cursor a slot, the vector all
slots, and `mKeys` slots and the tombstone, which is no slot. -/
structure CircleMap.IndicesInRange {KEY T : Type} {cap : Capacity}
    (m : CircleMap KEY T cap) : Prop where
  popCursor : m.mPopIndex.toNat < cap.N.toNat
  dataSize : m.mData.length = cap.N.toNat
  stored : ∀ key index, m.mKeys key = some index →
    index.toNat < cap.N.toNat ∨ index = cap.invalidIndex
  tombstone : cap.invalidIndex.toNat = cap.N.toNat + 1

variable {KEY T : Type} {cap : Capacity}

theorem CircleMap.Sized.indicesInRange {m : CircleMap KEY T cap}
    (hm : m.Sized) : m.IndicesInRange where
  popCursor := hm.popLt
  dataSize := hm.dataLength
  stored := by
    intro key index hkey
    by_cases hinvalid : index = cap.invalidIndex
    · exact Or.inr hinvalid
    · left
      apply hm.slotLt key index
      rw [slotOf_eq_some_iff]
      exact ⟨hkey, hinvalid⟩
  tombstone := cap.invalidIndex_toNat

theorem CircleMap.Sized.copyConstruct {m : CircleMap KEY T cap}
    (hm : m.Sized) : m.copyConstruct.Sized := hm

theorem CircleMap.Sized.copyAssign {m : CircleMap KEY T cap}
    (hm : m.Sized) : m.copyAssign.Sized := hm.copyConstruct

/-- A copy is made of a map that exists, and a call on one goes through
references that it returned. -/
def NamesExisting (s : Family KEY T cap) : FamilyStep KEY T → Prop
  | .construct => True
  | .copy source => source < s.length
  | .copyAssign target source => target < s.length ∧ source < s.length
  | .call target call =>
      match s[target]? with
      | some before => call.UsesIssued before.references.length
      | none => False

variable [DecidableEq KEY] [MappedType T]

/-- One step; `none` when a subscript of `mData` falls outside it.  Assignment
replaces the vector, and no reference into the old one is used again. -/
def familyStep (s : Family KEY T cap) :
    FamilyStep KEY T → Option (Family KEY T cap)
  | .construct => some (s ++ [session CircleMap.fresh])
  | .copy source => do
      let other ← s[source]?
      some (s ++ [session other.map.copyConstruct])
  | .copyAssign target source => do
      let other ← s[source]?
      some (s.set target (session other.map.copyAssign))
  | .call target call => do
      let before ← s[target]?
      let after ← callStep before call
      some (s.set target after)

/-- All maps have the right sizes. -/
def FamilySized (s : Family KEY T cap) : Prop :=
  ∀ member ∈ s, SessionSized member

omit [DecidableEq KEY] [MappedType T] in
theorem FamilySized.append {s : Family KEY T cap} (hs : FamilySized s)
    {m : CircleMap KEY T cap} (hm : m.Sized) :
    FamilySized (s ++ [session m]) := by
  intro member hmember
  rcases List.mem_append.mp hmember with hold | hnew
  · exact hs member hold
  · rw [List.mem_singleton.mp hnew]
    exact session_sized hm

omit [DecidableEq KEY] [MappedType T] in
theorem FamilySized.set {s : Family KEY T cap} (hs : FamilySized s)
    (target : Nat) {member : Session KEY T cap}
    (hmember : SessionSized member) : FamilySized (s.set target member) := by
  intro other hother
  rcases List.mem_or_eq_of_mem_set hother with hold | rfl
  · exact hs other hold
  · exact hmember

/-- Step lemma: whatever is done with the maps is defined and keeps their
sizes. -/
theorem familyStep_sized (s : Family KEY T cap) (step : FamilyStep KEY T)
    (hs : FamilySized s) (hstep : NamesExisting s step) :
    ∃ after, familyStep s step = some after ∧ FamilySized after := by
  cases step with
  | construct => exact ⟨_, rfl, hs.append CircleMap.fresh_sized⟩
  | copy source =>
      have hother := List.getElem?_eq_getElem hstep
      have hsized := (hs _ (List.getElem_mem hstep)).sized
      refine ⟨_, ?_, hs.append hsized.copyConstruct⟩
      simp only [familyStep, hother, Option.bind_eq_bind, Option.bind_some]
  | copyAssign target source =>
      have hother := List.getElem?_eq_getElem hstep.2
      have hsized := (hs _ (List.getElem_mem hstep.2)).sized
      refine ⟨_, ?_, hs.set target (session_sized hsized.copyAssign)⟩
      simp only [familyStep, hother, Option.bind_eq_bind, Option.bind_some]
  | call target call =>
      simp only [NamesExisting] at hstep
      split at hstep
      · next before hbefore =>
          have hsized := hs before (List.mem_of_getElem? hbefore)
          obtain ⟨after, hcall, hafter⟩ :=
            callStep_sized before call hsized hstep
          refine ⟨s.set target after, ?_, hs.set target hafter⟩
          simp only [familyStep, hbefore, hcall, Option.bind_eq_bind,
            Option.bind_some]
      · exact hstep.elim

/-- Whatever a program does with its maps, no operation subscripts `mData`
outside it, and every index that a map stores is in range. -/
theorem subscripts_in_range (cap : Capacity) (steps : List (FamilyStep KEY T))
    (hsteps : Runs.EveryStep familyStep NamesExisting
      ([] : Family KEY T cap) steps) :
    Runs.EveryState familyStep
      (fun s => ∀ member ∈ s, member.map.IndicesInRange)
      ([] : Family KEY T cap) steps := by
  have hstart : FamilySized ([] : Family KEY T cap) := by
    intro member hmember
    contradiction
  apply (Runs.everyState_of_invariant familyStep_sized hstart hsteps).mono
  intro s hs member hmember
  exact (hs member hmember).sized.indicesInRange

omit [DecidableEq KEY] [MappedType T] in
instance (s : Family KEY T cap) : ∀ step, Decidable (NamesExisting s step)
  | .construct => inferInstanceAs (Decidable True)
  | .copy source => inferInstanceAs (Decidable (source < s.length))
  | .copyAssign target source =>
      inferInstanceAs (Decidable (target < s.length ∧ source < s.length))
  | .call target call =>
      match hbefore : s[target]? with
      | some before =>
          decidable_of_iff (call.UsesIssued before.references.length) (by
            simp only [NamesExisting, hbefore])
      | none => isFalse (by simp only [NamesExisting, hbefore, not_false_eq_true])

/-- A map, and a copy of it that is drained while the map loses its key and
assigned to again. -/
theorem copied_subscripts_in_range :
    Runs.EveryState familyStep
      (fun s => ∀ member ∈ s, member.map.IndicesInRange)
      ([] : Family Nat DataType oneSlot)
      [.construct, .call 0 (.subscript 1), .call 0 (.assign 0 ⟨1⟩), .copy 0,
        .call 1 .nextAvailableItem, .call 0 (.erase 1), .call 1 (.find 1),
        .copyAssign 1 0, .call 1 (.subscript 1)] :=
  subscripts_in_range oneSlot _ (by decide)

end Saigon
