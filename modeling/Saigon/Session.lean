/-
A client's session with one `circle_map`: every public operation with the
result the client sees.  In a map whose sizes are right every call of a
session is defined.
-/
import Saigon.Walk
import Saigon.Support.Runs

namespace Saigon

/-- The public operations.  An assignment goes through a reference that
`operator[]` returned earlier in the session, counted from zero. -/
inductive Call (KEY T : Type) where
  | subscript (key : KEY)
  | assign (reference : Nat) (value : T)
  | erase (key : KEY)
  | find (key : KEY)
  | findIf (pre : T → Bool)
  | rfindIf (pre : T → Bool)
  | loopAll
  | rloopAll
  | front
  | nextAvailableItem
  | empty

/-- What a call shows: `operator[]` its slot and the item there, a loop the
items its callback was invoked with. -/
inductive Result (T : Type) where
  | reference (slot : UInt32) (item : T)
  | done
  | item (value : T)
  | visited (items : List T)
  | index (slot : UInt32)
  | flag (value : Bool)
deriving DecidableEq

structure Session (KEY T : Type) (cap : Capacity) where
  map : CircleMap KEY T cap
  references : List UInt32
  results : List (Result T)

variable {KEY T : Type} {cap : Capacity}

/-- A session that starts on a map. -/
def session (m : CircleMap KEY T cap) : Session KEY T cap := ⟨m, [], []⟩

/-- The session after a call that returns `result` and leaves `map`. -/
def Session.answer (s : Session KEY T cap) (map : CircleMap KEY T cap)
    (result : Result T) : Session KEY T cap :=
  { s with map := map, results := s.results ++ [result] }

/-- The references a call returns. -/
def Call.issues : Call KEY T → Nat
  | .subscript _ => 1
  | _ => 0

/-- An assignment names one of the `issued` references. -/
def Call.UsesIssued (issued : Nat) : Call KEY T → Prop
  | .assign reference _ => reference < issued
  | _ => True

/-- Every assignment of the sequence goes through a reference returned
before it. -/
def ReferencesIssued : Nat → List (Call KEY T) → Prop
  | _, [] => True
  | issued, call :: rest =>
      call.UsesIssued issued ∧ ReferencesIssued (issued + call.issues) rest

section Step

variable [DecidableEq KEY] [MappedType T]

/-- One call. -/
def callStep (s : Session KEY T cap) : Call KEY T → Option (Session KEY T cap)
  | .subscript key => do
      let (slot, map) ← s.map.subscript key
      let item ← map.item? slot
      some
        { s.answer map (.reference slot item) with
          references := s.references ++ [slot] }
  | .assign reference value => do
      let slot ← s.references[reference]?
      let map ← s.map.assign slot value
      some (s.answer map .done)
  | .erase key => do
      let map ← s.map.erase key
      some (s.answer map .done)
  | .find key => do
      let item ← s.map.find key
      some (s.answer s.map (.item item))
  | .findIf pre => do
      let item ← s.map.findIf pre
      some (s.answer s.map (.item item))
  | .rfindIf pre => do
      let item ← s.map.rfindIf pre
      some (s.answer s.map (.item item))
  | .loopAll => do
      let items ← s.map.loopItems
      some (s.answer s.map (.visited items))
  | .rloopAll => do
      let items ← s.map.rloopItems
      some (s.answer s.map (.visited items))
  | .front => do
      let item ← s.map.front
      some (s.answer s.map (.item item))
  | .nextAvailableItem => do
      let (slot, map) ← s.map.nextAvailableItem
      some (s.answer map (.index slot))
  | .empty => some (s.answer s.map (.flag s.map.empty))

/-- What a client that starts on a map sees; `none` when some subscript of
`mData` falls outside it. -/
def results (m : CircleMap KEY T cap) (calls : List (Call KEY T)) :
    Option (List (Result T)) :=
  (Runs.run callStep (session m) calls).map Session.results

/-- Sizes are right and the references held are slots. -/
structure SessionSized (s : Session KEY T cap) : Prop where
  sized : s.map.Sized
  references : ∀ slot ∈ s.references, slot.toNat < cap.slots

omit [DecidableEq KEY] [MappedType T] in
theorem session_sized {m : CircleMap KEY T cap} (hm : m.Sized) :
    SessionSized (session m) :=
  ⟨hm, fun _ hslot => absurd hslot List.not_mem_nil⟩

omit [DecidableEq KEY] [MappedType T] in
theorem SessionSized.answer {s : Session KEY T cap} (hs : SessionSized s)
    {map : CircleMap KEY T cap} (hmap : map.Sized) (result : Result T) :
    SessionSized (s.answer map result) :=
  ⟨hmap, hs.references⟩

namespace CircleMap

variable {m : CircleMap KEY T cap}

omit [DecidableEq KEY] in
/-- The four loops never leave the vector, marked empty or not. -/
theorem loops_defined (hm : m.Sized) (pre : T → Bool) :
    (∃ item, m.findIf pre = some item) ∧
      (∃ item, m.rfindIf pre = some item) ∧
      (∃ items, m.loopItems = some items) ∧
      ∃ items, m.rloopItems = some items := by
  cases hempty : m.mEmpty with
  | true =>
      simp [findIf, rfindIf, loopItems, loopAll, rloopItems, rloopAll, empty,
        hempty]
  | false =>
      exact ⟨⟨_, findIf_eq hm.ring hempty pre⟩,
        ⟨_, rfindIf_eq hm.ring hempty pre⟩, ⟨_, loopItems_eq hm.ring hempty⟩,
        ⟨_, rloopItems_eq hm.ring hempty⟩⟩

end CircleMap

/-- A call that only reads the map keeps the sizes wherever the reading is
defined. -/
theorem SessionSized.reads {α : Type} {s : Session KEY T cap}
    (hs : SessionSized s) {call : Call KEY T} {read : Option α}
    {result : α → Result T} (hdefined : ∃ found, read = some found)
    (hcall : callStep s call =
      read.bind fun found => some (s.answer s.map (result found))) :
    ∃ after, callStep s call = some after ∧ SessionSized after := by
  obtain ⟨found, hfound⟩ := hdefined
  rw [hfound, Option.bind_some] at hcall
  exact ⟨_, hcall, hs.answer hs.sized (result found)⟩

/-- Step lemma: every call through issued references is defined and keeps the
sizes. -/
theorem callStep_sized (s : Session KEY T cap) (call : Call KEY T)
    (hs : SessionSized s) (huses : call.UsesIssued s.references.length) :
    ∃ after, callStep s call = some after ∧ SessionSized after := by
  have hm := hs.sized
  cases call with
  | subscript key =>
      have hlt := CircleMap.placeSlot_lt hm key
      have hitem := CircleMap.item?_of_lt (hm.place key).ring hlt
      refine ⟨_, by
        rw [callStep, CircleMap.subscript_eq hm]
        simp only [Option.bind_eq_bind, Option.bind_some, hitem]
        rfl, hm.place key, ?_⟩
      intro slot hslot
      rcases List.mem_append.mp hslot with hold | hnew
      · exact hs.references slot hold
      · rw [List.mem_singleton] at hnew
        rw [hnew]
        exact hlt
  | assign reference value =>
      have hget := List.getElem?_eq_getElem huses
      have hlt := hs.references _ (List.getElem_mem huses)
      refine ⟨_, ?_, hs.answer (hm.store s.references[reference] value) .done⟩
      simp only [callStep, hget, CircleMap.assign_eq hm hlt,
        Option.bind_eq_bind, Option.bind_some]
  | erase key =>
      refine ⟨_, ?_, hs.answer (hm.without key) .done⟩
      rw [callStep, CircleMap.erase_eq hm]
      rfl
  | find key => exact hs.reads ⟨_, CircleMap.find_eq hm key⟩ rfl
  | findIf pre =>
      obtain ⟨hdefined, _⟩ := CircleMap.loops_defined hm pre
      exact hs.reads hdefined rfl
  | rfindIf pre =>
      obtain ⟨_, hdefined, _⟩ := CircleMap.loops_defined hm pre
      exact hs.reads hdefined rfl
  | loopAll =>
      obtain ⟨_, _, hdefined, _⟩ := CircleMap.loops_defined hm truthy
      exact hs.reads hdefined rfl
  | rloopAll =>
      obtain ⟨_, _, _, hdefined⟩ := CircleMap.loops_defined hm truthy
      exact hs.reads hdefined rfl
  | front => exact hs.reads ⟨_, CircleMap.front_eq hm⟩ rfl
  | nextAvailableItem =>
      obtain ⟨slot, map, hcall, hafter⟩ := CircleMap.nextAvailableItem_sized hm
      refine ⟨_, ?_, hs.answer hafter (.index slot)⟩
      rw [callStep, hcall]
      rfl
  | empty => exact ⟨_, rfl, hs.answer hm (.flag s.map.empty)⟩

/-- Whatever the call does, it issues the references it returns. -/
theorem callStep_issues {s after : Session KEY T cap} {call : Call KEY T}
    (hstep : callStep s call = some after) :
    after.references.length = s.references.length + call.issues := by
  cases call <;>
    simp only [callStep, Option.bind_eq_bind, Option.bind_eq_some_iff,
      Option.some.injEq] at hstep
  case subscript =>
    rcases hstep with ⟨_, _, _, _, rfl⟩
    exact List.length_append
  case assign =>
    rcases hstep with ⟨_, _, _, _, rfl⟩
    rfl
  case empty =>
    subst hstep
    rfl
  all_goals
    rcases hstep with ⟨_, _, rfl⟩
    rfl

theorem everyStep_usesIssued {calls : List (Call KEY T)}
    (s : Session KEY T cap)
    (hissued : ReferencesIssued s.references.length calls) :
    Runs.EveryStep callStep
      (fun s call => call.UsesIssued s.references.length) s calls := by
  induction calls generalizing s with
  | nil => trivial
  | cons call rest ih =>
      rcases hissued with ⟨huses, hrest⟩
      refine ⟨huses, fun next hstep => ih next ?_⟩
      rw [callStep_issues hstep]
      exact hrest

/-- Run lemma: a session on a map of the right sizes is defined throughout and
leaves a map of the right sizes. -/
theorem session_run_sized {m : CircleMap KEY T cap} (hm : m.Sized)
    {calls : List (Call KEY T)} (hissued : ReferencesIssued 0 calls) :
    ∃ last, Runs.run callStep (session m) calls = some last ∧
      SessionSized last :=
  Runs.run_of_invariant callStep_sized (session_sized hm)
    (everyStep_usesIssued (session m) hissued)

end Step

instance (issued : Nat) : ∀ call : Call KEY T, Decidable (call.UsesIssued issued)
  | .assign reference _ => inferInstanceAs (Decidable (reference < issued))
  | .subscript _ | .erase _ | .find _ | .findIf _ | .rfindIf _ | .loopAll
  | .rloopAll | .front | .nextAvailableItem | .empty =>
      inferInstanceAs (Decidable True)

instance decidableReferencesIssued : ∀ (issued : Nat)
    (calls : List (Call KEY T)), Decidable (ReferencesIssued issued calls)
  | _, [] => isTrue trivial
  | issued, call :: rest =>
      have : Decidable (ReferencesIssued (issued + call.issues) rest) :=
        decidableReferencesIssued _ rest
      inferInstanceAs (Decidable (call.UsesIssued issued ∧
        ReferencesIssued (issued + call.issues) rest))

end Saigon
