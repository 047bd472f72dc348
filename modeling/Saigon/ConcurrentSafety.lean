/-
No subscript of a `circle_map` leaves `mData`, however many threads use it, but
for one race: an erase reads the index of its key twice, and between the two
another erase of that key may have replaced it by the tombstone.
-/
import Saigon.ConcurrentCircleMap
import Saigon.Subscripts

namespace Saigon

variable {KEY T : Type} {cap : Capacity}

/-- The key a thread is erasing. -/
def Activity.erases : Activity KEY T → Option KEY
  | .erasing key _ => some key
  | _ => none

/-- Two threads do not erase one key. -/
def Activity.Apart (here other : Activity KEY T) : Prop :=
  ∀ key, here.erases = some key → other.erases ≠ some key

/-- A call has begun and has no result yet. -/
def Activity.InCall : Activity KEY T → Prop
  | .idle => False
  | .returning _ => False
  | _ => True

namespace CircleMap

/-- The tests of an index come after its key was found. -/
def IteratorValid (m : CircleMap KEY T cap) (key : KEY) :
    FindInternalPoint → Prop
  | .empty => True
  | .find => True
  | .test => m.mKeys key ≠ none
  | .read => m.mKeys key ≠ none

/-- What a thread that is about to take a step has of the map: an iterator that
points to an element, and slots to subscript. -/
def InOrder (m : CircleMap KEY T cap) : Activity KEY T → Prop
  | .putting key _ (.findInternal point) => m.IteratorValid key point
  | .putting _ _ (.insert slot) => slot.toNat < cap.slots
  | .putting _ _ (.store slot) => slot.toNat < cap.slots
  | .putting _ _ (.assign slot) => slot.toNat < cap.slots
  | .finding key (.findInternal point) => m.IteratorValid key point
  | .finding _ (.read slot) => slot.toNat < cap.slots
  | .erasing key .test => m.mKeys key ≠ none
  | .erasing key .subscript => m.mKeys key ≠ none
  | .erasing _ (.reset slot) => slot.toNat < cap.slots
  | .fronting (.read slot) => slot.toNat < cap.slots
  | .advancing (.scan _ next _) => next.toNat < cap.slots
  | .advancing (.compare _ next) => next.toNat < cap.slots
  | .advancing (.exchange _ next) => next.toNat < cap.slots
  | .walking walk (.item pos _ _ _) =>
      walk.backward = true → 0 < pos.toNat ∧ pos.toNat ≤ cap.slots
  | .walking _ (.result pos) => pos.toNat < cap.slots
  | _ => True

/-- The index an erase is about to subscript with has not been replaced by the
tombstone since it was tested. -/
def ReadsSlot (m : CircleMap KEY T cap) : Activity KEY T → Prop
  | .erasing key .subscript => m.slotOf key ≠ none
  | _ => True

/-- What a step does to a map: keys stay, and only the key that is being erased
may lose its slot. -/
structure Evolves (m after : CircleMap KEY T cap) (erases : Option KEY) :
    Prop where
  sized : after.Sized
  present : ∀ key, m.mKeys key ≠ none → after.mKeys key ≠ none
  named : ∀ key, erases ≠ some key → m.slotOf key ≠ none →
    after.slotOf key ≠ none

/-- A step that is defined, keeps the map evolving and its thread in order. -/
def StepsTo (m : CircleMap KEY T cap) (erases : Option KEY)
    (result : Option (CircleMap KEY T cap × Activity KEY T)) : Prop :=
  ∃ after next, result = some (after, next) ∧ m.Evolves after erases ∧
    after.InOrder next

variable {m : CircleMap KEY T cap} {erases : Option KEY}

theorem Sized.evolves (hm : m.Sized) : m.Evolves m erases :=
  ⟨hm, fun _ => id, fun _ _ => id⟩

/-- A step that leaves the map alone. -/
theorem Sized.stepsTo (hm : m.Sized) {next : Activity KEY T}
    (hnext : m.InOrder next) : m.StepsTo erases (some (m, next)) :=
  ⟨m, next, rfl, hm.evolves, hnext⟩

/-- A step that leaves the keys alone. -/
theorem Evolves.of_mKeys {after : CircleMap KEY T cap} (hafter : after.Sized)
    (hkeys : after.mKeys = m.mKeys) : m.Evolves after erases := by
  constructor
  case sized => exact hafter
  case present =>
    intro key hkey
    rw [hkeys]
    exact hkey
  case named =>
    intro key _ hslot
    rw [slotOf, hkeys]
    exact hslot

/-- Where a thread subscripts, another one's step does not take its slots or
its iterator away. -/
theorem Evolves.inOrder {after : CircleMap KEY T cap}
    (hevolves : m.Evolves after erases) {other : Activity KEY T}
    (hother : m.InOrder other) : after.InOrder other := by
  have hiterator : ∀ {key point}, m.IteratorValid key point →
      after.IteratorValid key point := by
    intro key point hvalid
    cases point with
    | empty => trivial
    | find => trivial
    | test => exact hevolves.present key hvalid
    | read => exact hevolves.present key hvalid
  cases other with
  | putting key value point =>
      cases point with
      | findInternal point => exact hiterator hother
      | _ => exact hother
  | finding key point =>
      cases point with
      | findInternal point => exact hiterator hother
      | read slot => exact hother
  | erasing key point =>
      cases point with
      | test => exact hevolves.present key hother
      | subscript => exact hevolves.present key hother
      | _ => exact hother
  | fronting point => cases point <;> exact hother
  | advancing point => cases point <;> exact hother
  | walking walk point => cases point <;> exact hother
  | _ => trivial

section Keys

variable [DecidableEq KEY]

theorem storeIndex_slotOf_of_ne {key other : KEY} (hne : other ≠ key)
    (index : UInt32) : (m.storeIndex key index).slotOf other = m.slotOf other := by
  rw [slotOf, storeIndex_mKeys, Function.update_of_ne hne, slotOf]

theorem storeIndex_slotOf_self {index : UInt32}
    (hindex : index ≠ cap.invalidIndex) (key : KEY) :
    (m.storeIndex key index).slotOf key = some index := by
  rw [slotOf_eq_some_iff, storeIndex_mKeys, Function.update_self]
  exact ⟨rfl, hindex⟩

/-- An index that is a slot, or the tombstone, may be stored. -/
theorem Sized.storeIndex (hm : m.Sized) (key : KEY) {index : UInt32}
    (hindex : index.toNat < cap.slots ∨ index = cap.invalidIndex) :
    (m.storeIndex key index).Sized := by
  refine ⟨hm.dataLength, hm.popLt, ?_⟩
  intro other slot hslot
  by_cases heq : other = key
  · subst heq
    obtain ⟨hkey, hne⟩ := (slotOf_eq_some_iff _ _ _).mp hslot
    rw [storeIndex_mKeys, Function.update_self, Option.some.injEq] at hkey
    subst hkey
    exact hindex.resolve_right hne
  · rw [storeIndex_slotOf_of_ne heq] at hslot
    exact hm.slotLt other slot hslot

theorem storeIndex_present {key other : KEY} {index : UInt32}
    (hother : m.mKeys other ≠ none) :
    (m.storeIndex key index).mKeys other ≠ none := by
  rw [storeIndex_mKeys]
  by_cases heq : other = key
  · rw [heq, Function.update_self]
    exact Option.some_ne_none index
  · rw [Function.update_of_ne heq]
    exact hother

/-- A key is given a slot. -/
theorem Sized.evolves_storeIndex (hm : m.Sized) (key : KEY) {index : UInt32}
    (hindex : index.toNat < cap.slots) :
    m.Evolves (m.storeIndex key index) erases := by
  constructor
  case sized => exact hm.storeIndex key (Or.inl hindex)
  case present => exact fun other => storeIndex_present
  case named =>
    intro other _ hslot
    by_cases heq : other = key
    · rw [heq, storeIndex_slotOf_self (Capacity.ne_invalidIndex hindex)]
      exact Option.some_ne_none index
    · rw [storeIndex_slotOf_of_ne heq]
      exact hslot

/-- A key that is inserted names slot zero; one that is present is left
alone. -/
theorem Sized.evolves_insertKey (hm : m.Sized) (key : KEY) :
    m.Evolves (m.insertKey key) erases := by
  cases hkey : m.mKeys key with
  | none =>
      have hzero : m.insertKey key = m.storeIndex key 0 := by
        rw [insertKey, hkey, Option.getD_none]
        rfl
      rw [hzero]
      exact hm.evolves_storeIndex key cap.slots_pos
  | some index =>
      have hsame : m.insertKey key = m := by
        rw [insertKey, hkey, Option.getD_some, ← hkey, Function.update_eq_self]
      rw [hsame]
      exact hm.evolves

/-- The key being erased is given the tombstone. -/
theorem Sized.evolves_invalidate (hm : m.Sized) (key : KEY) :
    m.Evolves (m.storeIndex key cap.invalidIndex) (some key) := by
  constructor
  case sized => exact hm.storeIndex key (Or.inr rfl)
  case present => exact fun other => storeIndex_present
  case named =>
    intro other hne hslot
    rw [storeIndex_slotOf_of_ne fun heq => hne (congrArg some heq.symm)]
    exact hslot

end Keys

/-! ### One lemma for each call -/

theorem findInternalStep_inOrder (hm : m.Sized) {key : KEY}
    {point : FindInternalPoint} (hpoint : m.IteratorValid key point) :
    (∃ next, m.findInternalStep key point = some (.inl next) ∧
      m.IteratorValid key next) ∨
    ∃ pos, m.findInternalStep key point = some (.inr pos) ∧
      (pos ≠ cap.invalidIndex → pos.toNat < cap.slots) := by
  have hinvalid : cap.invalidIndex ≠ cap.invalidIndex →
      cap.invalidIndex.toNat < cap.slots := fun hne => absurd rfl hne
  cases point with
  | empty =>
      cases hempty : m.empty with
      | true =>
          right
          exact ⟨cap.invalidIndex, by simp [findInternalStep, hempty], hinvalid⟩
      | false =>
          left
          exact ⟨.find, by simp [findInternalStep, hempty], trivial⟩
  | find =>
      cases hkey : m.mKeys key with
      | none =>
          right
          exact ⟨cap.invalidIndex, by simp [findInternalStep, hkey], hinvalid⟩
      | some index =>
          left
          refine ⟨.test, by simp [findInternalStep, hkey], ?_⟩
          rw [IteratorValid, hkey]
          exact Option.some_ne_none index
  | test =>
      obtain ⟨index, hindex⟩ := Option.ne_none_iff_exists'.mp hpoint
      by_cases htomb : index = cap.invalidIndex
      · right
        exact ⟨cap.invalidIndex, by simp [findInternalStep, hindex, htomb], hinvalid⟩
      · left
        exact ⟨.read, by simp [findInternalStep, hindex, htomb], hpoint⟩
  | read =>
      obtain ⟨index, hindex⟩ := Option.ne_none_iff_exists'.mp hpoint
      right
      refine ⟨index, by simp [findInternalStep, hindex], ?_⟩
      intro hne
      apply hm.slotLt key index
      rw [slotOf_eq_some_iff]
      exact ⟨hindex, hne⟩

theorem updateEmptyStep_fst (m : CircleMap KEY T cap) (val spurious : Bool)
    (point : UpdatePoint) :
    (m.updateEmptyStep val spurious point).1 = m ∨
      (m.updateEmptyStep val spurious point).1 = m.updateEmpty val := by
  cases point with
  | load => exact Or.inl rfl
  | exchange old =>
      rw [updateEmptyStep]
      split
      · exact Or.inr rfl
      · exact Or.inl rfl

theorem Sized.evolves_updateEmptyStep (hm : m.Sized) (val spurious : Bool)
    (point : UpdatePoint) :
    m.Evolves (m.updateEmptyStep val spurious point).1 erases := by
  rcases m.updateEmptyStep_fst val spurious point with hsame | hstored
  · rw [hsame]
    exact hm.evolves
  · rw [hstored]
    exact Evolves.of_mKeys (hm.updateEmpty val) rfl

/-- Reading an item of a slot. -/
theorem Sized.stepsTo_read [MappedType T] (hm : m.Sized) {slot : UInt32}
    (hslot : slot.toNat < cap.slots) :
    m.StepsTo erases (do
      let item ← m.item? slot
      some (m, (.returning (.item item) : Activity KEY T))) := by
  rw [item?_of_lt hm.ring hslot]
  exact hm.stepsTo trivial

theorem putStep_stepsTo [DecidableEq KEY] (hm : m.Sized) {key : KEY} {value : T}
    {point : PutPoint} (hpoint : m.InOrder (.putting key value point))
    (spurious : Bool) :
    m.StepsTo erases (m.putStep key value spurious point) := by
  cases point with
  | updateEmpty point =>
      have hevolves : m.Evolves (m.updateEmptyStep false spurious point).1 erases :=
        hm.evolves_updateEmptyStep false spurious point
      rw [putStep]
      split
      · next after next heq =>
          rw [heq] at hevolves
          exact ⟨after, _, rfl, hevolves, trivial⟩
      · next after heq =>
          rw [heq] at hevolves
          exact ⟨after, _, rfl, hevolves, trivial⟩
  | findInternal point =>
      rcases findInternalStep_inOrder hm hpoint with ⟨next, hstep, hnext⟩ |
        ⟨pos, hstep, hpos⟩
      · rw [putStep, hstep]
        exact hm.stepsTo hnext
      · rw [putStep, hstep]
        simp only [Option.bind_eq_bind, Option.bind_some]
        split
        · next hne => exact hm.stepsTo (hpos (Ne.symm hne))
        · exact hm.stepsTo trivial
  | pushIndex =>
      have hafter : (m.nextPushIndex).2.Sized := ⟨hm.dataLength, hm.popLt, hm.slotLt⟩
      exact ⟨_, _, rfl, Evolves.of_mKeys hafter rfl, m.pushSlot_lt⟩
  | insert curIndex => exact ⟨_, _, rfl, hm.evolves_insertKey key, hpoint⟩
  | store curIndex =>
      exact ⟨_, _, rfl, hm.evolves_storeIndex key hpoint, hpoint⟩
  | assign slot =>
      rw [putStep, assign_eq hm hpoint]
      exact ⟨_, _, rfl, Evolves.of_mKeys (hm.store slot value) rfl, trivial⟩

theorem findStep_stepsTo [MappedType T] (hm : m.Sized) {key : KEY}
    {point : FindPoint} (hpoint : m.InOrder (.finding key point)) :
    m.StepsTo erases (m.findStep key point) := by
  cases point with
  | findInternal point =>
      rcases findInternalStep_inOrder hm hpoint with ⟨next, hstep, hnext⟩ |
        ⟨pos, hstep, hpos⟩
      · rw [findStep, hstep]
        exact hm.stepsTo hnext
      · rw [findStep, hstep]
        simp only [Option.bind_eq_bind, Option.bind_some]
        split
        · next hne => exact hm.stepsTo (hpos (Ne.symm hne))
        · exact hm.stepsTo trivial
  | read slot => exact hm.stepsTo_read hpoint

theorem eraseStep_stepsTo [DecidableEq KEY] [MappedType T] (hm : m.Sized)
    {key : KEY} {point : ErasePoint} (hpoint : m.InOrder (.erasing key point))
    (hreads : m.ReadsSlot (.erasing key point)) :
    m.StepsTo (some key) (m.eraseStep key point) := by
  cases point with
  | find =>
      rw [eraseStep]
      split
      · exact hm.stepsTo trivial
      · next index hkey =>
          apply hm.stepsTo
          rw [InOrder, hkey]
          exact Option.some_ne_none index
  | test =>
      obtain ⟨index, hindex⟩ := Option.ne_none_iff_exists'.mp hpoint
      simp only [eraseStep, hindex, Option.bind_eq_bind, Option.bind_some]
      split
      · exact hm.stepsTo trivial
      · exact hm.stepsTo hpoint
  | subscript =>
      obtain ⟨slot, hslot⟩ := Option.ne_none_iff_exists'.mp hreads
      have hkey := ((slotOf_eq_some_iff m key slot).mp hslot).1
      rw [eraseStep, hkey]
      exact hm.stepsTo (hm.slotLt key slot hslot)
  | reset slot =>
      rw [eraseStep, assign_eq hm hpoint]
      exact ⟨_, _, rfl, Evolves.of_mKeys (hm.store slot emptyItem) rfl, trivial⟩
  | invalidate => exact ⟨_, _, rfl, hm.evolves_invalidate key, trivial⟩

theorem frontStep_stepsTo [MappedType T] (hm : m.Sized) {point : FrontPoint}
    (hpoint : m.InOrder (.fronting point)) :
    m.StepsTo erases (m.frontStep point) := by
  cases point with
  | load =>
      apply hm.stepsTo
      rw [InOrder, getPopIndex, UInt32.toNat_mod]
      exact Nat.mod_lt _ cap.slots_pos
  | read slot => exact hm.stepsTo_read hpoint

theorem nextStep_stepsTo [MappedType T] (hm : m.Sized) {point : NextPoint}
    (hpoint : m.InOrder (.advancing point)) (spurious : Bool) :
    m.StepsTo erases (m.nextStep spurious point) := by
  have hstep : ∀ index : UInt32, ((index + 1) % cap.N).toNat < cap.slots := by
    intro index
    rw [UInt32.toNat_mod]
    exact Nat.mod_lt _ cap.slots_pos
  cases point with
  | empty =>
      rw [nextStep]
      apply hm.stepsTo
      split <;> trivial
  | last => exact hm.stepsTo trivial
  | load => exact hm.stepsTo hm.popLt
  | scan old next rounds =>
      cases rounds with
      | zero => exact hm.stepsTo hpoint
      | succ rounds =>
          simp only [nextStep, item?_of_lt hm.ring (hstep next),
            Option.bind_eq_bind, Option.bind_some]
          split
          · exact hm.stepsTo (hstep next)
          · exact hm.stepsTo (hstep next)
  | compare old next =>
      rw [nextStep]
      apply hm.stepsTo
      split
      · trivial
      · exact hpoint
  | updateEmpty old point =>
      have hevolves : m.Evolves (m.updateEmptyStep true spurious point).1 erases :=
        hm.evolves_updateEmptyStep true spurious point
      rw [nextStep]
      split
      · next after next heq =>
          rw [heq] at hevolves
          exact ⟨after, _, rfl, hevolves, trivial⟩
      · next after heq =>
          rw [heq] at hevolves
          exact ⟨after, _, rfl, hevolves, hstep old⟩
  | exchange old next =>
      rw [nextStep]
      split
      · exact ⟨_, _, rfl, Evolves.of_mKeys (hm.advance hpoint) rfl, trivial⟩
      · exact hm.stepsTo hpoint

/-- The index a loop reads. -/
theorem walkIndex_lt {walk : MapWalk T} {pos i : UInt32} {rounds : Nat}
    {visited : List T}
    (hpoint : m.InOrder (.walking walk (.item pos i rounds visited))) :
    (if walk.backward then pos - 1 else (pos + i) % cap.N).toNat < cap.slots := by
  split
  · next hbackward =>
      obtain ⟨hpos, hle⟩ := hpoint hbackward
      have hone : (1 : UInt32) ≤ pos := by
        rw [UInt32.le_iff_toNat_le, UInt32.toNat_one]
        exact hpos
      rw [UInt32.toNat_sub_of_le _ _ hone, UInt32.toNat_one]
      omega
  · rw [UInt32.toNat_mod]
    exact Nat.mod_lt _ cap.slots_pos

/-- Its cursor afterwards, which starts again at `N` after slot zero. -/
theorem walkCursor_inOrder {walk : MapWalk T} {pos i : UInt32} {rounds : Nat}
    {visited : List T}
    (hpoint : m.InOrder (.walking walk (.item pos i rounds visited)))
    {idx : UInt32}
    (hidx : idx = if walk.backward then pos - 1 else (pos + i) % cap.N)
    (later : UInt32) (left : Nat) (seen : List T) :
    m.InOrder (.walking walk (.item
      (if walk.backward then (if idx = 0 then cap.N else idx) else pos)
      later left seen)) := by
  intro hbackward
  have hlt := walkIndex_lt hpoint
  rw [← hidx] at hlt
  rw [if_pos hbackward]
  split
  · exact ⟨cap.slots_pos, Nat.le_refl _⟩
  · next hne =>
      refine ⟨Nat.pos_of_ne_zero ?_, hlt.le⟩
      intro hzero
      exact hne (UInt32.toNat_inj.mp hzero)

theorem walkStep_stepsTo [MappedType T] (hm : m.Sized) {walk : MapWalk T}
    {point : WalkPoint T} (hpoint : m.InOrder (.walking walk point)) :
    m.StepsTo erases (m.walkStep walk point) := by
  cases point with
  | empty =>
      rw [walkStep]
      split
      · exact hm.stepsTo trivial
      · exact hm.stepsTo trivial
  | cursor =>
      apply hm.stepsTo
      intro hbackward
      have hpop := hm.popLt
      have hslots := cap.slots_lt
      rw [if_pos hbackward, UInt32.toNat_add, UInt32.toNat_one]
      omega
  | item pos i rounds visited =>
      cases rounds with
      | zero => exact hm.stepsTo trivial
      | succ rounds =>
          have hidx := walkIndex_lt hpoint
          have hcursor := walkCursor_inOrder hpoint rfl
          simp only [walkStep, item?_of_lt hm.ring hidx, Option.bind_eq_bind,
            Option.bind_some]
          generalize (if walk.backward then pos - 1 else (pos + i) % cap.N) = idx
            at hidx hcursor ⊢
          generalize (if walk.backward then (if idx = 0 then cap.N else idx)
            else pos) = cursor at hcursor ⊢
          split
          · split
            · exact hm.stepsTo hidx
            · exact hm.stepsTo (hcursor _ _ _)
          · exact hm.stepsTo (hcursor _ _ _)
  | result pos => exact hm.stepsTo_read hpoint

/-- A step of a call is defined where its erase still finds a slot. -/
theorem act_stepsTo [DecidableEq KEY] [MappedType T] (hm : m.Sized)
    {here : Activity KEY T} (hhere : m.InOrder here) (hcall : here.InCall)
    (hreads : m.ReadsSlot here) (spurious : Bool) :
    m.StepsTo here.erases (m.act here (.proceed spurious)) := by
  cases here with
  | idle => exact hcall.elim
  | putting key value point => exact putStep_stepsTo hm hhere spurious
  | finding key point => exact findStep_stepsTo hm hhere
  | erasing key point => exact eraseStep_stepsTo hm hhere hreads
  | fronting point => exact frontStep_stepsTo hm hhere
  | advancing point => exact nextStep_stepsTo hm hhere spurious
  | walking walk point => exact walkStep_stepsTo hm hhere
  | testing => exact hm.stepsTo trivial
  | returning result => exact hcall.elim

/-- A turn begins a call, takes a step of one, or returns from one. -/
theorem act_cases [DecidableEq KEY] [MappedType T] {here next : Activity KEY T}
    {turn : MapTurn KEY T} {after : CircleMap KEY T cap}
    (hact : m.act here turn = some (after, next)) :
    (∃ call, turn = .call call ∧ here = .idle ∧ after = m ∧ next = call.begin) ∨
    (∃ spurious, turn = .proceed spurious ∧ here.InCall) ∨
    ∃ result, turn = .finish ∧ here = .returning result ∧ after = m ∧
      next = .idle := by
  cases turn with
  | call call =>
      cases here <;> simp [act] at hact
      exact Or.inl ⟨call, rfl, rfl, hact.1.symm, hact.2.symm⟩
  | proceed spurious =>
      right; left
      refine ⟨spurious, rfl, ?_⟩
      cases here <;> simp [act] at hact <;> trivial
  | finish =>
      right; right
      cases here <;> simp [act] at hact
      exact ⟨_, rfl, rfl, hact.1.symm, hact.2.symm⟩

theorem inOrder_begin (call : MapCall KEY T) : m.InOrder call.begin := by
  cases call <;> trivial

/-- What a turn does to the map, and where it leaves its thread. -/
theorem act_evolves [DecidableEq KEY] [MappedType T] (hm : m.Sized)
    {here next : Activity KEY T} {turn : MapTurn KEY T}
    {after : CircleMap KEY T cap} (hhere : m.InOrder here)
    (hreads : m.ReadsSlot here) (hact : m.act here turn = some (after, next)) :
    m.Evolves after here.erases ∧ after.InOrder next := by
  rcases act_cases hact with ⟨call, _, _, rfl, rfl⟩ | ⟨spurious, rfl, hcall⟩ |
    ⟨result, _, _, rfl, rfl⟩
  · exact ⟨hm.evolves, inOrder_begin call⟩
  · obtain ⟨after', next', hstep, hevolves, hnext⟩ :=
      act_stepsTo hm hhere hcall hreads spurious
    rw [hact, Option.some.injEq, Prod.mk.injEq] at hstep
    obtain ⟨rfl, rfl⟩ := hstep
    exact ⟨hevolves, hnext⟩
  · exact ⟨hm.evolves, trivial⟩

/-! ### A step stays in its call or has a result -/

section Stays

variable {after : CircleMap KEY T cap} {next : Activity KEY T}

theorem putStep_stays [DecidableEq KEY] {key : KEY} {value : T}
    {spurious : Bool} {point : PutPoint}
    (hstep : m.putStep key value spurious point = some (after, next)) :
    (∃ point, next = .putting key value point) ∨
      ∃ result, next = .returning result := by
  cases point <;> grind [putStep, Option.bind_eq_some_iff]

theorem frontStep_stays {point : FrontPoint}
    (hstep : m.frontStep point = some (after, next)) :
    (∃ point, next = .fronting point) ∨ ∃ result, next = .returning result := by
  cases point <;> grind [frontStep, Option.bind_eq_some_iff]

variable [MappedType T]

theorem findStep_stays {key : KEY} {point : FindPoint}
    (hstep : m.findStep key point = some (after, next)) :
    (∃ point, next = .finding key point) ∨
      ∃ result, next = .returning result := by
  cases point <;> grind [findStep, Option.bind_eq_some_iff]

theorem eraseStep_stays [DecidableEq KEY] {key : KEY} {point : ErasePoint}
    (hstep : m.eraseStep key point = some (after, next)) :
    (∃ point, next = .erasing key point) ∨
      ∃ result, next = .returning result := by
  cases point <;> grind [eraseStep, Option.bind_eq_some_iff]

theorem nextStep_stays {spurious : Bool} {point : NextPoint}
    (hstep : m.nextStep spurious point = some (after, next)) :
    (∃ point, next = .advancing point) ∨ ∃ result, next = .returning result := by
  fun_cases nextStep m spurious point <;>
    grind [nextStep, Option.bind_eq_some_iff]

theorem walkStep_stays {walk : MapWalk T} {point : WalkPoint T}
    (hstep : m.walkStep walk point = some (after, next)) :
    (∃ point, next = .walking walk point) ∨
      ∃ result, next = .returning result := by
  fun_cases walkStep m walk point <;>
    grind [walkStep, Option.bind_eq_some_iff]

/-- A thread that is at an erase after a step was at it before. -/
theorem erases_of_act [DecidableEq KEY] {here : Activity KEY T}
    {spurious : Bool} (hact : m.act here (.proceed spurious) = some (after, next))
    {key : KEY} (hkey : next.erases = some key) : here.erases = some key := by
  cases here with
  | idle => contradiction
  | putting key value point =>
      rcases putStep_stays hact with ⟨_, rfl⟩ | ⟨_, rfl⟩ <;> contradiction
  | finding key point =>
      rcases findStep_stays hact with ⟨_, rfl⟩ | ⟨_, rfl⟩ <;> contradiction
  | erasing key point =>
      rcases eraseStep_stays hact with ⟨_, rfl⟩ | ⟨_, rfl⟩
      · exact hkey
      · contradiction
  | fronting point =>
      rcases frontStep_stays hact with ⟨_, rfl⟩ | ⟨_, rfl⟩ <;> contradiction
  | advancing point =>
      rcases nextStep_stays hact with ⟨_, rfl⟩ | ⟨_, rfl⟩ <;> contradiction
  | walking walk point =>
      rcases walkStep_stays hact with ⟨_, rfl⟩ | ⟨_, rfl⟩ <;> contradiction
  | testing =>
      obtain ⟨rfl, rfl⟩ := Prod.mk.inj (Option.some.inj hact)
      contradiction
  | returning result => contradiction

/-- An erase that goes on to subscript has just found a slot. -/
theorem readsSlot_of_eraseStep [DecidableEq KEY] {key : KEY} {point : ErasePoint}
    (hstep : m.eraseStep key point = some (after, next)) :
    after.ReadsSlot next := by
  cases point with
  | test =>
      simp only [eraseStep, Option.bind_eq_bind, Option.bind_eq_some_iff] at hstep
      obtain ⟨index, hkey, hstep⟩ := hstep
      split at hstep
      · obtain ⟨rfl, rfl⟩ := Prod.mk.inj (Option.some.inj hstep)
        trivial
      · next hne =>
          obtain ⟨rfl, rfl⟩ := Prod.mk.inj (Option.some.inj hstep)
          rw [ReadsSlot, (slotOf_eq_some_iff m key index).mpr ⟨hkey, hne⟩]
          exact Option.some_ne_none index
  | _ => grind [eraseStep, ReadsSlot, Option.bind_eq_some_iff]

/-- Where a turn leaves a thread, it finds the slot it has tested. -/
theorem readsSlot_of_act [DecidableEq KEY] {here : Activity KEY T}
    {turn : MapTurn KEY T} (hact : m.act here turn = some (after, next)) :
    after.ReadsSlot next := by
  rcases act_cases hact with ⟨call, _, _, _, rfl⟩ | ⟨spurious, rfl, _⟩ |
    ⟨_, _, _, _, rfl⟩
  · cases call <;> trivial
  · cases next with
    | erasing key point =>
        have herases : (Activity.erasing key point : Activity KEY T).erases =
            some key := rfl
        have hhere := erases_of_act hact herases
        cases here with
        | erasing key' point' => exact readsSlot_of_eraseStep hact
        | _ => contradiction
    | _ => trivial
  · trivial

omit [MappedType T] in
/-- The slot a thread has tested stays while another key is erased. -/
theorem Evolves.readsSlot {erases : Option KEY} (hevolves : m.Evolves after erases)
    {other : Activity KEY T} (hother : m.ReadsSlot other)
    (hapart : ∀ key, other.erases = some key → erases ≠ some key) :
    after.ReadsSlot other := by
  cases other with
  | erasing key point =>
      cases point with
      | subscript => exact hevolves.named key (hapart key rfl) hother
      | _ => trivial
  | _ => trivial

end Stays

end CircleMap

/-! ### Every interleaving -/

namespace MapThreads

variable {Thread : Type} [DecidableEq Thread] [DecidableEq KEY] [MappedType T]

/-- The indices are in range, and no call subscripts `mData` outside it in its
next step. -/
structure Safe (s : MapThreads Thread KEY T cap) : Prop where
  indices : s.shared.IndicesInRange
  defined : ∀ t spurious, (s.locals t).InCall →
    (step s (t, .proceed spurious)).isSome

omit [DecidableEq Thread] [DecidableEq KEY] [MappedType T] in
/-- An erase that is about to subscript `mData` finds a slot. -/
def ReadsSlots (s : MapThreads Thread KEY T cap) :
    Thread × MapTurn KEY T → Prop
  | (t, .proceed _) => s.shared.ReadsSlot (s.locals t)
  | _ => True

omit [DecidableEq Thread] [DecidableEq KEY] [MappedType T] in
/-- No thread begins to erase a key that another one is erasing. -/
def ErasesApart (s : MapThreads Thread KEY T cap) :
    Thread × MapTurn KEY T → Prop
  | (t, .call (.erase key)) =>
      ∀ other, other ≠ t → (s.locals other).erases ≠ some key
  | _ => True

/-- An admitted step keeps every thread in order. -/
theorem keepsOrder : Threads.KeepsOrder
    (CircleMap.act : CircleMap KEY T cap → _ → _ → _)
    (fun m here _ => m.ReadsSlot here) CircleMap.Sized
    CircleMap.InOrder (fun _ _ => True) where
  own := by
    intro m here turn after next hm hhere hreads hact
    obtain ⟨hevolves, hnext⟩ := CircleMap.act_evolves hm hhere hreads hact
    exact ⟨hevolves.sized, hnext⟩
  other := by
    intro m here other turn after next hm hhere hother _ hreads hact
    exact (CircleMap.act_evolves hm hhere hreads hact).1.inOrder hother
  symm := fun _ _ _ => trivial

omit [DecidableEq Thread] [DecidableEq KEY] [MappedType T] in
/-- The map has the right sizes, and every thread what it needs of it. -/
def Ordered (s : MapThreads Thread KEY T cap) : Prop :=
  s.Modular CircleMap.Sized CircleMap.InOrder (fun _ _ => True)

omit [DecidableEq Thread] [DecidableEq KEY] in
theorem start_ordered : Ordered (start : MapThreads Thread KEY T cap) where
  good := CircleMap.fresh_sized
  inOrder := fun _ => trivial
  apart := fun _ _ _ => trivial

namespace Ordered

variable {s : MapThreads Thread KEY T cap} {t : Thread} {turn : MapTurn KEY T}

/-- A turn that is not a step of a call leaves nothing to read. -/
theorem readsSlot {after : MapThreads Thread KEY T cap}
    (hreads : ReadsSlots s (t, turn)) (hstep : step s (t, turn) = some after) :
    s.shared.ReadsSlot (s.locals t) := by
  obtain ⟨_, _, hact, _⟩ := Threads.step_cases hstep
  rcases CircleMap.act_cases hact with ⟨_, _, hidle, _⟩ | ⟨_, rfl, _⟩ |
    ⟨_, _, hreturning, _⟩
  · rw [hidle]
    trivial
  · exact hreads
  · rw [hreturning]
    trivial

/-- Step lemma. -/
theorem next (hs : Ordered s) {after : MapThreads Thread KEY T cap}
    (hreads : ReadsSlots s (t, turn)) (hstep : step s (t, turn) = some after) :
    Ordered after :=
  Threads.Modular.step keepsOrder hs (readsSlot hreads hstep) hstep
    fun _ _ => trivial

/-- A call is defined at its next step, also where its erase is about to read
the tombstone. -/
theorem defined (hs : Ordered s) (hcall : (s.locals t).InCall)
    (spurious : Bool) : (step s (t, .proceed spurious)).isSome := by
  have hact : (s.shared.act (s.locals t) (.proceed spurious)).isSome := by
    by_cases hreads : s.shared.ReadsSlot (s.locals t)
    · obtain ⟨_, _, hact, _⟩ :=
        CircleMap.act_stepsTo hs.good (hs.inOrder t) hcall hreads spurious
      rw [hact]
      rfl
    · have hhere := hs.inOrder t
      revert hreads hhere
      cases s.locals t with
      | erasing key point =>
          cases point with
          | subscript =>
              intro _ hhere
              obtain ⟨index, hkey⟩ := Option.ne_none_iff_exists'.mp hhere
              simp [CircleMap.act, CircleMap.eraseStep, hkey]
          | _ => exact fun hreads => absurd trivial hreads
      | _ => exact fun hreads => absurd trivial hreads
  obtain ⟨⟨after, next⟩, hnext⟩ := Option.isSome_iff_exists.mp hact
  rw [step, Threads.step_of_act hnext]
  rfl

theorem safe (hs : Ordered s) : Safe s where
  indices := hs.good.indicesInRange
  defined := fun _ spurious hcall => hs.defined hcall spurious

/-- An erase that reads the tombstone is undefined at the step after. -/
theorem readsSlots_of_safe (hs : Ordered s)
    (hnext : ∀ after, step s (t, turn) = some after → Safe after) :
    ReadsSlots s (t, turn) := by
  cases turn with
  | call call => trivial
  | finish => trivial
  | proceed spurious =>
      have hhere := hs.inOrder t
      change s.shared.ReadsSlot (s.locals t)
      cases ht : s.locals t with
      | erasing key point =>
          cases point with
          | subscript =>
              rw [ht] at hhere
              intro hnone
              have hkey := ((CircleMap.slotOf_eq_none_iff _ _).mp hnone).resolve_left
                hhere
              have hact : s.shared.act (s.locals t) (.proceed spurious) =
                  some (s.shared, .erasing key (.reset cap.invalidIndex)) := by
                simp [ht, CircleMap.act, CircleMap.eraseStep, hkey]
              have hstuck := (hnext _ (Threads.step_of_act hact)).defined t spurious
                (by simp [Activity.InCall])
              have houtside : ¬ cap.invalidIndex.toNat < s.shared.mData.length := by
                rw [hs.good.dataLength, Capacity.invalidIndex_toNat]
                omega
              simp [step, Threads.step, CircleMap.act, CircleMap.eraseStep,
                CircleMap.assign, houtside] at hstuck
          | _ => trivial
      | _ => trivial

end Ordered

/-- Run lemma: from a state in order, a run is safe exactly when its erases
find the slots they read. -/
theorem Ordered.throughout_iff {s : MapThreads Thread KEY T cap}
    (hs : Ordered s) (turns : List (Thread × MapTurn KEY T)) :
    Runs.Throughout step Safe s turns ↔
      Runs.EveryStep step ReadsSlots s turns := by
  apply Runs.throughout_iff_everyStep _ _ _ hs
  · intro s turn after hs hreads hstep
    exact Ordered.next hs hreads hstep
  · intro s hs
    exact hs.safe
  · intro s turn hs hnext
    exact hs.readsSlots_of_safe hnext

/-- Whatever any number of threads call, every call is defined at each of its
steps, and every index in range, exactly when no erase reads an index that
another erase has replaced by the tombstone. -/
theorem calls_safe_iff (cap : Capacity)
    (turns : List (Thread × MapTurn KEY T)) :
    Runs.Throughout step Safe (start : MapThreads Thread KEY T cap) turns ↔
      Runs.EveryStep step ReadsSlots (start : MapThreads Thread KEY T cap) turns :=
  start_ordered.throughout_iff turns

omit [DecidableEq Thread] [MappedType T] [DecidableEq KEY] in
instance (m : CircleMap KEY T cap) : ∀ here, Decidable (m.ReadsSlot here)
  | .erasing key .subscript => inferInstanceAs (Decidable (m.slotOf key ≠ none))
  | .erasing _ .find | .erasing _ .test | .erasing _ (.reset _)
  | .erasing _ .invalidate | .idle | .putting _ _ _ | .finding _ _
  | .fronting _ | .advancing _ | .walking _ _ | .testing | .returning _ =>
      inferInstanceAs (Decidable True)

omit [DecidableEq Thread] [MappedType T] [DecidableEq KEY] in
instance (s : MapThreads Thread KEY T cap) :
    ∀ turn, Decidable (ReadsSlots s turn)
  | (t, .proceed _) =>
      inferInstanceAs (Decidable (s.shared.ReadsSlot (s.locals t)))
  | (_, .call _) | (_, .finish) => inferInstanceAs (Decidable True)

/-- Two threads erase one key, and the second has tested its index before the
first is done. -/
example : ¬ Runs.EveryStep step ReadsSlots
    (start : MapThreads Bool Nat DataType twoSlots)
    ([(false, .call (.put 1 ⟨1⟩))] ++
      List.replicate 8 (false, .proceed false) ++
      [(false, .finish), (false, .call (.erase 1)), (true, .call (.erase 1))] ++
      List.replicate 2 (true, .proceed false) ++
      List.replicate 5 (false, .proceed false) ++
      [(true, .proceed false)]) := by decide

/-! ### Erases that are kept apart -/

/-- A thread in order that still finds the slot it has tested. -/
theorem keepsOrder_apart : Threads.KeepsOrder
    (CircleMap.act : CircleMap KEY T cap → _ → _ → _)
    (fun _ _ _ => True) CircleMap.Sized
    (fun m here => m.InOrder here ∧ m.ReadsSlot here) Activity.Apart where
  own := by
    intro m here turn after next hm hhere _ hact
    obtain ⟨hevolves, hnext⟩ := CircleMap.act_evolves hm hhere.1 hhere.2 hact
    exact ⟨hevolves.sized, hnext, CircleMap.readsSlot_of_act hact⟩
  other := by
    intro m here other turn after next hm hhere hother hapart _ hact
    have hevolves := (CircleMap.act_evolves hm hhere.1 hhere.2 hact).1
    refine ⟨hevolves.inOrder hother.1, hevolves.readsSlot hother.2 ?_⟩
    intro key hkey hhere
    exact hapart key hhere hkey
  symm := by
    intro here other hapart key hother hhere
    exact hapart key hhere hother

/-- A thread that begins an erase keeps apart from the others. -/
theorem apart_of_step {s after : MapThreads Thread KEY T cap} {t : Thread}
    {turn : MapTurn KEY T}
    (hs : ∀ other, other ≠ t → (s.locals t).Apart (s.locals other))
    (hok : ErasesApart s (t, turn)) (hstep : step s (t, turn) = some after)
    {other : Thread} (hother : other ≠ t) :
    (after.locals t).Apart (s.locals other) := by
  obtain ⟨shared, next, hact, rfl⟩ := Threads.step_cases hstep
  simp only [Function.update_self]
  intro key hkey
  rcases CircleMap.act_cases hact with ⟨call, rfl, _, _, rfl⟩ |
    ⟨spurious, rfl, _⟩ | ⟨_, _, _, _, rfl⟩
  · cases call with
    | erase key' =>
        obtain rfl : key' = key := Option.some.inj hkey
        exact hok other hother
    | _ => contradiction
  · exact hs other hother key (CircleMap.erases_of_act hact hkey)
  · contradiction

/-- Where no two threads erase one key at the same time, no call of any number
of threads subscripts `mData` out of range. -/
theorem erases_apart_safe (cap : Capacity)
    {turns : List (Thread × MapTurn KEY T)}
    (hturns : Runs.EveryStep step ErasesApart
      (start : MapThreads Thread KEY T cap) turns) :
    Runs.Throughout step Safe (start : MapThreads Thread KEY T cap) turns := by
  rw [start_ordered.throughout_iff]
  have hstart : (start : MapThreads Thread KEY T cap).Modular CircleMap.Sized
      (fun m here => m.InOrder here ∧ m.ReadsSlot here) Activity.Apart := by
    constructor
    case good => exact CircleMap.fresh_sized
    case inOrder => exact fun _ => ⟨trivial, trivial⟩
    case apart =>
      intro t other _ key hkey
      contradiction
  refine hturns.of_invariant ?_ ?_ hstart
  · rintro s ⟨t, turn⟩ after hs hok hstep
    apply hs.step keepsOrder_apart trivial hstep
    intro other hother
    apply apart_of_step _ hok hstep hother
    intro other hne
    exact hs.apart t other (Ne.symm hne)
  · rintro s ⟨t, turn⟩ hs _
    cases turn with
    | proceed spurious => exact (hs.inOrder t).2
    | _ => trivial

omit [DecidableEq Thread] [MappedType T] in
instance (s : MapThreads Bool KEY T cap) :
    ∀ turn, Decidable (ErasesApart s turn)
  | (t, .call (.erase key)) => inferInstanceAs (Decidable
      (∀ other, other ≠ t → (s.locals other).erases ≠ some key))
  | (_, .proceed _) | (_, .finish) | (_, .call (.put _ _)) | (_, .call (.find _))
  | (_, .call .front) | (_, .call .nextAvailableItem) | (_, .call (.findIf _))
  | (_, .call (.rfindIf _)) | (_, .call .loopAll) | (_, .call .rloopAll)
  | (_, .call .empty) => inferInstanceAs (Decidable True)

/-- A key is erased while another thread puts it and takes the next item. -/
theorem put_beside_erase_safe :
    Runs.Throughout step Safe (start : MapThreads Bool Nat DataType twoSlots)
      ([(false, .call (.put 1 ⟨1⟩)), (true, .call (.erase 1))] ++
        List.replicate 6 (false, .proceed false) ++
        List.replicate 3 (true, .proceed false) ++
        List.replicate 2 (false, .proceed false) ++
        [(false, .finish), (false, .call .nextAvailableItem)] ++
        List.replicate 2 (true, .proceed false) ++
        List.replicate 4 (false, .proceed true)) :=
  erases_apart_safe twoSlots (by decide)

end MapThreads

end Saigon
