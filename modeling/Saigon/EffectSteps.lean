/-
The steps of an assignment, a lookup and an erase beside the map of the
effects: each leaves that map alone, or has the effect of its function on it.
-/
import Saigon.Effects

namespace Saigon

variable {KEY T : Type} {cap : Capacity}

namespace CircleMap

variable [DecidableEq KEY] [MappedType T]

/-- A step of a thread that uses `key`, with the map of the effects after
it. -/
structure Simulates (key : KEY) (m a : CircleMap KEY T cap)
    (here : Activity KEY T) (after followed : CircleMap KEY T cap)
    (next : Activity KEY T) : Prop where
  commits : Atomic.Commits perform a here.phase followed next.phase
  follows : after.Follows followed
  print : Footprint key m a after followed
  inStep : after.InStep followed next
  settled : next.writes ≠ some key → after.Agrees followed key
  flag : followed.mEmpty = true →
    next.Puts ∨ ¬ here.Puts ∧ a.mEmpty = true ∧ after.mEmpty = m.mEmpty

variable {m a after followed : CircleMap KEY T cap} {key : KEY} {value : T}
  {here next : Activity KEY T}

/-! ### One lemma for each call -/

/-- Where the two maps are what they were, and no call has taken effect. -/
theorem Simulates.of_still (hm : m.Follows a)
    (hphase : next.phase = here.phase) (hputs : next.Puts ↔ here.Puts)
    (hnext : m.InStep a next)
    (hsettled : next.writes ≠ some key → m.Agrees a key) :
    Simulates key m a here m a next := by
  constructor
  case commits =>
    rw [hphase]
    exact .stutter _
  case follows => exact hm
  case print => exact Footprint.refl key m a
  case inStep => exact hnext
  case settled => exact hsettled
  case flag =>
    intro hempty
    by_cases hhere : here.Puts
    · exact Or.inl (hputs.mpr hhere)
    · exact Or.inr ⟨hhere, hempty, rfl⟩

omit [DecidableEq KEY] [MappedType T] in
theorem updateEmptyStep_cases (m : CircleMap KEY T cap) (val spurious : Bool)
    (point : UpdatePoint) :
    (∃ next, m.updateEmptyStep val spurious point = (m, some next)) ∨
      m.updateEmptyStep val spurious point = (m.updateEmpty val, none) := by
  cases point with
  | load => exact Or.inl ⟨_, rfl⟩
  | exchange old =>
      rw [updateEmptyStep]
      split
      · exact Or.inr rfl
      · exact Or.inl ⟨_, rfl⟩

omit [DecidableEq KEY] [MappedType T] in
/-- A lookup goes on, or answers with the slot of its key, or with
`INVALID_INDEX` where the map is marked empty or the key has no slot. -/
theorem findInternalStep_cases {point : FindInternalPoint}
    (hpoint : m.Tested key point) {result : FindInternalPoint ⊕ UInt32}
    (hstep : m.findInternalStep key point = some result) :
    (∃ next, result = .inl next ∧ m.Tested key next) ∨
    (∃ slot, result = .inr slot ∧ m.slotOf key = some slot) ∨
    (result = .inr cap.invalidIndex ∧ (m.mEmpty = true ∨ m.slotOf key = none)) := by
  cases point with
  | empty =>
      rw [findInternalStep, Option.some.injEq] at hstep
      subst hstep
      split
      · next hempty => exact Or.inr (Or.inr ⟨rfl, Or.inl hempty⟩)
      · exact Or.inl ⟨.find, rfl, trivial⟩
  | find =>
      rw [findInternalStep] at hstep
      split at hstep
      · next hkey =>
          obtain rfl := Option.some.inj hstep
          refine Or.inr (Or.inr ⟨rfl, Or.inr ?_⟩)
          rw [slotOf_eq_none_iff]
          exact Or.inl hkey
      · obtain rfl := Option.some.inj hstep
        exact Or.inl ⟨.test, rfl, trivial⟩
  | test =>
      simp only [findInternalStep, Option.bind_eq_bind,
        Option.bind_eq_some_iff] at hstep
      obtain ⟨index, hkey, hstep⟩ := hstep
      split at hstep
      · next htomb =>
          obtain rfl := Option.some.inj hstep
          refine Or.inr (Or.inr ⟨rfl, Or.inr ?_⟩)
          rw [slotOf_eq_none_iff]
          exact Or.inr (htomb ▸ hkey)
      · next hne =>
          obtain rfl := Option.some.inj hstep
          refine Or.inl ⟨.read, rfl, ?_⟩
          rw [Tested, (slotOf_eq_some_iff m key index).mpr ⟨hkey, hne⟩]
          exact Option.some_ne_none index
  | read =>
      simp only [findInternalStep, Option.bind_eq_bind,
        Option.bind_eq_some_iff, Option.some.injEq] at hstep
      obtain ⟨index, hkey, rfl⟩ := hstep
      obtain ⟨slot, hslot⟩ := Option.ne_none_iff_exists'.mp hpoint
      have hsame := ((slotOf_eq_some_iff m key slot).mp hslot).1
      rw [hkey, Option.some.injEq] at hsame
      subst hsame
      exact Or.inr (Or.inl ⟨_, rfl, hslot⟩)

/-- The effect of an assignment whose slot is settled. -/
theorem Simulates.of_assigned (hm : m.Follows a) (hroom : a.HasRoom key)
    (hmark : m.mEmpty = false) {push : UInt32}
    (hpush : push = (a.place key).mPushIndex)
    (hhere : here.phase = .called (.put key value))
    (hphase : next.phase = .returning .done) (hputs : next.Puts)
    (hwrites : next.writes = some key)
    (hnext : InStep { m with mPushIndex := push } (a.assigned key value) next) :
    Simulates key m a here { m with mPushIndex := push } (a.assigned key value)
      next := by
  constructor
  case commits =>
    rw [hhere, hphase]
    exact .commit (perform_put hm.tidy.toSized key value)
  case follows => exact hm.assigned hroom hmark hpush value
  case print => exact Footprint.assigned hm key value push
  case inStep => exact hnext
  case settled => exact fun hne => absurd hwrites hne
  case flag => exact fun _ => Or.inl hputs

/-- Step lemma of an assignment. -/
theorem putStep_simulates (hm : m.Follows a) {point : PutPoint} {spurious : Bool}
    (hpoint : m.PutInStep a key value point)
    (hroom : point = .pushIndex → a.HasRoom key)
    (hstep : m.putStep key value spurious point = some (after, next)) :
    ∃ followed, Simulates key m a (.putting key value point) after followed next := by
  have hassigned : (a.assigned key value).slotOf key = some (a.placeSlot key) ∧
      (a.assigned key value).itemAt (a.placeSlot key).toNat = value := by
    rw [assigned_slotOf, if_pos rfl, assigned_itemAt hm.tidy.toSized, if_pos rfl]
    exact ⟨rfl, rfl⟩
  cases point with
  | updateEmpty point =>
      rw [putStep] at hstep
      rcases m.updateEmptyStep_cases false spurious point with ⟨point, hupdate⟩ | hupdate
      · rw [hupdate] at hstep
        obtain ⟨rfl, rfl⟩ := Prod.mk.inj (Option.some.inj hstep)
        exact ⟨a, .of_still hm rfl Iff.rfl hpoint (absurd rfl)⟩
      · rw [hupdate] at hstep
        obtain ⟨rfl, rfl⟩ := Prod.mk.inj (Option.some.inj hstep)
        refine ⟨a, .stutter _, hm.updateEmpty, .updateEmpty key m a, ?_,
          absurd rfl, fun _ => Or.inl trivial⟩
        exact ⟨⟨hpoint.index, hpoint.item⟩, rfl, trivial⟩
  | findInternal point =>
      obtain ⟨hagree, hmark, htested⟩ := hpoint
      simp only [putStep, Option.bind_eq_bind, Option.bind_eq_some_iff] at hstep
      obtain ⟨result, hresult, hstep⟩ := hstep
      rcases findInternalStep_cases htested hresult with ⟨point, rfl, hnext⟩ |
        ⟨slot, rfl, hslot⟩ | ⟨rfl, hnothing⟩
      · obtain ⟨rfl, rfl⟩ := Prod.mk.inj (Option.some.inj hstep)
        exact ⟨a, .of_still hm rfl Iff.rfl ⟨hagree, hmark, hnext⟩ (absurd rfl)⟩
      · -- the index is read: the assignment takes effect
        have hne := Capacity.ne_invalidIndex (hm.sized.slotLt key slot hslot)
        simp only [ne_eq, Ne.symm hne, not_false_eq_true, if_true] at hstep
        obtain ⟨rfl, rfl⟩ := Prod.mk.inj (Option.some.inj hstep)
        rw [hagree.slotOf] at hslot
        have hplace : a.placeSlot key = slot := by
          rw [placeSlot, hslot, Option.getD_some]
        have hpush : m.mPushIndex = (a.place key).mPushIndex := by
          rw [place_mPushIndex, if_neg (by simp [hslot]), hm.pushIndex]
        rw [hplace] at hassigned
        refine ⟨a.assigned key value, .of_assigned hm ?_ hmark hpush rfl rfl
          trivial rfl ⟨?_, hassigned⟩⟩
        · intro hnone
          rw [hslot] at hnone
          contradiction
        · rw [assigned_mKeys, Function.update_self, hplace]
          exact hagree.index.trans ((slotOf_eq_some_iff a key slot).mp hslot).1
      · simp only [ne_eq, not_true_eq_false, if_false] at hstep
        obtain ⟨rfl, rfl⟩ := Prod.mk.inj (Option.some.inj hstep)
        have hnone : m.slotOf key = none := by
          rcases hnothing with hempty | hnone
          · rw [hmark] at hempty
            contradiction
          · exact hnone
        rw [hagree.slotOf] at hnone
        exact ⟨a, .of_still hm rfl Iff.rfl ⟨hagree, hmark, hnone⟩ (absurd rfl)⟩
  | pushIndex =>
      obtain ⟨_, hmark, hnone⟩ := hpoint
      obtain ⟨rfl, rfl⟩ := Prod.mk.inj (Option.some.inj hstep)
      have hplace : a.placeSlot key = m.mPushIndex % cap.N := by
        rw [placeSlot, hnone, Option.getD_none, pushSlot, hm.pushIndex]
      have hpush : m.mPushIndex + 1 = (a.place key).mPushIndex := by
        rw [place_mPushIndex, if_pos hnone, hm.pushIndex]
      rw [hplace] at hassigned
      exact ⟨a.assigned key value, .of_assigned hm (hroom rfl) hmark hpush rfl rfl
        trivial rfl hassigned⟩
  | insert slot =>
      obtain ⟨rfl, rfl⟩ := Prod.mk.inj (Option.some.inj hstep)
      rw [insertKey_eq]
      exact ⟨a, .stutter _, hm.storeIndex key (hm.sized.insertKey_index key),
        .storeIndex m a key _, hpoint, absurd rfl, fun _ => Or.inl trivial⟩
  | store slot =>
      obtain ⟨rfl, rfl⟩ := Prod.mk.inj (Option.some.inj hstep)
      have hlt := hm.tidy.slotLt key slot hpoint.1
      refine ⟨a, .stutter _, hm.storeIndex key (Or.inl hlt),
        .storeIndex m a key slot, ⟨?_, hpoint⟩, absurd rfl, fun _ => Or.inl trivial⟩
      rw [storeIndex_mKeys, Function.update_self]
      exact ((slotOf_eq_some_iff a key slot).mp hpoint.1).1.symm
  | assign slot =>
      obtain ⟨hindex, hslot, hvalue⟩ := hpoint
      have hlt := hm.tidy.slotLt key slot hslot
      rw [putStep, assign_eq hm.sized hlt] at hstep
      obtain ⟨rfl, rfl⟩ := Prod.mk.inj (Option.some.inj hstep)
      refine ⟨a, .stutter _, hm.store slot value, .store hm hslot value, trivial,
        fun _ => ⟨hindex, ?_⟩, ?_⟩
      · intro found hfound
        rw [hslot, Option.some.injEq] at hfound
        rw [← hfound, store_itemAt hm.sized hlt, if_pos rfl, hvalue]
      · intro hempty
        rw [hm.not_empty hslot] at hempty
        contradiction

/-- The effect of a call that leaves the map alone. -/
theorem Simulates.of_answered (hm : m.Follows a) {call : MapCall KEY T}
    {result : Result T} (hhere : here.phase = .called call)
    (hputs : ¬ here.Puts) (hanswer : a.perform call = some (result, a))
    (hagree : m.Agrees a key) :
    Simulates key m a here m a (.returning result) := by
  constructor
  case commits =>
    rw [hhere]
    exact .commit hanswer
  case follows => exact hm
  case print => exact Footprint.refl key m a
  case inStep => trivial
  case settled => exact fun _ => hagree
  case flag => exact fun hempty => Or.inr ⟨hputs, hempty, rfl⟩

/-- Step lemma of a lookup. -/
theorem findStep_simulates (hm : m.Follows a) {point : FindPoint}
    (hpoint : m.FindInStep a key point)
    (hstep : m.findStep key point = some (after, next)) :
    after = m ∧ Simulates key m a (.finding key point) m a next := by
  have hanswer := perform_find hm.tidy.toSized key
  cases point with
  | findInternal point =>
      obtain ⟨hagree, htested⟩ := hpoint
      simp only [findStep, Option.bind_eq_bind, Option.bind_eq_some_iff] at hstep
      obtain ⟨result, hresult, hstep⟩ := hstep
      rcases findInternalStep_cases htested hresult with ⟨point, rfl, hnext⟩ |
        ⟨slot, rfl, hslot⟩ | ⟨rfl, hnothing⟩
      · obtain ⟨rfl, rfl⟩ := Prod.mk.inj (Option.some.inj hstep)
        exact ⟨rfl, .of_still hm rfl Iff.rfl ⟨hagree, hnext⟩ fun _ => hagree⟩
      · have hne := Capacity.ne_invalidIndex (hm.sized.slotLt key slot hslot)
        simp only [ne_eq, Ne.symm hne, not_false_eq_true, if_true] at hstep
        obtain ⟨rfl, rfl⟩ := Prod.mk.inj (Option.some.inj hstep)
        rw [hagree.slotOf] at hslot
        exact ⟨rfl, .of_still hm rfl Iff.rfl ⟨hagree, hslot⟩ fun _ => hagree⟩
      · simp only [ne_eq, not_true_eq_false, if_false] at hstep
        obtain ⟨rfl, rfl⟩ := Prod.mk.inj (Option.some.inj hstep)
        refine ⟨rfl, .of_answered hm rfl id ?_ hagree⟩
        rw [hanswer]
        rcases hnothing with hempty | hnone
        · rw [if_pos (hm.flag hempty)]
        · rw [hagree.slotOf] at hnone
          rw [(entry_eq_none_iff a key).mpr hnone, Option.getD_none, ite_self]
  | read slot =>
      obtain ⟨hagree, hslot⟩ := hpoint
      have hlt := hm.tidy.slotLt key slot hslot
      rw [findStep, item?_of_lt hm.sized.ring hlt] at hstep
      obtain ⟨rfl, rfl⟩ := Prod.mk.inj (Option.some.inj hstep)
      refine ⟨rfl, .of_answered hm rfl id ?_ hagree⟩
      rw [hanswer, hm.not_empty hslot, entry_of_slotOf hslot, Option.getD_some,
        hagree.item slot hslot]
      rfl

/-- Step lemma of an erase. -/
theorem eraseStep_simulates (hm : m.Follows a) {point : ErasePoint}
    (hpoint : m.EraseInStep a key point)
    (hstep : m.eraseStep key point = some (after, next)) :
    ∃ followed, Simulates key m a (.erasing key point) after followed next := by
  have hanswer := perform_erase hm.tidy.toSized key
  have hnothing : a.slotOf key = none →
      a.perform (.erase key) = some (.done, a) := by
    intro hnone
    rw [hanswer, without, hnone]
  cases point with
  | find =>
      rw [eraseStep] at hstep
      split at hstep
      · next hkey =>
          obtain ⟨rfl, rfl⟩ := Prod.mk.inj (Option.some.inj hstep)
          refine ⟨a, .of_answered hm rfl id (hnothing ?_) hpoint⟩
          rw [← hpoint.slotOf, slotOf_eq_none_iff]
          exact Or.inl hkey
      · obtain ⟨rfl, rfl⟩ := Prod.mk.inj (Option.some.inj hstep)
        exact ⟨a, .of_still hm rfl Iff.rfl hpoint (absurd rfl)⟩
  | test =>
      simp only [eraseStep, Option.bind_eq_bind, Option.bind_eq_some_iff] at hstep
      obtain ⟨index, hkey, hstep⟩ := hstep
      split at hstep
      · next htomb =>
          obtain ⟨rfl, rfl⟩ := Prod.mk.inj (Option.some.inj hstep)
          refine ⟨a, .of_answered hm rfl id (hnothing ?_) hpoint⟩
          rw [← hpoint.slotOf, slotOf_eq_none_iff]
          exact Or.inr (htomb ▸ hkey)
      · next hne =>
          obtain ⟨rfl, rfl⟩ := Prod.mk.inj (Option.some.inj hstep)
          refine ⟨a, .of_still hm rfl Iff.rfl ⟨hpoint, ?_⟩ (absurd rfl)⟩
          rw [(slotOf_eq_some_iff m key index).mpr ⟨hkey, hne⟩]
          exact Option.some_ne_none index
  | subscript =>
      obtain ⟨hagree, hslot⟩ := hpoint
      obtain ⟨slot, hslot⟩ := Option.ne_none_iff_exists'.mp hslot
      have hkey := ((slotOf_eq_some_iff m key slot).mp hslot).1
      rw [eraseStep, hkey] at hstep
      obtain ⟨rfl, rfl⟩ := Prod.mk.inj (Option.some.inj hstep)
      rw [hagree.slotOf] at hslot
      exact ⟨a, .of_still hm rfl Iff.rfl ⟨hagree, hslot⟩ (absurd rfl)⟩
  | reset slot =>
      obtain ⟨_, hslot⟩ := hpoint
      have hlt := hm.tidy.slotLt key slot hslot
      rw [eraseStep, assign_eq hm.sized hlt] at hstep
      obtain ⟨rfl, rfl⟩ := Prod.mk.inj (Option.some.inj hstep)
      refine ⟨a.without key, .commit hanswer, hm.without hslot, .without hm hslot,
        ?_, absurd rfl, ?_⟩
      · change (a.without key).mKeys key = some cap.invalidIndex
        rw [without_mKeys hslot, Function.update_self]
      · intro hempty
        rw [without_mEmpty] at hempty
        exact Or.inr ⟨id, hempty, rfl⟩
  | invalidate =>
      obtain ⟨rfl, rfl⟩ := Prod.mk.inj (Option.some.inj hstep)
      refine ⟨a, .stutter _, hm.storeIndex key (Or.inr rfl), .storeIndex m a key _,
        trivial, fun _ => ?_, fun hempty => Or.inr ⟨id, hempty, rfl⟩⟩
      have hnone : a.slotOf key = none := by
        rw [slotOf_eq_none_iff]
        exact Or.inr hpoint
      constructor
      case index =>
        rw [storeIndex_mKeys, Function.update_self]
        exact hpoint.symm
      case item =>
        intro slot hslot
        rw [hnone] at hslot
        contradiction

omit [DecidableEq KEY] in
/-- A thread accesses the index of its key, or the item in the slot that the
key has in the map of the effects. -/
theorem InStep.access (hhere : m.InStep a here) {access : Access KEY}
    (haccess : here.access cap = some access) :
    ∃ key, here.uses = some key ∧
      (access.writes = true → here.writes = some key) ∧
      (access.place = .index key ∨
        ∃ slot, access.place = .item slot ∧ a.slotOf key = some slot) := by
  cases here with
  | putting key value point =>
      refine ⟨key, rfl, fun _ => rfl, ?_⟩
      cases point with
      | findInternal point =>
          cases point <;> simp [Activity.access] at haccess <;>
            (subst haccess; exact Or.inl rfl)
      | store slot =>
          obtain rfl := Option.some.inj haccess
          exact Or.inl rfl
      | assign slot =>
          obtain rfl := Option.some.inj haccess
          exact Or.inr ⟨slot, rfl, hhere.2.1⟩
      | _ => contradiction
  | finding key point =>
      cases point with
      | findInternal point =>
          cases point <;> simp [Activity.access] at haccess <;>
            (subst haccess; exact ⟨key, rfl, Bool.noConfusion, Or.inl rfl⟩)
      | read slot =>
          obtain rfl := Option.some.inj haccess
          exact ⟨key, rfl, Bool.noConfusion, Or.inr ⟨slot, rfl, hhere.2⟩⟩
  | erasing key point =>
      refine ⟨key, rfl, fun _ => rfl, ?_⟩
      cases point with
      | reset slot =>
          obtain rfl := Option.some.inj haccess
          exact Or.inr ⟨slot, rfl, hhere.2⟩
      | find => contradiction
      | _ =>
          obtain rfl := Option.some.inj haccess
          exact Or.inl rfl
  | idle => contradiction
  | returning result => contradiction
  | _ => exact hhere.elim

omit [DecidableEq KEY] in
/-- A key that has a slot in the map of the effects has it in the other map
too, or an assignment is going to write it. -/
theorem InStep.holds (hhere : m.InStep a here) (hwrites : here.writes = some key)
    {slot : UInt32} (hslot : a.slotOf key = some slot) :
    m.slotOf key = some slot ∨ here.holds = some slot := by
  have hagrees : m.Agrees a key → m.slotOf key = some slot := by
    intro hagree
    rw [hagree.slotOf, hslot]
  have hholds : ∀ found, a.slotOf key = some found → some found = some slot := by
    intro found hfound
    rw [← hfound, hslot]
  cases here with
  | putting key' value point =>
      obtain rfl : key' = key := Option.some.inj hwrites
      cases point with
      | updateEmpty point => exact Or.inl (hagrees hhere)
      | findInternal point => exact Or.inl (hagrees hhere.1)
      | pushIndex => exact Or.inl (hagrees hhere.1)
      | insert found => exact Or.inr (hholds found hhere.1)
      | store found => exact Or.inr (hholds found hhere.1)
      | assign found => exact Or.inr (hholds found hhere.2.1)
  | erasing key' point =>
      obtain rfl : key' = key := Option.some.inj hwrites
      cases point with
      | find => exact Or.inl (hagrees hhere)
      | test => exact Or.inl (hagrees hhere)
      | subscript => exact Or.inl (hagrees hhere.1)
      | reset found => exact Or.inl (hagrees hhere.1)
      | invalidate =>
          have hnone := (slotOf_eq_none_iff a key').mpr (Or.inr hhere)
          rw [hnone] at hslot
          contradiction
  | _ => contradiction

end CircleMap

end Saigon
