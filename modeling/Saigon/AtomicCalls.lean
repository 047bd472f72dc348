/-
The functions of a `circle_map`, each as one effect on the map, beside the
accesses that a thread takes one by one.  A call that no other thread
interrupts does what its function does.
-/
import Saigon.ConcurrentSafety
import Saigon.Support.Atomic

namespace Saigon

variable {KEY T : Type} {cap : Capacity}

namespace CircleMap

variable [DecidableEq KEY] [MappedType T]

/-- A call by the function it names. -/
def perform (m : CircleMap KEY T cap) :
    MapCall KEY T → Option (Result T × CircleMap KEY T cap)
  | .put key value => do
      let m ← m.put key value
      some (.done, m)
  | .find key => do
      let item ← m.find key
      some (.item item, m)
  | .erase key => do
      let m ← m.erase key
      some (.done, m)
  | .front => do
      let item ← m.front
      some (.item item, m)
  | .nextAvailableItem => do
      let (index, m) ← m.nextAvailableItem
      some (.index index, m)
  | .findIf pre => do
      let item ← m.findIf pre
      some (.item item, m)
  | .rfindIf pre => do
      let item ← m.rfindIf pre
      some (.item item, m)
  | .loopAll => do
      let items ← m.loopItems
      some (.visited items, m)
  | .rloopAll => do
      let items ← m.rloopItems
      some (.visited items, m)
  | .empty => some (.flag m.empty, m)

variable {m : CircleMap KEY T cap}

theorem perform_put (hm : m.Sized) (key : KEY) (value : T) :
    m.perform (.put key value) = some (.done, m.assigned key value) := by
  rw [perform, put_eq hm]
  rfl

theorem perform_find (hm : m.Sized) (key : KEY) :
    m.perform (.find key) = some (.item
      (if m.mEmpty then emptyItem else (m.entry key).getD emptyItem), m) := by
  rw [perform, find_eq hm]
  rfl

theorem perform_erase (hm : m.Sized) (key : KEY) :
    m.perform (.erase key) = some (.done, m.without key) := by
  rw [perform, erase_eq hm]
  rfl

/-- Every function is defined on a map of the right sizes. -/
theorem perform_defined (hm : m.Sized) (call : MapCall KEY T) :
    ∃ result after, m.perform call = some (result, after) := by
  cases call with
  | put key value => exact ⟨_, _, perform_put hm key value⟩
  | find key => exact ⟨_, _, perform_find hm key⟩
  | erase key => exact ⟨_, _, perform_erase hm key⟩
  | front =>
      rw [perform, front_eq hm]
      exact ⟨_, _, rfl⟩
  | nextAvailableItem =>
      obtain ⟨index, after, hnext, _⟩ := nextAvailableItem_sized hm
      rw [perform, hnext]
      exact ⟨_, _, rfl⟩
  | findIf pre =>
      obtain ⟨⟨item, hitem⟩, _⟩ := loops_defined hm pre
      rw [perform, hitem]
      exact ⟨_, _, rfl⟩
  | rfindIf pre =>
      obtain ⟨_, ⟨item, hitem⟩, _⟩ := loops_defined hm pre
      rw [perform, hitem]
      exact ⟨_, _, rfl⟩
  | loopAll =>
      obtain ⟨_, _, ⟨items, hitems⟩, _⟩ := loops_defined hm truthy
      rw [perform, hitems]
      exact ⟨_, _, rfl⟩
  | rloopAll =>
      obtain ⟨_, _, _, items, hitems⟩ := loops_defined hm truthy
      rw [perform, hitems]
      exact ⟨_, _, rfl⟩
  | empty => exact ⟨_, _, rfl⟩

/-! ### One call alone -/

/-- The accesses of a thread that is not interrupted. -/
def Solo : CircleMap KEY T cap × Activity KEY T →
    CircleMap KEY T cap × Activity KEY T → Prop :=
  Threads.Alone act (.proceed false)

theorem Solo.refl {here : CircleMap KEY T cap × Activity KEY T} :
    Solo here here :=
  Relation.ReflTransGen.refl

theorem Solo.step {after : CircleMap KEY T cap} {here next : Activity KEY T}
    {last : CircleMap KEY T cap × Activity KEY T}
    (hact : m.act here (.proceed false) = some (after, next))
    (hlast : Solo (after, next) last) : Solo (m, here) last :=
  Relation.ReflTransGen.head hact hlast

/-- A step to a given place. -/
theorem Solo.via (after : CircleMap KEY T cap) (next : Activity KEY T)
    {here : Activity KEY T} {last : CircleMap KEY T cap × Activity KEY T}
    (hact : m.act here (.proceed false) = some (after, next))
    (hlast : Solo (after, next) last) : Solo (m, here) last :=
  Solo.step hact hlast

/-- The lookup that `operator[]` and `find` begin with, in either of them. -/
theorem solo_findInternal (key : KEY) (call : FindInternalPoint → Activity KEY T)
    (hcall : ∀ point next, m.findInternalStep key point = some (.inl next) →
      m.act (call point) (.proceed false) = some (m, call next)) :
    ∃ point, Solo (m, call .empty) (m, call point) ∧
      m.findInternalStep key point = some (.inr (m.findInternal key)) := by
  cases hempty : m.empty with
  | true =>
      refine ⟨.empty, Solo.refl, ?_⟩
      simp [findInternalStep, findInternal, hempty]
  | false =>
      have hfirst := hcall .empty .find (by simp [findInternalStep, hempty])
      cases hkey : m.mKeys key with
      | none =>
          refine ⟨.find, Solo.step hfirst Solo.refl, ?_⟩
          simp [findInternalStep, findInternal, hempty, hkey]
      | some index =>
          have hfind := hcall .find .test (by simp [findInternalStep, hkey])
          by_cases htomb : index = cap.invalidIndex
          · refine ⟨.test, Solo.step hfirst (Solo.step hfind Solo.refl), ?_⟩
            simp [findInternalStep, findInternal, hempty, hkey, htomb]
          · have htest := hcall .test .read (by simp [findInternalStep, hkey, htomb])
            refine ⟨.read,
              Solo.step hfirst (Solo.step hfind (Solo.step htest Solo.refl)), ?_⟩
            simp [findInternalStep, findInternal, hempty, hkey, htomb]

omit [MappedType T] in
/-- The accesses of a miss add up to an allocation. -/
theorem allocate_eq (m : CircleMap KEY T cap) (key : KEY) :
    ((m.updateEmpty false).nextPushIndex.2.insertKey key).storeIndex key
      m.pushSlot = m.allocate key := by
  simp [storeIndex, insertKey, nextPushIndex, updateEmpty, allocate]

theorem solo_put (hm : m.Sized) (key : KEY) (value : T) :
    Solo (m, .putting key value (.updateEmpty .load))
      (m.assigned key value, .returning .done) := by
  have hmarked := hm.updateEmpty false
  have hassign : ∀ {before : CircleMap KEY T cap} {slot : UInt32},
      before.Sized → slot.toNat < cap.slots →
      Solo (before, .putting key value (.assign slot))
        (before.store slot value, .returning .done) := by
    intro before slot hbefore hslot
    apply Solo.step _ Solo.refl
    simp [act, putStep, assign_eq hbefore hslot]
  -- the flag is stored
  apply Solo.via m (.putting key value
    (.updateEmpty (.exchange m.mEmpty))) rfl
  apply Solo.via (m.updateEmpty false)
    (.putting key value (.findInternal .empty))
  · simp [act, putStep, updateEmptyStep]
  obtain ⟨point, hsolo, hpoint⟩ := solo_findInternal (m := m.updateEmpty false)
    key (fun point => .putting key value (.findInternal point)) (by
      intro point next hnext
      simp [act, putStep, hnext])
  apply Relation.ReflTransGen.trans hsolo
  cases hslot : m.slotOf key with
  | none =>
      have hfind : (m.updateEmpty false).findInternal key = cap.invalidIndex :=
        findInternal_of_none hslot
      apply Solo.via (m.updateEmpty false)
        (.putting key value .pushIndex)
      · simp [act, putStep, hpoint, hfind]
      apply Solo.step rfl
      apply Solo.step rfl
      apply Solo.step rfl
      have hend : (m.allocate key).store m.pushSlot value = m.assigned key value := by
        rw [assigned, place, if_pos hslot, placeSlot, hslot, Option.getD_none]
      have hlast := hassign (hm.allocate key) m.pushSlot_lt
      rw [hend, ← allocate_eq] at hlast
      exact hlast
  | some slot =>
      have hlt := hm.slotLt key slot hslot
      have hfind : (m.updateEmpty false).findInternal key = slot :=
        findInternal_of_slotOf rfl hslot
      apply Solo.via (m.updateEmpty false)
        (.putting key value (.assign slot))
      · simp [act, putStep, hpoint, hfind, Ne.symm (Capacity.ne_invalidIndex hlt)]
      have hend : (m.updateEmpty false).store slot value = m.assigned key value := by
        rw [assigned, place, if_neg (by simp [hslot]), placeSlot, hslot,
          Option.getD_some]
      have hlast := hassign hmarked hlt
      rw [hend] at hlast
      exact hlast

theorem solo_find {key : KEY} {item : T} (hitem : m.find key = some item) :
    Solo (m, .finding key (.findInternal .empty)) (m, .returning (.item item)) := by
  obtain ⟨point, hsolo, hpoint⟩ := solo_findInternal (m := m) key
    (fun point => .finding key (.findInternal point)) (by
      intro point next hnext
      simp [act, findStep, hnext])
  apply Relation.ReflTransGen.trans hsolo
  by_cases hinvalid : m.findInternal key = cap.invalidIndex
  · apply Solo.step _ Solo.refl
    have hnothing : item = emptyItem := by simpa [find, hinvalid] using hitem.symm
    simp [act, findStep, hpoint, hinvalid, hnothing]
  · have hread : m.item? (m.findInternal key) = some item := by
      simpa [find, Ne.symm hinvalid] using hitem
    apply Solo.via m
      (.finding key (.read (m.findInternal key)))
    · simp [act, findStep, hpoint, Ne.symm hinvalid]
    apply Solo.step _ Solo.refl
    simp [act, findStep, hread]

theorem solo_erase {key : KEY} {after : CircleMap KEY T cap}
    (herase : m.erase key = some after) :
    Solo (m, .erasing key .find) (after, .returning .done) := by
  cases hkey : m.mKeys key with
  | none =>
      obtain rfl : m = after := by simpa [erase, hkey] using herase
      apply Solo.step _ Solo.refl
      simp [act, eraseStep, hkey]
  | some index =>
      apply Solo.via m (.erasing key .test)
      · simp [act, eraseStep, hkey]
      by_cases htomb : index = cap.invalidIndex
      · obtain rfl : m = after := by simpa [erase, hkey, htomb] using herase
        apply Solo.step _ Solo.refl
        simp [act, eraseStep, hkey, htomb]
      · simp only [erase, hkey, htomb, if_false, Option.bind_eq_bind,
          Option.bind_eq_some_iff, Option.some.injEq] at herase
        obtain ⟨stored, hstored, rfl⟩ := herase
        apply Solo.via m (.erasing key .subscript)
        · simp [act, eraseStep, hkey, htomb]
        apply Solo.via m (.erasing key (.reset index))
        · simp [act, eraseStep, hkey]
        apply Solo.via stored (.erasing key .invalidate)
        · simp [act, eraseStep, hstored]
        exact Solo.step rfl Solo.refl

theorem solo_front {item : T} (hitem : m.front = some item) :
    Solo (m, .fronting .load) (m, .returning (.item item)) := by
  apply Solo.via m (.fronting (.read m.getPopIndex)) rfl
  apply Solo.step _ Solo.refl
  have hread : m.item? m.getPopIndex = some item := hitem
  simp [act, frontStep, hread]

/-! ### The loops -/

/-- Induction on the rounds left, as in the loop of the source. -/
theorem solo_scan (old : UInt32) {rounds : Nat} {next found : UInt32}
    (hscan : m.scanNext rounds next = some found) :
    Solo (m, .advancing (.scan old next rounds))
      (m, .advancing (.compare old found)) := by
  induction rounds generalizing next with
  | zero =>
      obtain rfl : next = found := Option.some.inj hscan
      exact Solo.step rfl Solo.refl
  | succ rounds ih =>
      simp only [scanNext, Option.bind_eq_bind, Option.bind_eq_some_iff] at hscan
      obtain ⟨item, hitem, hscan⟩ := hscan
      split at hscan
      · next htruthy =>
          obtain rfl := Option.some.inj hscan
          apply Solo.step _ Solo.refl
          simp [act, nextStep, hitem, htruthy]
      · next htruthy =>
          apply Solo.step _ (ih hscan)
          simp [act, nextStep, hitem, htruthy]

theorem solo_next {index : UInt32} {after : CircleMap KEY T cap}
    (hnext : m.nextAvailableItem = some (index, after)) :
    Solo (m, .advancing .empty) (after, .returning (.index index)) := by
  cases hempty : m.empty with
  | true =>
      simp only [nextAvailableItem, hempty, if_true, Option.some.injEq,
        Prod.mk.injEq] at hnext
      obtain ⟨rfl, rfl⟩ := hnext
      apply Solo.via m (.advancing .last)
      · simp [act, nextStep, hempty]
      exact Solo.step rfl Solo.refl
  | false =>
      simp only [nextAvailableItem, hempty, Bool.false_eq_true, if_false,
        Option.bind_eq_bind, Option.bind_eq_some_iff] at hnext
      obtain ⟨found, hscan, hnext⟩ := hnext
      apply Solo.via m (.advancing .load)
      · simp [act, nextStep, hempty]
      apply Solo.step rfl
      apply Relation.ReflTransGen.trans (solo_scan m.mPopIndex hscan)
      split at hnext
      · next hback =>
          obtain ⟨rfl, rfl⟩ := Prod.mk.inj (Option.some.inj hnext)
          apply Solo.via m
            (.advancing (.updateEmpty m.mPopIndex .load))
          · simp [act, nextStep, hback]
          apply Solo.via m (.advancing
            (.updateEmpty m.mPopIndex (.exchange m.mEmpty))) rfl
          apply Solo.via (m.updateEmpty true) (.advancing
            (.exchange m.mPopIndex ((m.mPopIndex + 1) % cap.N)))
          · simp [act, nextStep, updateEmptyStep]
          apply Solo.step _ Solo.refl
          simp [act, nextStep]
      · next hmoved =>
          obtain ⟨rfl, rfl⟩ := Prod.mk.inj (Option.some.inj hnext)
          apply Solo.via m
            (.advancing (.exchange m.mPopIndex found))
          · simp [act, nextStep, hmoved]
          apply Solo.step _ Solo.refl
          simp [act, nextStep]

/-- Where a search stands after its loop. -/
def searched (walk : MapWalk T) : Option UInt32 → Activity KEY T
  | some idx => .walking walk (.result idx)
  | none => .returning (.item emptyItem)

theorem solo_findIfLoop {pre : T → Bool} {pos : UInt32} {rounds : Nat}
    {i : UInt32} {found : Option UInt32}
    (hloop : m.findIfLoop pre pos rounds i = some found) :
    Solo (m, .walking ⟨false, some pre⟩ (.item pos i rounds []))
      (m, searched ⟨false, some pre⟩ found) := by
  induction rounds generalizing i with
  | zero =>
      obtain rfl : none = found := Option.some.inj hloop
      exact Solo.step rfl Solo.refl
  | succ rounds ih =>
      simp only [findIfLoop, Option.bind_eq_bind, Option.bind_eq_some_iff] at hloop
      obtain ⟨item, hitem, hloop⟩ := hloop
      split at hloop
      · next hpre =>
          obtain rfl := Option.some.inj hloop
          apply Solo.step _ Solo.refl
          simp only [act, walkStep, Bool.false_eq_true, if_false, hitem,
            Option.bind_eq_bind, Option.bind_some, hpre, if_true]
          rfl
      · next hpre =>
          apply Solo.step _ (ih hloop)
          simp only [act, walkStep, Bool.false_eq_true, if_false, hitem,
            Option.bind_eq_bind, Option.bind_some, hpre]

theorem solo_rfindIfLoop {pre : T → Bool} {pos : UInt32} {rounds : Nat}
    (i : UInt32) {found : Option UInt32}
    (hloop : m.rfindIfLoop pre rounds pos = some found) :
    Solo (m, .walking ⟨true, some pre⟩ (.item pos i rounds []))
      (m, searched ⟨true, some pre⟩ found) := by
  induction rounds generalizing pos i with
  | zero =>
      obtain rfl : none = found := Option.some.inj hloop
      exact Solo.step rfl Solo.refl
  | succ rounds ih =>
      simp only [rfindIfLoop, Option.bind_eq_bind, Option.bind_eq_some_iff] at hloop
      obtain ⟨item, hitem, hloop⟩ := hloop
      split at hloop
      · next hpre =>
          obtain rfl := Option.some.inj hloop
          apply Solo.step _ Solo.refl
          simp only [act, walkStep, if_true, hitem, Option.bind_eq_bind,
            Option.bind_some, hpre]
          rfl
      · next hpre =>
          apply Solo.step _ (ih (i + 1) hloop)
          simp only [act, walkStep, if_true, hitem, Option.bind_eq_bind,
            Option.bind_some, hpre, Bool.false_eq_true, if_false]

theorem solo_loopAllLoop {pos : UInt32} {rounds : Nat} {i : UInt32}
    {visited items : List T}
    (hloop : m.loopAllLoop (fun seen item => seen ++ [item]) pos rounds i visited =
      some items) :
    Solo (m, .walking ⟨false, none⟩ (.item pos i rounds visited))
      (m, .returning (.visited items)) := by
  induction rounds generalizing i visited with
  | zero =>
      obtain rfl : visited = items := Option.some.inj hloop
      exact Solo.step rfl Solo.refl
  | succ rounds ih =>
      simp only [loopAllLoop, Option.bind_eq_bind, Option.bind_eq_some_iff] at hloop
      obtain ⟨item, hitem, hloop⟩ := hloop
      apply Solo.step _ (ih hloop)
      simp only [act, walkStep, Bool.false_eq_true, if_false, hitem,
        Option.bind_eq_bind, Option.bind_some]

theorem solo_rloopAllLoop {pos : UInt32} {rounds : Nat} (i : UInt32)
    {visited items : List T}
    (hloop : m.rloopAllLoop (fun seen item => seen ++ [item]) rounds pos visited =
      some items) :
    Solo (m, .walking ⟨true, none⟩ (.item pos i rounds visited))
      (m, .returning (.visited items)) := by
  induction rounds generalizing pos i visited with
  | zero =>
      obtain rfl : visited = items := Option.some.inj hloop
      exact Solo.step rfl Solo.refl
  | succ rounds ih =>
      simp only [rloopAllLoop, Option.bind_eq_bind, Option.bind_eq_some_iff] at hloop
      obtain ⟨item, hitem, hloop⟩ := hloop
      apply Solo.step _ (ih (i + 1) hloop)
      simp only [act, walkStep, if_true, hitem, Option.bind_eq_bind,
        Option.bind_some]

/-- A loop over an empty map, and the cursor of one over a map that is not. -/
theorem solo_walk {walk : MapWalk T} {last : CircleMap KEY T cap × Activity KEY T}
    (hempty : m.empty = true → last = (m, .returning (walk.nothing [])))
    (hloop : m.empty = false → Solo (m, .walking walk (.item
      (if walk.backward then m.mPopIndex + 1 else m.mPopIndex) 0 cap.N.toNat []))
      last) :
    Solo (m, .walking walk .empty) last := by
  cases hmark : m.empty with
  | true =>
      rw [hempty hmark]
      apply Solo.step _ Solo.refl
      simp [act, walkStep, hmark]
  | false =>
      apply Solo.via m (.walking walk .cursor)
      · simp [act, walkStep, hmark]
      exact Solo.step rfl (hloop hmark)

/-- The read of the item that a search stopped at. -/
theorem solo_searched (walk : MapWalk T) {found : Option UInt32} {item : T}
    (hread : (match found with
      | some pos => m.item? pos
      | none => some emptyItem) = some item) :
    Solo (m, (searched walk found : Activity KEY T))
      (m, .returning (.item item)) := by
  cases found with
  | none =>
      obtain rfl := Option.some.inj hread
      exact Solo.refl
  | some pos =>
      have hitem : m.item? pos = some item := hread
      apply Solo.step _ Solo.refl
      simp [searched, act, walkStep, hitem]

theorem solo_findIf {pre : T → Bool} {item : T}
    (hitem : m.findIf pre = some item) :
    Solo (m, .walking ⟨false, some pre⟩ .empty) (m, .returning (.item item)) := by
  apply solo_walk
  · intro hempty
    have hnothing : emptyItem = item := by simpa [findIf, hempty] using hitem
    rw [← hnothing]
    rfl
  · intro hempty
    simp only [findIf, hempty, Bool.false_eq_true, if_false, Option.bind_eq_bind,
      Option.bind_eq_some_iff] at hitem
    obtain ⟨found, hloop, hread⟩ := hitem
    exact Relation.ReflTransGen.trans (solo_findIfLoop hloop)
      (solo_searched _ hread)

theorem solo_rfindIf {pre : T → Bool} {item : T}
    (hitem : m.rfindIf pre = some item) :
    Solo (m, .walking ⟨true, some pre⟩ .empty) (m, .returning (.item item)) := by
  apply solo_walk
  · intro hempty
    have hnothing : emptyItem = item := by simpa [rfindIf, hempty] using hitem
    rw [← hnothing]
    rfl
  · intro hempty
    simp only [rfindIf, hempty, Bool.false_eq_true, if_false, Option.bind_eq_bind,
      Option.bind_eq_some_iff] at hitem
    obtain ⟨found, hloop, hread⟩ := hitem
    exact Relation.ReflTransGen.trans (solo_rfindIfLoop 0 hloop)
      (solo_searched _ hread)

theorem solo_loopAll {items : List T} (hitems : m.loopItems = some items) :
    Solo (m, .walking ⟨false, none⟩ .empty) (m, .returning (.visited items)) := by
  apply solo_walk
  · intro hempty
    have hnothing : [] = items := by simpa [loopItems, loopAll, hempty] using hitems
    rw [← hnothing]
    rfl
  · intro hempty
    simp only [loopItems, loopAll, hempty, Bool.false_eq_true, if_false] at hitems
    exact solo_loopAllLoop hitems

theorem solo_rloopAll {items : List T} (hitems : m.rloopItems = some items) :
    Solo (m, .walking ⟨true, none⟩ .empty) (m, .returning (.visited items)) := by
  apply solo_walk
  · intro hempty
    have hnothing : [] = items := by simpa [rloopItems, rloopAll, hempty] using hitems
    rw [← hnothing]
    rfl
  · intro hempty
    simp only [rloopItems, rloopAll, hempty, Bool.false_eq_true, if_false] at hitems
    exact solo_rloopAllLoop 0 hitems

/-- What a call does alone is what its function does. -/
theorem solo_perform (hm : m.Sized) {call : MapCall KEY T} {result : Result T}
    {after : CircleMap KEY T cap}
    (hperform : m.perform call = some (result, after)) :
    Solo (m, call.begin) (after, .returning result) := by
  cases call with
  | put key value =>
      rw [perform_put hm] at hperform
      obtain ⟨rfl, rfl⟩ := Prod.mk.inj (Option.some.inj hperform)
      exact solo_put hm key value
  | empty =>
      obtain ⟨rfl, rfl⟩ := Prod.mk.inj (Option.some.inj hperform)
      exact Solo.step rfl Solo.refl
  | nextAvailableItem =>
      simp only [perform, Option.bind_eq_bind, Option.bind_eq_some_iff,
        Option.some.injEq, Prod.mk.injEq] at hperform
      obtain ⟨⟨index, after⟩, hnext, rfl, rfl⟩ := hperform
      exact solo_next hnext
  | erase key =>
      simp only [perform, Option.bind_eq_bind, Option.bind_eq_some_iff,
        Option.some.injEq, Prod.mk.injEq] at hperform
      obtain ⟨after, herase, rfl, rfl⟩ := hperform
      exact solo_erase herase
  | _ =>
      simp only [perform, Option.bind_eq_bind, Option.bind_eq_some_iff,
        Option.some.injEq, Prod.mk.injEq] at hperform
      obtain ⟨read, hread, rfl, rfl⟩ := hperform
      first
        | exact solo_find hread
        | exact solo_front hread
        | exact solo_findIf hread
        | exact solo_rfindIf hread
        | exact solo_loopAll hread
        | exact solo_rloopAll hread

end CircleMap

namespace MapThreads

variable {Thread : Type} [DecidableEq Thread] [DecidableEq KEY] [MappedType T]

/-- In every state that safe turns reach, a thread that calls and is not
interrupted returns after some steps with the result of the function, and
leaves the map that the function leaves. -/
theorem uninterrupted_call_performs (cap : Capacity)
    {turns : List (Thread × MapTurn KEY T)} {s : MapThreads Thread KEY T cap}
    (hturns : Runs.EveryStep step ReadsSlots
      (start : MapThreads Thread KEY T cap) turns)
    (hrun : Runs.run step start turns = some s) {t : Thread}
    (hidle : s.locals t = .idle) (call : MapCall KEY T) :
    ∃ result after count, s.shared.perform call = some (result, after) ∧
      Runs.run step s ((t, .call call) ::
        List.replicate count (t, .proceed false)) =
        some ⟨after, Function.update s.locals t (.returning result)⟩ := by
  have hordered : Ordered s :=
    Runs.Reachable.invariant (fun _ _ _ hs hok hstep => Ordered.next hs hok hstep)
      start_ordered (Runs.Reachable.of_run Runs.Reachable.refl hturns hrun)
  have hm := hordered.good
  obtain ⟨result, after, hperform⟩ := CircleMap.perform_defined hm call
  have hbegin : step s (t, .call call) =
      some ⟨s.shared, Function.update s.locals t call.begin⟩ := by
    apply Threads.step_of_act
    rw [hidle]
    rfl
  have halone : Threads.Alone CircleMap.act (.proceed false)
      (s.shared, Function.update s.locals t call.begin t)
      (after, .returning result) := by
    rw [Function.update_self]
    exact CircleMap.solo_perform hm hperform
  obtain ⟨count, hcount⟩ := Threads.Alone.run
    (s := ⟨s.shared, Function.update s.locals t call.begin⟩) halone
  refine ⟨result, after, count, hperform, ?_⟩
  rw [Runs.run_cons, hbegin, Option.bind_some]
  simp only [Function.update_idem] at hcount
  exact hcount

/-- The key that another thread is about to assign is looked for. -/
theorem find_beside_put_performs :
    ∃ s, Runs.run step (start : MapThreads Bool Nat DataType twoSlots)
        ((false, .call (.put 1 ⟨1⟩)) ::
          List.replicate 7 (false, .proceed false)) = some s ∧
      ∃ result after count, s.shared.perform (.find 1) = some (result, after) ∧
        Runs.run step s ((true, .call (.find 1)) ::
          List.replicate count (true, .proceed false)) =
          some ⟨after, Function.update s.locals true (.returning result)⟩ := by
  have hrun : Runs.run step (start : MapThreads Bool Nat DataType twoSlots)
      ((false, .call (.put 1 ⟨1⟩)) ::
        List.replicate 7 (false, .proceed false)) = some _ := rfl
  exact ⟨_, hrun, uninterrupted_call_performs twoSlots (by decide) hrun rfl (.find 1)⟩

end MapThreads

end Saigon
