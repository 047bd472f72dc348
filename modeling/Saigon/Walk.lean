/-
The loops over `mData`.  Each of the four walks the whole ring from the pop
cursor, forward by reducing a sum or backward by decrementing a cursor, and is
here the fold or the search over the list of slots it reads.
-/
import Saigon.CircleMapSlots

namespace Saigon

namespace Capacity

/-- The slots a forward loop reads in its remaining rounds. -/
def forwardSlots (cap : Capacity) (pos : UInt32) : Nat → UInt32 → List UInt32
  | 0, _ => []
  | rounds + 1, i => (pos + i) % cap.N :: forwardSlots cap pos rounds (i + 1)

theorem mod_N_lt (cap : Capacity) (index : UInt32) :
    (index % cap.N).toNat < cap.slots := by
  rw [UInt32.toNat_mod]
  exact Nat.mod_lt _ cap.slots_pos

theorem forwardSlots_lt (cap : Capacity) (pos : UInt32) (rounds : Nat)
    (i : UInt32) : ∀ slot ∈ cap.forwardSlots pos rounds i,
      slot.toNat < cap.slots := by
  induction rounds generalizing i with
  | zero => simp [forwardSlots]
  | succ rounds ih =>
      intro slot hslot
      simp only [forwardSlots, List.mem_cons] at hslot
      rcases hslot with rfl | hslot
      · exact cap.mod_N_lt _
      · exact ih (i + 1) slot hslot

/-- A backward cursor after reading `start`: set back to `N` at zero, it is
again one past the slot read next. -/
theorem cursor_reset (cap : Capacity) {start : UInt32}
    (hstart : start.toNat < cap.slots) :
    ∃ before : UInt32, (if start = 0 then cap.N else start) = before + 1 ∧
      before.toNat < cap.slots ∧
      before.toNat =
        if start.toNat = 0 then cap.slots - 1 else start.toNat - 1 := by
  by_cases hzero : start = 0
  · have hone : (1 : UInt32) ≤ cap.N := by
      rw [UInt32.le_iff_toNat_le]
      exact cap.slots_pos
    have hbefore : (cap.N - 1).toNat = cap.slots - 1 :=
      UInt32.toNat_sub_of_le _ _ hone
    refine ⟨cap.N - 1, ?_, ?_, ?_⟩
    · rw [if_pos hzero, UInt32.sub_add_cancel]
    · rw [hbefore]
      exact Nat.sub_lt cap.slots_pos Nat.one_pos
    · rw [hbefore, hzero, UInt32.toNat_zero, if_pos rfl]
  · have hne : start.toNat ≠ 0 := fun heq =>
      hzero (UInt32.toNat_inj.mp heq)
    have hone : (1 : UInt32) ≤ start := by
      rw [UInt32.le_iff_toNat_le]
      exact Nat.pos_of_ne_zero hne
    have hbefore : (start - 1).toNat = start.toNat - 1 :=
      UInt32.toNat_sub_of_le _ _ hone
    refine ⟨start - 1, ?_, ?_, ?_⟩
    · rw [if_neg hzero, UInt32.sub_add_cancel]
    · omega
    · rw [hbefore, if_neg hne]

end Capacity

namespace CircleMap

variable {KEY T : Type} {cap : Capacity} [MappedType T]
  {m : CircleMap KEY T cap}

/-- The truthy items at some slots, in order. -/
def itemsAt (m : CircleMap KEY T cap) (positions : List Nat) : List T :=
  (positions.map m.itemAt).filter truthy

/-- What the searches look for at a slot. -/
def matchAt (m : CircleMap KEY T cap) (pre : T → Bool) (pos : Nat) : Bool :=
  truthy (m.itemAt pos) && pre (m.itemAt pos)

theorem itemsAt_cons (m : CircleMap KEY T cap) (pos : Nat)
    (rest : List Nat) : m.itemsAt (pos :: rest) =
      if truthy (m.itemAt pos) then m.itemAt pos :: m.itemsAt rest
      else m.itemsAt rest := by
  rw [itemsAt, List.map_cons, List.filter_cons]
  rfl

/-- Searching the slots and searching the truthy items find the same item. -/
theorem find?_itemsAt (m : CircleMap KEY T cap) (pre : T → Bool)
    (positions : List Nat) : (m.itemsAt positions).find? pre =
      (positions.find? (m.matchAt pre)).map m.itemAt := by
  have hmatch : (fun item => decide (truthy item = true ∧ pre item = true)) ∘
      m.itemAt = m.matchAt pre := by
    funext pos
    simp [matchAt]
  rw [itemsAt, List.find?_filter, List.find?_map, hmatch]

/-! ### Forward -/

theorem loopAllLoop_eq (hm : m.Ring) {R : Type} (invoke : R → T → R)
    (pos : UInt32) (rounds : Nat) (i : UInt32) (acc : R) :
    m.loopAllLoop invoke pos rounds i acc = some
      ((m.itemsAt ((cap.forwardSlots pos rounds i).map UInt32.toNat)).foldl
        invoke acc) := by
  induction rounds generalizing i acc with
  | zero => rfl
  | succ rounds ih =>
      have hread := item?_of_lt hm (cap.mod_N_lt (pos + i))
      simp only [loopAllLoop, hread, ih, Option.bind_eq_bind, Option.bind_some,
        Capacity.forwardSlots, List.map_cons, itemsAt_cons]
      split <;> rfl

theorem loopAll_eq (hm : m.Ring) (hempty : m.mEmpty = false) {R : Type}
    (invoke : R → T → R) (acc : R) : m.loopAll invoke acc = some
      ((m.itemsAt ((cap.forwardSlots m.mPopIndex cap.slots 0).map
        UInt32.toNat)).foldl invoke acc) := by
  rw [loopAll, empty, hempty]
  exact loopAllLoop_eq hm invoke m.mPopIndex cap.slots 0 acc

theorem findIfLoop_eq (hm : m.Ring) (pre : T → Bool) (pos : UInt32)
    (rounds : Nat) (i : UInt32) : m.findIfLoop pre pos rounds i = some
      ((cap.forwardSlots pos rounds i).find? fun slot =>
        m.matchAt pre slot.toNat) := by
  induction rounds generalizing i with
  | zero => rfl
  | succ rounds ih =>
      have hread := item?_of_lt hm (cap.mod_N_lt (pos + i))
      let matching : UInt32 → Bool := fun slot => m.matchAt pre slot.toNat
      rw [Capacity.forwardSlots]
      by_cases hmatch : m.matchAt pre ((pos + i) % cap.N).toNat = true
      · rw [List.find?_cons_of_pos (p := matching) hmatch]
        simp only [matchAt] at hmatch
        simp only [findIfLoop, hread, Option.bind_eq_bind, Option.bind_some,
          hmatch, ↓reduceIte]
      · rw [List.find?_cons_of_neg (p := matching) hmatch]
        simp only [matchAt] at hmatch
        simp only [findIfLoop, hread, Option.bind_eq_bind, Option.bind_some,
          hmatch, ih]
        rfl

/-- `find_if`: the first truthy item in reading order that satisfies `pre`. -/
theorem findIf_eq (hm : m.Ring) (hempty : m.mEmpty = false)
    (pre : T → Bool) : m.findIf pre = some
      (((m.itemsAt ((cap.forwardSlots m.mPopIndex cap.slots 0).map
        UInt32.toNat)).find? pre).getD emptyItem) := by
  have hloop := findIfLoop_eq hm pre m.mPopIndex cap.N.toNat 0
  rw [find?_itemsAt, List.find?_map, Option.map_map]
  cases hfound : (cap.forwardSlots m.mPopIndex cap.N.toNat 0).find? fun slot =>
      m.matchAt pre slot.toNat with
  | none =>
      rw [hfound] at hloop
      simp [findIf, empty, hempty, hloop, Capacity.slots, Function.comp_def, hfound]
  | some slot =>
      rw [hfound] at hloop
      have hlt := cap.forwardSlots_lt _ _ _ slot (List.mem_of_find?_eq_some hfound)
      simp [findIf, empty, hempty, hloop, Capacity.slots, Function.comp_def, hfound,
        item?_of_lt hm hlt]

/-! ### Backward -/

/-- The cursor one past slot `start` is decremented, read, and set back to `N`
after slot zero: the loop reads backward from `start`. -/
theorem rloopAllLoop_eq (hm : m.Ring) {R : Type} (invoke : R → T → R)
    {rounds : Nat} (hrounds : rounds ≤ cap.slots) {start : UInt32}
    (hstart : start.toNat < cap.slots) (acc : R) :
    m.rloopAllLoop invoke rounds (start + 1) acc = some
      ((m.itemsAt (Circular.backward cap.slots start.toNat rounds)).foldl
        invoke acc) := by
  induction rounds generalizing start acc with
  | zero => rfl
  | succ rounds ih =>
      obtain ⟨before, hreset, hlt, hbefore⟩ := cap.cursor_reset hstart
      have hread := item?_of_lt hm hstart
      rw [Circular.backward_succ hstart hrounds, ← hbefore]
      simp only [rloopAllLoop, UInt32.add_sub_cancel, hread, hreset,
        ih (Nat.le_of_succ_le hrounds) hlt, Option.bind_eq_bind,
        Option.bind_some, itemsAt_cons]
      split <;> rfl

/-- `rloop_all` on a map not marked empty: one backward round from the pop
cursor. -/
theorem rloopAll_eq (hm : m.Ring) (hempty : m.mEmpty = false) {R : Type}
    (invoke : R → T → R) (acc : R) :
    m.rloopAll invoke acc = some ((m.itemsAt (Circular.backward cap.slots
      m.mPopIndex.toNat cap.slots)).foldl invoke acc) := by
  rw [rloopAll, empty, hempty]
  exact rloopAllLoop_eq hm invoke (Nat.le_refl _) hm.popLt acc

/-- The cursor at the break is the slot that matched. -/
theorem rfindIfLoop_eq (hm : m.Ring) (pre : T → Bool) {rounds : Nat}
    (hrounds : rounds ≤ cap.slots) {start : UInt32}
    (hstart : start.toNat < cap.slots) :
    ∃ found, m.rfindIfLoop pre rounds (start + 1) = some found ∧
      found.map UInt32.toNat =
        (Circular.backward cap.slots start.toNat rounds).find?
          (m.matchAt pre) := by
  induction rounds generalizing start with
  | zero => exact ⟨none, rfl, rfl⟩
  | succ rounds ih =>
      obtain ⟨before, hreset, hlt, hbefore⟩ := cap.cursor_reset hstart
      obtain ⟨found, hloop, hfound⟩ := ih (Nat.le_of_succ_le hrounds) hlt
      have hread := item?_of_lt hm hstart
      rw [Circular.backward_succ hstart hrounds, ← hbefore]
      by_cases hmatch : m.matchAt pre start.toNat = true
      · refine ⟨some start, ?_, ?_⟩
        · simp only [matchAt] at hmatch
          simp only [rfindIfLoop, UInt32.add_sub_cancel, hread,
            Option.bind_eq_bind, Option.bind_some, hmatch, ↓reduceIte]
        · rw [List.find?_cons_of_pos hmatch, Option.map_some]
      · refine ⟨found, ?_, ?_⟩
        · simp only [matchAt] at hmatch
          simp only [rfindIfLoop, UInt32.add_sub_cancel, hread, hreset, hloop,
            Option.bind_eq_bind, Option.bind_some, hmatch]
          rfl
        · rw [List.find?_cons_of_neg hmatch, hfound]

/-- `rfind_if`: the first truthy item in backward order that satisfies
`pre`. -/
theorem rfindIf_eq (hm : m.Ring) (hempty : m.mEmpty = false)
    (pre : T → Bool) : m.rfindIf pre = some
      (((m.itemsAt (Circular.backward cap.slots m.mPopIndex.toNat
        cap.slots)).find? pre).getD emptyItem) := by
  obtain ⟨found, hloop, hfound⟩ :=
    rfindIfLoop_eq hm pre (Nat.le_refl cap.slots) hm.popLt
  change m.rfindIfLoop pre cap.N.toNat (m.mPopIndex + 1) = some found at hloop
  rw [find?_itemsAt, ← hfound]
  cases found with
  | none => simp [rfindIf, empty, hempty, hloop]
  | some slot =>
      rw [Option.map_some] at hfound
      have hlt : slot.toNat < cap.slots := (Circular.mem_backward hm.popLt).mp
        (List.mem_of_find?_eq_some hfound.symm)
      simp [rfindIf, empty, hempty, hloop, item?_of_lt hm hlt]

omit [MappedType T] in
/-- Appending each visited item collects them in order. -/
theorem foldl_collect (items seen : List T) :
    items.foldl (fun seen item => seen ++ [item]) seen = seen ++ items := by
  induction items generalizing seen with
  | nil => simp
  | cons item rest ih => simp [ih]

theorem loopItems_eq (hm : m.Ring) (hempty : m.mEmpty = false) :
    m.loopItems = some (m.itemsAt
      ((cap.forwardSlots m.mPopIndex cap.slots 0).map UInt32.toNat)) := by
  rw [loopItems, loopAll_eq hm hempty, foldl_collect, List.nil_append]

theorem rloopItems_eq (hm : m.Ring) (hempty : m.mEmpty = false) :
    m.rloopItems = some (m.itemsAt
      (Circular.backward cap.slots m.mPopIndex.toNat cap.slots)) := by
  rw [rloopItems, rloopAll_eq hm hempty, foldl_collect, List.nil_append]

end CircleMap

end Saigon
