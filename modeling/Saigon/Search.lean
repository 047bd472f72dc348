/-
The circular searches at every admitted capacity.  A forward loop reduces a
sum that is computed in the index type, so it walks the ring only while that
sum does not wrap; a backward loop decrements a cursor that never leaves
`1 .. N`.
-/
import Saigon.SlotDiscipline
import Saigon.Walk

namespace Saigon

namespace Capacity

/-- The cursors a backward loop decrements in its remaining rounds. -/
def backwardCursors (cap : Capacity) : Nat → UInt32 → List UInt32
  | 0, _ => []
  | rounds + 1, pos =>
      pos :: backwardCursors cap rounds (if pos - 1 = 0 then cap.N else pos - 1)

/-- The sum is reduced modulo the index type before it is reduced modulo
`N`. -/
theorem forwardSlots_toNat (cap : Capacity) (pos : UInt32) (rounds : Nat)
    (i : UInt32) : (cap.forwardSlots pos rounds i).map UInt32.toNat =
      (List.range rounds).map fun step =>
        (pos.toNat + (i.toNat + step)) % 4294967296 % cap.slots := by
  induction rounds generalizing i with
  | zero => rfl
  | succ rounds ih =>
      rw [forwardSlots, List.map_cons, ih, List.range_succ_eq_map,
        List.map_cons, List.map_map]
      have hhead : ((pos + i) % cap.N).toNat =
          (pos.toNat + (i.toNat + 0)) % 4294967296 % cap.slots := by
        rw [UInt32.toNat_mod, UInt32.toNat_add, Nat.add_zero, slots]
      rw [hhead]
      apply congrArg
      apply List.map_congr_left
      intro step _
      simp only [UInt32.toNat_add, UInt32.toNat_one, Function.comp_apply]
      congr 1
      omega

/-- A capacity over half the index type does not divide its size, so a slot
read after the sum wraps is out of turn. -/
theorem forwardSlots_eq_positions_iff (cap : Capacity) {pos : UInt32}
    (hpos : pos.toNat < cap.slots) :
    (cap.forwardSlots pos cap.slots 0).map UInt32.toNat =
        Circular.positions cap.slots pos.toNat ↔
      pos.toNat + cap.slots ≤ 4294967296 := by
  have hslots := cap.slots_lt
  rw [forwardSlots_toNat, Circular.positions, List.map_inj_left]
  simp only [UInt32.toNat_zero, Nat.zero_add, List.mem_range]
  constructor
  · intro hturns
    by_contra hwraps
    -- the first sum that wraps is read as slot zero
    have hturn := hturns (4294967296 - pos.toNat) (by omega)
    have hsum : pos.toNat + (4294967296 - pos.toNat) = 4294967296 := by omega
    rw [hsum, Nat.mod_self, Nat.zero_mod, Circular.mod_eq_ite (by omega)] at hturn
    split at hturn <;> omega
  · intro hfits step hstep
    have hlt : pos.toNat + step < 4294967296 := by omega
    rw [Nat.mod_eq_of_lt hlt]

theorem backwardCursors_read (cap : Capacity) {rounds : Nat}
    (hrounds : rounds ≤ cap.slots) {start : UInt32}
    (hstart : start.toNat < cap.slots) :
    (cap.backwardCursors rounds (start + 1)).map (fun pos => (pos - 1).toNat) =
      Circular.backward cap.slots start.toNat rounds := by
  induction rounds generalizing start with
  | zero => rfl
  | succ rounds ih =>
      obtain ⟨before, hreset, hlt, hbefore⟩ := cap.cursor_reset hstart
      rw [backwardCursors, List.map_cons, UInt32.add_sub_cancel, hreset,
        ih (Nat.le_of_succ_le hrounds) hlt,
        Circular.backward_succ hstart hrounds, hbefore]

/-- Each cursor is one past a slot, so its decrement stays at zero or above. -/
theorem backwardCursors_range (cap : Capacity) (rounds : Nat) {start : UInt32}
    (hstart : start.toNat < cap.slots) :
    ∀ pos ∈ cap.backwardCursors rounds (start + 1),
      1 ≤ pos.toNat ∧ pos.toNat ≤ cap.slots := by
  induction rounds generalizing start with
  | zero => simp [backwardCursors]
  | succ rounds ih =>
      obtain ⟨before, hreset, hlt, _⟩ := cap.cursor_reset hstart
      intro pos hpos
      rw [backwardCursors, UInt32.add_sub_cancel, hreset, List.mem_cons] at hpos
      rcases hpos with rfl | hpos
      · have hslots := cap.slots_lt
        rw [UInt32.toNat_add, UInt32.toNat_one]
        omega
      · exact ih hlt pos hpos

end Capacity

/-- The default template argument. -/
def defaultCapacity : Capacity := ⟨4294967294, by decide, by decide⟩

namespace CircleMap

variable {KEY T : Type} {cap : Capacity}

/-- The slots `loop_all` and `find_if` read. -/
def forwardRead (m : CircleMap KEY T cap) : List Nat :=
  (cap.forwardSlots m.mPopIndex cap.slots 0).map UInt32.toNat

/-- The slots `rloop_all` and `rfind_if` read. -/
def backwardRead (m : CircleMap KEY T cap) : List Nat :=
  (cap.backwardCursors cap.slots (m.mPopIndex + 1)).map fun pos =>
    (pos - 1).toNat

/-- `pos`, `pos + 1`, …, `N - 1`, `0`, …, `pos - 1`. -/
def forwardOrder (m : CircleMap KEY T cap) : List Nat :=
  List.range' m.mPopIndex.toNat (cap.slots - m.mPopIndex.toNat) ++
    List.range m.mPopIndex.toNat

/-- `pos`, `pos - 1`, …, `0`, `N - 1`, …, `pos + 1`. -/
def backwardOrder (m : CircleMap KEY T cap) : List Nat :=
  (List.range (m.mPopIndex.toNat + 1)).reverse ++
    (List.range' (m.mPopIndex.toNat + 1)
      (cap.slots - (m.mPopIndex.toNat + 1))).reverse

variable [MappedType T]

/-- What the reference returned by `find_if` is to: a slot of `mData`, or
`EMPTY_ITEM` for `none`. -/
def findIfReference (m : CircleMap KEY T cap) (pre : T → Bool) :
    Option (Option UInt32) :=
  if m.empty then some none
  else m.findIfLoop pre m.mPopIndex cap.N.toNat 0

/-- What the reference returned by `rfind_if` is to. -/
def rfindIfReference (m : CircleMap KEY T cap) (pre : T → Bool) :
    Option (Option UInt32) :=
  if m.empty then some none
  else m.rfindIfLoop pre cap.N.toNat (m.mPopIndex + 1)

/-- The value behind such a reference. -/
def readReference (m : CircleMap KEY T cap) : Option UInt32 → Option T
  | some pos => m.item? pos
  | none => some emptyItem

variable {m : CircleMap KEY T cap}

theorem findIf_eq_read (m : CircleMap KEY T cap) (pre : T → Bool) :
    m.findIf pre = (m.findIfReference pre).bind m.readReference := by
  cases hempty : m.mEmpty with
  | true => simp [findIf, findIfReference, readReference, empty, hempty]
  | false =>
      simp only [findIf, findIfReference, empty, hempty, Bool.false_eq_true,
        ↓reduceIte, Option.bind_eq_bind]
      rfl

theorem rfindIf_eq_read (m : CircleMap KEY T cap) (pre : T → Bool) :
    m.rfindIf pre = (m.rfindIfReference pre).bind m.readReference := by
  cases hempty : m.mEmpty with
  | true => simp [rfindIf, rfindIfReference, readReference, empty, hempty]
  | false =>
      simp only [rfindIf, rfindIfReference, empty, hempty, Bool.false_eq_true,
        ↓reduceIte, Option.bind_eq_bind]
      rfl

/-- The search refers to the first slot it reads that matches. -/
theorem findIfReference_eq (hm : m.Ring) (hempty : m.mEmpty = false)
    (pre : T → Bool) : (m.findIfReference pre).map (Option.map UInt32.toNat) =
      some (m.forwardRead.find? (m.matchAt pre)) := by
  rw [findIfReference, empty, hempty]
  simp only [Bool.false_eq_true, ↓reduceIte, findIfLoop_eq hm, Option.map_some,
    forwardRead, List.find?_map, Capacity.slots, Function.comp_def]

theorem rfindIfReference_eq (hm : m.Ring) (hempty : m.mEmpty = false)
    (pre : T → Bool) : (m.rfindIfReference pre).map (Option.map UInt32.toNat) =
      some ((Circular.backward cap.slots m.mPopIndex.toNat cap.slots).find?
        (m.matchAt pre)) := by
  obtain ⟨found, hloop, hfound⟩ :=
    rfindIfLoop_eq hm pre (Nat.le_refl cap.slots) hm.popLt
  change m.rfindIfLoop pre cap.N.toNat (m.mPopIndex + 1) = some found at hloop
  simp only [rfindIfReference, empty, hempty, Bool.false_eq_true, ↓reduceIte,
    hloop, Option.map_some, hfound]

/-! ### One round over the ring -/

/-- A loop and a search that read the slots `read`: the slots are those of
`order`, each once; the callback is invoked once for each truthy slot in that
order; and the reference returned is to the first slot in that order that
matches, or to `EMPTY_ITEM` when no slot does. -/
structure Covers (m : CircleMap KEY T cap) (read order : List Nat)
    (loop : ∀ R : Type, (R → T → R) → R → Option R)
    (reference : (T → Bool) → Option (Option UInt32))
    (search : (T → Bool) → Option T) : Prop where
  inOrder : read = order
  once : read.Nodup
  all : ∀ slot, slot ∈ read ↔ slot < cap.slots
  visits : ∀ (R : Type) (invoke : R → T → R) (acc : R),
    loop R invoke acc = some ((m.itemsAt order).foldl invoke acc)
  refers : ∀ pre, (reference pre).map (Option.map UInt32.toNat) =
    some (order.find? (m.matchAt pre))
  returns : ∀ pre, search pre =
    some (((order.find? (m.matchAt pre)).map m.itemAt).getD emptyItem)
  absent : ∀ pre, reference pre = some none ↔
    ∀ slot, slot < cap.slots → m.matchAt pre slot = false

def ForwardCovers (m : CircleMap KEY T cap) : Prop :=
  m.Covers m.forwardRead m.forwardOrder (fun _ => m.loopAll)
    m.findIfReference m.findIf

def BackwardCovers (m : CircleMap KEY T cap) : Prop :=
  m.Covers m.backwardRead m.backwardOrder (fun _ => m.rloopAll)
    m.rfindIfReference m.rfindIf

/-- The first match in an order of all slots is missing when none matches. -/
theorem find?_matchAt_eq_none {order : List Nat}
    (hall : ∀ slot, slot ∈ order ↔ slot < cap.slots) (pre : T → Bool) :
    order.find? (m.matchAt pre) = none ↔
      ∀ slot, slot < cap.slots → m.matchAt pre slot = false := by
  simp only [List.find?_eq_none, hall, Bool.not_eq_true]

/-- What the read order decides: a search that refers to its first match
returns that match, or `EMPTY_ITEM` when no slot matches. -/
theorem Covers.of_order (hm : m.Ring) {read : List Nat}
    {loop : ∀ R : Type, (R → T → R) → R → Option R}
    {reference : (T → Bool) → Option (Option UInt32)}
    {search : (T → Bool) → Option T} (honce : read.Nodup)
    (hall : ∀ slot, slot ∈ read ↔ slot < cap.slots)
    (hvisits : ∀ (R : Type) (invoke : R → T → R) (acc : R),
      loop R invoke acc = some ((m.itemsAt read).foldl invoke acc))
    (hrefers : ∀ pre, (reference pre).map (Option.map UInt32.toNat) =
      some (read.find? (m.matchAt pre)))
    (hsearch : ∀ pre, search pre = (reference pre).bind m.readReference) :
    m.Covers read read loop reference search := by
  refine ⟨rfl, honce, hall, hvisits, hrefers, ?_, ?_⟩
  · intro pre
    obtain ⟨found, hreference, hfound⟩ := Option.map_eq_some_iff.mp (hrefers pre)
    rw [hsearch, hreference, ← hfound, Option.bind_some]
    cases found with
    | none => rfl
    | some slot =>
        have hmem := List.mem_of_find?_eq_some hfound.symm
        exact item?_of_lt hm ((hall slot.toNat).mp hmem)
  · intro pre
    obtain ⟨found, hreference, hfound⟩ := Option.map_eq_some_iff.mp (hrefers pre)
    rw [← find?_matchAt_eq_none hall, hreference, ← hfound]
    cases found <;> simp

omit [MappedType T] in
theorem forwardOrder_eq (hpop : m.mPopIndex.toNat < cap.slots) :
    m.forwardOrder = Circular.positions cap.slots m.mPopIndex.toNat :=
  (Circular.positions_eq hpop).symm

omit [MappedType T] in
theorem backwardOrder_eq (hpop : m.mPopIndex.toNat < cap.slots) :
    m.backwardOrder = Circular.backward cap.slots m.mPopIndex.toNat cap.slots :=
  (Circular.backward_eq hpop).symm

omit [MappedType T] in
theorem backwardRead_eq (hpop : m.mPopIndex.toNat < cap.slots) :
    m.backwardRead = Circular.backward cap.slots m.mPopIndex.toNat cap.slots :=
  cap.backwardCursors_read (Nat.le_refl _) hpop

omit [MappedType T] in
theorem forwardRead_eq (hpop : m.mPopIndex.toNat < cap.slots)
    (hfits : m.mPopIndex.toNat + cap.slots ≤ 4294967296) : m.forwardRead =
      Circular.positions cap.slots m.mPopIndex.toNat :=
  (cap.forwardSlots_eq_positions_iff hpop).mpr hfits

theorem forwardCovers_of_fits (hm : m.Ring) (hempty : m.mEmpty = false)
    (hfits : m.mPopIndex.toNat + cap.slots ≤ 4294967296) :
    m.ForwardCovers := by
  have hread := forwardRead_eq hm.popLt hfits
  rw [ForwardCovers, (forwardOrder_eq hm.popLt).trans hread.symm]
  apply Covers.of_order hm
  · rw [hread]
    exact Circular.nodup_positions _
  · intro slot
    rw [hread, Circular.mem_positions hm.popLt]
  · intro R invoke acc
    exact loopAll_eq hm hempty invoke acc
  · exact findIfReference_eq hm hempty
  · exact findIf_eq_read m

theorem backwardCovers_of_ring (hm : m.Ring) (hempty : m.mEmpty = false) :
    m.BackwardCovers := by
  have hread := backwardRead_eq hm.popLt
  rw [BackwardCovers, (backwardOrder_eq hm.popLt).trans hread.symm]
  apply Covers.of_order hm
  · rw [hread, (Circular.backward_perm hm.popLt).nodup_iff]
    exact Circular.nodup_positions _
  · intro slot
    rw [hread, Circular.mem_backward hm.popLt]
  · intro R invoke acc
    rw [hread]
    exact rloopAll_eq hm hempty invoke acc
  · intro pre
    rw [hread]
    exact rfindIfReference_eq hm hempty pre
  · exact rfindIf_eq_read m

/-- The forward loops cover the ring exactly when the largest sum of cursor and
step does not wrap. -/
theorem forward_covers_iff (hm : m.Ring) (hempty : m.mEmpty = false) :
    m.ForwardCovers ↔ m.mPopIndex.toNat + cap.slots ≤ 4294967296 := by
  constructor
  · intro hcovers
    apply (cap.forwardSlots_eq_positions_iff hm.popLt).mp
    exact hcovers.inOrder.trans (forwardOrder_eq hm.popLt)
  · exact forwardCovers_of_fits hm hempty

/-- A map not marked empty whose cursor is at slot `pop`. -/
def servingAt (cap : Capacity) (pop : UInt32) : CircleMap Nat DataType cap :=
  { (fresh : CircleMap Nat DataType cap) with mEmpty := false, mPopIndex := pop }

theorem servingAt_ring {cap : Capacity} {pop : UInt32}
    (hpop : pop.toNat < cap.slots) : (servingAt cap pop).Ring :=
  ⟨List.length_replicate, hpop⟩

theorem two_slots_forward_covers : (servingAt twoSlots 1).ForwardCovers :=
  (forward_covers_iff (servingAt_ring (by decide)) rfl).mpr (by decide)

/-- At the default capacity the last sum from slot three wraps: slot zero is
read twice and slot two never. -/
theorem default_capacity_skips_slot :
    (servingAt defaultCapacity 3).Ring ∧
      (servingAt defaultCapacity 3).mEmpty = false ∧
      ¬ (servingAt defaultCapacity 3).ForwardCovers ∧
      2 ∉ (servingAt defaultCapacity 3).forwardRead := by
  have hskip : 2 ∉ (servingAt defaultCapacity 3).forwardRead := by
    rw [forwardRead, Capacity.forwardSlots_toNat, List.mem_map]
    rintro ⟨step, hstep, hslot⟩
    have hlt : step < 4294967294 := List.mem_range.mp hstep
    change (3 + (0 + step)) % 4294967296 % 4294967294 = 2 at hslot
    omega
  refine ⟨servingAt_ring (by decide), rfl, ?_, hskip⟩
  intro hcovers
  exact hskip ((hcovers.all 2).mpr (by decide))

/-- At every admitted capacity the backward loops cover the ring, and no
decrement takes their cursor below zero. -/
theorem backward_covers (hm : m.Ring) (hempty : m.mEmpty = false) :
    m.BackwardCovers ∧
      ∀ pos ∈ cap.backwardCursors cap.slots (m.mPopIndex + 1),
        1 ≤ pos.toNat ∧ pos.toNat ≤ cap.slots :=
  ⟨backwardCovers_of_ring hm hempty,
    cap.backwardCursors_range cap.slots hm.popLt⟩

/-- From the last slot the cursor starts at `N` itself. -/
theorem two_slots_backward_covers : (servingAt twoSlots 1).BackwardCovers ∧
    ∀ pos ∈ twoSlots.backwardCursors twoSlots.slots (1 + 1),
      1 ≤ pos.toNat ∧ pos.toNat ≤ twoSlots.slots :=
  backward_covers (servingAt_ring (by decide)) rfl

/-! ### The two directions -/

/-- The two directions agree on a map, marked empty or not. -/
structure DirectionsAgree (m : CircleMap KEY T cap) : Prop where
  lengths : m.forwardRead.length = cap.slots ∧
    m.backwardRead.length = cap.slots
  first : m.backwardRead[0]? = m.forwardRead[0]?
  mirror : ∀ i, 1 ≤ i → i < cap.slots →
    m.backwardRead[i]? = m.forwardRead[cap.slots - i]?
  reversed : ∃ rest, m.forwardRead = m.mPopIndex.toNat :: rest ∧
    m.backwardRead = m.mPopIndex.toNat :: rest.reverse
  visits : m.mEmpty = false →
    m.loopItems = some (m.itemsAt m.forwardRead) ∧
      m.rloopItems = some (m.itemsAt m.backwardRead)
  sameItems : ∃ forward backward, m.loopItems = some forward ∧
    m.rloopItems = some backward ∧ backward.Perm forward
  notFound : ∀ pre, m.findIf pre = some emptyItem ↔
    m.rfindIf pre = some emptyItem
  unique : m.mEmpty = false → ∀ pre slot, slot < cap.slots →
    m.matchAt pre slot = true →
    (∀ other, other < cap.slots → m.matchAt pre other = true → other = slot) →
    m.findIf pre = some (m.itemAt slot) ∧ m.rfindIf pre = some (m.itemAt slot)

/-- A search that covers the ring returns a falsy default exactly when no slot
matches. -/
theorem Covers.returns_empty_iff {read order : List Nat}
    {loop : ∀ R : Type, (R → T → R) → R → Option R}
    {reference : (T → Bool) → Option (Option UInt32)}
    {search : (T → Bool) → Option T}
    (hcovers : m.Covers read order loop reference search)
    (hfalsy : truthy (emptyItem : T) = false) (pre : T → Bool) :
    search pre = some emptyItem ↔
      ∀ slot, slot < cap.slots → m.matchAt pre slot = false := by
  have hall : ∀ slot, slot ∈ order ↔ slot < cap.slots :=
    hcovers.inOrder ▸ hcovers.all
  rw [← find?_matchAt_eq_none hall, hcovers.returns, Option.some.injEq]
  cases hfound : order.find? (m.matchAt pre) with
  | none => simp
  | some slot =>
      have hmatch := List.find?_some hfound
      simp only [Option.map_some, Option.getD_some, reduceCtorEq, iff_false]
      intro hitem
      rw [matchAt, hitem, hfalsy] at hmatch
      contradiction

/-- A search that covers the ring returns the one item there is to find. -/
theorem Covers.returns_unique {read order : List Nat}
    {loop : ∀ R : Type, (R → T → R) → R → Option R}
    {reference : (T → Bool) → Option (Option UInt32)}
    {search : (T → Bool) → Option T}
    (hcovers : m.Covers read order loop reference search) {pre : T → Bool}
    {slot : Nat} (hslot : slot < cap.slots) (hmatch : m.matchAt pre slot = true)
    (hunique : ∀ other, other < cap.slots → m.matchAt pre other = true →
      other = slot) : search pre = some (m.itemAt slot) := by
  have hall : ∀ slot, slot ∈ order ↔ slot < cap.slots :=
    hcovers.inOrder ▸ hcovers.all
  rw [hcovers.returns]
  cases hfound : order.find? (m.matchAt pre) with
  | none =>
      have hnone := (find?_matchAt_eq_none hall pre).mp hfound slot hslot
      rw [hmatch] at hnone
      contradiction
  | some other =>
      have hother := (hall other).mp (List.mem_of_find?_eq_some hfound)
      rw [hunique other hother (List.find?_some hfound)]
      rfl

section HalfRange

variable (hN : cap.slots ≤ 2147483648)
  (hpop : m.mPopIndex.toNat < cap.slots)
include hN hpop

omit [MappedType T] in
theorem forwardRead_half : m.forwardRead =
    Circular.positions cap.slots m.mPopIndex.toNat :=
  forwardRead_eq hpop (by omega)

omit [MappedType T] in
theorem reads_reversed : ∃ rest, m.forwardRead = m.mPopIndex.toNat :: rest ∧
    m.backwardRead = m.mPopIndex.toNat :: rest.reverse := by
  refine ⟨(Circular.positions cap.slots m.mPopIndex.toNat).tail, ?_, ?_⟩
  · rw [forwardRead_half hN hpop]
    exact Circular.positions_eq_cons hpop
  · rw [backwardRead_eq hpop]
    exact Circular.backward_eq_reverse hpop

theorem itemsAt_reads_perm :
    (m.itemsAt m.backwardRead).Perm (m.itemsAt m.forwardRead) := by
  rw [forwardRead_half hN hpop, backwardRead_eq hpop]
  exact ((Circular.backward_perm hpop).map m.itemAt).filter truthy

omit hN in
theorem items_visited (hdata : m.mData.length = cap.slots)
    (hempty : m.mEmpty = false) :
    m.loopItems = some (m.itemsAt m.forwardRead) ∧
      m.rloopItems = some (m.itemsAt m.backwardRead) := by
  have hm : m.Ring := ⟨hdata, hpop⟩
  constructor
  · exact loopItems_eq hm hempty
  · rw [backwardRead_eq hpop]
    exact rloopItems_eq hm hempty

/-- Up to half the index type the two directions agree. -/
theorem directions_agree (hfalsy : truthy (emptyItem : T) = false)
    (hdata : m.mEmpty = false → m.mData.length = cap.slots) :
    m.DirectionsAgree := by
  have hforward := forwardRead_half hN hpop
  have hbackward := backwardRead_eq hpop
  have hfits : m.mPopIndex.toNat + cap.slots ≤ 4294967296 := by omega
  constructor
  case lengths =>
    rw [hforward, hbackward]
    exact ⟨Circular.length_positions _ _, Circular.length_backward _ _ _⟩
  case reversed => exact reads_reversed hN hpop
  case first =>
    obtain ⟨rest, hcons, hreverse⟩ := reads_reversed hN hpop
    rw [hcons, hreverse]
    rfl
  case mirror =>
    intro i hpos hi
    rw [hforward, hbackward]
    exact Circular.getElem?_backward _ hpos hi
  case visits =>
    intro hempty
    exact items_visited hpop (hdata hempty) hempty
  case sameItems =>
    cases hempty : m.mEmpty with
    | true =>
        refine ⟨[], [], ?_, ?_, List.Perm.nil⟩
        · simp [loopItems, loopAll, empty, hempty]
        · simp [rloopItems, rloopAll, empty, hempty]
    | false =>
        obtain ⟨hloop, hrloop⟩ := items_visited hpop (hdata hempty) hempty
        exact ⟨_, _, hloop, hrloop, itemsAt_reads_perm hN hpop⟩
  case notFound =>
    intro pre
    cases hempty : m.mEmpty with
    | true => simp [findIf, rfindIf, empty, hempty]
    | false =>
        have hm : m.Ring := ⟨hdata hempty, hpop⟩
        have hcovers := forwardCovers_of_fits hm hempty hfits
        rw [hcovers.returns_empty_iff hfalsy,
          (backwardCovers_of_ring hm hempty).returns_empty_iff hfalsy]
  case unique =>
    intro hempty pre slot hslot hmatch hunique
    have hm : m.Ring := ⟨hdata hempty, hpop⟩
    constructor
    · exact (forwardCovers_of_fits hm hempty hfits).returns_unique hslot
        hmatch hunique
    · exact (backwardCovers_of_ring hm hempty).returns_unique hslot hmatch
        hunique

end HalfRange

theorem two_slots_directions_agree :
    (servingAt twoSlots 1).DirectionsAgree :=
  directions_agree (by decide) (by decide) (by decide) fun _ => rfl

/-- Once a single slot has been drained its item stays behind the emptiness
flag, and neither search returns it. -/
theorem drained_item_not_found :
    ∃ m : CircleMap Nat DataType oneSlot,
      Runs.run mapStep fresh [.put 1 ⟨1⟩, .next] = some m ∧
      m.mPopIndex.toNat < oneSlot.slots ∧ m.matchAt (fun _ => true) 0 = true ∧
      (∀ other, other < oneSlot.slots →
        m.matchAt (fun _ => true) other = true → other = 0) ∧
      ¬ (m.findIf (fun _ => true) = some (m.itemAt 0) ∧
        m.rfindIf (fun _ => true) = some (m.itemAt 0)) := by
  refine ⟨_, rfl, by decide, by decide, ?_, by decide⟩
  intro other hother _
  exact Nat.lt_one_iff.mp hother

end CircleMap

end Saigon
