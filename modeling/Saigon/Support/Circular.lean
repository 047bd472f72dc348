/-
Positions on a ring of `N` slots.  A position is counted from any start by
its offset, the number of forward steps that reach it.
-/
import Mathlib.Data.Nat.ModEq
import Mathlib.Data.List.Nodup
import Mathlib.Data.List.Rotate

namespace Circular

variable {N : Nat}

/-- The forward distance from position `start` to position `pos`. -/
def offset (N start pos : Nat) : Nat := (pos + N - start) % N

theorem mod_eq_ite {total : Nat} (htotal : total < 2 * N) :
    total % N = if total < N then total else total - N := by
  split
  · next hlt => exact Nat.mod_eq_of_lt hlt
  · next hge =>
      rw [Nat.mod_eq_sub_mod (Nat.le_of_not_lt hge)]
      exact Nat.mod_eq_of_lt (by omega)

theorem offset_eq_ite {start pos : Nat} (hstart : start < N) (hpos : pos < N) :
    offset N start pos = if start ≤ pos then pos - start else pos + N - start := by
  rw [offset, mod_eq_ite (by omega)]
  split <;> split <;> omega

theorem offset_lt {start pos : Nat} (hstart : start < N) :
    offset N start pos < N :=
  Nat.mod_lt _ (Nat.zero_lt_of_lt hstart)

/-- Walking the offset from the start arrives. -/
theorem add_offset {start pos : Nat} (hstart : start < N) (hpos : pos < N) :
    (start + offset N start pos) % N = pos := by
  have hlt : offset N start pos < N := offset_lt hstart
  rw [mod_eq_ite (by omega), offset_eq_ite hstart hpos]
  split <;> split <;> omega

/-- Fewer than `N` steps are recovered from where they arrive. -/
theorem offset_add {start steps : Nat} (hstart : start < N)
    (hsteps : steps < N) : offset N start ((start + steps) % N) = steps := by
  rw [offset_eq_ite hstart (Nat.mod_lt _ (Nat.zero_lt_of_lt hstart)),
    mod_eq_ite (by omega)]
  split <;> split <;> omega

theorem offset_self {start : Nat} (hstart : start < N) :
    offset N start start = 0 := by
  simp [offset_eq_ite hstart hstart]

/-- Fewer than `N` steps lead away from the start. -/
theorem add_mod_ne_self {start steps : Nat} (hstart : start < N)
    (hpos : 0 < steps) (hsteps : steps < N) : (start + steps) % N ≠ start := by
  intro hback
  have hoffset := offset_add hstart hsteps
  rw [hback, offset_self hstart] at hoffset
  omega

theorem offset_inj {start first second : Nat} (hstart : start < N)
    (hfirst : first < N) (hsecond : second < N)
    (heq : offset N start first = offset N start second) : first = second := by
  rw [← add_offset hstart hfirst, heq, add_offset hstart hsecond]

/-- Moving the start forward by no more than the offset shortens it. -/
theorem offset_rotate {start steps pos : Nat} (hstart : start < N)
    (hpos : pos < N) (hsteps : steps ≤ offset N start pos) :
    offset N ((start + steps) % N) pos = offset N start pos - steps := by
  have hlt : offset N start pos < N := offset_lt hstart
  rw [offset_eq_ite (Nat.mod_lt _ (Nat.zero_lt_of_lt hstart)) hpos,
    mod_eq_ite (by omega)]
  rw [offset_eq_ite hstart hpos] at hsteps hlt ⊢
  split at hsteps <;> split <;> split <;> omega

/-- Offsets below `N` from one start name distinct positions. -/
theorem add_mod_inj {start first second : Nat} (hfirst : first < N)
    (hsecond : second < N)
    (heq : (start + first) % N = (start + second) % N) : first = second :=
  Nat.ModEq.eq_of_lt_of_lt (Nat.ModEq.add_left_cancel' start heq)
    hfirst hsecond

/-- All positions, each once, walking forward from `start`. -/
def positions (N start : Nat) : List Nat :=
  (List.range N).map fun steps => (start + steps) % N

/-- The first `rounds` positions walking backward from `start`. -/
def backward (N start rounds : Nat) : List Nat :=
  (List.range rounds).map fun steps => (start + N - steps) % N

theorem backward_succ {start rounds : Nat} (hstart : start < N)
    (hrounds : rounds < N) : backward N start (rounds + 1) =
      start :: backward N (if start = 0 then N - 1 else start - 1) rounds := by
  rw [backward, List.range_succ_eq_map, List.map_cons, List.map_map, backward]
  congr 1
  · rw [Nat.sub_zero, Nat.add_mod_right]
    exact Nat.mod_eq_of_lt hstart
  · apply List.map_congr_left
    intro steps hsteps
    have hlt := List.mem_range.mp hsteps
    rw [Function.comp_apply]
    split
    · next hzero =>
        have hturn : N - 1 + N - steps = start + N - (steps + 1) + N := by omega
        rw [hturn, Nat.add_mod_right]
    · congr 1
      omega

theorem length_positions (N start : Nat) : (positions N start).length = N := by
  simp [positions]

/-- Walking forward from `start` goes up to the end of the ring and on from
its beginning. -/
theorem positions_eq {start : Nat} (hstart : start < N) :
    positions N start = List.range' start (N - start) ++ List.range start := by
  have hsplit : List.range N = List.range (N - start) ++
      (List.range start).map (N - start + ·) := by
    rw [← List.range_add, Nat.sub_add_cancel hstart.le]
  rw [positions, hsplit, List.map_append, List.map_map, List.range'_eq_map_range]
  congr 1
  · apply List.map_congr_left
    intro steps hsteps
    have hlt := List.mem_range.mp hsteps
    exact Nat.mod_eq_of_lt (by omega)
  · apply (List.map_congr_left _).trans (List.map_id _)
    intro steps hsteps
    have hlt := List.mem_range.mp hsteps
    have hturn : start + (N - start + steps) = steps + N := by omega
    simp only [Function.comp_apply, hturn, Nat.add_mod_right, id]
    exact Nat.mod_eq_of_lt (by omega)

theorem positions_eq_cons {start : Nat} (hstart : start < N) :
    positions N start = start :: (positions N start).tail := by
  have hsucc : N - start = N - (start + 1) + 1 := by omega
  rw [positions_eq hstart, hsucc, List.range'_succ]
  rfl

theorem nodup_positions (start : Nat) : (positions N start).Nodup := by
  apply List.Nodup.map_on _ List.nodup_range
  intro first hfirst second hsecond heq
  exact add_mod_inj (List.mem_range.mp hfirst) (List.mem_range.mp hsecond) heq

theorem mem_positions {start pos : Nat} (hstart : start < N) :
    pos ∈ positions N start ↔ pos < N := by
  simp only [positions_eq hstart, List.mem_append, List.mem_range'_1,
    List.mem_range]
  omega

theorem length_backward (N start rounds : Nat) :
    (backward N start rounds).length = rounds := by
  simp [backward]

/-- The `i`th position backward is the `i`th from the end forward. -/
theorem getElem?_backward (start : Nat) {i : Nat} (hpos : 1 ≤ i) (hi : i < N) :
    (backward N start N)[i]? = (positions N start)[N - i]? := by
  have hturn : start + N - i = start + (N - i) := Nat.add_sub_assoc hi.le start
  have hlt : N - i < N := by omega
  simp [backward, positions, hi, hlt, hturn]

/-- A round backward is the start and then the rest of the forward round
reversed. -/
theorem backward_eq_reverse {start : Nat} (hstart : start < N) :
    backward N start N = start :: (positions N start).tail.reverse := by
  apply List.ext_getElem
  · simp only [length_backward, List.length_cons, List.length_reverse,
      List.length_tail, length_positions]
    omega
  · intro i hi _
    rw [length_backward] at hi
    cases i with
    | zero => simp [backward, Nat.mod_eq_of_lt hstart]
    | succ i =>
        simp only [backward, List.getElem_map, List.getElem_range,
          List.getElem_cons_succ, List.getElem_reverse, List.getElem_tail,
          positions, List.length_tail, List.length_map, List.length_range]
        congr 1
        omega

/-- Walking backward from `start` goes down to the beginning of the ring and on
from its end. -/
theorem backward_eq {start : Nat} (hstart : start < N) :
    backward N start N = (List.range (start + 1)).reverse ++
      (List.range' (start + 1) (N - (start + 1))).reverse := by
  have hsucc : N - start = N - (start + 1) + 1 := by omega
  rw [backward_eq_reverse hstart, positions_eq hstart, hsucc, List.range'_succ,
    List.cons_append, List.tail_cons, List.reverse_append, List.range_succ,
    List.reverse_append]
  rfl

theorem backward_perm {start : Nat} (hstart : start < N) :
    (backward N start N).Perm (positions N start) := by
  have hreverse := (List.reverse_perm (positions N start).tail).cons start
  rw [← positions_eq_cons hstart] at hreverse
  rwa [backward_eq_reverse hstart]

/-- A full round backward meets every position. -/
theorem mem_backward {start pos : Nat} (hstart : start < N) :
    pos ∈ backward N start N ↔ pos < N := by
  rw [(backward_perm hstart).mem_iff, mem_positions hstart]

/-- Starting later rotates the walk. -/
theorem positions_rotate (N start steps : Nat) :
    positions N ((start + steps) % N) = (positions N start).rotate steps := by
  apply List.ext_getElem
  · simp [positions]
  · intro i hi _
    simp only [positions, List.getElem_map, List.getElem_range,
      List.getElem_rotate, List.length_map, List.length_range, Nat.mod_add_mod,
      Nat.add_mod_mod]
    congr 1
    omega

/-- The positions strictly after `start` in walking order, `start` itself
last. -/
def ahead (N start : Nat) : List Nat := positions N ((start + 1) % N)

theorem ahead_eq {start : Nat} (hstart : start < N) :
    ahead N start = (positions N start).tail ++ [start] := by
  rw [ahead, positions_rotate, positions_eq_cons hstart, List.rotate_cons_succ,
    List.rotate_zero]
  rfl

theorem mem_ahead {start pos : Nat} (hstart : start < N) :
    pos ∈ ahead N start ↔ pos < N :=
  mem_positions (Nat.mod_lt _ (Nat.zero_lt_of_lt hstart))

/-- The walk meets positions by increasing offset. -/
theorem pairwise_positions {start : Nat} (hstart : start < N) :
    (positions N start).Pairwise fun first second =>
      offset N start first < offset N start second := by
  rw [positions, List.pairwise_map]
  apply List.Pairwise.imp_of_mem _ List.pairwise_lt_range
  intro first second hfirst hsecond hlt
  rwa [offset_add hstart (List.mem_range.mp hfirst),
    offset_add hstart (List.mem_range.mp hsecond)]

theorem positions_perm {start : Nat} (hstart : start < N) :
    (positions N start).Perm (List.range N) := by
  rw [List.perm_ext_iff_of_nodup (nodup_positions start) List.nodup_range]
  intro pos
  rw [mem_positions hstart, List.mem_range]

/-- The forward steps, from one to `N`, that lead from `start` on to `pos`. -/
def stepsTo (N start pos : Nat) : Nat := offset N ((start + 1) % N) pos + 1

theorem stepsTo_pos (N start pos : Nat) : 0 < stepsTo N start pos :=
  Nat.succ_pos _

theorem add_stepsTo {start pos : Nat} (hpos : pos < N) :
    (start + stepsTo N start pos) % N = pos := by
  have harrive := add_offset (Nat.mod_lt (start + 1) (Nat.zero_lt_of_lt hpos))
    hpos
  rw [Nat.mod_add_mod] at harrive
  rw [stepsTo, ← Nat.add_assoc, Nat.add_right_comm]
  exact harrive

theorem stepsTo_add {start steps : Nat} (hpos : 0 < steps) (hle : steps ≤ N) :
    stepsTo N start ((start + steps) % N) = steps := by
  obtain ⟨before, rfl⟩ := Nat.exists_eq_succ_of_ne_zero hpos.ne'
  have hstart : (start + 1) % N < N := Nat.mod_lt _ (by omega)
  have hoffset := offset_add hstart (Nat.lt_of_succ_le hle)
  rw [Nat.mod_add_mod, Nat.add_right_comm] at hoffset
  exact congrArg Nat.succ hoffset

theorem stepsTo_le {start pos : Nat} (hpos : pos < N) :
    stepsTo N start pos ≤ N :=
  offset_lt (Nat.mod_lt _ (Nat.zero_lt_of_lt hpos))

/-- Away from the start, the steps that lead on are the offset. -/
theorem stepsTo_eq_offset {start pos : Nat} (hstart : start < N)
    (hpos : pos < N) (hne : pos ≠ start) :
    stepsTo N start pos = offset N start pos := by
  have harrive := add_offset hstart hpos
  have hoffset : offset N start pos ≠ 0 := by
    intro hzero
    rw [hzero, Nat.add_zero, Nat.mod_eq_of_lt hstart] at harrive
    exact hne harrive.symm
  have hlt : offset N start pos < N := offset_lt hstart
  have hsteps : stepsTo N start ((start + offset N start pos) % N) =
      offset N start pos :=
    stepsTo_add (Nat.pos_of_ne_zero hoffset) hlt.le
  rwa [harrive] at hsteps

/-- The position after the one at an offset is one step further. -/
theorem stepsTo_succ {start pos : Nat} (hstart : start < N) (hpos : pos < N) :
    stepsTo N start ((pos + 1) % N) = offset N start pos + 1 := by
  have hlt : offset N start pos < N := offset_lt hstart
  have hsteps : stepsTo N start ((start + (offset N start pos + 1)) % N) =
      offset N start pos + 1 :=
    stepsTo_add (Nat.succ_pos _) hlt
  rwa [← Nat.add_assoc, ← Nat.mod_add_mod, add_offset hstart hpos] at hsteps

/-- Moving the start forward by fewer steps than lead on shortens them. -/
theorem stepsTo_rotate {start steps pos : Nat} (hpos : pos < N)
    (hsteps : steps < stepsTo N start pos) :
    stepsTo N ((start + steps) % N) pos = stepsTo N start pos - steps := by
  have hle : stepsTo N start pos ≤ N := stepsTo_le hpos
  have harrive : ((start + steps) % N + (stepsTo N start pos - steps)) % N =
      pos := by
    rw [Nat.mod_add_mod, Nat.add_assoc, Nat.add_sub_cancel' hsteps.le,
      add_stepsTo hpos]
  have hrest : stepsTo N ((start + steps) % N)
      (((start + steps) % N + (stepsTo N start pos - steps)) % N) =
      stepsTo N start pos - steps :=
    stepsTo_add (Nat.sub_pos_of_lt hsteps) ((Nat.sub_le _ steps).trans hle)
  rwa [harrive] at hrest

/-- From the first position ahead that satisfies `p`, the others lie ahead in
the same order and that position comes last. -/
theorem filter_ahead_of_cons {start next : Nat} {p : Nat → Bool}
    {rest : List Nat} (hfirst : (ahead N start).filter p = next :: rest) :
    (ahead N next).filter p = rest ++ [next] := by
  obtain ⟨before, after, hsplit, hbefore, hnext, hafter⟩ :=
    List.filter_eq_cons_iff.mp hfirst
  have hlength := congrArg List.length hsplit
  rw [ahead, length_positions] at hlength
  have hpos : next = ((start + 1) % N + before.length) % N := by
    have hget := congrArg (fun walk => walk[before.length]?) hsplit
    have hlt : before.length < N := by
      simp only [List.length_append, List.length_cons] at hlength
      omega
    simpa [ahead, positions, hlt] using hget.symm
  have hwalk : positions N next = next :: (after ++ before) := by
    have hrotate := positions_rotate N ((start + 1) % N) before.length
    rw [← hpos, ← ahead, hsplit, List.rotate_append_length_eq] at hrotate
    exact hrotate
  have hahead : ahead N next = after ++ before ++ [next] := by
    rw [ahead, positions_rotate, hwalk, List.rotate_cons_succ, List.rotate_zero]
  have hnone : before.filter p = [] := List.filter_eq_nil_iff.mpr hbefore
  have hlast : [next].filter p = [next] := List.filter_cons_of_pos hnext
  rw [hahead, List.filter_append, List.filter_append, hafter, hnone, hlast,
    List.append_nil]

/-- The first position in walking order that satisfies `p`. -/
def firstFrom (N start : Nat) (p : Nat → Bool) : Option Nat :=
  (positions N start).find? p

/-- A position of least offset is the first one found. -/
theorem firstFrom_eq_some {start pos : Nat} {p : Nat → Bool}
    (hstart : start < N) (hpos : pos < N) (hp : p pos = true)
    (hleast : ∀ other, other < N → p other = true →
      offset N start pos ≤ offset N start other) :
    firstFrom N start p = some pos := by
  have hfound : (List.range N).find? (p ∘ fun steps => (start + steps) % N) =
      some (offset N start pos) := by
    rw [List.find?_range_eq_some]
    refine ⟨?_, List.mem_range.mpr (offset_lt hstart), ?_⟩
    · simpa [add_offset hstart hpos] using hp
    · intro steps hsteps
      have hlt : offset N start pos < N := offset_lt hstart
      cases hother : p ((start + steps) % N) with
      | false => simp [hother]
      | true =>
          have hle := hleast _ (Nat.mod_lt _ (Nat.zero_lt_of_lt hstart)) hother
          rw [offset_add hstart (by omega)] at hle
          omega
  rw [firstFrom, positions, List.find?_map, hfound, Option.map_some,
    add_offset hstart hpos]

/-- Where the start satisfies `p`, it is the first one found. -/
theorem firstFrom_self {start : Nat} {p : Nat → Bool} (hstart : start < N)
    (hp : p start = true) : firstFrom N start p = some start := by
  rw [firstFrom, positions_eq_cons hstart]
  exact List.find?_cons_of_pos hp

/-- What is found has the least offset. -/
theorem firstFrom_least {start pos other : Nat} {p : Nat → Bool}
    (hstart : start < N) (hfirst : firstFrom N start p = some pos)
    (hother : other < N) (hp : p other = true) :
    offset N start pos ≤ offset N start other := by
  rw [firstFrom, positions, List.find?_map] at hfirst
  obtain ⟨steps, hsteps, rfl⟩ := Option.map_eq_some_iff.mp hfirst
  obtain ⟨_, hmem, hleast⟩ := List.find?_range_eq_some.mp hsteps
  rw [offset_add hstart (List.mem_range.mp hmem)]
  by_contra hlt
  have hearlier := hleast (offset N start other) (Nat.lt_of_not_le hlt)
  rw [Function.comp_apply, add_offset hstart hother, hp] at hearlier
  contradiction

/-! ### Walks that advance by one position -/

/-- Each position follows the one before it on the ring, and `N` positions in
a row are distinct. -/
structure Cyclic (N : Nat) (walk : List Nat) : Prop where
  successor : ∀ i first next, walk[i]? = some first →
    walk[i + 1]? = some next → next = (first + 1) % N
  distinct : ∀ i, i + N ≤ walk.length → ((walk.drop i).take N).Nodup

/-- Counting and reducing the count walks the ring. -/
theorem cyclic_count (N count : Nat) :
    Cyclic N ((List.range count).map fun turn => turn % N) := by
  constructor
  · intro i first next hfirst hnext
    simp only [List.getElem?_map, Option.map_eq_some_iff,
      List.getElem?_eq_some_iff, List.getElem_range] at hfirst hnext
    rcases hfirst with ⟨_, ⟨_, rfl⟩, rfl⟩
    rcases hnext with ⟨_, ⟨_, rfl⟩, rfl⟩
    rw [Nat.mod_add_mod]
  · intro i hi
    rw [List.length_map, List.length_range] at hi
    have hturns : ((List.range count).drop i).take N = List.range' i N := by
      rw [List.range_eq_range', List.drop_range',
        List.take_range'_of_length_ge (Nat.le_sub_of_add_le' hi), Nat.mul_one,
        Nat.zero_add]
    rw [← List.map_drop, ← List.map_take, hturns]
    apply List.Nodup.map_on _ List.nodup_range'
    intro first hfirst second hsecond heq
    rw [List.mem_range'_1] at hfirst hsecond
    have hsame : (i + (first - i)) % N = (i + (second - i)) % N := by
      rw [Nat.add_sub_cancel' hfirst.1, Nat.add_sub_cancel' hsecond.1, heq]
    have hoffsets := add_mod_inj (by omega) (by omega) hsame
    omega

/-- A counter of modulus `M` that is reduced when read walks the ring for as
long as it does not wrap, and past that only where `N` divides `M`. -/
theorem cyclic_wrapped_iff {M count : Nat} (hM : 0 < M) :
    Cyclic N ((List.range count).map fun turn => turn % M % N) ↔
      N ∣ M ∨ count ≤ M := by
  constructor
  · intro hcyclic
    by_cases hwraps : M < count
    · left
      have hlast : M - 1 < count := by omega
      have hstep := hcyclic.successor (M - 1) ((M - 1) % M % N) (M % M % N)
        (by simp [hlast]) (by simp [Nat.sub_add_cancel hM, hwraps])
      have hbelow : M - 1 < M := by omega
      rw [Nat.mod_self, Nat.zero_mod, Nat.mod_eq_of_lt hbelow, Nat.mod_add_mod,
        Nat.sub_add_cancel hM] at hstep
      exact Nat.dvd_of_mod_eq_zero hstep.symm
    · exact Or.inr (Nat.le_of_not_lt hwraps)
  · intro hcount
    have hunwrapped : (List.range count).map (fun turn => turn % M % N) =
        (List.range count).map fun turn => turn % N := by
      apply List.map_congr_left
      intro turn hturn
      rcases hcount with hdvd | hle
      · exact Nat.mod_mod_of_dvd turn hdvd
      · have hlt := List.mem_range.mp hturn
        rw [Nat.mod_eq_of_lt (Nat.lt_of_lt_of_le hlt hle)]
    rw [hunwrapped]
    exact cyclic_count N count

end Circular
