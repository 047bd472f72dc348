/-
Cutting a list into tokens: at the elements that satisfy a predicate, or at
the successive matches of a language.  Where the language is that of the
single separators the two cuts have the same non-empty pieces.
-/
import Mathlib.Data.Set.Basic
import Mathlib.Data.List.Basic
import Mathlib.Data.List.Pairwise

namespace Tokens

universe u

variable {A : Type u}

/-- The non-empty lists among some lists. -/
def kept (words : List (List A)) : List (List A) :=
  words.filter fun word => !word.isEmpty

/-- The maximal non-empty runs of elements that do not satisfy `p`. -/
def pieces (p : A → Bool) (input : List A) : List (List A) :=
  kept (input.splitOnP p)

theorem kept_append (first second : List (List A)) :
    kept (first ++ second) = kept first ++ kept second :=
  List.filter_append ..

theorem kept_cons (word : List A) (rest : List (List A)) :
    kept (word :: rest) = kept [word] ++ kept rest :=
  kept_append [word] rest

theorem kept_singleton (word : List A) :
    kept [word] = if 0 < word.length then [word] else [] := by
  cases word <;> rfl

theorem pieces_of_clean {p : A → Bool} {input : List A}
    (hclean : ∀ x ∈ input, p x = false) : pieces p input = kept [input] := by
  rw [pieces, List.splitOnP_eq_singleton hclean]

/-- No separator comes before the first one. -/
theorem clean_take_findIdx (p : A → Bool) (input : List A) :
    ∀ x ∈ input.take (input.findIdx p), p x = false := by
  intro x hx
  obtain ⟨i, hi, rfl⟩ := List.mem_iff_getElem.mp hx
  rw [List.length_take] at hi
  rw [List.getElem_take]
  exact List.not_of_lt_findIdx (by omega)

/-- The pieces before and after the first separator. -/
theorem pieces_of_first {p : A → Bool} {input : List A} {gap : Nat}
    (hgap : gap < input.length) (hsep : p input[gap] = true)
    (hclean : ∀ x ∈ input.take gap, p x = false) :
    pieces p input = kept [input.take gap] ++ pieces p (input.drop (gap + 1)) := by
  have hsplit : input.splitOnP p =
      input.take gap :: (input.drop (gap + 1)).splitOnP p := by
    rw [← List.splitOnP_append_cons_of_forall_mem hclean input[gap] hsep,
      ← List.drop_eq_getElem_cons hgap, List.take_append_drop]
  rw [pieces, hsplit, kept_cons]
  rfl

/-! ### Matches of a language -/

/-- The stretch of `count` elements from `start` on. -/
def stretch (input : List A) (start count : Nat) : List A :=
  (input.drop start).take count

/-- The successive leftmost matches that do not overlap, each given by the gap
before it and its length. -/
inductive Successive (L : Set (List A)) : List A → List (Nat × Nat) → Prop
  | done {input : List A}
      (hnone : ∀ gap count, gap + count ≤ input.length →
        stretch input gap count ∉ L) :
      Successive L input []
  | found {input : List A} {gap count : Nat} {rest : List (Nat × Nat)}
      (hinside : gap + count ≤ input.length)
      (hmatch : stretch input gap count ∈ L)
      (hleftmost : ∀ earlier other, earlier < gap →
        earlier + other ≤ input.length → stretch input earlier other ∉ L)
      (hrest : Successive L (input.drop (gap + count)) rest) :
      Successive L input ((gap, count) :: rest)

/-- The stretches before the matches, then the rest if it is not empty. -/
def between : List A → List (Nat × Nat) → List (List A)
  | input, [] => if input.isEmpty then [] else [input]
  | input, (gap, count) :: rest =>
      input.take gap :: between (input.drop (gap + count)) rest

/-- The language of the single elements that satisfy `p`. -/
def singles (p : A → Bool) : Set (List A) := { word | ∃ x, p x = true ∧ word = [x] }

theorem stretch_one {input : List A} {gap : Nat} (hgap : gap < input.length) :
    stretch input gap 1 = [input[gap]] := by
  rw [stretch, List.drop_eq_getElem_cons hgap]
  rfl

theorem stretch_one_mem_singles {p : A → Bool} {input : List A} {gap : Nat}
    (hgap : gap < input.length) :
    stretch input gap 1 ∈ singles p ↔ p input[gap] = true := by
  rw [stretch_one hgap]
  constructor
  · rintro ⟨x, hx, heq⟩
    rw [List.singleton_inj] at heq
    exact heq ▸ hx
  · intro hp
    exact ⟨_, hp, rfl⟩

theorem nil_not_mem_singles (p : A → Bool) : [] ∉ singles p := by
  rintro ⟨x, _, hword⟩
  contradiction

theorem kept_between_nil (input : List A) :
    kept (between input []) = kept [input] := by
  cases input <;> rfl

/-- Matches of the single separators cut a list into its pieces. -/
theorem kept_between {p : A → Bool} {input : List A} {found : List (Nat × Nat)}
    (hfound : Successive (singles p) input found) :
    kept (between input found) = pieces p input := by
  induction hfound with
  | @done input hnone =>
      have hclean : ∀ x ∈ input, p x = false := by
        intro x hx
        obtain ⟨gap, hgap, rfl⟩ := List.mem_iff_getElem.mp hx
        have hno := hnone gap 1 hgap
        rwa [stretch_one_mem_singles hgap, Bool.not_eq_true] at hno
      rw [pieces_of_clean hclean, kept_between_nil]
  | @found input gap count rest hinside hmatch hleftmost _ ih =>
      -- a match of the language is one separator long
      have hone : count = 1 := by
        rcases hmatch with ⟨x, _, hword⟩
        have hlength := congrArg List.length hword
        rw [stretch, List.length_take, List.length_drop,
          List.length_singleton] at hlength
        omega
      subst hone
      have hgap : gap < input.length := hinside
      have hclean : ∀ x ∈ input.take gap, p x = false := by
        intro x hx
        obtain ⟨earlier, hearlier, rfl⟩ := List.mem_iff_getElem.mp hx
        rw [List.length_take] at hearlier
        have hno := hleftmost earlier 1 (by omega) (by omega)
        rw [stretch_one_mem_singles (by omega), Bool.not_eq_true] at hno
        rw [List.getElem_take]
        exact hno
      have hsep := (stretch_one_mem_singles hgap).mp hmatch
      rw [pieces_of_first hgap hsep hclean, between, kept_cons, ih]

/-! ### Matching one separator -/

/-- The same matches, after one element more. -/
def later : List (Nat × Nat) → List (Nat × Nat)
  | [] => []
  | (gap, count) :: rest => (gap + 1, count) :: rest

theorem Successive.later {L : Set (List A)} {x : A} {input : List A}
    {found : List (Nat × Nat)}
    (hstart : ∀ count, stretch (x :: input) 0 count ∉ L)
    (hfound : Successive L input found) :
    Successive L (x :: input) (Tokens.later found) := by
  cases hfound with
  | done hnone =>
      apply Successive.done
      intro gap count hinside
      cases gap with
      | zero => exact hstart count
      | succ gap =>
          rw [List.length_cons] at hinside
          exact hnone gap count (by omega)
  | @found _ gap count rest hinside hmatch hleftmost hrest =>
      have hdrop : (x :: input).drop (gap + 1 + count) =
          input.drop (gap + count) := by
        rw [Nat.add_right_comm, List.drop_succ_cons]
      apply Successive.found
      · rw [List.length_cons]
        omega
      · exact hmatch
      · intro earlier other hearlier hother
        cases earlier with
        | zero => exact hstart other
        | succ earlier =>
            rw [List.length_cons] at hother
            exact hleftmost earlier other (by omega) (by omega)
      · rw [hdrop]
        exact hrest

/-- Where the elements that satisfy `p` are, as matches. -/
def separators (p : A → Bool) : List A → List (Nat × Nat)
  | [] => []
  | x :: rest =>
      if p x then (0, 1) :: separators p rest else later (separators p rest)

theorem stretch_zero_not_mem_singles {p : A → Bool} {x : A} (input : List A)
    (hx : p x = false) (count : Nat) :
    stretch (x :: input) 0 count ∉ singles p := by
  rintro ⟨y, hy, hword⟩
  cases count with
  | zero => simp [stretch] at hword
  | succ count =>
      rw [stretch, List.drop_zero, List.take_succ_cons, List.cons.injEq] at hword
      rw [hword.1, hy] at hx
      contradiction

theorem separators_successive (p : A → Bool) (input : List A) :
    Successive (singles p) input (separators p input) := by
  induction input with
  | nil =>
      apply Successive.done
      rintro gap count _ ⟨x, _, hword⟩
      simp [stretch] at hword
  | cons x rest ih =>
      cases hx : p x with
      | true =>
          have hone : stretch (x :: rest) 0 1 ∈ singles p := ⟨x, hx, rfl⟩
          rw [separators, if_pos hx]
          apply Successive.found (by simp) hone
          · intro earlier _ hearlier
            exact absurd hearlier (Nat.not_lt_zero _)
          · exact ih
      | false =>
          rw [separators, hx]
          exact ih.later (stretch_zero_not_mem_singles rest hx)

/-! ### Maximal runs -/

/-- A separator is at position `i`. -/
def SeparatorAt (p : A → Bool) (input : List A) (i : Nat) : Prop :=
  ∃ x, input[i]? = some x ∧ p x = true

/-- An element that is no separator is at position `i`. -/
def ElementAt (p : A → Bool) (input : List A) (i : Nat) : Prop :=
  ∃ x, input[i]? = some x ∧ p x = false

/-- Position `i` is one of the positions of a run, which is given by its first
position and its length. -/
def Within (run : Nat × Nat) (i : Nat) : Prop := run.1 ≤ i ∧ i < run.1 + run.2

/-- A non-empty run without separators that extends neither way. -/
structure MaximalRun (p : A → Bool) (input : List A) (run : Nat × Nat) :
    Prop where
  nonempty : 0 < run.2
  elements : ∀ i, Within run i → ElementAt p input i
  leftEnd : run.1 = 0 ∨ SeparatorAt p input (run.1 - 1)
  rightEnd : run.1 + run.2 = input.length ∨
    SeparatorAt p input (run.1 + run.2)

/-- The first run ends, and a separator follows, before the second begins. -/
def Apart (p : A → Bool) (input : List A) (first second : Nat × Nat) : Prop :=
  ∃ i, first.1 + first.2 ≤ i ∧ i < second.1 ∧ SeparatorAt p input i

/-- The maximal runs, in order of occurrence; every element that is no
separator is in exactly one of them. -/
structure Tokenization (p : A → Bool) (input : List A)
    (runs : List (Nat × Nat)) : Prop where
  maximal : ∀ run, run ∈ runs ↔ MaximalRun p input run
  ordered : runs.Pairwise (Apart p input)
  once : ∀ i, ElementAt p input i → ∃! run, run ∈ runs ∧ Within run i

/-- The run of `count` elements from the beginning, if there are any. -/
def leading (count : Nat) : List (Nat × Nat) :=
  if 0 < count then [(0, count)] else []

/-- A run seen `steps` elements earlier. -/
def shifted (steps : Nat) (run : Nat × Nat) : Nat × Nat := (run.1 + steps, run.2)

/-- The runs up to the first separator, and those behind it. -/
def runs (p : A → Bool) (input : List A) : List (Nat × Nat) :=
  let gap := input.findIdx p
  if gap < input.length then
    leading gap ++ (runs p (input.drop (gap + 1))).map (shifted (gap + 1))
  else leading input.length
termination_by input.length

theorem mem_leading {count : Nat} {run : Nat × Nat} :
    run ∈ leading count ↔ 0 < count ∧ run = (0, count) := by
  rw [leading]
  split
  · next hpos => simp [hpos]
  · next hnone => simp [hnone]

theorem pairwise_leading (R : Nat × Nat → Nat × Nat → Prop) (count : Nat) :
    (leading count).Pairwise R := by
  rw [leading]
  split
  · exact List.pairwise_singleton _ _
  · exact List.Pairwise.nil

theorem separatorAt_or_elementAt {p : A → Bool} {input : List A} {i : Nat}
    (hi : i < input.length) : SeparatorAt p input i ∨ ElementAt p input i := by
  have hget := List.getElem?_eq_getElem hi
  cases hx : p input[i] with
  | true => exact Or.inl ⟨_, hget, hx⟩
  | false => exact Or.inr ⟨_, hget, hx⟩

theorem ElementAt.lt {p : A → Bool} {input : List A} {i : Nat}
    (helement : ElementAt p input i) : i < input.length := by
  obtain ⟨x, hx, _⟩ := helement
  exact (List.getElem?_eq_some_iff.mp hx).1

theorem ElementAt.not_separator {p : A → Bool} {input : List A} {i : Nat}
    (helement : ElementAt p input i) : ¬ SeparatorAt p input i := by
  obtain ⟨x, hx, helement⟩ := helement
  rintro ⟨y, hy, hseparator⟩
  rw [hx, Option.some.injEq] at hy
  rw [← hy, helement] at hseparator
  contradiction

/-- Runs of elements that are apart and miss no element. -/
structure Covering (p : A → Bool) (input : List A)
    (runs : List (Nat × Nat)) : Prop where
  nonempty : ∀ run ∈ runs, 0 < run.2
  elements : ∀ run ∈ runs, ∀ i, Within run i → ElementAt p input i
  ordered : runs.Pairwise (Apart p input)
  covered : ∀ i, ElementAt p input i → ∃ run ∈ runs, Within run i

namespace Covering

variable {p : A → Bool} {input : List A} {runs : List (Nat × Nat)}

/-- No separator at all. -/
theorem whole (hclean : ∀ i, i < input.length → ElementAt p input i) :
    Covering p input (leading input.length) := by
  constructor
  case nonempty =>
    intro run hrun
    obtain ⟨hpos, rfl⟩ := mem_leading.mp hrun
    exact hpos
  case elements =>
    rintro run hrun i ⟨_, hi⟩
    obtain ⟨_, rfl⟩ := mem_leading.mp hrun
    exact hclean i (by omega)
  case ordered => exact pairwise_leading _ _
  case covered =>
    intro i helement
    have hi := helement.lt
    exact ⟨_, mem_leading.mpr ⟨by omega, rfl⟩, Nat.zero_le i, by omega⟩

/-- The elements before a separator, and the runs behind it. -/
theorem behind {gap : Nat} (hclean : ∀ i, i < gap → ElementAt p input i)
    (hseparator : SeparatorAt p input gap)
    (hrest : Covering p (input.drop (gap + 1)) runs) :
    Covering p input (leading gap ++ runs.map (shifted (gap + 1))) := by
  have hback : ∀ i, (input.drop (gap + 1))[i]? = input[i + (gap + 1)]? := by
    intro i
    rw [List.getElem?_drop, Nat.add_comm]
  constructor
  case nonempty =>
    intro run hrun
    rcases List.mem_append.mp hrun with hfirst | hlater
    · obtain ⟨hpos, rfl⟩ := mem_leading.mp hfirst
      exact hpos
    · obtain ⟨before, hbefore, rfl⟩ := List.mem_map.mp hlater
      exact hrest.nonempty before hbefore
  case elements =>
    rintro run hrun i ⟨hle, hlt⟩
    rcases List.mem_append.mp hrun with hfirst | hlater
    · obtain ⟨_, rfl⟩ := mem_leading.mp hfirst
      exact hclean i (by omega)
    · obtain ⟨before, hbefore, rfl⟩ := List.mem_map.mp hlater
      simp only [shifted] at hle hlt
      obtain ⟨x, hx, helement⟩ := hrest.elements before hbefore (i - (gap + 1))
        ⟨by omega, by omega⟩
      rw [hback, Nat.sub_add_cancel (by omega)] at hx
      exact ⟨x, hx, helement⟩
  case ordered =>
    rw [List.pairwise_append, List.pairwise_map]
    refine ⟨pairwise_leading _ _, ?_, ?_⟩
    · apply hrest.ordered.imp
      rintro first second ⟨i, hfirst, hsecond, x, hx, hp⟩
      rw [hback] at hx
      refine ⟨i + (gap + 1), ?_, ?_, x, hx, hp⟩
      · simp only [shifted]
        omega
      · simp only [shifted]
        omega
    · intro first hfirst second hsecond
      obtain ⟨_, rfl⟩ := mem_leading.mp hfirst
      obtain ⟨before, _, rfl⟩ := List.mem_map.mp hsecond
      refine ⟨gap, by omega, ?_, hseparator⟩
      simp only [shifted]
      omega
  case covered =>
    intro i helement
    rcases Nat.lt_trichotomy i gap with hbefore | rfl | hbehind
    · refine ⟨(0, gap), ?_, Nat.zero_le i, by omega⟩
      exact List.mem_append_left _ (mem_leading.mpr ⟨by omega, rfl⟩)
    · exact absurd hseparator helement.not_separator
    · obtain ⟨x, hx, hp⟩ := helement
      rw [← Nat.sub_add_cancel (Nat.succ_le_of_lt hbehind), ← hback] at hx
      obtain ⟨run, hrun, hle, hlt⟩ := hrest.covered _ ⟨x, hx, hp⟩
      refine ⟨shifted (gap + 1) run, ?_, ?_, ?_⟩
      · exact List.mem_append_right _ (List.mem_map_of_mem hrun)
      · simp only [shifted]
        omega
      · simp only [shifted]
        omega

/-- An element next to a run would be in another run, with no separator between
the two. -/
theorem not_elementAt (h : Covering p input runs) {run : Nat × Nat}
    (hrun : run ∈ runs) {i : Nat} (hout : ¬ Within run i)
    (hleft : run.1 ≤ i + 1) (hright : i ≤ run.1 + run.2) :
    ¬ ElementAt p input i := by
  intro helement
  obtain ⟨other, hother, hstart, hend⟩ := h.covered i helement
  have hne : run ≠ other := by
    rintro rfl
    exact hout ⟨hstart, hend⟩
  have hsymm : Std.Symm fun first second =>
      Apart p input first second ∨ Apart p input second first :=
    ⟨fun _ _ => Or.symm⟩
  have hapart := (h.ordered.imp Or.inl).forall (R := fun first second =>
    Apart p input first second ∨ Apart p input second first) hrun hother hne
  rcases hapart with ⟨j, hj, hj', _⟩ | ⟨j, hj, hj', _⟩
  · omega
  · omega

theorem maximalRun (h : Covering p input runs) {run : Nat × Nat}
    (hrun : run ∈ runs) : MaximalRun p input run := by
  have hpos := h.nonempty run hrun
  have hlast := (h.elements run hrun (run.1 + run.2 - 1)
    ⟨by omega, by omega⟩).lt
  constructor
  case nonempty => exact hpos
  case elements => exact h.elements run hrun
  case leftEnd =>
    rcases Nat.eq_zero_or_pos run.1 with hzero | hstart
    · exact Or.inl hzero
    · have hbefore : run.1 - 1 < input.length := by omega
      have hnone : ¬ ElementAt p input (run.1 - 1) :=
        h.not_elementAt hrun (fun hin => by have hle := hin.1; omega)
          (by omega) (by omega)
      exact Or.inr ((separatorAt_or_elementAt hbefore).resolve_right hnone)
  case rightEnd =>
    by_cases hend : run.1 + run.2 = input.length
    · exact Or.inl hend
    · have hbehind : run.1 + run.2 < input.length := by omega
      have hnone : ¬ ElementAt p input (run.1 + run.2) :=
        h.not_elementAt hrun (fun hin => Nat.lt_irrefl _ hin.2)
          (by omega) (Nat.le_refl _)
      exact Or.inr ((separatorAt_or_elementAt hbehind).resolve_right hnone)

end Covering

/-- A maximal run contains every run of elements that it meets. -/
theorem MaximalRun.contains {p : A → Bool} {input : List A}
    {run other : Nat × Nat} (hrun : MaximalRun p input run)
    (hother : MaximalRun p input other) {i : Nat} (hi : Within run i)
    (hi' : Within other i) :
    run.1 ≤ other.1 ∧ other.1 + other.2 ≤ run.1 + run.2 := by
  rcases hi with ⟨hle, hlt⟩
  rcases hi' with ⟨hle', hlt'⟩
  constructor
  · by_contra hbefore
    have helement := hother.elements (run.1 - 1) ⟨by omega, by omega⟩
    rcases hrun.leftEnd with hzero | hseparator
    · omega
    · exact helement.not_separator hseparator
  · by_contra hbehind
    have helement := hother.elements (run.1 + run.2) ⟨by omega, by omega⟩
    rcases hrun.rightEnd with hend | hseparator
    · have hinside := helement.lt
      omega
    · exact helement.not_separator hseparator

/-- Maximal runs that meet are the same. -/
theorem MaximalRun.eq {p : A → Bool} {input : List A} {run other : Nat × Nat}
    (hrun : MaximalRun p input run) (hother : MaximalRun p input other) {i : Nat}
    (hi : Within run i) (hi' : Within other i) : run = other := by
  have hcontains := hrun.contains hother hi hi'
  have hcontained := hother.contains hrun hi' hi
  apply Prod.ext
  · omega
  · omega

/-- What covers the elements consists of the maximal runs. -/
theorem Covering.tokenization {p : A → Bool} {input : List A}
    {runs : List (Nat × Nat)} (h : Covering p input runs) :
    Tokenization p input runs := by
  constructor
  case maximal =>
    intro run
    constructor
    · exact h.maximalRun
    · intro hrun
      have hfirst : Within run run.1 :=
        ⟨Nat.le_refl _, Nat.lt_add_of_pos_right hrun.nonempty⟩
      obtain ⟨other, hother, hi⟩ := h.covered run.1 (hrun.elements _ hfirst)
      rw [hrun.eq (h.maximalRun hother) hfirst hi]
      exact hother
  case ordered => exact h.ordered
  case once =>
    intro i helement
    obtain ⟨run, hrun, hi⟩ := h.covered i helement
    refine ⟨run, ⟨hrun, hi⟩, ?_⟩
    rintro other ⟨hother, hi'⟩
    exact (h.maximalRun hother).eq (h.maximalRun hrun) hi' hi

/-- Elements come before the first separator. -/
theorem elementAt_of_lt_findIdx {p : A → Bool} {input : List A} {i : Nat}
    (hi : i < input.findIdx p) : ElementAt p input i := by
  have hlt : i < input.length := Nat.lt_of_lt_of_le hi List.findIdx_le_length
  exact ⟨input[i], List.getElem?_eq_getElem hlt, List.not_of_lt_findIdx hi⟩

theorem runs_covering (p : A → Bool) (input : List A) :
    Covering p input (runs p input) := by
  induction input using runs.induct p with
  | case1 input gap hgap ih =>
      rw [runs, if_pos hgap]
      apply Covering.behind
      · intro i hi
        exact elementAt_of_lt_findIdx hi
      · exact ⟨input[gap], List.getElem?_eq_getElem hgap, List.findIdx_getElem⟩
      · exact ih
  | case2 input gap hgap =>
      rw [runs, if_neg hgap]
      apply Covering.whole
      intro i hi
      exact elementAt_of_lt_findIdx (Nat.lt_of_lt_of_le hi (Nat.le_of_not_lt hgap))

theorem runs_tokenization (p : A → Bool) (input : List A) :
    Tokenization p input (runs p input) :=
  (runs_covering p input).tokenization

theorem map_leading (input : List A) (count : Nat)
    (hinside : count ≤ input.length) :
    (leading count).map (fun run => stretch input run.1 run.2) =
      kept [input.take count] := by
  rw [kept_singleton, List.length_take, Nat.min_eq_left hinside, leading]
  split <;> rfl

/-- The pieces are what is in the maximal runs. -/
theorem pieces_eq_runs (p : A → Bool) (input : List A) :
    pieces p input = (runs p input).map fun run => stretch input run.1 run.2 := by
  induction input using runs.induct p with
  | case1 input gap hgap ih =>
      have hclean := clean_take_findIdx p input
      have hshift : ∀ run : Nat × Nat,
          stretch input (shifted (gap + 1) run).1 (shifted (gap + 1) run).2 =
            stretch (input.drop (gap + 1)) run.1 run.2 := by
        intro run
        simp only [stretch, shifted, List.drop_drop, Nat.add_comm]
      rw [runs, if_pos hgap, List.map_append, List.map_map,
        map_leading input _ (Nat.le_of_lt hgap),
        pieces_of_first hgap List.findIdx_getElem hclean, ih]
      apply congrArg (kept [input.take gap] ++ ·)
      apply List.map_congr_left
      intro run _
      exact (hshift run).symm
  | case2 input gap hgap =>
      have hall : input.findIdx p = input.length :=
        Nat.le_antisymm List.findIdx_le_length (Nat.le_of_not_lt hgap)
      have hwhole := map_leading input input.length (Nat.le_refl _)
      rw [List.take_length] at hwhole
      rw [runs, if_neg hgap, hwhole,
        pieces_of_clean (List.findIdx_eq_length.mp hall)]

/-! ### What the pieces contain -/

/-- Every piece is non-empty and has no separator. -/
theorem mem_pieces {p : A → Bool} {input word : List A}
    (hword : word ∈ pieces p input) : word ≠ [] ∧ ∀ x ∈ word, p x = false := by
  rw [pieces_eq_runs] at hword
  obtain ⟨run, hrun, rfl⟩ := List.mem_map.mp hword
  have hmaximal := (runs_covering p input).maximalRun hrun
  have hpos := hmaximal.nonempty
  constructor
  · obtain ⟨x, hx, _⟩ := hmaximal.elements run.1
      ⟨Nat.le_refl _, Nat.lt_add_of_pos_right hpos⟩
    have hstart := (List.getElem?_eq_some_iff.mp hx).1
    apply List.ne_nil_of_length_pos
    rw [stretch, List.length_take, List.length_drop]
    omega
  · intro x hx
    obtain ⟨i, hi⟩ := List.mem_iff_getElem?.mp hx
    have hlt : i < run.2 := by
      have hinside := (List.getElem?_eq_some_iff.mp hi).1
      rw [stretch, List.length_take] at hinside
      omega
    rw [stretch, List.getElem?_take_of_lt hlt, List.getElem?_drop] at hi
    obtain ⟨y, hy, hp⟩ := hmaximal.elements (run.1 + i)
      ⟨Nat.le_add_right _ _, by omega⟩
    rw [hi, Option.some.injEq] at hy
    rw [hy, hp]

/-- The pieces together are the input without its separators. -/
theorem flatten_pieces (p : A → Bool) (input : List A) :
    (pieces p input).flatten = input.filter fun x => !p x := by
  rw [pieces, kept, List.flatten_filter_not_isEmpty]
  induction input with
  | nil => rfl
  | cons x rest ih =>
      rw [List.splitOnP_cons_eq_if_modifyHead]
      cases hx : p x with
      | true => simpa [hx] using ih
      | false =>
          cases hsplit : rest.splitOnP p with
          | nil => exact absurd hsplit (List.splitOnP_ne_nil p rest)
          | cons word words =>
              rw [hsplit] at ih
              simpa [hx] using ih

/-! ### Spellings -/

/-- The ways of writing words with separators before, between and behind
them. -/
inductive Spelled (p : A → Bool) : List A → List (List A) → Prop
  | gap {gap : List A} (hgap : ∀ x ∈ gap, p x = true) : Spelled p gap []
  | word {gap word rest : List A} {words : List (List A)}
      (hgap : ∀ x ∈ gap, p x = true) (hword : word ≠ [])
      (hclean : ∀ x ∈ word, p x = false) (hnext : ∀ x ∈ rest.head?, p x = true)
      (hrest : Spelled p rest words) :
      Spelled p (gap ++ (word ++ rest)) (word :: words)

/-- The pieces on either side of a separator. -/
theorem pieces_append_cons {p : A → Bool} (first : List A) {x : A}
    (hx : p x = true) (second : List A) :
    pieces p (first ++ x :: second) = pieces p first ++ pieces p second := by
  rw [pieces, List.splitOnP_append_cons first second hx, kept_append]
  rfl

theorem pieces_gap_append {p : A → Bool} {gap : List A}
    (hgap : ∀ x ∈ gap, p x = true) (rest : List A) :
    pieces p (gap ++ rest) = pieces p rest := by
  induction gap with
  | nil => rfl
  | cons x gap ih =>
      have hx : p x = true := hgap x List.mem_cons_self
      have hfirst := pieces_append_cons [] hx (gap ++ rest)
      rw [ih fun y hy => hgap y (List.mem_cons_of_mem x hy)] at hfirst
      exact hfirst

theorem pieces_word_append {p : A → Bool} {word rest : List A}
    (hword : word ≠ []) (hclean : ∀ x ∈ word, p x = false)
    (hnext : ∀ x ∈ rest.head?, p x = true) :
    pieces p (word ++ rest) = word :: pieces p rest := by
  have halone : pieces p word = [word] := by
    rw [pieces_of_clean hclean, kept_singleton,
      if_pos (List.length_pos_of_ne_nil hword)]
  cases rest with
  | nil =>
      rw [List.append_nil, halone]
      rfl
  | cons x rest =>
      have hx : p x = true := hnext x rfl
      have hgap := pieces_append_cons [] hx rest
      rw [pieces_append_cons word hx, halone]
      rw [List.nil_append] at hgap
      rw [hgap]
      rfl

/-- The pieces of a spelling are its words. -/
theorem Spelled.pieces_eq {p : A → Bool} {input : List A}
    {words : List (List A)} (h : Spelled p input words) :
    pieces p input = words := by
  induction h with
  | gap hgap =>
      have hall := pieces_gap_append hgap []
      rw [List.append_nil] at hall
      exact hall
  | word hgap hword hclean hnext _ ih =>
      rw [pieces_gap_append hgap, pieces_word_append hword hclean hnext, ih]

/-- A separator in front goes with the first gap. -/
theorem Spelled.separator {p : A → Bool} {x : A} {input : List A}
    {words : List (List A)} (h : Spelled p input words) (hx : p x = true) :
    Spelled p (x :: input) words := by
  cases h with
  | gap hgap => exact .gap (List.forall_mem_cons.mpr ⟨hx, hgap⟩)
  | word hgap hword hclean hnext hrest =>
      have hmore : ∀ y ∈ x :: _, p y = true :=
        List.forall_mem_cons.mpr ⟨hx, hgap⟩
      exact .word hmore hword hclean hnext hrest

/-- Any other element in front makes the first word longer, or is one. -/
theorem Spelled.element {p : A → Bool} {x : A} {input : List A}
    {words : List (List A)} (h : Spelled p input words) (hx : p x = false) :
    ∃ longer, Spelled p (x :: input) longer := by
  have hnone : ∀ y ∈ ([] : List A), p y = true := by simp
  have halone : ∀ y ∈ [x], p y = false := by simpa using hx
  cases h with
  | gap hgap =>
      refine ⟨[[x]], .word hnone (List.cons_ne_nil x []) halone ?_ (.gap hgap)⟩
      intro y hy
      exact hgap y (List.mem_of_mem_head? hy)
  | @word gap word rest words hgap hword hclean hnext hrest =>
      cases gap with
      | nil =>
          have hmore : ∀ y ∈ x :: word, p y = false :=
            List.forall_mem_cons.mpr ⟨hx, hclean⟩
          exact ⟨(x :: word) :: words,
            .word hnone (List.cons_ne_nil x word) hmore hnext hrest⟩
      | cons y gap =>
          have hlater : Spelled p (y :: gap ++ (word ++ rest)) (word :: words) :=
            .word hgap hword hclean hnext hrest
          refine ⟨[x] :: word :: words,
            .word hnone (List.cons_ne_nil x []) halone ?_ hlater⟩
          intro z hz
          cases hz
          exact hgap y List.mem_cons_self

theorem exists_spelled (p : A → Bool) (input : List A) :
    ∃ words, Spelled p input words := by
  induction input with
  | nil => exact ⟨[], .gap (by simp)⟩
  | cons x input ih =>
      obtain ⟨words, hwords⟩ := ih
      cases hx : p x with
      | true => exact ⟨words, hwords.separator hx⟩
      | false => exact hwords.element hx

/-- Every list is a spelling of its pieces, and of no other words. -/
theorem pieces_eq_iff_spelled {p : A → Bool} {input : List A}
    {words : List (List A)} : pieces p input = words ↔ Spelled p input words := by
  constructor
  · rintro rfl
    obtain ⟨words, hwords⟩ := exists_spelled p input
    rw [hwords.pieces_eq]
    exact hwords
  · exact Spelled.pieces_eq

end Tokens
