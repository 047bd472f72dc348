/-
Insertion-ordered association lists.  An entry keeps its place when its value
is overwritten, a new key goes to the end, and the head is the oldest entry.
-/
import Mathlib.Data.List.Basic
import Mathlib.Data.List.Nodup
import Mathlib.Logic.Function.Basic

universe u v

/-- What is read from a list with one more element at its end. -/
theorem List.getElem?_concat_cases {A : Type u} {items : List A} {last item : A}
    {n : Nat} (hitem : (items ++ [last])[n]? = some item) :
    items[n]? = some item ∨ n = items.length ∧ item = last := by
  rw [List.getElem?_append] at hitem
  split at hitem
  · exact Or.inl hitem
  · next hge =>
      rw [List.getElem?_singleton] at hitem
      split at hitem
      · next hzero =>
          right
          constructor
          · omega
          · exact (Option.some.inj hitem).symm
      · contradiction

/-- Entries under distinct keys, oldest first. -/
structure Ledger (K : Type u) (V : Type v) where
  entries : List (K × V)
  nodup : (entries.map Prod.fst).Nodup

namespace Ledger

variable {K : Type u} {V : Type v}

def keys (l : Ledger K V) : List K := l.entries.map Prod.fst

def length (l : Ledger K V) : Nat := l.entries.length

def empty : Ledger K V := ⟨[], List.nodup_nil⟩

theorem length_keys (l : Ledger K V) : l.keys.length = l.length :=
  List.length_map _

theorem mem_keys_of_mem {l : Ledger K V} {key : K} {value : V}
    (hmem : (key, value) ∈ l.entries) : key ∈ l.keys :=
  List.mem_map.mpr ⟨(key, value), hmem, rfl⟩

variable [DecidableEq K]

def lookup (l : Ledger K V) (key : K) : Option V := l.entries.lookup key

/-- Overwrite in place. -/
def replace (key : K) (value : V) (entries : List (K × V)) : List (K × V) :=
  entries.map fun entry => if entry.1 = key then (key, value) else entry

theorem replace_keys (key : K) (value : V) (entries : List (K × V)) :
    (replace key value entries).map Prod.fst = entries.map Prod.fst := by
  induction entries with
  | nil => rfl
  | cons entry rest ih =>
      simp only [replace, List.map_cons, List.cons.injEq] at ih ⊢
      refine ⟨?_, ih⟩
      by_cases heq : entry.1 = key
      · rw [if_pos heq, heq]
      · rw [if_neg heq]

theorem lookup_cons_of_ne {head other : K} (hne : other ≠ head) (held : V)
    (rest : List (K × V)) :
    ((head, held) :: rest).lookup other = rest.lookup other := by
  rw [List.lookup_cons, beq_eq_false_iff_ne.mpr hne]

theorem lookup_cons_congr {other : K} {first second : List (K × V)}
    (hrest : first.lookup other = second.lookup other) (head : K) (held : V) :
    ((head, held) :: first).lookup other =
      ((head, held) :: second).lookup other := by
  by_cases hother : other = head
  · subst hother
    rw [List.lookup_cons_self, List.lookup_cons_self]
  · rw [lookup_cons_of_ne hother, lookup_cons_of_ne hother]
    exact hrest

theorem lookup_replace_self (key : K) (value : V) (entries : List (K × V))
    (hmem : key ∈ entries.map Prod.fst) :
    (replace key value entries).lookup key = some value := by
  induction entries with
  | nil => simp at hmem
  | cons entry rest ih =>
      rcases entry with ⟨head, held⟩
      rw [replace, List.map_cons]
      by_cases hhead : head = key
      · rw [if_pos hhead, List.lookup_cons_self]
      · rw [if_neg hhead, lookup_cons_of_ne (Ne.symm hhead)]
        rw [List.map_cons, List.mem_cons] at hmem
        exact ih (hmem.resolve_left (Ne.symm hhead))

theorem lookup_replace_of_ne {key other : K} (hne : other ≠ key) (value : V)
    (entries : List (K × V)) :
    (replace key value entries).lookup other = entries.lookup other := by
  induction entries with
  | nil => rfl
  | cons entry rest ih =>
      rcases entry with ⟨head, held⟩
      rw [replace, List.map_cons]
      by_cases hhead : head = key
      · subst hhead
        rw [if_pos rfl, lookup_cons_of_ne hne, lookup_cons_of_ne hne]
        exact ih
      · rw [if_neg hhead]
        exact lookup_cons_congr ih head held

theorem lookup_filter_self (key : K) (entries : List (K × V)) :
    (entries.filter fun entry => entry.1 ≠ key).lookup key = none := by
  rw [List.lookup_eq_none_iff]
  intro entry hentry
  have hne : entry.1 ≠ key := by simpa using (List.mem_filter.mp hentry).2
  exact bne_iff_ne.mpr (Ne.symm hne)

theorem lookup_filter_of_ne {key other : K} (hne : other ≠ key)
    (entries : List (K × V)) :
    (entries.filter fun entry => entry.1 ≠ key).lookup other =
      entries.lookup other := by
  induction entries with
  | nil => rfl
  | cons entry rest ih =>
      rcases entry with ⟨head, held⟩
      by_cases hhead : head = key
      · subst hhead
        rw [List.filter_cons_of_neg (by simp), lookup_cons_of_ne hne]
        exact ih
      · rw [List.filter_cons_of_pos (by simpa using hhead)]
        exact lookup_cons_congr ih head held

/-- `assign` overwrites a present key in place and appends an absent one. -/
def assign (l : Ledger K V) (key : K) (value : V) : Ledger K V :=
  if h : key ∈ l.keys then
    ⟨replace key value l.entries, by rw [replace_keys]; exact l.nodup⟩
  else
    ⟨l.entries ++ [(key, value)], by
      rw [List.map_append, List.map_singleton]
      exact List.nodup_append'.mpr ⟨l.nodup, List.nodup_singleton _,
        List.disjoint_singleton.mpr h⟩⟩

def erase (l : Ledger K V) (key : K) : Ledger K V :=
  ⟨l.entries.filter fun entry => entry.1 ≠ key,
    l.nodup.sublist (List.filter_sublist.map Prod.fst)⟩

theorem lookup_eq_none_iff (l : Ledger K V) (key : K) :
    l.lookup key = none ↔ key ∉ l.keys := by
  rw [lookup, List.lookup_eq_none_iff, keys, List.mem_map]
  constructor
  · rintro hall ⟨entry, hentry, rfl⟩
    simpa using hall entry hentry
  · intro hnot entry hentry
    have hne : key ≠ entry.1 := fun heq => hnot ⟨entry, hentry, heq.symm⟩
    simpa using hne

theorem mem_keys_iff (l : Ledger K V) (key : K) :
    key ∈ l.keys ↔ ∃ value, l.lookup key = some value := by
  rw [← Option.ne_none_iff_exists', ne_eq, lookup_eq_none_iff, not_not]

theorem mem_of_lookup {l : Ledger K V} {key : K} {value : V}
    (hlookup : l.lookup key = some value) : (key, value) ∈ l.entries := by
  obtain ⟨before, after, heq, _⟩ := List.lookup_eq_some_iff.mp hlookup
  rw [heq]
  exact List.mem_append_right before List.mem_cons_self

theorem lookup_of_mem {l : Ledger K V} {key : K} {value : V}
    (hmem : (key, value) ∈ l.entries) : l.lookup key = some value := by
  obtain ⟨found, hfound⟩ := (mem_keys_iff l key).mp (mem_keys_of_mem hmem)
  have hinj := List.inj_on_of_nodup_map l.nodup (mem_of_lookup hfound) hmem rfl
  rw [hfound, (Prod.mk.inj hinj).2]

theorem lookup_assign (l : Ledger K V) (key : K) (value : V) :
    (l.assign key value).lookup =
      Function.update l.lookup key (some value) := by
  funext other
  by_cases hmem : key ∈ l.keys
  · rw [assign, dif_pos hmem]
    by_cases hother : other = key
    · subst hother
      rw [Function.update_self]
      exact lookup_replace_self other value l.entries hmem
    · rw [Function.update_of_ne hother]
      exact lookup_replace_of_ne hother value l.entries
  · rw [assign, dif_neg hmem, lookup, List.lookup_append]
    by_cases hother : other = key
    · subst hother
      have hnone := (lookup_eq_none_iff l other).mpr hmem
      rw [lookup] at hnone
      rw [hnone, Option.none_or, List.lookup_cons_self, Function.update_self]
    · rw [lookup_cons_of_ne hother, List.lookup_nil, Option.or_none,
        Function.update_of_ne hother, lookup]

theorem lookup_erase (l : Ledger K V) (key : K) :
    (l.erase key).lookup = Function.update l.lookup key none := by
  funext other
  by_cases hother : other = key
  · subst hother
    rw [Function.update_self]
    exact lookup_filter_self other l.entries
  · rw [Function.update_of_ne hother]
    exact lookup_filter_of_ne hother l.entries

/-- What is found after an assignment was assigned or was there before. -/
theorem lookup_assign_cases {l : Ledger K V} {key other : K} {value found : V}
    (hlookup : (l.assign key value).lookup other = some found) :
    found = value ∨ l.lookup other = some found := by
  rw [lookup_assign] at hlookup
  by_cases hother : other = key
  · subst hother
    rw [Function.update_self, Option.some.injEq] at hlookup
    exact Or.inl hlookup.symm
  · rw [Function.update_of_ne hother] at hlookup
    exact Or.inr hlookup

/-- What holds of all values found still does when the value assigned has it. -/
theorem forall_lookup_assign {l : Ledger K V} {p : V → Prop} {value : V}
    (hall : ∀ other found, l.lookup other = some found → p found)
    (hvalue : p value) (key : K) :
    ∀ other found, (l.assign key value).lookup other = some found → p found := by
  intro other found hlookup
  rcases lookup_assign_cases hlookup with rfl | hheld
  · exact hvalue
  · exact hall other found hheld

/-- What is found after an erasure was there before. -/
theorem lookup_of_lookup_erase {l : Ledger K V} {key other : K} {found : V}
    (hlookup : (l.erase key).lookup other = some found) :
    l.lookup other = some found := by
  rw [lookup_erase] at hlookup
  by_cases hother : other = key
  · rw [hother, Function.update_self] at hlookup
    contradiction
  · rwa [Function.update_of_ne hother] at hlookup

theorem keys_assign_of_mem {l : Ledger K V} {key : K} (hmem : key ∈ l.keys)
    (value : V) : (l.assign key value).keys = l.keys := by
  rw [assign, dif_pos hmem]
  exact replace_keys key value l.entries

theorem entries_assign_of_not_mem {l : Ledger K V} {key : K}
    (hmem : key ∉ l.keys) (value : V) :
    (l.assign key value).entries = l.entries ++ [(key, value)] := by
  rw [assign, dif_neg hmem]

theorem keys_assign_of_not_mem {l : Ledger K V} {key : K}
    (hmem : key ∉ l.keys) (value : V) :
    (l.assign key value).keys = l.keys ++ [key] := by
  rw [keys, entries_assign_of_not_mem hmem, List.map_append]
  rfl

/-- Erasing the oldest key leaves the rest in order. -/
theorem entries_erase_head {l : Ledger K V} {key : K} {value : V}
    {rest : List (K × V)} (hentries : l.entries = (key, value) :: rest) :
    (l.erase key).entries = rest := by
  have hnodup := l.nodup
  rw [hentries, List.map_cons, List.nodup_cons] at hnodup
  change l.entries.filter (fun entry => entry.1 ≠ key) = rest
  rw [hentries, List.filter_cons_of_neg (by simp)]
  apply List.filter_eq_self.mpr
  intro entry hentry
  have hne : entry.1 ≠ key := by
    rintro rfl
    exact hnodup.1 (List.mem_map.mpr ⟨entry, hentry, rfl⟩)
  simpa using hne

theorem keys_erase_head {l : Ledger K V} {key : K} {value : V}
    {rest : List (K × V)} (hentries : l.entries = (key, value) :: rest) :
    l.keys = key :: (l.erase key).keys := by
  rw [keys, keys, entries_erase_head hentries, hentries]
  rfl

theorem entries_erase_sublist (l : Ledger K V) (key : K) :
    (l.erase key).entries.Sublist l.entries :=
  List.filter_sublist

end Ledger
