import Mathlib.Data.List.Induction
import Mathlib.Data.List.Sort

/-!
# Ordered maps

A map keyed by a linear order, kept as its list of entries in strictly increasing key order, with
the navigation of an ordered map. Each function is characterised by what it returns among the
members (`floor_eq_some_iff`, `last_eq_some_iff`), so proofs about a client work with membership and
never with the list.
-/

namespace TempoZones.Lib

open List

universe u v

/-- A finite map with its entries in strictly increasing key order. -/
structure SortedMap (K : Type u) (V : Type v) [LinearOrder K] where
  entries : List (K × V)
  sorted : entries.Pairwise fun a b => a.1 < b.1

namespace SortedMap

variable {K : Type u} {V : Type v} [LinearOrder K]

@[ext] theorem ext {m m' : SortedMap K V} (h : m.entries = m'.entries) : m = m' := by
  cases m
  cases m'
  cases h
  rfl

instance [DecidableEq V] : DecidableEq (SortedMap K V) := fun m m' =>
  decidable_of_iff (m.entries = m'.entries) ⟨ext, congrArg entries⟩

instance : Membership (K × V) (SortedMap K V) := ⟨fun m e => e ∈ m.entries⟩

variable {m : SortedMap K V} {e : K × V}

theorem mem_def : e ∈ m ↔ e ∈ m.entries := Iff.rfl

instance : EmptyCollection (SortedMap K V) := ⟨⟨[], List.Pairwise.nil⟩⟩

@[simp] theorem notMem_empty (e : K × V) : e ∉ (∅ : SortedMap K V) := not_mem_nil

/-- Keep the entries that satisfy a predicate. -/
def filter (p : K × V → Bool) (m : SortedMap K V) : SortedMap K V :=
  ⟨m.entries.filter p, m.sorted.sublist filter_sublist⟩

@[simp] theorem mem_filter {p : K × V → Bool} {m : SortedMap K V} {e : K × V} :
    e ∈ m.filter p ↔ e ∈ m ∧ p e = true := List.mem_filter

/-- Set the value of a key. -/
def insert (k : K) (v : V) (m : SortedMap K V) : SortedMap K V where
  entries := m.entries.filter (fun e => decide (e.1 < k)) ++
    (k, v) :: m.entries.filter (fun e => decide (k < e.1))
  sorted := by
    refine pairwise_append.2 ⟨m.sorted.sublist filter_sublist,
      pairwise_cons.2 ⟨?_, m.sorted.sublist filter_sublist⟩, ?_⟩
    · intro b hb
      exact of_decide_eq_true (List.mem_filter.1 hb).2
    · -- everything kept on the left lies below `k`, everything on the right at or above it
      intro a ha b hb
      have hlow : a.1 < k := of_decide_eq_true (List.mem_filter.1 ha).2
      rcases mem_cons.1 hb with rfl | hb
      · exact hlow
      · exact hlow.trans (of_decide_eq_true (List.mem_filter.1 hb).2)

variable {k : K}

theorem mem_insert {v : V} : e ∈ m.insert k v ↔ e = (k, v) ∨ (e ∈ m ∧ e.1 ≠ k) := by
  simp only [mem_def, insert, mem_append, List.mem_filter, mem_cons, decide_eq_true_eq]
  constructor
  · rintro (⟨hmem, hlt⟩ | rfl | ⟨hmem, hlt⟩)
    · exact .inr ⟨hmem, ne_of_lt hlt⟩
    · exact .inl rfl
    · exact .inr ⟨hmem, ne_of_gt hlt⟩
  · rintro (rfl | ⟨hmem, hne⟩)
    · exact .inr (.inl rfl)
    rcases lt_or_gt_of_ne hne with hlt | hlt
    · exact .inl ⟨hmem, hlt⟩
    · exact .inr (.inr ⟨hmem, hlt⟩)

/-- Drop the entry with the least key. -/
def popFirst (m : SortedMap K V) : SortedMap K V :=
  ⟨m.entries.tail, m.sorted.sublist (tail_sublist _)⟩

theorem mem_of_mem_popFirst (h : e ∈ m.popFirst) : e ∈ m := mem_of_mem_tail h

def length (m : SortedMap K V) : ℕ := m.entries.length

/-- Drop entries from the front while more than `n` are left. -/
def trimTo (n : ℕ) (m : SortedMap K V) : SortedMap K V := popFirst^[m.length - n] m

theorem mem_of_mem_trimTo {n : ℕ} (h : e ∈ m.trimTo n) : e ∈ m := by
  have hiterate : ∀ (i : ℕ) (m : SortedMap K V), e ∈ popFirst^[i] m → e ∈ m := by
    intro i
    induction i with
    | zero => exact fun m hm => hm
    | succ i ih => exact fun m hm => mem_of_mem_popFirst (ih m.popFirst hm)
  exact hiterate _ m h

/-- The entry with the least key. -/
def first? (m : SortedMap K V) : Option (K × V) := m.entries.head?

/-- The entry with the greatest key. -/
def last? (m : SortedMap K V) : Option (K × V) := m.entries.getLast?

theorem first_eq_some_iff : m.first? = some e ↔ e ∈ m ∧ ∀ e' ∈ m, e.1 ≤ e'.1 := by
  rcases m with ⟨entries, hsorted⟩
  cases entries with
  | nil => simp [first?, mem_def]
  | cons a rest =>
    obtain ⟨hmin, -⟩ := pairwise_cons.1 hsorted
    simp only [first?, mem_def, head?_cons, Option.some.injEq, mem_cons]
    constructor
    · rintro rfl
      refine ⟨.inl rfl, ?_⟩
      rintro e' (rfl | he')
      · exact le_rfl
      · exact le_of_lt (hmin e' he')
    · rintro ⟨rfl | he, hle⟩
      · rfl
      · exact absurd (hmin e he) (not_lt.2 (hle a (.inl rfl)))

theorem last_eq_some_iff : m.last? = some e ↔ e ∈ m ∧ ∀ e' ∈ m, e'.1 ≤ e.1 := by
  rcases m with ⟨entries, hsorted⟩
  simp only [last?, mem_def]
  rcases eq_nil_or_concat entries with rfl | ⟨front, a, rfl⟩
  · simp
  rw [concat_eq_append] at hsorted ⊢
  obtain ⟨-, -, hmax⟩ := pairwise_append.1 hsorted
  have hbelow : ∀ e' ∈ front, e'.1 < a.1 := fun e' he' => hmax e' he' a (mem_singleton_self a)
  simp only [getLast?_concat, Option.some.injEq, mem_append, mem_singleton]
  constructor
  · rintro rfl
    refine ⟨.inr rfl, ?_⟩
    rintro e' (he' | rfl)
    · exact le_of_lt (hbelow e' he')
    · exact le_rfl
  · rintro ⟨he | rfl, hle⟩
    · exact absurd (hbelow e he) (not_lt.2 (hle a (.inr rfl)))
    · rfl

theorem last_eq_none_iff : m.last? = none ↔ ∀ e, e ∉ m := by
  simp [last?, mem_def, eq_nil_iff_forall_not_mem]

/-- Value of a key. -/
def get? (k : K) (m : SortedMap K V) : Option V :=
  (m.filter fun e => decide (e.1 = k)).first?.map Prod.snd

theorem get_eq_some_iff {v : V} : m.get? k = some v ↔ (k, v) ∈ m := by
  simp only [get?, Option.map_eq_some_iff, first_eq_some_iff, mem_filter, decide_eq_true_eq]
  constructor
  · rintro ⟨⟨k', v'⟩, ⟨⟨hmem, rfl⟩, -⟩, rfl⟩
    exact hmem
  · intro hmem
    refine ⟨(k, v), ⟨⟨hmem, rfl⟩, ?_⟩, rfl⟩
    rintro e' ⟨-, hkey⟩
    exact le_of_eq hkey.symm

theorem get_eq_none_iff : m.get? k = none ↔ ∀ v, (k, v) ∉ m := by
  simp only [← get_eq_some_iff, Option.eq_none_iff_forall_ne_some, ne_eq]

theorem ext_get {m m' : SortedMap K V} (h : ∀ k, m.get? k = m'.get? k) : m = m' := by
  have hmem : ∀ e, e ∈ m.entries ↔ e ∈ m'.entries := by
    rintro ⟨k, v⟩
    rw [← mem_def, ← mem_def, ← get_eq_some_iff, ← get_eq_some_iff, h k]
  have hnodup : ∀ m : SortedMap K V, m.entries.Nodup := fun m =>
    m.sorted.imp fun hlt heq => absurd (congrArg Prod.fst heq) (ne_of_lt hlt)
  have hperm : m.entries.Perm m'.entries :=
    (perm_ext_iff_of_nodup (hnodup m) (hnodup m')).2 hmem
  apply ext
  -- two strictly increasing lists with the same members are the same list
  exact hperm.eq_of_pairwise (fun a b _ _ hab hba => absurd hba (lt_asymm hab)) m.sorted m'.sorted

@[simp] theorem get_empty (k : K) : (∅ : SortedMap K V).get? k = none :=
  get_eq_none_iff.2 fun v => notMem_empty (k, v)

theorem get_insert (k : K) (v : V) (m : SortedMap K V) (k' : K) :
    (m.insert k v).get? k' = if k' = k then some v else m.get? k' := by
  by_cases h : k' = k
  · rw [if_pos h, get_eq_some_iff, mem_insert]
    exact .inl (congrArg (·, v) h)
  rw [if_neg h]
  apply Option.ext
  intro w
  simp only [get_eq_some_iff, mem_insert, Prod.mk.injEq, h, false_and, false_or, ne_eq,
    not_false_eq_true, and_true]

/-- Drop the entry of a key. -/
def erase (k : K) (m : SortedMap K V) : SortedMap K V := m.filter fun e => decide (e.1 ≠ k)

theorem get_erase (k : K) (m : SortedMap K V) (k' : K) :
    (m.erase k).get? k' = if k' = k then none else m.get? k' := by
  by_cases h : k' = k
  · rw [if_pos h, get_eq_none_iff]
    intro v hv
    exact of_decide_eq_true (mem_filter.1 hv).2 h
  rw [if_neg h]
  apply Option.ext
  intro w
  simp only [get_eq_some_iff, erase, mem_filter, decide_eq_true_eq, ne_eq, h, not_false_eq_true,
    and_true]

theorem length_erase_lt {v : V} (h : m.get? k = some v) : (m.erase k).length < m.length :=
  length_filter_lt_length_iff_exists.2 ⟨(k, v), get_eq_some_iff.1 h, by simp⟩

theorem length_insert_le (k : K) (v : V) (m : SortedMap K V) :
    (m.insert k v).length ≤ m.length + 1 := by
  have hsplit := length_eq_length_filter_add (l := m.entries) fun e => decide (e.1 < k)
  have hle := (monotone_filter_right m.entries (p := fun e => decide (k < e.1))
    (q := fun e => !decide (e.1 < k)) fun e h => by simpa using (of_decide_eq_true h).le).length_le
  simp only [length, insert, length_append, length_cons]
  omega

/-- The keys in increasing order. -/
def keys (m : SortedMap K V) : List K := m.entries.map Prod.fst

theorem mem_keys : k ∈ m.keys ↔ (m.get? k).isSome := by
  simp only [keys, mem_map, Option.isSome_iff_exists, get_eq_some_iff, Prod.exists,
    exists_and_right, exists_eq_right, mem_def]

/-- Collect a list of entries; a later entry replaces an earlier one with its key. -/
def collect (rows : List (K × V)) : SortedMap K V := rows.foldl (fun m e => m.insert e.1 e.2) ∅

theorem mem_collect_of_pairwise {rows : List (K × V)} (h : rows.Pairwise fun a b => a.1 < b.1) :
    e ∈ collect rows ↔ e ∈ rows := by
  induction rows using reverseRecOn with
  | nil => exact Iff.rfl
  | append_singleton rows last ih =>
    obtain ⟨hrows, -, hbelow⟩ := pairwise_append.1 h
    have hstep : collect (rows ++ [last]) = (collect rows).insert last.1 last.2 := by
      rw [collect, foldl_append]
      rfl
    rw [hstep, mem_insert, ih hrows, mem_append, mem_singleton]
    constructor
    · rintro (rfl | ⟨he, -⟩)
      · exact .inr rfl
      · exact .inl he
    · rintro (he | rfl)
      · exact .inr ⟨he, ne_of_lt (hbelow e he last (mem_singleton_self last))⟩
      · exact .inl rfl

theorem collect_entries (m : SortedMap K V) : collect m.entries = m := by
  apply ext_get
  intro k
  apply Option.ext
  intro v
  rw [get_eq_some_iff, get_eq_some_iff, mem_collect_of_pairwise m.sorted, mem_def]

def range (k : K) (m : SortedMap K V) : List (K × V) := m.entries.filter fun e => decide (k ≤ e.1)

/-- Reading a range up to the first key outside a class reads the whole class, when the class
starts at the range's key and has no gap. -/
theorem takeWhile_range {p : K → Prop} [DecidablePred p] (hbelow : ∀ k', p k' → k ≤ k')
    (hgap : ∀ a b, k ≤ a → a < b → p b → p a) :
    (m.range k).takeWhile (fun e => decide (p e.1)) = m.entries.filter fun e => decide (p e.1) := by
  have hstop : ∀ l : List (K × V), (l.Pairwise fun a b => a.1 < b.1) → (∀ e ∈ l, k ≤ e.1) →
      l.takeWhile (fun e => decide (p e.1)) = l.filter fun e => decide (p e.1) := by
    intro l
    induction l with
    | nil => exact fun _ _ => rfl
    | cons e l ih =>
      intro hsorted hfrom
      obtain ⟨hlt, hrest⟩ := pairwise_cons.1 hsorted
      by_cases hp : p e.1
      · rw [takeWhile_cons_of_pos (by simpa using hp),
          filter_cons_of_pos (by simpa using hp), ih hrest fun e' he' => hfrom e' (mem_cons_of_mem e he')]
      · -- past the first key outside the class no key is in it
        rw [takeWhile_cons_of_neg (by simpa using hp),
          filter_cons_of_neg (by simpa using hp)]
        symm
        rw [filter_eq_nil_iff]
        intro e' he'
        simp only [decide_eq_true_eq]
        exact fun hp' => hp (hgap _ _ (hfrom e mem_cons_self) (hlt e' he') hp')
  rw [hstop (m.range k) (m.sorted.sublist filter_sublist)
    fun e he => of_decide_eq_true (List.mem_filter.1 he).2, range, filter_filter]
  apply filter_congr
  intro e _
  by_cases hp : p e.1
  · simp [hp, hbelow e.1 hp]
  · simp [hp]

/-- The first entry that satisfies a predicate. -/
def findFirst (p : K × V → Bool) (m : SortedMap K V) : Option (K × V) := (m.filter p).first?

theorem findFirst_eq_some_iff {p : K × V → Bool} :
    m.findFirst p = some e ↔ e ∈ m ∧ p e = true ∧ ∀ e' ∈ m, p e' = true → e.1 ≤ e'.1 := by
  simp only [findFirst, first_eq_some_iff, mem_filter, and_imp, and_assoc]

theorem findFirst_eq_none_iff {p : K × V → Bool} : m.findFirst p = none ↔ ∀ e ∈ m, p e = false := by
  simp [findFirst, first?, filter, mem_def]

def below (k : K) (m : SortedMap K V) : Option (K × V) :=
  (m.filter fun e => decide (e.1 < k)).last?

theorem below_eq_some_iff :
    m.below k = some e ↔ e ∈ m ∧ e.1 < k ∧ ∀ e' ∈ m, e'.1 < k → e'.1 ≤ e.1 := by
  simp only [below, last_eq_some_iff, mem_filter, decide_eq_true_eq, and_imp, and_assoc]

theorem below_eq_none_iff : m.below k = none ↔ ∀ e ∈ m, k ≤ e.1 := by
  simp only [below, last_eq_none_iff, mem_filter, decide_eq_true_eq, not_and, not_lt]

/-- The last entry whose key is at most `k`. -/
def floor (k : K) (m : SortedMap K V) : Option (K × V) :=
  (m.filter fun e => decide (e.1 ≤ k)).last?

theorem floor_eq_some_iff :
    m.floor k = some e ↔ e ∈ m ∧ e.1 ≤ k ∧ ∀ e' ∈ m, e'.1 ≤ k → e'.1 ≤ e.1 := by
  simp only [floor, last_eq_some_iff, mem_filter, decide_eq_true_eq, and_imp, and_assoc]

theorem floor_eq_none_iff : m.floor k = none ↔ ∀ e ∈ m, k < e.1 := by
  simp only [floor, last_eq_none_iff, mem_filter, decide_eq_true_eq, not_and, not_le]

end SortedMap

end TempoZones.Lib
