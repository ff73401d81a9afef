import Mathlib.Data.List.Nodup
import Mathlib.Data.List.Perm.Basic

/-!
# Tables of numbered entries

Entries with numbers are placed, in any order, into a table with one slot for each number of a range
(`Tabulates`). A full table lists the entries in the order of their numbers (`Tabulates.perm_numbered`), and
the table is full exactly when the numbers are those of the range, each once (`Tabulates.full`).
-/

namespace TempoZones.Lib

open List

variable {α β : Type} {items : List α}

def numbered (first : ℕ) (items : List α) : List (ℕ × α) := (items.zipIdx first).map Prod.swap

theorem mem_numbered {first n : ℕ} {a : α} :
    (n, a) ∈ numbered first items ↔ first ≤ n ∧ items[n - first]? = some a := by
  rw [numbered, ← mk_mem_zipIdx_iff_le_and_getElem?_sub]
  constructor
  · intro h
    obtain ⟨⟨b, m⟩, hmem, hswap⟩ := mem_map.1 h
    cases hswap
    exact hmem
  · exact fun h => mem_map.2 ⟨(a, n), h, rfl⟩

theorem mem_numbered_add {first i : ℕ} {a : α} :
    (first + i, a) ∈ numbered first items ↔ items[i]? = some a := by
  rw [mem_numbered, Nat.add_sub_cancel_left]
  exact and_iff_right (Nat.le_add_right _ _)

theorem numbers_numbered (first : ℕ) (items : List α) :
    (numbered first items).map Prod.fst = List.range' first items.length := by
  rw [numbered, map_map]
  exact zipIdx_map_snd first items

theorem numbered_map (f : α → β) (first : ℕ) (items : List α) :
    numbered first (items.map f) = (numbered first items).map (Prod.map id f) := by
  rw [numbered, numbered, zipIdx_map, map_map, map_map]
  rfl

theorem numbered_nodup (first : ℕ) (items : List α) : (numbered first items).Nodup := by
  apply List.Nodup.of_map Prod.fst
  rw [numbers_numbered]
  exact nodup_range'

theorem numbered_perm_injective {first : ℕ} {items' : List α}
    (h : (numbered first items).Perm (numbered first items')) : items = items' := by
  apply ext_getElem?
  intro i
  apply Option.ext
  intro a
  exact mem_numbered_add.symm.trans (h.mem_iff.trans mem_numbered_add)

/-- Slot `i` of the table has the entry with the number `first + i`, if there is one. -/
structure Tabulates (first : ℕ) (table : List (Option α)) (entries : List (ℕ × α)) : Prop where
  slot : ∀ i a, table[i]? = some (some a) ↔ (first + i, a) ∈ entries
  inRange : ∀ p ∈ entries, first ≤ p.1 ∧ p.1 < first + table.length
  nodup : (entries.map Prod.fst).Nodup

namespace Tabulates

variable {first : ℕ} {table : List (Option α)} {entries : List (ℕ × α)}

theorem replicate (first length : ℕ) :
    Tabulates first (List.replicate length (none : Option α)) [] where
  slot := by
    intro i a
    rw [List.getElem?_replicate]
    split <;> simp
  inRange := nofun
  nodup := nodup_nil

theorem entry (h : Tabulates first table entries) {n : ℕ} {a : α} (hn : first ≤ n) :
    table[n - first]? = some (some a) ↔ (n, a) ∈ entries := by
  rw [h.slot, Nat.add_sub_cancel' hn]

theorem place (h : Tabulates first table entries) {n : ℕ} (a : α)
    (hn : first ≤ n ∧ n < first + table.length) (hfree : n ∉ entries.map Prod.fst) :
    Tabulates first (table.set (n - first) (some a)) (entries ++ [(n, a)]) where
  slot := by
    intro i b
    rw [mem_append, mem_singleton, Prod.mk.injEq, ← h.slot]
    -- the placed slot was free, every other slot is as before
    by_cases hi : n - first = i
    · subst hi
      have hother : table[n - first]? ≠ some (some b) := fun hsome =>
        hfree (mem_map.2 ⟨_, (h.entry hn.1).1 hsome, rfl⟩)
      rw [List.getElem?_set_self (by omega), Nat.add_sub_cancel' hn.1]
      simp only [Option.some.injEq, hother, false_or, true_and]
      exact eq_comm
    rw [List.getElem?_set_ne hi]
    have hnumber : first + i ≠ n := by omega
    simp only [hnumber, false_and, or_false]
  inRange := by
    intro p hp
    rw [length_set]
    rcases mem_append.1 hp with hp | hp
    · exact h.inRange p hp
    · rw [mem_singleton.1 hp]
      exact hn
  nodup := by
    rw [map_append]
    refine h.nodup.append (nodup_singleton n) ?_
    intro m hm hm'
    rw [mem_singleton.1 hm'] at hm
    exact hfree hm

theorem perm_numbered (h : Tabulates first (items.map some) entries) :
    entries.Perm (numbered first items) := by
  apply (perm_ext_iff_of_nodup (.of_map Prod.fst h.nodup) (numbered_nodup _ _)).2
  rintro ⟨n, a⟩
  rw [mem_numbered]
  have hitem : ∀ i : ℕ, items[i]? = some a ↔ (items.map some)[i]? = some (some a) := by
    intro i
    rw [List.getElem?_map]
    cases items[i]? <;> simp
  rw [hitem]
  constructor
  · intro hmem
    have hn := (h.inRange _ hmem).1
    exact ⟨hn, (h.entry hn).2 hmem⟩
  · rintro ⟨hn, hslot⟩
    exact (h.entry hn).1 hslot

theorem full (h : Tabulates first table entries)
    (hnumbers : (entries.map Prod.fst).Perm (List.range' first table.length)) :
    ∃ items : List α, table = items.map some := by
  have hsome : ∀ slot ∈ table, ∃ a, slot = some a := by
    intro slot hslot
    obtain ⟨i, hi⟩ := mem_iff_getElem?.1 hslot
    have hlength : i < table.length := (List.getElem?_eq_some_iff.1 hi).1
    have hnumber : first + i ∈ entries.map Prod.fst := by
      rw [hnumbers.mem_iff, mem_range'_1]
      omega
    obtain ⟨⟨n, a⟩, hmem, hn⟩ := mem_map.1 hnumber
    change n = first + i at hn
    subst hn
    have hfilled := (h.slot i a).2 hmem
    rw [hi] at hfilled
    exact ⟨a, Option.some.inj hfilled⟩
  clear h hnumbers
  induction table with
  | nil => exact ⟨[], rfl⟩
  | cons slot rest ih =>
    obtain ⟨a, rfl⟩ := hsome slot mem_cons_self
    obtain ⟨items, rfl⟩ := ih fun slot hslot => hsome slot (mem_cons_of_mem _ hslot)
    exact ⟨a :: items, rfl⟩

end Tabulates

end TempoZones.Lib
