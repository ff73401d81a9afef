import Mathlib.Data.List.Induction

/-!
# Hash chains over lists

A list is committed to by folding a link function from a sentinel `z`: a *suffix chain* links each
element to the digest of what follows it, a *prefix chain* to the digest of what precedes it. A link
is `Binding` for `z` when it is jointly injective and never yields `z`. Then both chains are
injective, and a suffix chain started at an arbitrary digest meets the chain of a list exactly when
it was started at the digest of a remainder of that list (`suffixChain_eq_iff`).
-/

namespace TempoZones.Lib

open List

universe u v

variable {α : Type u} {H : Type v}

/-- Digest of a list whose elements are consumed from the front. -/
def suffixChain (link : α → H → H) (z : H) (xs : List α) : H :=
  xs.foldr link z

/-- Digest of a list that grows at its end. -/
def prefixChain (link : α → H → H) (z : H) (xs : List α) : H :=
  xs.foldl (fun h x => link x h) z

section

variable (link : α → H → H)
include link

@[simp] theorem suffixChain_nil (z : H) : suffixChain link z [] = z := rfl

@[simp] theorem suffixChain_cons (z : H) (x : α) (xs : List α) :
    suffixChain link z (x :: xs) = link x (suffixChain link z xs) := rfl

theorem suffixChain_append (z : H) (xs ys : List α) :
    suffixChain link z (xs ++ ys) = suffixChain link (suffixChain link z ys) xs :=
  foldr_append

@[simp] theorem prefixChain_nil (z : H) : prefixChain link z [] = z := rfl

theorem prefixChain_append (z : H) (xs ys : List α) :
    prefixChain link z (xs ++ ys) = prefixChain link (prefixChain link z xs) ys := by
  simp [prefixChain]

@[simp] theorem prefixChain_concat (z : H) (xs : List α) (x : α) :
    prefixChain link z (xs ++ [x]) = link x (prefixChain link z xs) := by
  simp [prefixChain]

end

/-- A link function that binds both of its arguments and never yields the sentinel. -/
structure Binding (link : α → H → H) (z : H) : Prop where
  link_inj : ∀ {x y : α} {g h : H}, link x g = link y h → x = y ∧ g = h
  link_ne : ∀ (x : α) (h : H), link x h ≠ z

namespace Binding

variable {link : α → H → H} {z : H}

section

variable (hb : Binding link z)
include hb

theorem suffixChain_eq_sentinel {xs : List α} : suffixChain link z xs = z ↔ xs = [] := by
  cases xs with
  | nil => simp
  | cons x xs => simp [hb.link_ne]

/-- **Prefix matching.** The chain of `xs` over an arbitrary digest `r` is the chain of `ps`
exactly when `xs` is a prefix of `ps` and `r` is the chain of the rest. -/
theorem suffixChain_eq_iff {xs ps : List α} {r : H} (hxs : xs ≠ []) :
    suffixChain link r xs = suffixChain link z ps ↔
      ∃ rest, ps = xs ++ rest ∧ r = suffixChain link z rest := by
  induction xs generalizing ps with
  | nil => exact absurd rfl hxs
  | cons x xs ih =>
    cases ps with
    | nil => simp [hb.link_ne]
    | cons p ps =>
      constructor
      · intro h
        obtain ⟨rfl, htail⟩ := hb.link_inj h
        cases xs with
        | nil => exact ⟨ps, rfl, htail⟩
        | cons y ys =>
          obtain ⟨rest, rfl, hr⟩ := (ih (by simp)).1 htail
          exact ⟨rest, rfl, hr⟩
      · rintro ⟨rest, heq, rfl⟩
        simp only [cons_append, List.cons.injEq] at heq
        obtain ⟨rfl, rfl⟩ := heq
        simp [suffixChain]

theorem suffixChain_injective : Function.Injective (suffixChain link z) := by
  intro xs ys h
  cases xs with
  | nil => exact (hb.suffixChain_eq_sentinel.1 h.symm).symm
  | cons x xs =>
    obtain ⟨rest, rfl, hrest⟩ := (hb.suffixChain_eq_iff (by simp)).1 h
    rw [hb.suffixChain_eq_sentinel.1 hrest.symm, append_nil]

theorem prefixChain_eq_sentinel {xs : List α} : prefixChain link z xs = z ↔ xs = [] := by
  constructor
  · intro h
    rcases eq_nil_or_concat xs with rfl | ⟨ys, y, rfl⟩
    · rfl
    · exact absurd (by simpa using h) (hb.link_ne y _)
  · rintro rfl
    rfl

theorem prefixChain_injective : Function.Injective (prefixChain link z) := by
  intro xs
  induction xs using List.reverseRecOn with
  | nil => exact fun ys h => (hb.prefixChain_eq_sentinel.1 h.symm).symm
  | append_singleton xs x ih =>
    intro ys h
    rcases eq_nil_or_concat ys with rfl | ⟨ys, y, rfl⟩
    · exact absurd (by simpa using h) (hb.link_ne x _)
    simp only [concat_eq_append, prefixChain_concat] at h ⊢
    obtain ⟨rfl, hpre⟩ := hb.link_inj h
    rw [ih hpre]

end

end Binding

end TempoZones.Lib
