import Mathlib.Algebra.BigOperators.Fin

/-!
# Sums of keyed amounts

`tally k xs` adds up the amounts that a list records under the key `k`. A ledger holds one list per
stage through which value passes; value that moves between stages leaves the sum of all tallies as
it is.
-/

namespace TempoZones.Lib

universe u v

variable {K : Type u} [DecidableEq K]

def tally (k : K) (xs : List (K × ℕ)) : ℕ := (xs.map fun x => if x.1 = k then x.2 else 0).sum

@[simp] theorem tally_nil (k : K) : tally k [] = 0 := rfl

@[simp] theorem tally_append (k : K) (xs ys : List (K × ℕ)) :
    tally k (xs ++ ys) = tally k xs + tally k ys := by
  rw [tally, List.map_append, List.sum_append]
  rfl

theorem tally_singleton (k key : K) (amount : ℕ) :
    tally k [(key, amount)] = if key = k then amount else 0 := by
  simp [tally]

@[simp] theorem tally_zero (k key : K) : tally k [(key, 0)] = 0 := by rw [tally_singleton, ite_self]

theorem tally_add (k key : K) (a b : ℕ) :
    tally k [(key, a + b)] = tally k [(key, a)] + tally k [(key, b)] := by
  simp only [tally_singleton]
  split <;> rfl

theorem update_add (f : K → ℕ) (key : K) (amount : ℕ) (k : K) :
    Function.update f key (f key + amount) k = f k + tally k [(key, amount)] := by
  rw [tally_singleton]
  by_cases h : k = key
  · subst h
    rw [Function.update_self, if_pos rfl]
  · rw [Function.update_of_ne h, if_neg (Ne.symm h), Nat.add_zero]

theorem update_sub (f : K → ℕ) (key : K) {amount : ℕ} (h : amount ≤ f key) (k : K) :
    Function.update f key (f key - amount) k + tally k [(key, amount)] = f k := by
  rw [tally_singleton]
  by_cases hk : k = key
  · subst hk
    rw [Function.update_self, if_pos rfl, Nat.sub_add_cancel h]
  · rw [Function.update_of_ne hk, if_neg (Ne.symm hk), Nat.add_zero]

section Table

variable {A : Type v} [DecidableEq A] [Fintype A]

theorem sum_update (f : A → ℕ) (a : A) (amount : ℕ) :
    (∑ x, Function.update f a amount x) + f a = (∑ x, f x) + amount := by
  have hnew := Finset.sum_update_of_mem (Finset.mem_univ a) f amount
  have hold := Finset.sum_update_of_mem (Finset.mem_univ a) f (f a)
  rw [Function.update_eq_self] at hold
  omega

theorem sum_update_row (f : K → A → ℕ) (key : K) (a : A) (amount : ℕ) (k : K) :
    (∑ x, Function.update f key (Function.update (f key) a amount) k x) +
        tally k [(key, f key a)] = (∑ x, f k x) + tally k [(key, amount)] := by
  simp only [tally_singleton]
  by_cases h : k = key
  · subst h
    simp only [Function.update_self, if_true]
    exact sum_update (f k) a amount
  · simp only [Function.update_of_ne h, if_neg (Ne.symm h)]

end Table

end TempoZones.Lib
