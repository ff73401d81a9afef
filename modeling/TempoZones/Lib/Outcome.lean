import Mathlib.Logic.Basic

/-!
# Fallible computations with named errors

`require` is the guard of a computation in `Except ε`. The lemmas take a sequence of guards and
binds apart: it succeeds exactly when every part does (`bind_ok_iff`, `require_bind_ok_iff`).
`Avoids e` says that a computation does not stop with `e`; it is closed under the same
constructions.
-/

namespace TempoZones.Lib

universe u v

variable {ε : Type u} {α β : Type v} {x : Except ε α} {f : α → Except ε β}

/-- Pass when `c` holds, stop with `e` otherwise. -/
def require (c : Prop) [Decidable c] (e : ε) : Except ε PUnit.{v + 1} :=
  if c then .ok ⟨⟩ else .error e

theorem bind_ok_iff {b : β} : x >>= f = .ok b ↔ ∃ a, x = .ok a ∧ f a = .ok b := by
  rcases x with e | a
  · constructor
    · rintro ⟨⟩
    · rintro ⟨a, h, -⟩
      cases h
  constructor
  · exact fun h => ⟨a, rfl, h⟩
  rintro ⟨a', h, hf⟩
  cases h
  exact hf

theorem bind_error_iff {e : ε} :
    x >>= f = .error e ↔ x = .error e ∨ ∃ a, x = .ok a ∧ f a = .error e := by
  rcases x with e' | a
  · constructor
    · intro h
      cases h
      exact .inl rfl
    rintro (h | ⟨a, h, -⟩)
    · cases h
      rfl
    · cases h
  constructor
  · exact fun h => .inr ⟨a, rfl, h⟩
  rintro (h | ⟨a', h, hf⟩)
  · cases h
  · cases h
    exact hf

theorem require_bind_ok_iff {c : Prop} [Decidable c] {e : ε} {f : PUnit → Except ε β} {b : β} :
    require c e >>= f = .ok b ↔ c ∧ f ⟨⟩ = .ok b := by
  by_cases h : c
  · simp only [require, h, true_and]
    rfl
  · simp only [require, h, false_and, iff_false]
    rintro ⟨⟩

theorem require_bind_error_iff {c : Prop} [Decidable c] {e e' : ε} {f : PUnit → Except ε β} :
    require c e >>= f = .error e' ↔ (¬ c ∧ e = e') ∨ (c ∧ f ⟨⟩ = .error e') := by
  by_cases h : c
  · simp only [require, h, not_true, false_and, false_or, true_and]
    rfl
  simp only [require, h, not_false_eq_true, true_and, false_and, or_false]
  constructor
  · intro hc
    cases hc
    rfl
  · rintro rfl
    rfl

theorem require_ok_iff {c : Prop} [Decidable c] {e : ε} {u : PUnit} :
    require c e = .ok u ↔ c := by
  by_cases h : c <;> simp [require, h]

theorem pure_ok_iff {a b : α} : (pure a : Except ε α) = .ok b ↔ a = b :=
  ⟨fun h => by cases h; rfl, fun h => by rw [h]; rfl⟩

/-- When binds, guards and results succeed, as one set of simplification rules. -/
theorem ok_iff : (∀ {α β : Type v} {x : Except ε α} {f : α → Except ε β} {b : β},
      x >>= f = .ok b ↔ ∃ a, x = .ok a ∧ f a = .ok b) ∧
    (∀ {c : Prop} [Decidable c] {e : ε} {u : PUnit.{v + 1}}, require c e = .ok u ↔ c) ∧
    (∀ {α : Type v} {a b : α}, (pure a : Except ε α) = .ok b ↔ a = b) :=
  ⟨bind_ok_iff, require_ok_iff, pure_ok_iff⟩

/-! ## Computations that avoid an error -/

/-- The computation does not stop with `e`. -/
def Avoids (e : ε) (x : Except ε α) : Prop := x ≠ .error e

namespace Avoids

variable {e : ε}

theorem ok (a : α) : Avoids e (.ok a) := nofun

theorem pure (a : α) : Avoids e (Pure.pure a) := nofun

theorem error {e' : ε} (h : e' ≠ e) : Avoids e (.error e' : Except ε α) := by
  intro hstop
  cases hstop
  exact h rfl

theorem bind (hx : Avoids e x) (hf : ∀ a, x = .ok a → Avoids e (f a)) : Avoids e (x >>= f) := by
  intro h
  rcases bind_error_iff.1 h with hstop | ⟨a, ha, hstop⟩
  · exact hx hstop
  · exact hf a ha hstop

theorem require {c : Prop} [Decidable c] {e' : ε} (h : ¬ c → e' ≠ e) :
    Avoids e (Lib.require c e' : Except ε PUnit.{v + 1}) := by
  unfold Lib.require
  split
  · exact ok _
  · next hc => exact error (h hc)

theorem ite {c : Prop} [Decidable c] {y : Except ε α} (hx : c → Avoids e x) (hy : ¬ c → Avoids e y) :
    Avoids e (if c then x else y) := by
  by_cases h : c
  · rw [if_pos h]
    exact hx h
  · rw [if_neg h]
    exact hy h

end Avoids

end TempoZones.Lib
