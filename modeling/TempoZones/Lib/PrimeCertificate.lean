import Mathlib.NumberTheory.LucasPrimality
import TempoZones.Lib.Evm

/-!
# Primality certificates

Square-and-multiply computes powers (`modExp_eq`), so Lucas's test can be evaluated: a number with a
witness whose order is one less than the number is prime. The witness is checked against the prime
factors of that order (`prime_of_lucasTest`).
-/

namespace TempoZones.Lib

theorem modExpLoop_eq {m : ℕ} : ∀ {fuel b e acc : ℕ}, e < 2 ^ fuel → acc % m = acc →
    modExpLoop fuel b e m acc = acc * b ^ e % m
  | 0, b, e, acc, he, hacc => by
    obtain rfl : e = 0 := by simpa using he
    rw [modExpLoop, pow_zero, mul_one, hacc]
  | fuel + 1, b, e, acc, he, hacc => by
    have hhalf : e / 2 < 2 ^ fuel := by
      rw [pow_succ] at he
      omega
    have hsquare : (b * b % m) ^ (e / 2) ≡ b ^ (2 * (e / 2)) [MOD m] := by
      rw [pow_mul, sq]
      exact (Nat.mod_modEq (b * b) m).pow (e / 2)
    rw [modExpLoop]
    split
    · next hodd =>
      rw [modExpLoop_eq hhalf (Nat.mod_mod _ _)]
      have hsplit : b ^ e = b * b ^ (2 * (e / 2)) := by
        rw [← pow_succ']
        congr 1
        omega
      rw [hsplit, ← mul_assoc]
      exact (Nat.mod_modEq (acc * b) m).mul hsquare
    · next heven =>
      rw [modExpLoop_eq hhalf hacc]
      have hsplit : b ^ e = b ^ (2 * (e / 2)) := by
        congr 1
        omega
      rw [hsplit]
      exact hsquare.mul_left acc

theorem modExp_eq {b e m : ℕ} (he : e < 2 ^ 256) : modExp b e m = b ^ e % m := by
  rw [modExp, modExpLoop_eq he (Nat.mod_mod 1 m)]
  exact ((Nat.mod_modEq 1 m).mul ((Nat.mod_modEq b m).pow e)).trans (by rw [one_mul])

/-- Lucas's test of `p` with the witness `a` and the prime factors of `p - 1`. -/
def lucasTest (p a : ℕ) (factors : List ℕ) : Bool :=
  1 < p && p < 2 ^ 256 && factors.prod == p - 1 && modExp a (p - 1) p == 1 &&
    factors.all fun q => modExp a ((p - 1) / q) p != 1

theorem prime_of_lucasTest {p : ℕ} (a : ℕ) (factors : List ℕ) (hprime : ∀ q ∈ factors, q.Prime)
    (h : lucasTest p a factors = true) : p.Prime := by
  simp only [lucasTest, Bool.and_eq_true, decide_eq_true_eq, beq_iff_eq, bne_iff_ne,
    List.all_eq_true] at h
  obtain ⟨⟨⟨⟨hone, hbound⟩, hprod⟩, hfull⟩, hproper⟩ := h
  have hpow : ∀ e ≤ p - 1, ((a : ZMod p) ^ e = 1 ↔ modExp a e p = 1) := by
    intro e he
    rw [modExp_eq (by omega), ← Nat.cast_pow, ← Nat.cast_one, ZMod.natCast_eq_natCast_iff',
      Nat.mod_eq_of_lt hone]
  refine lucas_primality p a ((hpow _ le_rfl).2 hfull) ?_
  intro q hq hdvd
  rw [← hprod] at hdvd
  obtain ⟨r, hr, hqr⟩ := (Prime.dvd_prod_iff hq.prime).1 hdvd
  obtain rfl : q = r := (Nat.prime_dvd_prime_iff_eq hq (hprime r hr)).1 hqr
  exact fun hunit => hproper q hr ((hpow _ (Nat.div_le_self _ _)).1 hunit)

end TempoZones.Lib
