import Mathlib.NumberTheory.LegendreSymbol.Basic
import Mathlib.Tactic.NormNum.Prime
import TempoZones.Lib.PrimeCertificate
import TempoZones.Portal.Deposits

/-!
# Points of secp256k1

The portal accepts an x-coordinate by Euler's criterion, which is exact (`isValidX_iff`), since the
field prime has a certificate (`prime_p`). The zone decodes the point with a curve library
(`CurveLibrary`); square roots by exponentiation give one (`exponentiation`).
-/

namespace TempoZones.Secp256k1Lib

open Lib Nat

variable {W : Type} [EvmWord W]

/-! ## The field -/

theorem prime_p : SECP256K1_P.Prime := by
  have h₁ : Nat.Prime 173378833005251801 :=
    prime_of_lucasTest 6 [2, 2, 2, 5, 5, 2621, 24809, 13331831] (by norm_num) (by decide +kernel)
  have h₂ : Nat.Prime 22149492674086928081353 :=
    prime_of_lucasTest 5 [2, 2, 2, 3, 5323, 173378833005251801] (by simp [h₁]; norm_num)
      (by decide +kernel)
  have h₃ : Nat.Prime 132896956044521568488119 :=
    prime_of_lucasTest 6 [2, 3, 22149492674086928081353] (by simp [h₂]; norm_num) (by decide +kernel)
  have h₄ : Nat.Prime 255515944373312847190720520512484175977 :=
    prime_of_lucasTest 3 [2, 2, 2, 7, 7, 11, 1627, 2657, 4423, 41201, 96557, 7240687, 107590001]
      (by norm_num) (by decide +kernel)
  have h₅ : Nat.Prime 205115282021455665897114700593932402728804164701536103180137503955397371 :=
    prime_of_lucasTest 10 [2, 3, 5, 29, 29, 31, 7723, 132896956044521568488119,
      255515944373312847190720520512484175977] (by simp [h₃, h₄]; norm_num) (by decide +kernel)
  exact prime_of_lucasTest 3 [2, 3, 7, 13441,
    205115282021455665897114700593932402728804164701536103180137503955397371]
    (by simp [h₅]; norm_num) (by decide +kernel)

instance : Fact SECP256K1_P.Prime := ⟨prime_p⟩

def rhs (px : ℕ) : ZMod SECP256K1_P := (px : ZMod SECP256K1_P) ^ 3 + 7

theorem curveRhs_cast (px : ℕ) : (curveRhs px : ZMod SECP256K1_P) = rhs px := by
  simp only [curveRhs, rhs, ZMod.natCast_mod, cast_add, cast_mul, cast_ofNat]
  ring

theorem curveRhs_lt (px : ℕ) : curveRhs px < SECP256K1_P := mod_lt _ prime_p.pos

theorem half_lt : SECP256K1_HALF_PM1 < 2 ^ 256 := by decide +kernel

theorem modExp_cast {b e : ℕ} (he : e < 2 ^ 256) :
    (modExp b e SECP256K1_P : ZMod SECP256K1_P) = (b : ZMod SECP256K1_P) ^ e := by
  rw [modExp_eq he, ZMod.natCast_mod, cast_pow]

theorem cast_inj {a b : ℕ} (ha : a < SECP256K1_P) (hb : b < SECP256K1_P) :
    (a : ZMod SECP256K1_P) = b ↔ a = b := by
  rw [ZMod.natCast_eq_natCast_iff', mod_eq_of_lt ha, mod_eq_of_lt hb]

theorem euler_iff (a : ℕ) : modExp a SECP256K1_HALF_PM1 SECP256K1_P = 1 ↔
    (a : ZMod SECP256K1_P) ≠ 0 ∧ IsSquare (a : ZMod SECP256K1_P) := by
  have hhalf : SECP256K1_P / 2 = SECP256K1_HALF_PM1 := by decide +kernel
  have hlt : modExp a SECP256K1_HALF_PM1 SECP256K1_P < SECP256K1_P := by
    rw [modExp_eq half_lt]
    exact mod_lt _ prime_p.pos
  rw [← cast_inj hlt prime_p.one_lt, modExp_cast half_lt, cast_one]
  by_cases hzero : (a : ZMod SECP256K1_P) = 0
  · rw [hzero, zero_pow (by decide +kernel)]
    simp
  · rw [ZMod.euler_criterion _ hzero, hhalf]
    exact (and_iff_right hzero).symm

theorem isValidX_iff (x : W) : isValidX x = true ↔ EvmWord.toNat x < SECP256K1_P ∧
    rhs (EvmWord.toNat x) ≠ 0 ∧ IsSquare (rhs (EvmWord.toNat x)) := by
  rw [← curveRhs_cast, ← euler_iff, isValidX]
  split
  · next hout =>
    rw [iff_false_left Bool.false_ne_true]
    rintro ⟨hlt, hsquare⟩
    rcases hout with hzero | hge
    · rw [hzero] at hsquare
      exact absurd hsquare (by decide +kernel)
    · omega
  · next hin =>
    rw [beq_iff_eq]
    exact (and_iff_right (by omega)).symm

/-! ## Decompression -/

structure OnCurve (point : ℕ × ℕ) : Prop where
  x_lt : point.1 < SECP256K1_P
  y_lt : point.2 < SECP256K1_P
  equation : (point.2 : ZMod SECP256K1_P) * point.2 = rhs point.1

theorem OnCurve.unique {a b : ℕ × ℕ} (ha : OnCurve a) (hb : OnCurve b) (hx : a.1 = b.1)
    (hparity : a.2 % 2 = b.2 % 2) : a = b := by
  refine Prod.ext hx ?_
  have hsquares : (a.2 : ZMod SECP256K1_P) * a.2 = b.2 * b.2 := by rw [ha.equation, hb.equation, hx]
  rcases mul_self_eq_mul_self_iff.1 hsquares with hsame | hneg
  · exact (cast_inj ha.y_lt hb.y_lt).1 hsame
  · -- the roots add up to the odd prime or are both zero
    have hsum : ((a.2 + b.2 : ℕ) : ZMod SECP256K1_P) = 0 := by rw [cast_add, hneg, neg_add_cancel]
    have hdvd := (ZMod.natCast_eq_zero_iff _ _).1 hsum
    have hodd : SECP256K1_P % 2 = 1 := by decide +kernel
    have hay := ha.y_lt
    have hby := hb.y_lt
    by_cases hboth : a.2 + b.2 = 0
    · omega
    · have hp := eq_of_dvd_of_lt_two_mul hboth hdvd (by omega)
      omega

/-- The curve library: `AffinePoint::decompress` finds the points with nonzero `y`. -/
structure CurveLibrary where
  decompress : ℕ → Bool → Option (ℕ × ℕ)
  decompress_finds : ∀ {px : ℕ} (yIsOdd : Bool), px < SECP256K1_P → rhs px ≠ 0 →
    IsSquare (rhs px) → ∃ point, decompress px yIsOdd = some point ∧ OnCurve point ∧
      point.1 = px ∧ point.2 % 2 = yIsOdd.toNat

/-- `recover_point`: tags 2 and 3 are compressed points, tag 5 is a compact one with even `y`. -/
def CurveLibrary.recoverPoint (k256 : CurveLibrary) (x : W) (yParity : ℕ) : Option (ℕ × ℕ) :=
  if yParity = 2 ∨ yParity = 3 ∨ yParity = 5 then
    k256.decompress (EvmWord.toNat x) (yParity == 3)
  else none

theorem CurveLibrary.recoverPoint_valid (k256 : CurveLibrary) {x : W} (hvalid : isValidX x = true)
    {yParity : ℕ} (hparity : yParity = 2 ∨ yParity = 3) :
    ∃ point, k256.recoverPoint x yParity = some point ∧ OnCurve point ∧
      point.1 = EvmWord.toNat x ∧ point.2 % 2 = yParity % 2 := by
  obtain ⟨hlt, hzero, hsquare⟩ := (isValidX_iff x).1 hvalid
  obtain ⟨point, hfound, hcurve, hx, hy⟩ := k256.decompress_finds (yParity == 3) hlt hzero hsquare
  refine ⟨point, ?_, hcurve, hx, ?_⟩
  · rw [recoverPoint, if_pos (by omega), hfound]
  · rcases hparity with rfl | rfl <;> exact hy

/-! ## Square roots by exponentiation -/

/-- Square root by exponentiation: a candidate root, which is then checked. -/
def sqrt (a : ℕ) : Option ℕ :=
  let beta := modExp a SECP256K1_SQRT_EXP SECP256K1_P
  if beta * beta % SECP256K1_P = a then some beta else none

def decompress (px : ℕ) (yIsOdd : Bool) : Option (ℕ × ℕ) :=
  if px < SECP256K1_P then
    (sqrt (curveRhs px)).map fun beta =>
      (px, if (beta % 2 == 1) = yIsOdd then beta else (SECP256K1_P - beta) % SECP256K1_P)
  else none

theorem sqrt_of_isSquare {a : ℕ} (hlt : a < SECP256K1_P) (hzero : (a : ZMod SECP256K1_P) ≠ 0)
    (hsquare : IsSquare (a : ZMod SECP256K1_P)) :
    ∃ beta, sqrt a = some beta ∧ beta < SECP256K1_P ∧ (beta : ZMod SECP256K1_P) * beta = a := by
  have hexp : SECP256K1_SQRT_EXP < 2 ^ 256 := by decide +kernel
  have hdouble : SECP256K1_SQRT_EXP + SECP256K1_SQRT_EXP = SECP256K1_P / 2 + 1 := by decide +kernel
  -- the square of the candidate is `a` times Euler's power of `a`
  have hroot : (modExp a SECP256K1_SQRT_EXP SECP256K1_P : ZMod SECP256K1_P) *
      modExp a SECP256K1_SQRT_EXP SECP256K1_P = a := by
    rw [modExp_cast hexp, ← pow_add, hdouble, pow_succ, (ZMod.euler_criterion _ hzero).1 hsquare,
      one_mul]
  refine ⟨modExp a SECP256K1_SQRT_EXP SECP256K1_P, ?_, ?_, hroot⟩
  · rw [sqrt, if_pos]
    rw [← cast_inj (mod_lt _ prime_p.pos) hlt, ZMod.natCast_mod, cast_mul]
    exact hroot
  · rw [modExp_eq hexp]
    exact mod_lt _ prime_p.pos

theorem decompress_finds {px : ℕ} (yIsOdd : Bool) (hlt : px < SECP256K1_P) (hzero : rhs px ≠ 0)
    (hsquare : IsSquare (rhs px)) :
    ∃ point, decompress px yIsOdd = some point ∧ OnCurve point ∧ point.1 = px ∧
      point.2 % 2 = yIsOdd.toNat := by
  rw [← curveRhs_cast] at hzero hsquare
  obtain ⟨beta, hsqrt, hbeta, hroot⟩ := sqrt_of_isSquare (curveRhs_lt _) hzero hsquare
  have hodd : SECP256K1_P % 2 = 1 := by decide +kernel
  have hpos : 0 < beta := by
    rcases Nat.eq_zero_or_pos beta with rfl | hpos
    · rw [Nat.cast_zero, mul_zero] at hroot
      exact absurd hroot.symm hzero
    · exact hpos
  rw [decompress, if_pos hlt, hsqrt, Option.map_some]
  rw [curveRhs_cast] at hroot
  refine ⟨_, rfl, ?_⟩
  by_cases hsame : (beta % 2 == 1) = yIsOdd
  · rw [if_pos hsame]
    refine ⟨⟨hlt, hbeta, hroot⟩, rfl, ?_⟩
    cases yIsOdd <;> simp at hsame ⊢ <;> omega
  have hneg : (SECP256K1_P - beta) % SECP256K1_P = SECP256K1_P - beta := mod_eq_of_lt (by omega)
  rw [if_neg hsame, hneg]
  refine ⟨⟨hlt, sub_lt prime_p.pos hpos, ?_⟩, rfl, ?_⟩
  · rw [cast_sub hbeta.le, ZMod.natCast_self, zero_sub, neg_mul_neg]
    exact hroot
  · cases yIsOdd <;> simp at hsame ⊢ <;> omega

def exponentiation : CurveLibrary := ⟨decompress, decompress_finds⟩

end TempoZones.Secp256k1Lib
