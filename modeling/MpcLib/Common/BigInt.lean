import Mathlib.Data.ZMod.Basic
import Mathlib.Data.Int.GCD

/-!
# `math/big` arithmetic

A `*big.Int` is an `Int`. Each `math/big` method the source calls becomes a function
into `Option Int`, with `none` where Go panics or returns `nil`: `Mod` by zero, and
`Exp` with a negative exponent whose base has no inverse. That `nil` always reaches
`ModInt.Mul`, whose `Mul` dereferences it, so every `none` below is a panic of the caller.

Results reduced modulo `n` are compared through `ResidueOf`: the computation returns
the representative in `[0, n)` of a value of `ZMod n`. Two computations with the same
residue return the same integer, which is how the verifier's equations are decided.
`Exp_residueOf_zpow_sign` is `Exp` on a positive modulus with an invertible base: the
integer power of a unit, negated when a negative base meets a negative odd exponent, as Go
takes the sign of the result from the base. On any modulus, what a computation returns is
congruent to its value (`Exp_modEq`).
-/

namespace MpcLib

/-- `new(big.Int).Mod(x, m)`: the Euclidean remainder, in `[0, |m|)`; a division by
zero panics. -/
def Mod (x m : Int) : Option Int := if m = 0 then none else some (x % m)

/-- `new(big.Int).ModInverse(g, n)`: the inverse of `g` in `ℤ/nℤ`, in `[0, |n|)`, and
`nil` when `g` and `n` are not coprime. -/
def ModInverse (g n : Int) : Option Int :=
  if n ≠ 0 ∧ Int.gcd g n = 1 then some (Int.gcdA g n % n) else none

/-- `new(big.Int).Exp(x, y, m)`: `x ^ y mod |m|`; with `m = 0`, `x ^ y`, and `1` for `y < 0`.
A negative exponent raises `ModInverse(x, m)` to `|y|` (`nil` if there is none); the sign
is then taken from `x` as for any exponent, so a negative `x` with an odd `|y|` gives
`|m| - (x⁻¹)^|y| mod |m|`, the residue of `-(x^y)`. -/
def Exp (x y m : Int) : Option Int :=
  if m = 0 then some (if 0 < y then x ^ y.toNat else 1)
  else if 0 ≤ y then some (x ^ y.toNat % m)
  else (ModInverse x m).map fun u =>
    let r := u ^ (-y).toNat % m
    if x < 0 ∧ (-y) % 2 = 1 ∧ r ≠ 0 then |m| - r else r

/-- Modelled from the spec: `common.ModInt(m).Mul(x, y)` (the `common` package is not in
the source), the product reduced by `Mod` (§4.1). -/
def ModInt.Mul (m x y : Int) : Option Int := Mod (x * y) m

/-- Modelled from the spec: `common.ModInt(m).Exp(x, y)`, modular exponentiation
`Exp(a, b, m)` of §4.1. -/
def ModInt.Exp (m x y : Int) : Option Int := MpcLib.Exp x y m

/-! ## Residues -/

/-- `o` returns the representative in `[0, n)` of `z`. -/
def ResidueOf (n : ℕ) (o : Option ℤ) (z : ZMod n) : Prop :=
  ∃ v, o = some v ∧ 0 ≤ v ∧ v < n ∧ (v : ZMod n) = z

section
variable {n : ℕ} {o o' : Option ℤ} {z w : ZMod n}

theorem residueOf_emod (hn : 0 < n) (x : ℤ) : ResidueOf n (some (x % n)) x :=
  ⟨_, rfl, Int.emod_nonneg _ (by omega), Int.emod_lt_of_pos _ (by omega), ZMod.intCast_mod x n⟩

theorem ResidueOf.eq (h : ResidueOf n o z) (h' : ResidueOf n o' z) : o = o' := by
  obtain ⟨v, rfl, hv0, hvn, hv⟩ := h
  obtain ⟨v', rfl, hv0', hvn', hv'⟩ := h'
  have hmod := (ZMod.intCast_eq_intCast_iff' v v' n).mp (hv.trans hv'.symm)
  rw [Int.emod_eq_of_lt hv0 hvn, Int.emod_eq_of_lt hv0' hvn'] at hmod
  rw [hmod]

theorem ResidueOf.exists_eq (h : ResidueOf n o z) (h' : ResidueOf n o' z) :
    ∃ v, o = some v ∧ o' = some v := by
  obtain ⟨v, hv, -⟩ := id h
  exact ⟨v, hv, (h.eq h').symm.trans hv⟩

theorem ResidueOf.congr (h : ResidueOf n o z) (hzw : z = w) : ResidueOf n o w := hzw ▸ h

theorem ResidueOf.bind {f : ℤ → Option ℤ} (h : ResidueOf n o z)
    (hf : ∀ v : ℤ, (v : ZMod n) = z → ResidueOf n (f v) w) : ResidueOf n (o.bind f) w := by
  obtain ⟨v, rfl, -, -, hv⟩ := h
  exact hf v hv

end

/-! ## The operations on a positive modulus -/

section
variable {n : ℕ} (hn : 0 < n)
include hn

theorem Mod_residueOf (x : ℤ) : ResidueOf n (Mod x n) x := by
  simpa [Mod, show (n : ℤ) ≠ 0 by omega] using residueOf_emod hn x

theorem ModInt.Mul_residueOf (x y : ℤ) : ResidueOf n (ModInt.Mul n x y) (x * y) := by
  simpa using Mod_residueOf hn (x * y)

theorem Exp_residueOf (x : ℤ) {y : ℤ} (hy : 0 ≤ y) : ResidueOf n (Exp x y n) (x ^ y.toNat) := by
  simpa [Exp, show (n : ℤ) ≠ 0 by omega, hy] using residueOf_emod hn (x ^ y.toNat)

end

def unitOfGcd (n : ℕ) (x : ℤ) (h : Int.gcd x n = 1) : (ZMod n)ˣ :=
  Units.mkOfMulEqOne (x : ZMod n) (Int.gcdA x n : ZMod n) (by
    have := congrArg (Int.cast : ℤ → ZMod n) (Int.gcd_eq_gcd_ab x n)
    simpa [h] using this.symm)

@[simp] theorem coe_unitOfGcd (n : ℕ) (x : ℤ) (h : Int.gcd x n = 1) :
    (unitOfGcd n x h : ZMod n) = x := rfl

theorem ne_zero_of_unit {n : ℕ} (hn : 2 ≤ n) {v : ℤ} (u : (ZMod n)ˣ) (hv : (v : ZMod n) = u) :
    v ≠ 0 := by
  haveI : Fact (1 < n) := ⟨hn⟩
  rintro rfl
  exact u.ne_zero (by simpa using hv.symm)

theorem ModInverse_of_gcd {n : ℕ} (hn : 0 < n) {x : ℤ} (h : Int.gcd x n = 1) :
    ModInverse x n = some (Int.gcdA x n % n) := by
  simp [ModInverse, h, show (n : ℤ) ≠ 0 by omega]

theorem ModInverse_eq {n : ℕ} {x u : ℤ} (hu0 : 0 ≤ u) (hun : u < n) (hxu : x * u % n = 1) :
    ModInverse x n = some u := by
  have hn : 1 < n := by
    obtain rfl | hn : n = 1 ∨ 1 < n := by omega
    · simp at hxu
    · exact hn
  have hd : (Int.gcd x n : ℤ) ∣ 1 := by
    rw [← hxu, Int.emod_def]
    exact dvd_sub (dvd_mul_of_dvd_left Int.gcd_dvd_left _) (dvd_mul_of_dvd_left Int.gcd_dvd_right _)
  have h : Int.gcd x n = 1 := Nat.dvd_one.mp (by exact_mod_cast hd)
  rw [ModInverse_of_gcd (by omega) h]
  have hxu' : (x : ZMod n) * u = 1 := by
    simpa using (ZMod.intCast_eq_intCast_iff' (x * u) 1 n).mpr
      (by rw [hxu, Int.emod_eq_of_lt (by omega) (by omega)])
  have hbez : (x : ZMod n) * Int.gcdA x n = 1 := by
    simpa [h] using (congrArg (Int.cast : ℤ → ZMod n) (Int.gcd_eq_gcd_ab x n)).symm
  have hinv : (Int.gcdA x n : ZMod n) = u :=
    calc (Int.gcdA x n : ZMod n) = Int.gcdA x n * (x * u) := by rw [hxu', mul_one]
      _ = u := by rw [← mul_assoc, mul_comm _ (x : ZMod n), hbez, one_mul]
  rw [(ZMod.intCast_eq_intCast_iff' _ _ n).mp hinv, Int.emod_eq_of_lt hu0 hun]

theorem residueOf_gcdA_pow {n : ℕ} (hn : 0 < n) {x : ℤ} (h : Int.gcd x n = 1) {y : ℤ}
    (hy : y < 0) :
    ResidueOf n (some ((Int.gcdA x n % n) ^ (-y).toNat % n)) ↑(unitOfGcd n x h ^ y) := by
  refine (residueOf_emod hn _).congr ?_
  have hy' : y = -(((-y).toNat : ℕ) : ℤ) := by omega
  conv_rhs => rw [hy', zpow_neg, zpow_natCast, ← inv_pow]
  push_cast
  rfl

/-- With a base coprime to the modulus, `Exp` computes the integer power of a unit, negated
by Go's sign rule when a negative base meets a negative odd exponent. -/
theorem Exp_residueOf_zpow_sign {n : ℕ} (hn : 0 < n) {x : ℤ} (h : Int.gcd x n = 1) (y : ℤ) :
    ResidueOf n (Exp x y n)
      ((if x < 0 ∧ y < 0 ∧ (-y) % 2 = 1 then -1 else 1) * ↑(unitOfGcd n x h ^ y)) := by
  rcases le_or_lt 0 y with hy | hy
  · rw [if_neg (by omega), one_mul]
    refine (Exp_residueOf hn x hy).congr ?_
    conv_rhs => rw [← Int.toNat_of_nonneg hy, zpow_natCast]
    rfl
  obtain ⟨r, hr, hr0, hrn, hrv⟩ := residueOf_gcdA_pow hn h hy
  simp only [Exp, show (n : ℤ) ≠ 0 by omega, not_le.mpr hy, ModInverse_of_gcd hn h, if_false,
    Option.map_some', Option.some_inj.mp hr, hy, true_and, Nat.abs_cast, ← hrv]
  by_cases hs : x < 0 ∧ (-y) % 2 = 1
  · rw [if_pos hs, neg_one_mul]
    by_cases h0 : r = 0
    · exact ⟨r, by simp [h0], hr0, hrn, by simp [h0]⟩
    · exact ⟨n - r, by simp [hs, h0], by omega, by omega, by simp⟩
  · rw [if_neg (by tauto), if_neg hs, one_mul]
    exact ⟨r, rfl, hr0, hrn, rfl⟩

theorem Exp_residueOf_zpow {n : ℕ} (hn : 0 < n) {x : ℤ} (h : Int.gcd x n = 1) {y : ℤ}
    (hxy : 0 ≤ x ∨ 0 ≤ y) : ResidueOf n (Exp x y n) ↑(unitOfGcd n x h ^ y) :=
  (Exp_residueOf_zpow_sign hn h y).congr (by rw [if_neg (by omega), one_mul])

/-! ## Congruences, on any modulus -/

theorem Mod_modEq {x m v : ℤ} (h : Mod x m = some v) : v ≡ x [ZMOD m] := by
  unfold Mod at h
  split at h
  · cases h
  · cases h; exact Int.mod_modEq x m

theorem ModInt.Mul_modEq {m x y v : ℤ} (h : ModInt.Mul m x y = some v) : v ≡ x * y [ZMOD m] :=
  Mod_modEq h

theorem Exp_modEq {x y m v : ℤ} (hy : 0 ≤ y) (h : Exp x y m = some v) :
    v ≡ x ^ y.toNat [ZMOD m] := by
  unfold Exp at h
  split at h
  · cases h
    split
    · rfl
    · rw [show y = 0 by omega]; rfl
  · cases h
    exact Int.mod_modEq _ _

end MpcLib
