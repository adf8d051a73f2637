import MpcLib.Common.BigInt
import Mathlib.NumberTheory.Basic
import Mathlib.RingTheory.Coprime.Lemmas

/-!
# Helpers of the proof suite

The arithmetic every proof of `zkproofs` is built from: Ring-Pedersen commitments
`Com(x, y) = s^x t^y mod Ñ`, the response `a + b c`, the check `a b^c mod N`, and
Paillier encryption `(1 + N)^m ρ^N mod N²`. Each gets its residue lemma here, so that
the proofs never unfold them. `Commit_APlusBC` is the homomorphism that makes the
verifiers' Ring-Pedersen check accept honest responses, negative exponents included, for
non-negative `s` and `t`: Go's `Exp` gives a negative base raised to a negative odd exponent
the base's sign, and the homomorphism fails there (`Commit_homomorphic_neg_base`).
-/

namespace MpcLib

set_option linter.dupNamespace false in
/-- Constants derived from `ell`, as `NewEll` sets them. -/
structure Ell where
  Ell : Int
  TwoPowEll : Int
  Epsilon : Int
  EllPlusEpsilon : Int
  TwoPowEllPlusEpsilon : Int
  deriving Repr, DecidableEq

/-- `new(big.Int).Exp(two, k, nil)`: with no modulus, `2 ^ k`, and `1` for `k ≤ 0`. -/
def twoPow (k : Int) : Int := if 0 < k then 2 ^ k.toNat else 1

/-- `NewEll(ell)`, with `epsilon = 2 ell`. -/
def NewEll (ell : Int) : Ell where
  Ell := ell
  TwoPowEll := twoPow ell
  Epsilon := ell * 2
  EllPlusEpsilon := ell + ell * 2
  TwoPowEllPlusEpsilon := twoPow (ell + ell * 2)

/-- `Ell.InRange`: `val` strictly between `-2^(ell+epsilon)` and `2^(ell+epsilon)`. -/
def Ell.InRange (ell : MpcLib.Ell) (val : Int) : Bool :=
  -1 * ell.TwoPowEllPlusEpsilon < val && val < ell.TwoPowEllPlusEpsilon

/-- `Ell.InRangeEll`: `val` strictly between `-2^ell` and `2^ell`. -/
def Ell.InRangeEll (ell : MpcLib.Ell) (val : Int) : Bool :=
  -1 * ell.TwoPowEll < val && val < ell.TwoPowEll

/-- `GetEll(ec)`: the curve's `ec.Params().BitSize`. -/
def GetEll (bitSize : ℕ) : Int := bitSize

def IsZero (val : Int) : Bool := val == 0

/-- `PseudoPaillierEncrypt(gamma, m, rho, N, N2) = gamma^m rho^N mod N2`. -/
def PseudoPaillierEncrypt (gamma m rho N N2 : Int) : Option Int := do
  let Gm ← Exp gamma m N2
  let Xn ← Exp rho N N2
  ModInt.Mul N2 Gm Xn

structure RingPedersenParams where
  S : Int
  T : Int
  N : Int
  deriving Repr, DecidableEq

/-- `rp.Commit(x, y) = s^x t^y mod Ñ`. -/
def RingPedersenParams.Commit (rp : RingPedersenParams) (x y : Int) : Option Int := do
  let sx ← ModInt.Exp rp.N rp.S x
  let ty ← ModInt.Exp rp.N rp.T y
  ModInt.Mul rp.N sx ty

/-- `APlusBC(a, b, c) = a + b c`. -/
def APlusBC (a b c : Int) : Int := a + b * c

/-- `ATimesBToTheCModN(a, b, c, N) = a b^c mod N`. -/
def ATimesBToTheCModN (a b c N : Int) : Option Int := do
  let bc ← ModInt.Exp N b c
  ModInt.Mul N a bc

/-- The Paillier public key `N` of `paillier.PublicKey`. -/
structure PublicKey where
  N : Int
  deriving Repr, DecidableEq

/-- Modelled from the spec: `paillier.PublicKey.NSquare()` (not in the source), `N²`. -/
def PublicKey.NSquare (pk : PublicKey) : Int := pk.N * pk.N

/-- Modelled from the spec: `paillier.PublicKey.EncryptWithRandomnessNoErrChk` (the
`paillier` package is not in the source), `Enc(m, ρ) = (1 + N)^m ρ^N mod N²` (§2),
computed as `PseudoPaillierEncrypt` with `gamma = 1 + N`. -/
def PublicKey.EncryptWithRandomnessNoErrChk (pk : PublicKey) (m x : Int) : Option Int :=
  PseudoPaillierEncrypt (pk.N + 1) m x pk.N pk.NSquare

theorem ATimesBToTheCModN_modEq {a b c N v : ℤ} (hc : 0 ≤ c)
    (h : ATimesBToTheCModN a b c N = some v) : v ≡ a * b ^ c.toNat [ZMOD N] := by
  simp only [ATimesBToTheCModN, ModInt.Exp, Option.bind_eq_bind, Option.bind_eq_some] at h
  obtain ⟨bc, hbc, hv⟩ := h
  exact (ModInt.Mul_modEq hv).trans ((Exp_modEq hc hbc).mul_left a)

/-! ## Residues of the helpers -/

section
variable {n : ℕ} (hn : 0 < n)
include hn

theorem ATimesBToTheCModN_residueOf (a b : ℤ) {c : ℤ} (hc : 0 ≤ c) :
    ResidueOf n (ATimesBToTheCModN a b c n) (a * b ^ c.toNat) :=
  (Exp_residueOf hn b hc).bind fun v hv => (ModInt.Mul_residueOf hn a v).congr (by rw [hv])

theorem PseudoPaillierEncrypt_residueOf (gamma rho : ℤ) {m N : ℤ} (hm : 0 ≤ m) (hN : 0 ≤ N) :
    ResidueOf n (PseudoPaillierEncrypt gamma m rho N n) (gamma ^ m.toNat * rho ^ N.toNat) :=
  (Exp_residueOf hn gamma hm).bind fun g hg => (Exp_residueOf hn rho hN).bind fun x hx =>
    (ModInt.Mul_residueOf hn g x).congr (by rw [hg, hx])

theorem Commit_residueOf (S T : ℤ) {x y : ℤ} (hx : 0 ≤ x) (hy : 0 ≤ y) :
    ResidueOf n ((RingPedersenParams.mk S T n).Commit x y) (S ^ x.toNat * T ^ y.toNat) :=
  (Exp_residueOf hn S hx).bind fun a ha => (Exp_residueOf hn T hy).bind fun b hb =>
    (ModInt.Mul_residueOf hn a b).congr (by rw [ha, hb])

theorem PseudoPaillierEncrypt_residueOf_zpow {gamma rho : ℤ} (hg : Int.gcd gamma n = 1)
    (hr : Int.gcd rho n = 1) {m N : ℤ} (hg0 : 0 ≤ gamma ∨ 0 ≤ m) (hr0 : 0 ≤ rho ∨ 0 ≤ N) :
    ResidueOf n (PseudoPaillierEncrypt gamma m rho N n)
      ↑(unitOfGcd n gamma hg ^ m * unitOfGcd n rho hr ^ N) :=
  (Exp_residueOf_zpow hn hg hg0).bind fun g hg' =>
    (Exp_residueOf_zpow hn hr hr0).bind fun x hx =>
    (ModInt.Mul_residueOf hn g x).congr (by rw [hg', hx, Units.val_mul])

theorem ATimesBToTheCModN_residueOf_zpow (a : ℤ) {b : ℤ} (hb : Int.gcd b n = 1) (hb0 : 0 ≤ b)
    (c : ℤ) : ResidueOf n (ATimesBToTheCModN a b c n) ((a : ZMod n) * ↑(unitOfGcd n b hb ^ c)) :=
  (Exp_residueOf_zpow hn hb (Or.inl hb0)).bind fun v hv => (ModInt.Mul_residueOf hn a v).congr (by rw [hv])

theorem ATimesBToTheCModN_neg_cancel {a b : ℤ} (ha : 0 ≤ a ∧ a < n) (hb : Int.gcd b n = 1)
    (hb0 : 0 ≤ b) (c : ℕ) :
    ((ATimesBToTheCModN a b (-c) n).bind fun a' => ATimesBToTheCModN a' b c n) = some a :=
  ((ATimesBToTheCModN_residueOf_zpow hn a hb hb0 (-c)).bind fun a' ha' =>
    (ATimesBToTheCModN_residueOf hn a' b (Int.natCast_nonneg c)).congr (by
      rw [ha', Int.toNat_natCast, ← coe_unitOfGcd n b hb, ← Units.val_pow_eq_pow_val, mul_assoc,
        ← Units.val_mul, zpow_neg, zpow_natCast, inv_mul_cancel, Units.val_one, mul_one])).eq
    ⟨a, rfl, ha.1, ha.2, rfl⟩

theorem Commit_residueOf_zpow {S T : ℤ} (hS : Int.gcd S n = 1) (hT : Int.gcd T n = 1)
    (hS0 : 0 ≤ S) (hT0 : 0 ≤ T) (x y : ℤ) :
    ResidueOf n ((RingPedersenParams.mk S T n).Commit x y)
      ↑(unitOfGcd n S hS ^ x * unitOfGcd n T hT ^ y) :=
  (Exp_residueOf_zpow hn hS (Or.inl hS0)).bind fun a ha =>
    (Exp_residueOf_zpow hn hT (Or.inl hT0)).bind fun b hb =>
    (ModInt.Mul_residueOf hn a b).congr (by rw [ha, hb, Units.val_mul])

theorem Commit_residueOf_exists {S T : ℤ} (hS : Int.gcd S n = 1) (hT : Int.gcd T n = 1)
    (x y : ℤ) : ∃ z, ResidueOf n ((RingPedersenParams.mk S T n).Commit x y) z :=
  ⟨_, (Exp_residueOf_zpow_sign hn hS x).bind fun a ha =>
    (Exp_residueOf_zpow_sign hn hT y).bind fun b hb =>
      (ModInt.Mul_residueOf hn a b).congr (by rw [ha, hb])⟩

/-- The Ring-Pedersen homomorphism: `Com(a₁ + e a₂, b₁ + e b₂) = Com(a₁, b₁) Com(a₂, b₂)^e`,
and neither side panics. -/
theorem Commit_APlusBC {S T : ℤ} (hS : Int.gcd S n = 1) (hT : Int.gcd T n = 1)
    (hS0 : 0 ≤ S) (hT0 : 0 ≤ T) (a₁ b₁ a₂ b₂ : ℤ) {e : ℤ} (he : 0 ≤ e) :
    let rp : RingPedersenParams := ⟨S, T, n⟩
    ∃ c, rp.Commit (APlusBC a₁ e a₂) (APlusBC b₁ e b₂) = some c ∧
      ((rp.Commit a₁ b₁).bind fun c₁ => (rp.Commit a₂ b₂).bind fun c₂ =>
        ATimesBToTheCModN c₁ c₂ e rp.N) = some c := by
  intro rp
  set s := unitOfGcd n S hS
  set t := unitOfGcd n T hT
  have hgroup : s ^ APlusBC a₁ e a₂ * t ^ APlusBC b₁ e b₂ =
      s ^ a₁ * t ^ b₁ * (s ^ a₂ * t ^ b₂) ^ e := by
    simp only [APlusBC, mul_comm e, zpow_add, zpow_mul, mul_zpow]
    exact mul_mul_mul_comm _ _ _ _
  have hrhs : ResidueOf n ((rp.Commit a₁ b₁).bind fun c₁ => (rp.Commit a₂ b₂).bind fun c₂ =>
      ATimesBToTheCModN c₁ c₂ e rp.N) ↑(s ^ a₁ * t ^ b₁ * (s ^ a₂ * t ^ b₂) ^ e) :=
    (Commit_residueOf_zpow hn hS hT hS0 hT0 a₁ b₁).bind fun c₁ h₁ =>
      (Commit_residueOf_zpow hn hS hT hS0 hT0 a₂ b₂).bind fun c₂ h₂ =>
        (ATimesBToTheCModN_residueOf hn c₁ c₂ he).congr (by
          rw [h₁, h₂, ← Int.toNat_of_nonneg he, zpow_natCast, Int.toNat_natCast]; simp)
  obtain ⟨c, hc, -⟩ := Commit_residueOf_zpow hn hS hT hS0 hT0 (APlusBC a₁ e a₂) (APlusBC b₁ e b₂)
  refine ⟨c, hc, ?_⟩
  rw [← hc]
  exact (hrhs.congr (congrArg Units.val hgroup.symm)).eq
    (Commit_residueOf_zpow hn hS hT hS0 hT0 _ _)

end

/-- The Ring-Pedersen homomorphism on a modulus `N ≥ 2` with non-negative `s, t` coprime
to it. -/
theorem RingPedersenParams.Commit_homomorphic (N s t : ℤ) (hN : 2 ≤ N) (hs0 : 0 ≤ s) (ht0 : 0 ≤ t)
    (hs : Int.gcd s N = 1) (ht : Int.gcd t N = 1) (a₁ b₁ a₂ b₂ e : ℤ) (he : 0 ≤ e) :
    let rp : RingPedersenParams := ⟨s, t, N⟩
    ∃ c, rp.Commit (APlusBC a₁ e a₂) (APlusBC b₁ e b₂) = some c ∧
      ((rp.Commit a₁ b₁).bind fun c₁ => (rp.Commit a₂ b₂).bind fun c₂ =>
        ATimesBToTheCModN c₁ c₂ e N) = some c := by
  lift N to ℕ using (by omega)
  exact Commit_APlusBC (by omega) hs ht hs0 ht0 a₁ b₁ a₂ b₂ he

theorem RingPedersenParams.Commit_homomorphic_mod_five :
    2 ≤ (5 : ℤ) ∧ 0 ≤ (2 : ℤ) ∧ 0 ≤ (3 : ℤ) ∧ Int.gcd 2 5 = 1 ∧ Int.gcd 3 5 = 1 ∧ 0 ≤ (2 : ℤ) ∧
      ∃ c, (RingPedersenParams.mk 2 3 5).Commit (APlusBC (-1) 2 (-3)) (APlusBC 4 2 (-1)) = some c ∧
        (((RingPedersenParams.mk 2 3 5).Commit (-1) 4).bind fun c₁ =>
          ((RingPedersenParams.mk 2 3 5).Commit (-3) (-1)).bind fun c₂ =>
            ATimesBToTheCModN c₁ c₂ 2 5) = some c :=
  ⟨by decide, by decide, by decide, by decide, by decide, by decide,
    RingPedersenParams.Commit_homomorphic 5 2 3 (by decide) (by decide) (by decide) (by decide)
      (by decide) (-1) 4 (-3) (-1) 2 (by decide)⟩

/-- With a negative `s`, Go's sign rule in `Exp` breaks the homomorphism: at `s = -2`,
`t = 3`, `Ñ = 5` and `e = 2`, `Com(1 + 2·(-1), 0)` is `3` while `Com(1, 0) Com(-1, 0)^2` is
`2`, although `-2` and `3` are coprime to `5`. -/
theorem RingPedersenParams.Commit_homomorphic_neg_base :
    Int.gcd (-2) 5 = 1 ∧ Int.gcd 3 5 = 1 ∧
      (RingPedersenParams.mk (-2) 3 5).Commit (APlusBC 1 2 (-1)) (APlusBC 0 2 0) = some 3 ∧
      (((RingPedersenParams.mk (-2) 3 5).Commit 1 0).bind fun c₁ =>
        ((RingPedersenParams.mk (-2) 3 5).Commit (-1) 0).bind fun c₂ =>
          ATimesBToTheCModN c₁ c₂ 2 5) = some 2 := by
  have hinv : ModInverse (-2) 5 = some 2 := ModInverse_eq (n := 5) (by decide) (by decide) (by decide)
  refine ⟨by decide, by decide, ?_, ?_⟩ <;>
    simp only [RingPedersenParams.Commit, ModInt.Exp, Exp, ATimesBToTheCModN, APlusBC, hinv] <;>
    decide

/-! ## Paillier -/

theorem pow_eq_of_dvd_sub {n : ℕ} {a b : ℤ} (h : (n : ℤ) ∣ a - b) :
    (a : ZMod (n * n)) ^ n = (b : ZMod (n * n)) ^ n := by
  have := dvd_sub_pow_of_dvd_sub h 1
  rw [pow_one, pow_two] at this
  have hcast := (ZMod.intCast_zmod_eq_zero_iff_dvd (a ^ n - b ^ n) (n * n)).mpr (by exact_mod_cast this)
  push_cast at hcast
  exact sub_eq_zero.mp hcast

theorem gcd_mul_self_eq_one {x : ℤ} {n : ℕ} (h : Int.gcd x n = 1) : Int.gcd x (n * n : ℕ) = 1 := by
  have hc := Int.isCoprime_iff_gcd_eq_one.mpr h
  exact Int.isCoprime_iff_gcd_eq_one.mp (by push_cast; exact hc.mul_right hc)

theorem gcd_succ_mul_self (n : ℕ) : Int.gcd ((n : ℤ) + 1) (n * n : ℕ) = 1 :=
  Int.isCoprime_iff_gcd_eq_one.mp (by
    have hc : IsCoprime ((n : ℤ) + 1) n := ⟨1, -1, by ring⟩
    push_cast; exact hc.mul_right hc)

theorem PublicKey.EncryptWithRandomnessNoErrChk_congr {n : ℕ} (m : ℤ) {ρ ρ' : ℤ}
    (h : ρ' ≡ ρ [ZMOD n]) :
    (PublicKey.mk n).EncryptWithRandomnessNoErrChk m ρ' =
      (PublicKey.mk n).EncryptWithRandomnessNoErrChk m ρ := by
  rcases Nat.eq_zero_or_pos n with rfl | hn
  · rw [show ρ' = ρ by simpa [Int.ModEq] using h]
  have hpow : ρ' ^ n % ((n * n : ℕ) : ℤ) = ρ ^ n % ((n * n : ℕ) : ℤ) :=
    (ZMod.intCast_eq_intCast_iff' _ _ _).mp (by
      rw [Int.cast_pow, Int.cast_pow]; exact pow_eq_of_dvd_sub h.symm.dvd)
  push_cast at hpow
  simp [EncryptWithRandomnessNoErrChk, PseudoPaillierEncrypt, NSquare, Exp, hpow, hn.ne']

end MpcLib
