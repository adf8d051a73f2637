import MpcLib.ZkProofs.Utils

/-!
# The Dec proof

`dec` of CGG21 Appendix C6 Figure 30: the prover knows `(y, ρ)` with
`C = (1 + N0)^y ρ^N0 mod N0²` and `x = y mod q`. The challenge is `SHA512_256i` of the
statement, the Ring-Pedersen parameters and the prover's commitments; we take the hash
as a parameter, any map from the hashed integers to `ℕ`.

`Verify_eq_some_true_iff` says what the verifier decides: the two non-zero checks and the
three equations at the recomputed challenge, and no range of any component
(`Verify_checks_no_range`). `Verify_two_challenges` gives the congruences two accepted
proofs with the same commitments satisfy under two challenges. `NewDecProof_complete` is
completeness, for every modulus, witness, randomness and hash. `Simulate_accepted` is
honest-verifier zero knowledge: from any challenge and responses, `Simulate` computes
commitments that `Verify` accepts under a hash returning that challenge, with no witness.

The non-zero checks are there because the first equation is otherwise trivially true, but
they exclude `0` only, not the class of `0`: with `W = N0` and `A = N0²` both sides of the
first equation are `0`, and `Verify_accepts_zero_class` builds an accepted proof for every
statement, whether or not it has a witness.
-/

namespace MpcLib

def DecProofParts : Nat := 7

/-- The fields' declared ranges, in the struct's comments: `S, T` mod `Ñ`, `A` mod `N0²`,
`Gamma` mod `q`, `Z1` in `± 2^(ell+epsilon)`, `Z2` in `± 2^(ell+epsilon) Ñ`, `W` mod `N0`. -/
structure DecProof where
  S : Int
  T : Int
  A : Int
  Gamma : Int
  Z1 : Int
  Z2 : Int
  W : Int
  deriving Repr, DecidableEq

structure DecStatement where
  Q : Int
  Ell : Int
  N0 : Int
  C : Int
  X : Int
  deriving Repr, DecidableEq

structure DecWitness where
  Y : Int
  Rho : Int
  deriving Repr, DecidableEq

section
variable (SHA512_256i : List Int → ℕ)

/-- `proof.GetChallenge(stmt, rp)`: the hash reads the commitments `S, T, A, Gamma`
only, never the responses. -/
def DecProof.GetChallenge (proof : DecProof) (stmt : DecStatement) (rp : RingPedersenParams) :
    Int :=
  SHA512_256i [stmt.Ell, stmt.Q, stmt.N0, stmt.C, stmt.X, rp.N, rp.S, rp.T,
    proof.S, proof.T, proof.A, proof.Gamma]

/-- `NewDecProof(wit, stmt, rp)`. `alpha, mu, nu, r` are what the four
`GetRandomPositiveInt` calls return, in the code's order; the responses are `0` until the
challenge is computed, where the code leaves them `nil`. -/
def NewDecProof (wit : DecWitness) (stmt : DecStatement) (rp : RingPedersenParams)
    (alpha mu nu r : Int) : Option DecProof := do
  let S ← rp.Commit wit.Y mu
  let T ← rp.Commit alpha nu
  let pkN0 : PublicKey := ⟨stmt.N0⟩
  let A ← pkN0.EncryptWithRandomnessNoErrChk alpha r
  let gamma ← Mod alpha stmt.Q
  let proof : DecProof := ⟨S, T, A, gamma, 0, 0, 0⟩
  let e := proof.GetChallenge SHA512_256i stmt rp
  let W ← ATimesBToTheCModN r wit.Rho e stmt.N0
  pure { proof with Z1 := APlusBC alpha e wit.Y, Z2 := APlusBC nu e mu, W := W }

/-- `proof.Verify(stmt, rp)`, the proof pointer `nil` as `none`. -/
def DecProof.Verify : Option DecProof → DecStatement → RingPedersenParams → Option Bool
  | none, _, _ => some false
  | some proof, stmt, rp =>
    if stmt.N0 ≤ 0 then some false else
    let e := proof.GetChallenge SHA512_256i stmt rp
    if IsZero proof.W || IsZero proof.A then some false else
    let pkN0 : PublicKey := ⟨stmt.N0⟩
    do
      let left1 ← pkN0.EncryptWithRandomnessNoErrChk proof.Z1 proof.W
      let right1 ← ATimesBToTheCModN proof.A stmt.C e pkN0.NSquare
      if left1 ≠ right1 then pure false else
      let left2 ← Mod proof.Z1 stmt.Q
      let right2 ← Mod (APlusBC proof.Gamma e stmt.X) stmt.Q
      if left2 ≠ right2 then pure false else
      let left3 ← rp.Commit proof.Z1 proof.Z2
      let right3 ← ATimesBToTheCModN proof.T proof.S e rp.N
      pure (left3 == right3)

end

@[simp] theorem DecProof.GetChallenge_responses (H : List Int → ℕ) (p : DecProof)
    (stmt : DecStatement) (rp : RingPedersenParams) (z₁ z₂ w : Int) :
    ({ p with Z1 := z₁, Z2 := z₂, W := w } : DecProof).GetChallenge H stmt rp =
      p.GetChallenge H stmt rp := rfl

@[simp] theorem DecProof.GetChallenge_nonneg (H : List Int → ℕ) (p : DecProof)
    (stmt : DecStatement) (rp : RingPedersenParams) : 0 ≤ p.GetChallenge H stmt rp :=
  Int.natCast_nonneg _

/-- What an accepting proof satisfies at challenge `e`: the two non-zero checks and the
three verification equations, each computed without a panic. -/
structure DecProof.Accepts (proof : DecProof) (stmt : DecStatement) (rp : RingPedersenParams)
    (e : Int) : Prop where
  N0_pos : 0 < stmt.N0
  W_ne_zero : proof.W ≠ 0
  A_ne_zero : proof.A ≠ 0
  paillier : ∃ v, (PublicKey.mk stmt.N0).EncryptWithRandomnessNoErrChk proof.Z1 proof.W = some v ∧
    ATimesBToTheCModN proof.A stmt.C e (PublicKey.mk stmt.N0).NSquare = some v
  modQ : ∃ v, Mod proof.Z1 stmt.Q = some v ∧ Mod (APlusBC proof.Gamma e stmt.X) stmt.Q = some v
  ringPedersen : ∃ v, rp.Commit proof.Z1 proof.Z2 = some v ∧
    ATimesBToTheCModN proof.T proof.S e rp.N = some v

theorem bind_bind_ite_eq_some {o₁ o₂ : Option ℤ} {k : Option Bool} :
    (o₁.bind fun a => o₂.bind fun b => if a ≠ b then some false else k) = some true ↔
      (∃ v, o₁ = some v ∧ o₂ = some v) ∧ k = some true := by
  rcases o₁ with _ | a <;> rcases o₂ with _ | b <;> simp
  by_cases h : a = b <;> simp [h, Ne.symm]

theorem bind_bind_beq_eq_some {o₁ o₂ : Option ℤ} :
    (o₁.bind fun a => o₂.bind fun b => some (a == b)) = some true ↔
      ∃ v, o₁ = some v ∧ o₂ = some v := by
  rcases o₁ with _ | a <;> rcases o₂ with _ | b <;> simp
  exact ⟨Eq.symm, Eq.symm⟩

/-- The verifier checks exactly the non-zero conditions and the three equations: no range. -/
theorem DecProof.Verify_eq_some_true_iff (H : List Int → ℕ) (proof : DecProof)
    (stmt : DecStatement) (rp : RingPedersenParams) :
    DecProof.Verify H (some proof) stmt rp = some true ↔
      proof.Accepts stmt rp (proof.GetChallenge H stmt rp) := by
  simp only [DecProof.Verify, IsZero, Bool.or_eq_true, beq_iff_eq, Option.bind_eq_bind,
    Option.pure_def]
  by_cases h0 : stmt.N0 ≤ 0
  · rw [if_pos h0]
    exact ⟨nofun, fun h => absurd h.N0_pos (not_lt.mpr h0)⟩
  by_cases hz : proof.W = 0 ∨ proof.A = 0
  · rw [if_neg h0, if_pos hz]
    exact ⟨nofun, fun h => (hz.elim h.W_ne_zero h.A_ne_zero).elim⟩
  rw [if_neg h0, if_neg hz, bind_bind_ite_eq_some, bind_bind_ite_eq_some, bind_bind_beq_eq_some]
  obtain ⟨hW, hA⟩ := not_or.mp hz
  exact ⟨fun ⟨h₁, h₂, h₃⟩ => ⟨lt_of_not_le h0, hW, hA, h₁, h₂, h₃⟩,
    fun h => ⟨h.paillier, h.modQ, h.ringPedersen⟩⟩

/-! ## The verifier checks no range -/

/-- The ranges the comments of `DecProof` give its fields, with `ell + epsilon` from
`NewEll`, read as closed intervals for `Z1` and `Z2`. -/
def DecProof.InDeclaredRange (proof : DecProof) (stmt : DecStatement) (rp : RingPedersenParams) :
    Prop :=
  let b := (NewEll stmt.Ell).TwoPowEllPlusEpsilon
  (1 ≤ proof.S ∧ proof.S < rp.N) ∧ (1 ≤ proof.T ∧ proof.T < rp.N) ∧
    (1 ≤ proof.A ∧ proof.A < stmt.N0 * stmt.N0) ∧ (0 ≤ proof.Gamma ∧ proof.Gamma < stmt.Q) ∧
    (-b ≤ proof.Z1 ∧ proof.Z1 ≤ b) ∧ (-(b * rp.N) ≤ proof.Z2 ∧ proof.Z2 ≤ b * rp.N) ∧
    (1 ≤ proof.W ∧ proof.W < stmt.N0)

/-- Every challenge accepts this proof, whose `Z1 = 16` lies outside `± 2^(1 + 2)`. -/
theorem DecProof.Verify_accepts_out_of_range :
    (∀ H : List Int → ℕ,
      DecProof.Verify H (some ⟨1, 1, 1, 1, 16, 0, 1⟩) ⟨3, 1, 2, 1, 0⟩ ⟨2, 3, 5⟩ = some true) ∧
        ¬ DecProof.InDeclaredRange ⟨1, 1, 1, 1, 16, 0, 1⟩ ⟨3, 1, 2, 1, 0⟩ ⟨2, 3, 5⟩ := by
  refine ⟨fun H => ?_, by simp [DecProof.InDeclaredRange, NewEll, twoPow]⟩
  simp [DecProof.Verify, IsZero, PublicKey.EncryptWithRandomnessNoErrChk, PseudoPaillierEncrypt,
    PublicKey.NSquare, ATimesBToTheCModN, RingPedersenParams.Commit, ModInt.Exp, ModInt.Mul, Exp,
    Mod, APlusBC]

/-- `Verify` reads `W` only through its class modulo `N0`, once it is not zero: no range of
`W` is checked, and an accepted proof stays accepted with `W + N0`, outside `[1, N0)`. -/
theorem DecProof.Verify_checks_no_range (H : List Int → ℕ) (proof : DecProof)
    (stmt : DecStatement) (rp : RingPedersenParams) {W : ℤ} (hW : W ≡ proof.W [ZMOD stmt.N0])
    (hW0 : W ≠ 0) (hp0 : proof.W ≠ 0) :
    DecProof.Verify H (some { proof with W := W }) stmt rp =
      DecProof.Verify H (some proof) stmt rp := by
  obtain ⟨Q, Ell, N0, C, X⟩ := stmt
  by_cases h0 : N0 ≤ 0
  · simp [DecProof.Verify, h0]
  lift N0 to ℕ using (by omega)
  simp only [DecProof.Verify, h0, if_false, IsZero, Bool.or_eq_true, beq_iff_eq, hW0, hp0,
    false_or, PublicKey.EncryptWithRandomnessNoErrChk_congr _ hW]
  rfl

theorem DecProof.Verify_checks_no_range_mod_two :
    (3 : ℤ) ≡ 1 [ZMOD 2] ∧ (3 : ℤ) ≠ 0 ∧ (1 : ℤ) ≠ 0 ∧
      DecProof.Verify (fun _ => 0) (some ⟨1, 1, 1, 1, 16, 0, 3⟩) ⟨3, 1, 2, 1, 0⟩ ⟨2, 3, 5⟩ =
        DecProof.Verify (fun _ => 0) (some ⟨1, 1, 1, 1, 16, 0, 1⟩) ⟨3, 1, 2, 1, 0⟩ ⟨2, 3, 5⟩ :=
  ⟨by decide, by decide, by decide, DecProof.Verify_checks_no_range (fun _ => 0)
    ⟨1, 1, 1, 1, 16, 0, 1⟩ ⟨3, 1, 2, 1, 0⟩ ⟨2, 3, 5⟩ (by decide) (by decide) (by decide)⟩

/-! ## What two accepted transcripts bind -/

theorem DecProof.Accepts.modEq {proof : DecProof} {stmt : DecStatement} {rp : RingPedersenParams}
    {e : ℤ} (he : 0 ≤ e) (h : proof.Accepts stmt rp e) :
    proof.Z1 ≡ proof.Gamma + e * stmt.X [ZMOD stmt.Q] ∧
    (∃ v, (PublicKey.mk stmt.N0).EncryptWithRandomnessNoErrChk proof.Z1 proof.W = some v ∧
      v ≡ proof.A * stmt.C ^ e.toNat [ZMOD stmt.N0 * stmt.N0]) ∧
    (∃ v, rp.Commit proof.Z1 proof.Z2 = some v ∧ v ≡ proof.T * proof.S ^ e.toNat [ZMOD rp.N]) := by
  obtain ⟨v, hz, hg⟩ := h.modQ
  obtain ⟨w, hw, hwa⟩ := h.paillier
  obtain ⟨c, hc, hca⟩ := h.ringPedersen
  exact ⟨(Mod_modEq hz).symm.trans (Mod_modEq hg), ⟨w, hw, ATimesBToTheCModN_modEq he hwa⟩,
    ⟨c, hc, ATimesBToTheCModN_modEq he hca⟩⟩

/-- Two proofs with the same commitments accepted under two challenges (the hash
reprogrammed between them): `Z1₁ - Z1₂` is `(e₁ - e₂) X` modulo `q`, and the Paillier
values and the commitments of their responses are related by `C^e` and `S^e`. -/
theorem DecProof.Verify_two_challenges (H₁ H₂ : List Int → ℕ) (p₁ p₂ : DecProof)
    (stmt : DecStatement) (rp : RingPedersenParams) (hS : p₂.S = p₁.S) (hT : p₂.T = p₁.T)
    (hA : p₂.A = p₁.A) (hΓ : p₂.Gamma = p₁.Gamma)
    (h₁ : DecProof.Verify H₁ (some p₁) stmt rp = some true)
    (h₂ : DecProof.Verify H₂ (some p₂) stmt rp = some true) :
    let e₁ := p₁.GetChallenge H₁ stmt rp
    let e₂ := p₂.GetChallenge H₂ stmt rp
    p₁.Z1 - p₂.Z1 ≡ (e₁ - e₂) * stmt.X [ZMOD stmt.Q] ∧
    (∃ v₁ v₂, (PublicKey.mk stmt.N0).EncryptWithRandomnessNoErrChk p₁.Z1 p₁.W = some v₁ ∧
      (PublicKey.mk stmt.N0).EncryptWithRandomnessNoErrChk p₂.Z1 p₂.W = some v₂ ∧
      v₁ * stmt.C ^ e₂.toNat ≡ v₂ * stmt.C ^ e₁.toNat [ZMOD stmt.N0 * stmt.N0]) ∧
    (∃ v₁ v₂, rp.Commit p₁.Z1 p₁.Z2 = some v₁ ∧ rp.Commit p₂.Z1 p₂.Z2 = some v₂ ∧
      v₁ * p₁.S ^ e₂.toNat ≡ v₂ * p₁.S ^ e₁.toNat [ZMOD rp.N]) := by
  intro e₁ e₂
  obtain ⟨hq₁, ⟨w₁, hw₁, hpw₁⟩, ⟨c₁, hc₁, hrc₁⟩⟩ :=
    ((DecProof.Verify_eq_some_true_iff H₁ p₁ stmt rp).mp h₁).modEq (DecProof.GetChallenge_nonneg ..)
  obtain ⟨hq₂, ⟨w₂, hw₂, hpw₂⟩, ⟨c₂, hc₂, hrc₂⟩⟩ :=
    ((DecProof.Verify_eq_some_true_iff H₂ p₂ stmt rp).mp h₂).modEq (DecProof.GetChallenge_nonneg ..)
  rw [hΓ] at hq₂
  rw [hA] at hpw₂
  rw [hS, hT] at hrc₂
  refine ⟨?_, ⟨w₁, w₂, hw₁, hw₂, ?_⟩, ⟨c₁, c₂, hc₁, hc₂, ?_⟩⟩
  · have h := hq₁.sub hq₂
    rwa [show p₁.Gamma + e₁ * stmt.X - (p₁.Gamma + e₂ * stmt.X) = (e₁ - e₂) * stmt.X by ring] at h
  · refine (hpw₁.mul_right _).trans ?_
    rw [mul_right_comm]
    exact (hpw₂.mul_right _).symm
  · refine (hrc₁.mul_right _).trans ?_
    rw [mul_right_comm]
    exact (hrc₂.mul_right _).symm

theorem DecProof.Verify_two_challenges_zero_one :
    (DecProof.Verify (fun _ => 0) (some ⟨1, 1, 1, 1, 16, 0, 1⟩) ⟨3, 1, 2, 1, 0⟩ ⟨2, 3, 5⟩ =
        some true ∧
      DecProof.Verify (fun _ => 1) (some ⟨1, 1, 1, 1, 16, 0, 1⟩) ⟨3, 1, 2, 1, 0⟩ ⟨2, 3, 5⟩ =
        some true) ∧
    let p : DecProof := ⟨1, 1, 1, 1, 16, 0, 1⟩
    let stmt : DecStatement := ⟨3, 1, 2, 1, 0⟩
    let rp : RingPedersenParams := ⟨2, 3, 5⟩
    let e₁ := p.GetChallenge (fun _ => 0) stmt rp
    let e₂ := p.GetChallenge (fun _ => 1) stmt rp
    p.Z1 - p.Z1 ≡ (e₁ - e₂) * stmt.X [ZMOD stmt.Q] ∧
    (∃ v₁ v₂, (PublicKey.mk stmt.N0).EncryptWithRandomnessNoErrChk p.Z1 p.W = some v₁ ∧
      (PublicKey.mk stmt.N0).EncryptWithRandomnessNoErrChk p.Z1 p.W = some v₂ ∧
      v₁ * stmt.C ^ e₂.toNat ≡ v₂ * stmt.C ^ e₁.toNat [ZMOD stmt.N0 * stmt.N0]) ∧
    (∃ v₁ v₂, rp.Commit p.Z1 p.Z2 = some v₁ ∧ rp.Commit p.Z1 p.Z2 = some v₂ ∧
      v₁ * p.S ^ e₂.toNat ≡ v₂ * p.S ^ e₁.toNat [ZMOD rp.N]) :=
  have h₁ : DecProof.Verify (fun _ => 0) (some ⟨1, 1, 1, 1, 16, 0, 1⟩) ⟨3, 1, 2, 1, 0⟩
      ⟨2, 3, 5⟩ = some true := by decide
  have h₂ : DecProof.Verify (fun _ => 1) (some ⟨1, 1, 1, 1, 16, 0, 1⟩) ⟨3, 1, 2, 1, 0⟩
      ⟨2, 3, 5⟩ = some true := by decide
  ⟨⟨h₁, h₂⟩, DecProof.Verify_two_challenges _ _ _ _ _ _ rfl rfl rfl rfl h₁ h₂⟩

/-! ## Zero knowledge -/

/-- The honest-verifier simulator: for a challenge `e` fixed first and responses
`(z₁, z₂, w)`, the commitments `A`, `Gamma` and `T` that solve the verifier's three
equations at `e`, for any `S`, computed with the code's helpers at the exponent `-e`. It
reads no witness. -/
def DecProof.Simulate (stmt : DecStatement) (rp : RingPedersenParams) (S e z₁ z₂ w : Int) :
    Option DecProof := do
  let pkN0 : PublicKey := ⟨stmt.N0⟩
  let A ← (pkN0.EncryptWithRandomnessNoErrChk z₁ w).bind fun c =>
    ATimesBToTheCModN c stmt.C (-e) pkN0.NSquare
  let Gamma ← Mod (APlusBC z₁ (-e) stmt.X) stmt.Q
  let T ← (rp.Commit z₁ z₂).bind fun c => ATimesBToTheCModN c S (-e) rp.N
  pure ⟨S, T, A, Gamma, z₁, z₂, w⟩

theorem DecProof.paillier_complete {n₀ : ℕ} (hn₀ : 0 < n₀) {A C W r ρ : ℤ} {α y e : ℕ}
    (hA : (A : ZMod (n₀ * n₀)) = ((n₀ : ZMod (n₀ * n₀)) + 1) ^ α * (r : ZMod (n₀ * n₀)) ^ n₀)
    (hC : (C : ZMod (n₀ * n₀)) = (1 + (n₀ : ZMod (n₀ * n₀))) ^ y * (ρ : ZMod (n₀ * n₀)) ^ n₀)
    (hW : (n₀ : ℤ) ∣ W - r * ρ ^ e) :
    ∃ v, (PublicKey.mk n₀).EncryptWithRandomnessNoErrChk ((α + e * y : ℕ) : ℤ) W = some v ∧
      ATimesBToTheCModN A C e (PublicKey.mk n₀).NSquare = some v := by
  have hsq : (PublicKey.mk n₀).NSquare = ((n₀ * n₀ : ℕ) : ℤ) := by simp [PublicKey.NSquare]
  have hpos : 0 < n₀ * n₀ := Nat.mul_pos hn₀ hn₀
  rw [PublicKey.EncryptWithRandomnessNoErrChk, hsq]
  refine ((PseudoPaillierEncrypt_residueOf hpos _ W (Int.natCast_nonneg _)
    (Int.natCast_nonneg n₀))).exists_eq ((ATimesBToTheCModN_residueOf hpos A C
    (Int.natCast_nonneg e)).congr ?_)
  simp only [Int.toNat_natCast, hA, hC]
  push_cast
  rw [pow_eq_of_dvd_sub hW]
  push_cast
  ring

theorem DecProof.modQ_complete {q : ℕ} (hq : 0 < q) {γ X : ℤ} {α y e : ℕ}
    (hγ : (γ : ZMod q) = α) (hX : (X : ZMod q) = y) :
    ∃ v, Mod ((α + e * y : ℕ) : ℤ) q = some v ∧ Mod (APlusBC γ e X) q = some v :=
  (Mod_residueOf hq _).exists_eq ((Mod_residueOf hq _).congr (by simp [APlusBC, hγ, hX]))

theorem DecProof.ringPedersen_complete {nt : ℕ} (hnt : 0 < nt) (s t : ℤ) {Sc Tc : ℤ}
    {α y μ ν e : ℕ} (hS : (Sc : ZMod nt) = (s : ZMod nt) ^ y * (t : ZMod nt) ^ μ)
    (hT : (Tc : ZMod nt) = (s : ZMod nt) ^ α * (t : ZMod nt) ^ ν) :
    ∃ v, (RingPedersenParams.mk s t nt).Commit ((α + e * y : ℕ) : ℤ) ((ν + e * μ : ℕ) : ℤ) =
      some v ∧ ATimesBToTheCModN Tc Sc e nt = some v :=
  (Commit_residueOf hnt s t (Int.natCast_nonneg _) (Int.natCast_nonneg _)).exists_eq
    ((ATimesBToTheCModN_residueOf hnt Tc Sc (Int.natCast_nonneg e)).congr (by
      simp only [Int.toNat_natCast, hS, hT]; ring))

/-- Completeness: an honest proof verifies, for every modulus, witness, randomness and
hash. -/
theorem NewDecProof_complete (H : List Int → ℕ) (wit : DecWitness) (stmt : DecStatement)
    (rp : RingPedersenParams) (alpha mu nu r : Int)
    (hN0 : 2 ≤ stmt.N0) (hQ : 1 ≤ stmt.Q) (hN : 0 < rp.N)
    (hy : 0 ≤ wit.Y) (hρ : Int.gcd wit.Rho stmt.N0 = 1)
    (hC : stmt.C = (1 + stmt.N0) ^ wit.Y.toNat * wit.Rho ^ stmt.N0.toNat % stmt.N0 ^ 2)
    (hX : stmt.X ≡ wit.Y [ZMOD stmt.Q])
    (hα : 0 ≤ alpha) (hμ : 0 ≤ mu) (hν : 0 ≤ nu) (hr : Int.gcd r stmt.N0 = 1) :
    ∃ p, NewDecProof H wit stmt rp alpha mu nu r = some p ∧
      DecProof.Verify H (some p) stmt rp = some true := by
  obtain ⟨Q, Ell, N0, C, X⟩ := stmt
  obtain ⟨y, ρ⟩ := wit
  obtain ⟨s, t, Nt⟩ := rp
  dsimp only at *
  lift N0 to ℕ using (by omega)
  lift Q to ℕ using (by omega)
  lift Nt to ℕ using hN.le
  lift y to ℕ using hy
  lift alpha to ℕ using hα
  lift mu to ℕ using hμ
  lift nu to ℕ using hν
  simp only [Int.toNat_natCast] at hC
  have hN0' : 0 < N0 := by omega
  -- the prover's commitments and the challenge
  obtain ⟨S, hS, -, -, hSv⟩ := Commit_residueOf (by omega : 0 < Nt) s t
    (Int.natCast_nonneg y) (Int.natCast_nonneg mu)
  obtain ⟨T, hT, -, -, hTv⟩ := Commit_residueOf (by omega : 0 < Nt) s t
    (Int.natCast_nonneg alpha) (Int.natCast_nonneg nu)
  obtain ⟨A, hA, -, -, hAv⟩ := PseudoPaillierEncrypt_residueOf (Nat.mul_pos hN0' hN0')
    ((N0 : ℤ) + 1) r (Int.natCast_nonneg alpha) (Int.natCast_nonneg N0)
  obtain ⟨γ, hγ, -, -, hγv⟩ := Mod_residueOf (by omega : 0 < Q) (alpha : ℤ)
  obtain ⟨e, he⟩ : ∃ e : ℕ, (DecProof.mk S T A γ 0 0 0).GetChallenge H ⟨Q, Ell, N0, C, X⟩
      ⟨s, t, Nt⟩ = e := ⟨_, rfl⟩
  obtain ⟨W, hW, -, -, hWv⟩ := ATimesBToTheCModN_residueOf hN0' r ρ (Int.natCast_nonneg e)
  simp only [Int.toNat_natCast] at hSv hTv hAv hWv
  push_cast at hA
  refine ⟨⟨S, T, A, γ, APlusBC alpha e y, APlusBC nu e mu, W⟩, ?_, ?_⟩
  · simp [NewDecProof, hS, hT, PublicKey.EncryptWithRandomnessNoErrChk, PublicKey.NSquare, hA,
      hγ, he, hW]
  -- the verifier recomputes the same challenge
  rw [DecProof.Verify_eq_some_true_iff]
  rw [show DecProof.GetChallenge H ⟨S, T, A, γ, APlusBC alpha e y, APlusBC nu e mu, W⟩ _ _ = e
    from he]
  have hz₁ : APlusBC (alpha : ℤ) e y = ((alpha + e * y : ℕ) : ℤ) := by simp [APlusBC]
  have hz₂ : APlusBC (nu : ℤ) e mu = ((nu + e * mu : ℕ) : ℤ) := by simp [APlusBC]
  rw [hz₁, hz₂]
  have hAz : (A : ZMod (N0 * N0)) =
      ((N0 : ZMod (N0 * N0)) + 1) ^ alpha * (r : ZMod (N0 * N0)) ^ N0 := by
    simpa using hAv
  have hCz : (C : ZMod (N0 * N0)) =
      (1 + (N0 : ZMod (N0 * N0))) ^ y * (ρ : ZMod (N0 * N0)) ^ N0 := by
    rw [hC, show (N0 : ℤ) ^ 2 = ((N0 * N0 : ℕ) : ℤ) by push_cast; ring, ZMod.intCast_mod]
    push_cast; rfl
  have hWd : (N0 : ℤ) ∣ W - r * ρ ^ e :=
    (ZMod.intCast_eq_intCast_iff_dvd_sub _ _ _).mp (by rw [hWv]; push_cast; rfl)
  refine ⟨show (0 : ℤ) < N0 by omega, ?_, ?_, DecProof.paillier_complete hN0' hAz hCz hWd,
    DecProof.modQ_complete (by omega) (hγv.trans (Int.cast_natCast alpha)) ?_,
    DecProof.ringPedersen_complete (by omega) s t hSv hTv⟩
  · exact ne_zero_of_unit (n := N0) (by omega) (unitOfGcd N0 r hr * unitOfGcd N0 ρ hρ ^ e)
      (by rw [hWv]; rfl)
  · exact ne_zero_of_unit (n := N0 * N0) (le_trans (by omega) (Nat.le_mul_of_pos_right N0 hN0'))
      (unitOfGcd _ _ (gcd_succ_mul_self N0) ^ alpha * unitOfGcd _ r (gcd_mul_self_eq_one hr) ^ N0)
      (by rw [hAv]; simp)
  · exact ((ZMod.intCast_eq_intCast_iff _ _ _).mpr hX).trans (by push_cast; rfl)

theorem NewDecProof_complete_mod_two :
    2 ≤ (2 : ℤ) ∧ 1 ≤ (1 : ℤ) ∧ 0 < (5 : ℤ) ∧ 0 ≤ (1 : ℤ) ∧ Int.gcd 1 2 = 1 ∧
      (3 : ℤ) = (1 + 2) ^ (1 : ℤ).toNat * 1 ^ (2 : ℤ).toNat % 2 ^ 2 ∧ (0 : ℤ) ≡ 1 [ZMOD 1] ∧
      0 ≤ (1 : ℤ) ∧ 0 ≤ (1 : ℤ) ∧ 0 ≤ (1 : ℤ) ∧ Int.gcd 1 2 = 1 ∧
      ∃ p, NewDecProof (fun _ => 5) ⟨1, 1⟩ ⟨1, 1, 2, 3, 0⟩ ⟨2, 3, 5⟩ 1 1 1 1 = some p ∧
        DecProof.Verify (fun _ => 5) (some p) ⟨1, 1, 2, 3, 0⟩ ⟨2, 3, 5⟩ = some true :=
  ⟨by decide, by decide, by decide, by decide, by decide, by decide, by decide, by decide,
    by decide, by decide, by decide,
    NewDecProof_complete (fun _ => 5) ⟨1, 1⟩ ⟨1, 1, 2, 3, 0⟩ ⟨2, 3, 5⟩ 1 1 1 1 (by decide)
      (by decide) (by decide) (by decide) (by decide) (by decide) (by decide) (by decide)
      (by decide) (by decide) (by decide)⟩

/-! ## The zero class of `W` and `A` -/

theorem DecProof.paillier_zero_class {n₀ : ℕ} (hn₀ : 2 ≤ n₀) (Z1 C : ℤ) (e : ℕ) :
    ∃ v, (PublicKey.mk n₀).EncryptWithRandomnessNoErrChk Z1 n₀ = some v ∧
      ATimesBToTheCModN (n₀ * n₀) C e (PublicKey.mk n₀).NSquare = some v := by
  have hsq : (PublicKey.mk n₀).NSquare = ((n₀ * n₀ : ℕ) : ℤ) := by simp [PublicKey.NSquare]
  have hpos : 0 < n₀ * n₀ := Nat.mul_pos (by omega) (by omega)
  have hzero : ((n₀ : ZMod (n₀ * n₀)) ^ n₀) = 0 := by
    rw [← Nat.sub_add_cancel hn₀, pow_add, sq, ← Nat.cast_mul, ZMod.natCast_self, mul_zero]
  rw [PublicKey.EncryptWithRandomnessNoErrChk, PseudoPaillierEncrypt, hsq]
  refine ResidueOf.exists_eq (z := 0) ((Exp_residueOf_zpow_sign hpos (gcd_succ_mul_self n₀) Z1).bind
    fun g _ => (Exp_residueOf hpos n₀ (Int.natCast_nonneg n₀)).bind fun x hx =>
      (ModInt.Mul_residueOf hpos g x).congr ?_) ((ATimesBToTheCModN_residueOf hpos _ C
        (Int.natCast_nonneg e)).congr ?_)
  · rw [hx, Int.toNat_natCast, Int.cast_natCast, hzero, mul_zero]
  · push_cast
    rw [← Nat.cast_mul, ZMod.natCast_self, zero_mul]

/-- The non-zero checks of `Verify` (`IsZero(proof.W) || IsZero(proof.A)`, "otherwise first
verification equation trivially true") let `W = N0` and `A = N0²` through, on which that
equation is trivially true. For every statement with `N0 ≥ 2` and `q ≥ 1`, whatever `C` and
`X`, and every Ring-Pedersen modulus, there is such a proof that `Verify` accepts: the
prover's other steps with `y = X mod q`, and no witness. -/
theorem DecProof.Verify_accepts_zero_class (H : List Int → ℕ) (stmt : DecStatement)
    (rp : RingPedersenParams) (hN0 : 2 ≤ stmt.N0) (hQ : 1 ≤ stmt.Q) (hN : 0 < rp.N) :
    ∃ p : DecProof, p.W = stmt.N0 ∧ p.A = stmt.N0 * stmt.N0 ∧
      DecProof.Verify H (some p) stmt rp = some true := by
  obtain ⟨Q, Ell, N0, C, X⟩ := stmt
  obtain ⟨s, t, Nt⟩ := rp
  dsimp only at *
  lift N0 to ℕ using (by omega)
  lift Q to ℕ using (by omega)
  lift Nt to ℕ using hN.le
  obtain ⟨y, hy⟩ : ∃ y : ℕ, (y : ℤ) = X % Q :=
    ⟨(X % Q).toNat, Int.toNat_of_nonneg (Int.emod_nonneg _ (by omega))⟩
  -- the commitments of `y` with zero randomness, and `alpha = 0`
  obtain ⟨S, hS, -, -, hSv⟩ := Commit_residueOf (by omega : 0 < Nt) s t
    (Int.natCast_nonneg y) (le_refl 0)
  obtain ⟨T, hT, -, -, hTv⟩ := Commit_residueOf (by omega : 0 < Nt) s t (le_refl 0) (le_refl 0)
  obtain ⟨γ, hγ, -, -, hγv⟩ := Mod_residueOf (by omega : 0 < Q) 0
  obtain ⟨e, he⟩ : ∃ e : ℕ, (DecProof.mk S T (N0 * N0) γ 0 0 0).GetChallenge H
      ⟨Q, Ell, N0, C, X⟩ ⟨s, t, Nt⟩ = e := ⟨_, rfl⟩
  refine ⟨⟨S, T, N0 * N0, γ, ((0 + e * y : ℕ) : ℤ), ((0 + e * 0 : ℕ) : ℤ), N0⟩, rfl, rfl, ?_⟩
  rw [DecProof.Verify_eq_some_true_iff]
  rw [show DecProof.GetChallenge H ⟨S, T, N0 * N0, γ, _, _, N0⟩ _ _ = e from he]
  simp only [Int.toNat_natCast, Nat.cast_ofNat, Int.toNat_zero] at hSv hTv
  refine ⟨show (0 : ℤ) < N0 by omega, show (N0 : ℤ) ≠ 0 by omega,
    show (N0 : ℤ) * N0 ≠ 0 by positivity,
    DecProof.paillier_zero_class (by omega) _ C e,
    DecProof.modQ_complete (by omega) (hγv.trans (by simp)) ?_,
    DecProof.ringPedersen_complete (by omega) s t hSv hTv⟩
  rw [← Int.cast_natCast y, hy, ZMod.intCast_mod]

theorem DecProof.Verify_accepts_zero_class_mod_five :
    2 ≤ (5 : ℤ) ∧ 1 ≤ (3 : ℤ) ∧ 0 < (5 : ℤ) ∧
      ∃ p : DecProof, p.W = 5 ∧ p.A = 5 * 5 ∧
        DecProof.Verify (fun _ => 1) (some p) ⟨3, 1, 5, 5, 2⟩ ⟨2, 3, 5⟩ = some true :=
  ⟨by decide, by decide, by decide, DecProof.Verify_accepts_zero_class (fun _ => 1)
    ⟨3, 1, 5, 5, 2⟩ ⟨2, 3, 5⟩ (by decide) (by decide) (by decide)⟩

end MpcLib
