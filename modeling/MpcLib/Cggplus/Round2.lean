import MpcLib.ZkProofs.Utils
import MpcLib.Tss.Error
import Mathlib.Logic.Function.Basic

/-!
# Signing round 2: the fan-out of `round2.Start`

`Start` sets `pointGamma[i] = gamma·G`, reads the peers' round-1 ciphertexts and launches
three goroutines per peer `j ≠ i`: `BobRespondsGamma`, `BobRespondsW` (the MtA with Bob's
input `gamma`, then `w`) and `ComputeProofPsiPrime` (a LogStar proof for `bigG[i]`). Each
one either sends one error on `errChs`, whose capacity is `3(n-1)`, or writes its results.
After `wg.Wait()` the round fails if the channel holds an error, and otherwise sends one
`SignRound2Message1` per peer and one `SignRound2Message2`.

The goroutines read only what `Start` set before launching them and write cells that no
other goroutine reads or writes, so we run each one atomically, in any order `order` the
scheduler picks.

* `runJobs_spec`: a run of distinct goroutines with room on the channel never blocks,
  sends exactly the failures, and leaves each goroutine's results in its own cells.
* `Start_fanOut`: for every order that is a permutation of the launched goroutines,
  `Start` returns; it fails exactly when a goroutine failed and then sends nothing, and
  otherwise sends one message per peer carrying that peer's results, then `Message2`.
* `Start_sent_recorded`: what a successful `Start` sent is its own row of the message
  table, one message per party.
-/

namespace MpcLib.Cggplus

/-- The values round 2 only passes along: curve points, round-1 message contents and the
proofs its collaborators build; and the routing flag `NewSignRound2Message1` gives its
message, which the source does not show. -/
structure Primitives where
  Point : Type
  SignRound1Message : Type
  EncProof : Type
  AffGInvProof : Type
  LogStarProof : Type
  Message1IsBroadcast : Bool

/-- Modelled from the spec: `round.WrapErrorChs` (not in the source) drains the closed error
channel; the round aborts with the aggregated error iff the channel is not empty (§5). -/
def WrapErrorChs (_culprit : ℕ) (errChs : List Tss.Error) (msg : String) : Option Tss.Error :=
  if errChs.isEmpty then none else some (Tss.WrapError msg (errChs.flatMap Tss.Error.Culprits))

/-- `SignRound2Message1(from, to, BigD, BigDHat, BigF, BigFHat, ψ[], ψHat[])` (§6). -/
structure SignRound2Message1 (V : Primitives) where
  From : ℕ
  To : ℕ
  BigD : ℤ
  BigDHat : ℤ
  BigF : ℤ
  BigFHat : ℤ
  Psi : List (Option V.AffGInvProof)
  PsiHat : List (Option V.AffGInvProof)

/-- `SignRound2Message2(from, pointGamma, ψ'[])`, the LogStar proofs indexed by verifier. -/
structure SignRound2Message2 (V : Primitives) where
  From : ℕ
  PointGamma : V.Point
  PsiPrime : ℕ → Option V.LogStarProof

/-- The content of a parsed message: round 2's two types, or any other. -/
inductive MessageContent (V : Primitives)
  | signRound2Message1 (m : SignRound2Message1 V)
  | signRound2Message2 (m : SignRound2Message2 V)
  | other

/-- `tss.ParsedMessage`: its content and its routing flag. -/
structure ParsedMessage (V : Primitives) where
  Content : MessageContent V
  IsBroadcast : Bool

/-- Modelled from the spec: `NewSignRound2Message1` (not in the source) builds the message
of §6 addressed to `toParty`. Its routing flag is `V.Message1IsBroadcast`: §6 lists the
message as P2P, while `CanAccept` accepts a `Message1` only when it is broadcast. -/
def NewSignRound2Message1 {V : Primitives} (toParty fromParty : ℕ)
    (bigD bigDHat bigF bigFHat : ℤ) (psi psiHat : List (Option V.AffGInvProof)) :
    ParsedMessage V :=
  ⟨.signRound2Message1 ⟨fromParty, toParty, bigD, bigDHat, bigF, bigFHat, psi, psiHat⟩,
    V.Message1IsBroadcast⟩

/-- Modelled from the spec: `NewSignRound2Message2` (not in the source) builds the broadcast
message of §6. -/
def NewSignRound2Message2 {V : Primitives} (fromParty : ℕ) (pointGamma : V.Point)
    (psiPrime : ℕ → Option V.LogStarProof) : ParsedMessage V :=
  ⟨.signRound2Message2 ⟨fromParty, pointGamma, psiPrime⟩, true⟩

/-- `zkproofs.LogStarWitness`. -/
structure LogStarWitness where
  X : ℤ
  Rho : ℤ

/-- `zkproofs.LogStarStatement`. -/
structure LogStarStatement (V : Primitives) where
  Ell : ℤ
  N0 : ℤ
  C : ℤ
  X : V.Point

/-- What round 2 reads of the key share `round.key`; `PaillierSK` is the public part of the
party's Paillier private key. -/
structure KeyData where
  PaillierPKs : ℕ → PublicKey
  PaillierSK : PublicKey
  GetRingPedersen : ℕ → RingPedersenParams

/-- The functions round 2 calls and this model does not, `none` standing for a non-nil
error. The arguments every call of a round shares (the curve, Bob's Paillier private key,
`rpVs` and `ringPedersenBobI`) are part of the function. -/
structure Collaborators (V : Primitives) where
  ScalarBaseMult : ℤ → V.Point
  UnmarshalBigG : V.SignRound1Message → ℤ
  UnmarshalBigK : V.SignRound1Message → ℤ
  UnmarshalPsi : V.SignRound1Message → Option (ℕ → Option V.EncProof)
  BobRespondsG : PublicKey → Option V.EncProof → ℤ → ℤ →
    Option (ℤ × ℤ × ℤ × List (Option V.AffGInvProof))
  DecryptFull : ℤ → Option (ℤ × ℤ)
  NewLogStarProof : LogStarWitness → LogStarStatement V → RingPedersenParams → V.LogStarProof

/-- The party: `len(round.Parties().IDs())`, `round.PartyID().Index`, the bit size of the
curve `round.Params().EC()` and its key. -/
structure Parameters where
  PartyCount : ℕ
  PartyIndex : ℕ
  PartyIndex_lt : PartyIndex < PartyCount
  BitSize : ℕ
  key : KeyData

/-- The fields of `localTempData` that round 2 reads or writes; a slice is a function of
the party index. The round-1 messages are stored with their content already a
`SignRound1Message`, as round 1's `Update` let them through. -/
structure LocalTempData (V : Primitives) where
  gamma : ℤ
  w : ℤ
  bigG : ℕ → ℤ
  bigK : ℕ → ℤ
  pointGamma : ℕ → V.Point
  beta : ℕ → ℤ
  betaHat : ℕ → ℤ
  bigD : ℕ → ℕ → ℤ
  bigDHat : ℕ → ℕ → ℤ
  bigF : ℕ → ℕ → ℤ
  bigFHat : ℕ → ℕ → ℤ
  signRound1Messages : ℕ → V.SignRound1Message
  signRound2Message1s : ℕ → ℕ → Option (ParsedMessage V)
  signRound2Message2s : ℕ → Option (ParsedMessage V)

/-- The round: its temporary data, the messages sent on `round.out` (oldest first), the
per-peer `ok` flags, `started` and `number`. -/
structure Round2 (V : Primitives) where
  temp : LocalTempData V
  out : List (ParsedMessage V)
  ok : ℕ → Bool
  started : Bool
  number : ℕ

/-- `m[i][j] = a` on a two-dimensional slice. -/
def set2 {α : Type} (m : ℕ → ℕ → α) (i j : ℕ) (a : α) : ℕ → ℕ → α :=
  Function.update m i (Function.update (m i) j a)

@[simp] theorem set2_apply {α : Type} (m : ℕ → ℕ → α) (i j : ℕ) (a : α) (k l : ℕ) :
    set2 m i j a k l = if k = i ∧ l = j then a else m k l := by
  by_cases hk : k = i
  · subst hk; by_cases hl : l = j <;> simp [set2, Function.update_apply, hl]
  · simp [set2, hk]

/-- Modelled from the spec: `round.resetOK()` (not in the source) clears every flag. -/
def resetOK (_ok : ℕ → Bool) : ℕ → Bool := fun _ => false

/-- `Make2DSlice[T](n)` (not in the source): `n` rows, each of `n` nil entries. -/
def Make2DSlice (α : Type) (n : ℕ) : ℕ → List (Option α) := fun _ => List.replicate n none

/-- What the goroutines share: `round.temp`, the slices `psi`, `psiHat` and `psiPrime` that
`Start` made, and the errors sent on `errChs`, oldest first. -/
structure FanOut (V : Primitives) where
  temp : LocalTempData V
  psi : ℕ → List (Option V.AffGInvProof)
  psiHat : ℕ → List (Option V.AffGInvProof)
  psiPrime : ℕ → Option V.LogStarProof
  errChs : List Tss.Error

/-- `errChs <- e` on a channel of capacity `cap`: nothing receives before `wg.Wait()`
returns, so a send on a full channel blocks for ever (`none`). -/
def FanOut.send {V : Primitives} (cap : ℕ) (s : FanOut V) (e : Tss.Error) : Option (FanOut V) :=
  if s.errChs.length < cap then some { s with errChs := s.errChs ++ [e] } else none

def errorOf {ε α : Type} : Except ε α → Option ε
  | .error e => some e
  | .ok _ => none

/-- The three goroutines `Start` launches for peer `j`. -/
inductive Job
  | bobRespondsGamma (j : ℕ)
  | bobRespondsW (j : ℕ)
  | computeProofPsiPrime (j : ℕ)
  deriving DecidableEq, Repr

section Start
variable {V : Primitives} (P : Parameters) (C : Collaborators V)

/-- The capacity of `errChs`: `(len(round.Parties().IDs()) - 1) * 3`. -/
def errCap : ℕ := (P.PartyCount - 1) * 3

/-- The peers, in the order of `range round.Parties().IDs()` with `j == i` skipped. -/
def peers : List ℕ := (List.range P.PartyCount).filter (· ≠ P.PartyIndex)

/-- The goroutines of `Start`, in the order the loop launches them. -/
def Jobs : List Job :=
  (peers P).flatMap fun j => [.bobRespondsGamma j, .bobRespondsW j, .computeProofPsiPrime j]

/-- The calls `BobRespondsGamma` and `BobRespondsW` make, with Bob's input `b`: unmarshal
`Pj`'s Enc proofs, then respond to `Pj`'s ciphertext `bigK[j]` under `Pj`'s key. -/
def bobRespondsCall (b : ℤ) (failed : String) (j : ℕ) (t : LocalTempData V) :
    Except Tss.Error (ℤ × ℤ × ℤ × List (Option V.AffGInvProof)) :=
  match C.UnmarshalPsi (t.signRound1Messages j) with
  | none => .error (Tss.WrapError "UnmarshalPsi failed" [j])
  | some psiAlice =>
    match C.BobRespondsG (P.key.PaillierPKs j) (psiAlice P.PartyIndex) b (t.bigK j) with
    | none => .error (Tss.WrapError failed [j])
    | some r => .ok r

/-- The body shared by `BobRespondsGamma` and `BobRespondsW`: send the error, or `store`
`(beta, bigD, bigF, pf)`. -/
def bobResponds (b : ℤ) (failed : String)
    (store : ℤ × ℤ × ℤ × List (Option V.AffGInvProof) → FanOut V) (j : ℕ) (s : FanOut V) :
    Option (FanOut V) :=
  match bobRespondsCall P C b failed j s.temp with
  | .error e => s.send (errCap P) e
  | .ok r => some (store r)

/-- `round.BobRespondsGamma(j, Pj, psi, &wg, errChs)`. -/
def BobRespondsGamma (j : ℕ) (s : FanOut V) : Option (FanOut V) :=
  bobResponds P C s.temp.gamma "BobResponds(gamma) failed"
    (fun (beta, bigD, bigF, pf) => { s with
      temp := { s.temp with
        beta := Function.update s.temp.beta j beta
        bigD := set2 s.temp.bigD P.PartyIndex j bigD
        bigF := set2 s.temp.bigF P.PartyIndex j bigF }
      psi := Function.update s.psi j pf }) j s

/-- `round.BobRespondsW(j, Pj, psiHat, &wg, errChs)`. -/
def BobRespondsW (j : ℕ) (s : FanOut V) : Option (FanOut V) :=
  bobResponds P C s.temp.w "BobResponds(w) failed"
    (fun (betaHat, bigDHat, bigFHat, pf) => { s with
      temp := { s.temp with
        betaHat := Function.update s.temp.betaHat j betaHat
        bigDHat := set2 s.temp.bigDHat P.PartyIndex j bigDHat
        bigFHat := set2 s.temp.bigFHat P.PartyIndex j bigFHat }
      psiHat := Function.update s.psiHat j pf }) j s

/-- The calls `ComputeProofPsiPrime` makes: decrypt the own `bigG[i]` for its randomness,
then prove `gamma` under `Pj`'s Ring-Pedersen parameters. -/
def psiPrimeCall (j : ℕ) (t : LocalTempData V) : Except Tss.Error V.LogStarProof :=
  match C.DecryptFull (t.bigG P.PartyIndex) with
  | none => .error (Tss.WrapError "Error decrypting bigG" [j])
  | some (_, rho) =>
    .ok (C.NewLogStarProof ⟨t.gamma, rho⟩
      ⟨GetEll P.BitSize, P.key.PaillierSK.N, t.bigG P.PartyIndex, t.pointGamma P.PartyIndex⟩
      (P.key.GetRingPedersen j))

/-- `round.ComputeProofPsiPrime(j, Pj, psiPrime, &wg, errChs)`. -/
def ComputeProofPsiPrime (j : ℕ) (s : FanOut V) : Option (FanOut V) :=
  match psiPrimeCall P C j s.temp with
  | .error e => s.send (errCap P) e
  | .ok pf => some { s with psiPrime := Function.update s.psiPrime j (some pf) }

/-- One goroutine, run to its end. -/
def Job.run : Job → FanOut V → Option (FanOut V)
  | .bobRespondsGamma j => BobRespondsGamma P C j
  | .bobRespondsW j => BobRespondsW P C j
  | .computeProofPsiPrime j => ComputeProofPsiPrime P C j

def Job.failure : Job → LocalTempData V → Option Tss.Error
  | .bobRespondsGamma j, t => errorOf (bobRespondsCall P C t.gamma "BobResponds(gamma) failed" j t)
  | .bobRespondsW j, t => errorOf (bobRespondsCall P C t.w "BobResponds(w) failed" j t)
  | .computeProofPsiPrime j, t => errorOf (psiPrimeCall P C j t)

/-- The goroutines, run one after another in the order the scheduler picked. -/
def runJobs : List Job → FanOut V → Option (FanOut V)
  | [], s => some s
  | job :: jobs, s => (job.run P C s).bind (runJobs jobs)

/-- One pass of the loop of `VerifyRound1Messages`: `Pj`'s `bigG` and `bigK`. -/
def verifyRound1Message (t : LocalTempData V) (j : ℕ) : LocalTempData V :=
  { t with
    bigG := Function.update t.bigG j (C.UnmarshalBigG (t.signRound1Messages j))
    bigK := Function.update t.bigK j (C.UnmarshalBigK (t.signRound1Messages j)) }

/-- `round.VerifyRound1Messages(errChs)`: it sends nothing on `errChs`. -/
def VerifyRound1Messages (t : LocalTempData V) : LocalTempData V :=
  (peers P).foldl (verifyRound1Message C) t

/-- `round.temp` when the goroutines are launched. -/
def launchTemp (t : LocalTempData V) : LocalTempData V :=
  VerifyRound1Messages P C
    { t with pointGamma := Function.update t.pointGamma P.PartyIndex (C.ScalarBaseMult t.gamma) }

/-- One pass of the sending loop: `signRound2Message1s[i][j] = r2msg1; round.out <- r2msg1`. -/
def sendMessage1 (psi psiHat : ℕ → List (Option V.AffGInvProof)) (round : Round2 V) (j : ℕ) :
    Round2 V :=
  let i := P.PartyIndex
  let r2msg1 := NewSignRound2Message1 j i (round.temp.bigD i j) (round.temp.bigDHat i j)
    (round.temp.bigF i j) (round.temp.bigFHat i j) (psi j) (psiHat j)
  { round with
    temp := { round.temp with
      signRound2Message1s := set2 round.temp.signRound2Message1s i j (some r2msg1) }
    out := round.out ++ [r2msg1] }

/-- What `Start` does after `wg.Wait()` when no goroutine failed. -/
def sendMessages (s : FanOut V) (round : Round2 V) : Round2 V :=
  let i := P.PartyIndex
  let round := (peers P).foldl (sendMessage1 P s.psi s.psiHat) { round with temp := s.temp }
  let r2msg2 := NewSignRound2Message2 i (round.temp.pointGamma i) s.psiPrime
  { round with
    temp := { round.temp with
      signRound2Message2s := Function.update round.temp.signRound2Message2s i (some r2msg2) }
    out := round.out ++ [r2msg2] }

/-- `round.Start()`, the goroutines run in the order `order`; `none` when a goroutine blocks
for ever on `errChs`. -/
def Round2.Start (order : List Job) (round : Round2 V) : Option (Option Tss.Error × Round2 V) :=
  if round.started then some (some (Tss.WrapError "round already started" []), round) else
  let i := P.PartyIndex
  let round := { round with
    number := 2, started := true, ok := Function.update (resetOK round.ok) i true }
  let s0 : FanOut V := ⟨launchTemp P C round.temp, Make2DSlice V.AffGInvProof P.PartyCount,
    Make2DSlice V.AffGInvProof P.PartyCount, fun _ => none, []⟩
  (runJobs P C order s0).map fun s =>
    match WrapErrorChs i s.errChs "Failed to process round 1 messages." with
    | some err => (some err, { round with temp := s.temp })
    | none => (none, sendMessages P s round)

end Start

/-! ## The goroutines do not interfere -/

structure LocalTempData.SameReads {V : Primitives} (t t' : LocalTempData V) : Prop where
  gamma : t'.gamma = t.gamma
  w : t'.w = t.w
  bigG : t'.bigG = t.bigG
  bigK : t'.bigK = t.bigK
  pointGamma : t'.pointGamma = t.pointGamma
  signRound1Messages : t'.signRound1Messages = t.signRound1Messages

theorem LocalTempData.SameReads.refl {V : Primitives} (t : LocalTempData V) : t.SameReads t :=
  ⟨rfl, rfl, rfl, rfl, rfl, rfl⟩

theorem LocalTempData.SameReads.trans {V : Primitives} {t t' t'' : LocalTempData V}
    (h : t.SameReads t') (h' : t'.SameReads t'') : t.SameReads t'' :=
  ⟨h'.gamma.trans h.gamma, h'.w.trans h.w, h'.bigG.trans h.bigG, h'.bigK.trans h.bigK,
    h'.pointGamma.trans h.pointGamma, h'.signRound1Messages.trans h.signRound1Messages⟩

theorem FanOut.send_eq_some {V : Primitives} {cap : ℕ} {s s' : FanOut V} {e : Tss.Error}
    (h : s.send cap e = some s') :
    s.errChs.length < cap ∧ s' = { s with errChs := s.errChs ++ [e] } := by
  unfold FanOut.send at h
  split at h
  · exact ⟨‹_›, (Option.some.inj h).symm⟩
  · cases h

section Jobs
variable {V : Primitives} (P : Parameters) (C : Collaborators V)

def Job.Done (t : LocalTempData V) (s : FanOut V) : Job → Prop
  | .bobRespondsGamma j => ∀ r, bobRespondsCall P C t.gamma "BobResponds(gamma) failed" j t = .ok r →
      (s.temp.beta j, s.temp.bigD P.PartyIndex j, s.temp.bigF P.PartyIndex j, s.psi j) = r
  | .bobRespondsW j => ∀ r, bobRespondsCall P C t.w "BobResponds(w) failed" j t = .ok r →
      (s.temp.betaHat j, s.temp.bigDHat P.PartyIndex j, s.temp.bigFHat P.PartyIndex j,
        s.psiHat j) = r
  | .computeProofPsiPrime j => ∀ pf, psiPrimeCall P C j t = .ok pf → s.psiPrime j = some pf

theorem bobRespondsCall_congr {t t' : LocalTempData V} (h : t.SameReads t') (b : ℤ)
    (failed : String) (j : ℕ) :
    bobRespondsCall P C b failed j t' = bobRespondsCall P C b failed j t := by
  simp only [bobRespondsCall, h.signRound1Messages, h.bigK]

theorem psiPrimeCall_congr {t t' : LocalTempData V} (h : t.SameReads t') (j : ℕ) :
    psiPrimeCall P C j t' = psiPrimeCall P C j t := by
  simp only [psiPrimeCall, h.bigG, h.gamma, h.pointGamma]

theorem Job.failure_congr {t t' : LocalTempData V} (h : t.SameReads t') (job : Job) :
    job.failure P C t' = job.failure P C t := by
  cases job <;> simp only [Job.failure, bobRespondsCall_congr P C h, h.gamma, h.w,
    psiPrimeCall_congr P C h]

theorem bobResponds_eq_some {b : ℤ} {failed : String}
    {store : ℤ × ℤ × ℤ × List (Option V.AffGInvProof) → FanOut V} {j : ℕ} {s s' : FanOut V}
    (h : bobResponds P C b failed store j s = some s') :
    (∃ e, bobRespondsCall P C b failed j s.temp = .error e ∧ s.errChs.length < errCap P ∧
      s' = { s with errChs := s.errChs ++ [e] }) ∨
    (∃ r, bobRespondsCall P C b failed j s.temp = .ok r ∧ s' = store r) := by
  unfold bobResponds at h
  split at h
  · exact .inl ⟨_, ‹_›, FanOut.send_eq_some h⟩
  · exact .inr ⟨_, ‹_›, (Option.some.inj h).symm⟩

theorem ComputeProofPsiPrime_eq_some {j : ℕ} {s s' : FanOut V}
    (h : ComputeProofPsiPrime P C j s = some s') :
    (∃ e, psiPrimeCall P C j s.temp = .error e ∧ s.errChs.length < errCap P ∧
      s' = { s with errChs := s.errChs ++ [e] }) ∨
    (∃ pf, psiPrimeCall P C j s.temp = .ok pf ∧
      s' = { s with psiPrime := Function.update s.psiPrime j (some pf) }) := by
  unfold ComputeProofPsiPrime at h
  split at h
  · exact .inl ⟨_, ‹_›, FanOut.send_eq_some h⟩
  · exact .inr ⟨_, ‹_›, (Option.some.inj h).symm⟩

theorem Job.run_cases {job : Job} {s s' : FanOut V} (h : job.run P C s = some s') :
    (∃ e, job.failure P C s.temp = some e ∧ s.errChs.length < errCap P ∧
      s' = { s with errChs := s.errChs ++ [e] }) ∨
    (job.failure P C s.temp = none ∧ s'.errChs = s.errChs ∧ s.temp.SameReads s'.temp ∧
      job.Done P C s.temp s' ∧
      (∀ t job', job' ≠ job → job'.Done P C t s → job'.Done P C t s') ∧
      ∀ j, job ≠ .computeProofPsiPrime j → s'.psiPrime j = s.psiPrime j) := by
  cases job with
  | bobRespondsGamma j =>
    rcases bobResponds_eq_some P C h with ⟨e, he, hlen, rfl⟩ | ⟨⟨beta, D, F, pf⟩, hr, rfl⟩
    · exact .inl ⟨e, by simp [Job.failure, he, errorOf], hlen, rfl⟩
    refine .inr ⟨by simp [Job.failure, hr, errorOf], rfl, ⟨rfl, rfl, rfl, rfl, rfl, rfl⟩,
      fun r hr' => by cases hr.symm.trans hr'; simp, fun t job' hne hd => ?_, fun _ _ => rfl⟩
    cases job' with
    | bobRespondsGamma j' =>
      have hj : j' ≠ j := fun hj => hne (hj ▸ rfl)
      exact fun r hr' => by simpa [hj] using hd r hr'
    | bobRespondsW j' => exact hd
    | computeProofPsiPrime j' => exact hd
  | bobRespondsW j =>
    rcases bobResponds_eq_some P C h with ⟨e, he, hlen, rfl⟩ | ⟨⟨beta, D, F, pf⟩, hr, rfl⟩
    · exact .inl ⟨e, by simp [Job.failure, he, errorOf], hlen, rfl⟩
    refine .inr ⟨by simp [Job.failure, hr, errorOf], rfl, ⟨rfl, rfl, rfl, rfl, rfl, rfl⟩,
      fun r hr' => by cases hr.symm.trans hr'; simp, fun t job' hne hd => ?_, fun _ _ => rfl⟩
    cases job' with
    | bobRespondsGamma j' => exact hd
    | bobRespondsW j' =>
      have hj : j' ≠ j := fun hj => hne (hj ▸ rfl)
      exact fun r hr' => by simpa [hj] using hd r hr'
    | computeProofPsiPrime j' => exact hd
  | computeProofPsiPrime j =>
    rcases ComputeProofPsiPrime_eq_some P C h with ⟨e, he, hlen, rfl⟩ | ⟨pf, hr, rfl⟩
    · exact .inl ⟨e, by simp [Job.failure, he, errorOf], hlen, rfl⟩
    refine .inr ⟨by simp [Job.failure, hr, errorOf], rfl, ⟨rfl, rfl, rfl, rfl, rfl, rfl⟩,
      fun r hr' => by cases hr.symm.trans hr'; simp, fun t job' hne hd => ?_,
      fun j' hne => Function.update_noteq (fun hj => hne (congrArg Job.computeProofPsiPrime hj.symm)) _ _⟩
    cases job' with
    | bobRespondsGamma j' => exact hd
    | bobRespondsW j' => exact hd
    | computeProofPsiPrime j' =>
      have hj : j' ≠ j := fun hj => hne (hj ▸ rfl)
      exact fun r hr' => by simpa [hj] using hd r hr'

theorem Job.run_isSome (job : Job) {s : FanOut V} (hs : s.errChs.length < errCap P) :
    ∃ s', job.run P C s = some s' := by
  cases job <;>
    simp only [Job.run, BobRespondsGamma, BobRespondsW, bobResponds, ComputeProofPsiPrime] <;>
    split <;> simp [FanOut.send, hs]

theorem Job.done_congr {t t' : LocalTempData V} (h : t.SameReads t') (job : Job)
    (s : FanOut V) : job.Done P C t' s ↔ job.Done P C t s := by
  cases job <;> simp only [Job.Done, bobRespondsCall_congr P C h, h.gamma, h.w,
    psiPrimeCall_congr P C h]

theorem Job.done_of_failure {t : LocalTempData V} {job : Job} {e : Tss.Error}
    (h : job.failure P C t = some e) (s : FanOut V) : job.Done P C t s := by
  cases job <;> simp only [Job.failure] at h <;> simp only [Job.Done] <;> intro r hr <;>
    simp [hr, errorOf] at h

theorem Job.run_step {t : LocalTempData V} {job : Job} {s s₁ : FanOut V}
    (ht : t.SameReads s.temp) (h : job.run P C s = some s₁) :
    t.SameReads s₁.temp ∧ s₁.errChs = s.errChs ++ (job.failure P C t).toList ∧
      job.Done P C t s₁ ∧ (∀ job', job' ≠ job → job'.Done P C t s → job'.Done P C t s₁) ∧
      ∀ j, job ≠ .computeProofPsiPrime j → s₁.psiPrime j = s.psiPrime j := by
  have hf := Job.failure_congr P C ht job
  rcases Job.run_cases P C h with ⟨e, he, -, rfl⟩ | ⟨he, herr, hr, hd, hfr, hpp⟩
  · rw [he] at hf
    exact ⟨ht, by rw [← hf]; rfl, Job.done_of_failure P C hf.symm _,
      fun _ _ hd => hd, fun _ _ => rfl⟩
  · rw [he] at hf
    exact ⟨ht.trans hr, by rw [herr, ← hf]; simp, (Job.done_congr P C ht job s₁).mp hd,
      fun job' hne => hfr t job' hne, hpp⟩

/-- A run of distinct goroutines from a state that reads like `t`, with room on the channel
for each of them, never blocks; it sends exactly their failures, in run order, leaves each
goroutine's results in its cells, and touches no cell of a goroutine it did not run. -/
theorem runJobs_spec (t : LocalTempData V) :
    ∀ (l : List Job) (s : FanOut V), l.Nodup → t.SameReads s.temp →
      s.errChs.length + l.length ≤ errCap P →
      ∃ s', runJobs P C l s = some s' ∧ t.SameReads s'.temp ∧
        s'.errChs = s.errChs ++ l.filterMap (Job.failure P C · t) ∧
        (∀ job ∈ l, job.Done P C t s') ∧
        (∀ job ∉ l, job.Done P C t s → job.Done P C t s') ∧
        ∀ j, .computeProofPsiPrime j ∉ l → s'.psiPrime j = s.psiPrime j
  | [], s, _, ht, _ => ⟨s, rfl, ht, by simp, by simp, fun _ _ hd => hd, fun _ _ => rfl⟩
  | job :: l, s, hnd, ht, hlen => by
    obtain ⟨hjob, hnd⟩ := List.nodup_cons.mp hnd
    rw [List.length_cons] at hlen
    obtain ⟨s₁, h₁⟩ := Job.run_isSome P C job (s := s) (by omega)
    obtain ⟨ht₁, herr₁, hd₁, hfr₁, hpp₁⟩ := Job.run_step P C ht h₁
    have hlen₁ : s₁.errChs.length + l.length ≤ errCap P := by
      rw [herr₁, List.length_append]
      have : (job.failure P C t).toList.length ≤ 1 := by cases job.failure P C t <;> simp
      omega
    obtain ⟨s', h', ht', herr', hd', hfr', hpp'⟩ := runJobs_spec t l s₁ hnd ht₁ hlen₁
    refine ⟨s', by rw [runJobs, h₁]; exact h', ht', ?_, ?_, ?_, ?_⟩
    · rw [herr', herr₁, List.filterMap_cons, List.append_assoc]
      cases job.failure P C t <;> rfl
    · rintro job' (_ | ⟨_, hmem⟩)
      · exact hfr' job hjob hd₁
      · exact hd' job' hmem
    · intro job' hnot hd
      rw [List.mem_cons, not_or] at hnot
      exact hfr' job' hnot.2 (hfr₁ job' hnot.1 hd)
    · intro j hnot
      rw [List.mem_cons, not_or] at hnot
      rw [hpp' j hnot.2, hpp₁ j (Ne.symm hnot.1)]

end Jobs

/-! ## `Start` -/

section StartSpec
variable {V : Primitives} (P : Parameters) (C : Collaborators V)

theorem mem_peers {j : ℕ} : j ∈ peers P ↔ j < P.PartyCount ∧ j ≠ P.PartyIndex := by
  simp [peers]

theorem peers_nodup : (peers P).Nodup := (List.nodup_range _).filter _

theorem peers_length : (peers P).length = P.PartyCount - 1 := by
  have h : peers P = (List.range P.PartyCount).erase P.PartyIndex := by
    rw [(List.nodup_range _).erase_eq_filter, peers]
    exact List.filter_congr fun x _ => by by_cases hx : x = P.PartyIndex <;> simp [hx]
  rw [h, List.length_erase_of_mem (List.mem_range.mpr P.PartyIndex_lt), List.length_range]

theorem Jobs_length : (Jobs P).length = errCap P := by
  simp [Jobs, errCap, List.length_flatMap, Function.comp_def, List.map_const', peers_length,
    mul_comm]

theorem Jobs_nodup : (Jobs P).Nodup :=
  List.nodup_flatMap.mpr ⟨fun _ _ => by simp, (peers_nodup P).imp fun hne => by simp [hne, hne.symm]⟩

theorem mem_Jobs_psiPrime {j : ℕ} : .computeProofPsiPrime j ∈ Jobs P ↔ j ∈ peers P := by
  simp [Jobs]

theorem foldl_verifyRound1Message : ∀ (l : List ℕ) (t : LocalTempData V),
    l.foldl (verifyRound1Message C) t =
      { t with bigG := (l.foldl (verifyRound1Message C) t).bigG
               bigK := (l.foldl (verifyRound1Message C) t).bigK }
  | [], _ => rfl
  | j :: l, t => by rw [List.foldl_cons, foldl_verifyRound1Message l]; rfl

theorem foldl_verifyRound1Message_apply : ∀ (l : List ℕ) (t : LocalTempData V) (j : ℕ),
    (l.foldl (verifyRound1Message C) t).bigG j =
        (if j ∈ l then C.UnmarshalBigG (t.signRound1Messages j) else t.bigG j) ∧
      (l.foldl (verifyRound1Message C) t).bigK j =
        (if j ∈ l then C.UnmarshalBigK (t.signRound1Messages j) else t.bigK j)
  | [], _, _ => ⟨rfl, rfl⟩
  | j' :: l, t, j => by
    rw [List.foldl_cons, (foldl_verifyRound1Message_apply l _ j).1,
      (foldl_verifyRound1Message_apply l _ j).2]
    by_cases hj : j = j' <;> by_cases hl : j ∈ l <;> simp [verifyRound1Message, hj, hl]

/-- `round.temp` when the goroutines are launched: `pointGamma[i] = gamma·G`, and each peer's
`bigG` and `bigK` unmarshalled from its round-1 message. -/
theorem launchTemp_eq (t : LocalTempData V) :
    launchTemp P C t = { t with
      pointGamma := Function.update t.pointGamma P.PartyIndex (C.ScalarBaseMult t.gamma)
      bigG := fun j => if j ∈ peers P then C.UnmarshalBigG (t.signRound1Messages j) else t.bigG j
      bigK := fun j => if j ∈ peers P then C.UnmarshalBigK (t.signRound1Messages j) else t.bigK j } := by
  rw [launchTemp, VerifyRound1Messages, foldl_verifyRound1Message]
  congr 1 <;> funext j
  exacts [(foldl_verifyRound1Message_apply C _ _ j).1, (foldl_verifyRound1Message_apply C _ _ j).2]

theorem launchTemp_pointGamma (t : LocalTempData V) :
    (launchTemp P C t).pointGamma P.PartyIndex = C.ScalarBaseMult t.gamma := by
  rw [launchTemp_eq]
  exact Function.update_same _ _ _

theorem foldl_sendMessage1 (psi psiHat : ℕ → List (Option V.AffGInvProof)) :
    ∀ (l : List ℕ) (r : Round2 V), l.foldl (sendMessage1 P psi psiHat) r =
      { r with
        temp := { r.temp with signRound2Message1s :=
          (l.foldl (sendMessage1 P psi psiHat) r).temp.signRound2Message1s }
        out := r.out ++ l.map fun j => NewSignRound2Message1 j P.PartyIndex
          (r.temp.bigD P.PartyIndex j) (r.temp.bigDHat P.PartyIndex j)
          (r.temp.bigF P.PartyIndex j) (r.temp.bigFHat P.PartyIndex j) (psi j) (psiHat j) }
  | [], _ => by simp
  | j :: l, r => by
    rw [List.foldl_cons, foldl_sendMessage1 psi psiHat l]
    simp [sendMessage1]

theorem errorOf_eq_none {ε α : Type} {x : Except ε α} : errorOf x = none ↔ ∃ r, x = .ok r := by
  cases x <;> simp [errorOf]

/-- What `Start` does once the goroutines ran on `round.temp = t`: it fails exactly when one
of them failed, and then sends nothing; otherwise it sends one `Message1` per peer, in
order, carrying that peer's two MtA results, then `Message2` with `gamma·G` and the LogStar
proofs, one per peer. -/
structure StartOutcome (t : LocalTempData V) (round : Round2 V) (err : Option Tss.Error)
    (round' : Round2 V) : Prop where
  fails_iff : err.isSome ↔ ∃ job ∈ Jobs P, (job.failure P C t).isSome
  out_of_error : err.isSome → round'.out = round.out
  out_of_ok : err = none → ∃ msgs psiPrime,
    round'.out = round.out ++ msgs ++
      [NewSignRound2Message2 P.PartyIndex (C.ScalarBaseMult round.temp.gamma) psiPrime] ∧
    List.Forall₂ (fun j m => ∃ beta bigD bigF pf betaHat bigDHat bigFHat pfHat,
        bobRespondsCall P C t.gamma "BobResponds(gamma) failed" j t = .ok (beta, bigD, bigF, pf) ∧
        bobRespondsCall P C t.w "BobResponds(w) failed" j t =
          .ok (betaHat, bigDHat, bigFHat, pfHat) ∧
        m = NewSignRound2Message1 j P.PartyIndex bigD bigDHat bigF bigFHat pf pfHat)
      (peers P) msgs ∧
    ∀ j, (j ∈ peers P → ∃ pf, psiPrimeCall P C j t = .ok pf ∧ psiPrime j = some pf) ∧
      (j ∉ peers P → psiPrime j = none)

/-- `Start` on a round not yet started, whatever order the scheduler runs the goroutines in
and whatever each of them returns: no goroutine blocks, and `Start` does what
`StartOutcome` says. -/
theorem Round2.Start_fanOut (round : Round2 V) (hs : round.started = false) (order : List Job)
    (horder : order.Perm (Jobs P)) :
    ∃ err round', Round2.Start P C order round = some (err, round') ∧
      StartOutcome P C (launchTemp P C round.temp) round err round' := by
  set t := launchTemp P C round.temp with ht
  let s0 : FanOut V := ⟨t, Make2DSlice V.AffGInvProof P.PartyCount,
    Make2DSlice V.AffGInvProof P.PartyCount, fun _ => none, []⟩
  obtain ⟨s', hrun, ht', herr', hdone, -, hpp⟩ := runJobs_spec P C t order s0
    (horder.nodup_iff.mpr (Jobs_nodup P)) (.refl t) (by simp [s0, horder.length_eq, Jobs_length])
  have hmem {job : Job} : job ∈ order ↔ job ∈ Jobs P := horder.mem_iff
  have hfails : s'.errChs ≠ [] ↔ ∃ job ∈ Jobs P, (job.failure P C t).isSome := by
    simp [herr', s0, List.filterMap_eq_nil_iff, hmem, Option.isSome_iff_ne_none]
  by_cases hF : ∃ job ∈ Jobs P, (job.failure P C t).isSome
  · have hw : WrapErrorChs P.PartyIndex s'.errChs "Failed to process round 1 messages." =
        some (Tss.WrapError "Failed to process round 1 messages." (s'.errChs.flatMap Tss.Error.Culprits)) := by
      simp [WrapErrorChs, hfails.mpr hF]
    refine ⟨_, _, by simp only [Round2.Start, hs, hrun, Option.map_some', hw]; rfl, ?_⟩
    exact ⟨by simpa using hF, fun _ => rfl, fun h => by cases h⟩
  · have hnil : s'.errChs = [] := by rw [← not_ne_iff]; exact mt hfails.mp hF
    have hok (job) (hj : job ∈ Jobs P) : job.failure P C t = none := by
      simpa [Option.isSome_iff_ne_none] using fun h => hF ⟨job, hj, h⟩
    have hw : WrapErrorChs P.PartyIndex s'.errChs "Failed to process round 1 messages." = none := by
      simp [WrapErrorChs, hnil]
    refine ⟨_, _, by simp only [Round2.Start, hs, hrun, Option.map_some', hw]; rfl, ?_⟩
    refine ⟨by simpa using hF, fun h => absurd h (by simp), fun _ => ?_⟩
    refine ⟨(peers P).map fun j => NewSignRound2Message1 j P.PartyIndex
      (s'.temp.bigD P.PartyIndex j) (s'.temp.bigDHat P.PartyIndex j) (s'.temp.bigF P.PartyIndex j)
      (s'.temp.bigFHat P.PartyIndex j) (s'.psi j) (s'.psiHat j), s'.psiPrime, ?_, ?_, ?_⟩
    · rw [sendMessages, foldl_sendMessage1]
      simp [ht'.pointGamma, ht, launchTemp_pointGamma]
    · rw [List.forall₂_map_right_iff, List.forall₂_same]
      intro j hj
      have hg : Job.bobRespondsGamma j ∈ Jobs P := by simp [Jobs, hj]
      have hwj : Job.bobRespondsW j ∈ Jobs P := by simp [Jobs, hj]
      obtain ⟨⟨beta, D, F, pf⟩, hrg⟩ := errorOf_eq_none.mp (hok _ hg)
      obtain ⟨⟨betaHat, DHat, FHat, pfHat⟩, hrw⟩ := errorOf_eq_none.mp (hok _ hwj)
      have hdg := hdone _ (hmem.mpr hg) _ hrg
      have hdw := hdone _ (hmem.mpr hwj) _ hrw
      simp only [Prod.mk.injEq] at hdg hdw
      exact ⟨beta, D, F, pf, betaHat, DHat, FHat, pfHat, hrg, hrw, by
        rw [hdg.2.1, hdg.2.2.1, hdg.2.2.2, hdw.2.1, hdw.2.2.1, hdw.2.2.2]⟩
    · intro j
      refine ⟨fun hj => ?_, fun hj => ?_⟩
      · have hp : Job.computeProofPsiPrime j ∈ Jobs P := (mem_Jobs_psiPrime P).mpr hj
        obtain ⟨pf, hr⟩ := errorOf_eq_none.mp (hok _ hp)
        exact ⟨pf, hr, hdone _ (hmem.mpr hp) _ hr⟩
      · exact hpp j (fun h => hj ((mem_Jobs_psiPrime P).mp (hmem.mp h)))

theorem foldl_sendMessage1_slot (psi psiHat : ℕ → List (Option V.AffGInvProof)) :
    ∀ (l : List ℕ) (r : Round2 V) (j : ℕ),
      (l.foldl (sendMessage1 P psi psiHat) r).temp.signRound2Message1s P.PartyIndex j =
        if j ∈ l then some (NewSignRound2Message1 j P.PartyIndex (r.temp.bigD P.PartyIndex j)
          (r.temp.bigDHat P.PartyIndex j) (r.temp.bigF P.PartyIndex j)
          (r.temp.bigFHat P.PartyIndex j) (psi j) (psiHat j))
        else r.temp.signRound2Message1s P.PartyIndex j
  | [], _, _ => rfl
  | j' :: l, r, j => by
    rw [List.foldl_cons, foldl_sendMessage1_slot psi psiHat l]
    by_cases hj : j = j' <;> by_cases hl : j ∈ l <;> simp [sendMessage1, hj, hl]

/-- On success `Start` sends one message per party, `Message1` to each peer and `Message2`,
and keeps each in its own slot: what it sent is its own row of the message table. -/
theorem Round2.Start_sent_recorded {order : List Job} {round round' : Round2 V}
    (hs : round.started = false) (h : Round2.Start P C order round = some (none, round')) :
    round'.out.length = round.out.length + P.PartyCount ∧
    (round'.out.drop round.out.length).map some =
      (peers P).map (fun j => round'.temp.signRound2Message1s P.PartyIndex j) ++
        [round'.temp.signRound2Message2s P.PartyIndex] := by
  simp only [Round2.Start, hs, Bool.false_eq_true, if_false, Option.map_eq_some'] at h
  obtain ⟨s, -, hs'⟩ := h
  split at hs'
  · cases hs'
  · cases hs'
    have hn := P.PartyIndex_lt
    rw [sendMessages, foldl_sendMessage1]
    simp only [List.append_assoc, List.drop_left, List.length_append, List.length_map,
      List.length_singleton, List.map_append, List.map_map, List.map_cons, List.map_nil,
      Function.update_same, foldl_sendMessage1_slot, peers_length]
    refine ⟨by omega, congrArg (· ++ _) (List.map_congr_left fun j hj => (if_pos hj).symm)⟩

end StartSpec

def unitPrimitivesOf (broadcast : Bool) : Primitives := ⟨Unit, Unit, Unit, Unit, Unit, broadcast⟩

def unitPrimitives : Primitives := unitPrimitivesOf true

def exampleParameters : Parameters := ⟨2, 0, by decide, 256, ⟨fun _ => ⟨5⟩, ⟨5⟩, fun _ => ⟨2, 3, 5⟩⟩⟩

def exampleCollaboratorsOf (broadcast : Bool) : Collaborators (unitPrimitivesOf broadcast) where
  ScalarBaseMult _ := ()
  UnmarshalBigG _ := 7
  UnmarshalBigK _ := 11
  UnmarshalPsi _ := some fun _ => some ()
  BobRespondsG _ _ b k := some (b, b * k, b + k, [])
  DecryptFull c := some (c, 1)
  NewLogStarProof _ _ _ := ()

def exampleCollaborators : Collaborators unitPrimitives := exampleCollaboratorsOf true

def exampleRoundOf (broadcast : Bool) : Round2 (unitPrimitivesOf broadcast) where
  temp := ⟨2, 3, fun _ => 1, fun _ => 1, fun _ => (), fun _ => 0, fun _ => 0, fun _ _ => 0,
    fun _ _ => 0, fun _ _ => 0, fun _ _ => 0, fun _ => (), fun _ _ => none, fun _ => none⟩
  out := []
  ok := fun _ => true
  started := false
  number := 1

def exampleRound : Round2 unitPrimitives := exampleRoundOf true

def exampleStarted : Round2 unitPrimitives :=
  ((Round2.Start exampleParameters exampleCollaborators (Jobs exampleParameters)
    exampleRound).getD (none, exampleRound)).2

theorem Round2.Start_fanOut_reversed :
    (exampleRound.started = false ∧
      (Jobs exampleParameters).reverse.Perm (Jobs exampleParameters)) ∧
    ∃ err round', Round2.Start exampleParameters exampleCollaborators
        (Jobs exampleParameters).reverse exampleRound = some (err, round') ∧
      StartOutcome exampleParameters exampleCollaborators
        (launchTemp exampleParameters exampleCollaborators exampleRound.temp) exampleRound err round' :=
  ⟨⟨rfl, List.reverse_perm _⟩, Round2.Start_fanOut _ _ _ rfl _ (List.reverse_perm _)⟩

theorem Round2.Start_sent_recorded_two_parties :
    (exampleRound.started = false ∧ Round2.Start exampleParameters exampleCollaborators
      (Jobs exampleParameters) exampleRound = some (none, exampleStarted)) ∧
    exampleStarted.out.length = exampleRound.out.length + exampleParameters.PartyCount ∧
    (exampleStarted.out.drop exampleRound.out.length).map some =
      (peers exampleParameters).map
          (fun j => exampleStarted.temp.signRound2Message1s exampleParameters.PartyIndex j) ++
        [exampleStarted.temp.signRound2Message2s exampleParameters.PartyIndex] :=
  have h : Round2.Start exampleParameters exampleCollaborators (Jobs exampleParameters)
      exampleRound = some (none, exampleStarted) := rfl
  ⟨⟨rfl, h⟩, Round2.Start_sent_recorded _ _ rfl h⟩

end MpcLib.Cggplus
