import MpcLib.Cggplus.Round2

/-!
# Signing round 2: the goroutines of `Start`, interleaved

`Round2.Start` runs each goroutine to its end before the next one starts. Here they
interleave at the level of their accesses to shared memory. A goroutine is a program
counter with the locals it holds, and one step of it runs one call that reads
`round.temp` (`UnmarshalPsi`, `BobRespondsG`, `DecryptFull`, `NewLogStarProof`), one of its
stores into `round.temp` or a proofs slice, or its send on `errChs`, which blocks while the
channel is full. The scheduler picks which goroutine steps, in any order; `wg.Wait()`
returns once all of them have returned.

* `Interleaving.Inv`: in every state of every schedule, the shared state is the launch
  state with the stores each goroutine has made so far, and the channel holds the errors
  of the goroutines that sent, in the order they sent.
* `Interleaving.Inv.step_isSome`: no goroutine ever blocks: one that has not returned can
  always step.
* `runInterleaved_refines`: a schedule that runs every goroutine to its return ends in the
  state of the atomic run in some order of the goroutines: those that failed, in the
  order of their sends, then the others.
* `Round2.StartInterleaved_refines`: so `Start` with interleaved goroutines returns what
  `Round2.Start` returns for some permutation of the goroutines.
* `Round2.StartInterleaved_deterministic`: the schedule shows in what `Start` returns only as
  the order of the culprits in its error.
* `Round2.StartInterleaved_completes`: every step lowers the steps the goroutines have left,
  so no schedule runs long, and every schedule extends to one after which `Start` returns.
-/

namespace MpcLib.Cggplus

/-- Where a goroutine of `Start` is, with the locals it holds. -/
inductive Pc (V : Primitives)
  /-- Launched; nothing has run. -/
  | start
  /-- `BobRespondsGamma` or `BobRespondsW` after `UnmarshalPsi` returned `psiAlice`. -/
  | unmarshaled (psiAlice : ℕ → Option V.EncProof)
  /-- After `BobRespondsG` returned `r`, with `stores` of its four stores run. -/
  | responded (r : ℤ × ℤ × ℤ × List (Option V.AffGInvProof)) (stores : ℕ)
  /-- `ComputeProofPsiPrime` after `DecryptFull` returned the randomness `rho`. -/
  | decrypted (rho : ℤ)
  /-- After `NewLogStarProof` returned `pf`; `stored` once `proofs[j] = pf` ran. -/
  | proved (pf : V.LogStarProof) (stored : Bool)
  /-- At `errChs <- e`; `sent` once the send ran and the goroutine returned. -/
  | failed (e : Tss.Error) (sent : Bool)

/-- The goroutines launched on the shared state `shared`, each at its program counter. -/
structure Interleaving (V : Primitives) where
  shared : FanOut V
  pc : Job → Pc V

section Pc
variable {V : Primitives}

def Pc.returned : Pc V → Bool
  | .responded _ stores => stores == 4
  | .proved _ stored => stored
  | .failed _ sent => sent
  | _ => false

def Pc.remaining : Pc V → ℕ
  | .start => 6
  | .unmarshaled _ => 5
  | .responded _ stores => 4 - stores
  | .decrypted _ => 2
  | .proved _ stored => if stored then 0 else 1
  | .failed _ sent => if sent then 0 else 1

def Pc.clean : Pc V → Bool
  | .responded _ stores => stores == 0
  | .proved _ stored => !stored
  | _ => true

def Pc.stored {α : Type} (p : Pc V) (n : ℕ)
    (f : ℤ × ℤ × ℤ × List (Option V.AffGInvProof) → α) (a : α) : α :=
  match p with
  | .responded r stores => if n < stores then f r else a
  | _ => a

def Pc.storedProof (p : Pc V) (a : Option V.LogStarProof) : Option V.LogStarProof :=
  match p with
  | .proved pf true => some pf
  | _ => a

theorem Pc.stored_of_clean {α : Type} {p : Pc V} (h : p.clean = true) (n : ℕ)
    (f : ℤ × ℤ × ℤ × List (Option V.AffGInvProof) → α) (a : α) : p.stored n f a = a := by
  cases p <;> simp_all [Pc.clean, Pc.stored]

theorem Pc.storedProof_of_clean {p : Pc V} (h : p.clean = true) (a : Option V.LogStarProof) :
    p.storedProof a = a := by
  rcases p with _ | _ | _ | _ | ⟨_, _ | _⟩ | _ <;> simp_all [Pc.clean, Pc.storedProof]

theorem Pc.stored_succ {α : Type} {r : ℤ × ℤ × ℤ × List (Option V.AffGInvProof)} {m n : ℕ}
    (f : ℤ × ℤ × ℤ × List (Option V.AffGInvProof) → α) (a : α) :
    (Pc.responded r (n + 1)).stored m f a =
      if m = n then f r else (Pc.responded r n).stored m f a := by
  simp only [Pc.stored]
  by_cases hm : m = n
  · simp [hm]
  · simp only [hm, if_false]
    congr 1
    exact propext ⟨fun h => by omega, fun h => by omega⟩

end Pc

section Steps
variable {V : Primitives} (P : Parameters) (C : Collaborators V)

/-- `errChs <- e`: it blocks while the channel is full; then the goroutine returns. -/
def sendStep (e : Tss.Error) (s : FanOut V) : Option (FanOut V × Pc V) :=
  (s.send (errCap P) e).map fun s' => (s', .failed e true)

/-- The stores of `BobRespondsGamma` once `BobRespondsG` returned `(beta, bigD, bigF, pf)`,
in order: `beta[j]`, `bigD[i][j]`, `bigF[i][j]`, `proofs[j]`. -/
def gammaStore (j : ℕ) : ℕ → ℤ × ℤ × ℤ × List (Option V.AffGInvProof) → FanOut V → FanOut V
  | 0, (beta, _, _, _), s =>
    { s with temp := { s.temp with beta := Function.update s.temp.beta j beta } }
  | 1, (_, bigD, _, _), s =>
    { s with temp := { s.temp with bigD := set2 s.temp.bigD P.PartyIndex j bigD } }
  | 2, (_, _, bigF, _), s =>
    { s with temp := { s.temp with bigF := set2 s.temp.bigF P.PartyIndex j bigF } }
  | _, (_, _, _, pf), s => { s with psi := Function.update s.psi j pf }

/-- The stores of `BobRespondsW` once `BobRespondsG` returned
`(betaHat, bigDHat, bigFHat, pf)`, in order: `betaHat[j]`, `bigDHat[i][j]`, `bigFHat[i][j]`,
`proofs[j]`. -/
def wStore (j : ℕ) : ℕ → ℤ × ℤ × ℤ × List (Option V.AffGInvProof) → FanOut V → FanOut V
  | 0, (betaHat, _, _, _), s =>
    { s with temp := { s.temp with betaHat := Function.update s.temp.betaHat j betaHat } }
  | 1, (_, bigDHat, _, _), s =>
    { s with temp := { s.temp with bigDHat := set2 s.temp.bigDHat P.PartyIndex j bigDHat } }
  | 2, (_, _, bigFHat, _), s =>
    { s with temp := { s.temp with bigFHat := set2 s.temp.bigFHat P.PartyIndex j bigFHat } }
  | _, (_, _, _, pf), s => { s with psiHat := Function.update s.psiHat j pf }

/-- One step of `BobRespondsGamma` (Bob's input `b` is `gamma`) or `BobRespondsW` (`w`) for
peer `j`, whose store number `n` is `store n`; `none` once it has returned, or while its
send blocks. -/
def bobRespondsStep (b : LocalTempData V → ℤ) (failed : String)
    (store : ℕ → ℤ × ℤ × ℤ × List (Option V.AffGInvProof) → FanOut V → FanOut V) (j : ℕ)
    (s : FanOut V) : Pc V → Option (FanOut V × Pc V)
  | .start => some (s,
    match C.UnmarshalPsi (s.temp.signRound1Messages j) with
    | none => .failed (Tss.WrapError "UnmarshalPsi failed" [j]) false
    | some psiAlice => .unmarshaled psiAlice)
  | .unmarshaled psiAlice => some (s,
    match C.BobRespondsG (P.key.PaillierPKs j) (psiAlice P.PartyIndex) (b s.temp) (s.temp.bigK j) with
    | none => .failed (Tss.WrapError failed [j]) false
    | some r => .responded r 0)
  | .responded r n => if n < 4 then some (store n r s, .responded r (n + 1)) else none
  | .failed e false => sendStep P e s
  | _ => none

/-- One step of `ComputeProofPsiPrime` for peer `j`. -/
def psiPrimeStep (j : ℕ) (s : FanOut V) : Pc V → Option (FanOut V × Pc V)
  | .start => some (s,
    match C.DecryptFull (s.temp.bigG P.PartyIndex) with
    | none => .failed (Tss.WrapError "Error decrypting bigG" [j]) false
    | some (_, rho) => .decrypted rho)
  | .decrypted rho => some (s, .proved (C.NewLogStarProof ⟨s.temp.gamma, rho⟩
      ⟨GetEll P.BitSize, P.key.PaillierSK.N, s.temp.bigG P.PartyIndex,
        s.temp.pointGamma P.PartyIndex⟩ (P.key.GetRingPedersen j)) false)
  | .proved pf false =>
    some ({ s with psiPrime := Function.update s.psiPrime j (some pf) }, .proved pf true)
  | .failed e false => sendStep P e s
  | _ => none

/-- One step of a goroutine. -/
def Job.microStep : Job → FanOut V → Pc V → Option (FanOut V × Pc V)
  | .bobRespondsGamma j =>
    bobRespondsStep P C (·.gamma) "BobResponds(gamma) failed" (gammaStore P j) j
  | .bobRespondsW j => bobRespondsStep P C (·.w) "BobResponds(w) failed" (wStore P j) j
  | .computeProofPsiPrime j => psiPrimeStep P C j

/-- The scheduler steps the launched goroutine `job`; `none` when it cannot step. -/
def Interleaving.step (c : Interleaving V) (job : Job) : Option (Interleaving V) :=
  if job ∈ Jobs P then
    (job.microStep P C c.shared (c.pc job)).map fun (s, p) => ⟨s, Function.update c.pc job p⟩
  else none

def interleave : List Job → Interleaving V → Option (Interleaving V)
  | [], c => some c
  | job :: sched, c => (c.step P C job).bind (interleave sched)

/-- The goroutines launched on `s0`, stepped in the order `sched`, up to `wg.Wait()`, which
returns once all of them have returned: `none` before that. -/
def runInterleaved (sched : List Job) (s0 : FanOut V) : Option (FanOut V) :=
  (interleave P C sched ⟨s0, fun _ => .start⟩).bind fun c =>
    if (Jobs P).all fun job => (c.pc job).returned then some c.shared else none

def launchState (t : LocalTempData V) : FanOut V :=
  ⟨launchTemp P C t, Make2DSlice V.AffGInvProof P.PartyCount,
    Make2DSlice V.AffGInvProof P.PartyCount, fun _ => none, []⟩

/-- `round.Start()` with its goroutines interleaved by the schedule `sched`: the same as
`Round2.Start` but for how the goroutines run. -/
def Round2.StartInterleaved (sched : List Job) (round : Round2 V) :
    Option (Option Tss.Error × Round2 V) :=
  if round.started then some (some (Tss.WrapError "round already started" []), round) else
  let i := P.PartyIndex
  let round := { round with
    number := 2, started := true, ok := Function.update (resetOK round.ok) i true }
  (runInterleaved P C sched (launchState P C round.temp)).map fun s =>
    match WrapErrorChs i s.errChs "Failed to process round 1 messages." with
    | some err => (some err, { round with temp := s.temp })
    | none => (none, sendMessages P s round)

def bobSound (b : LocalTempData V → ℤ) (failed : String) (j : ℕ) (t : LocalTempData V) :
    Pc V → Prop
  | .start => True
  | .unmarshaled psiAlice => C.UnmarshalPsi (t.signRound1Messages j) = some psiAlice
  | .responded r n => n ≤ 4 ∧ bobRespondsCall P C (b t) failed j t = .ok r
  | .failed e _ => bobRespondsCall P C (b t) failed j t = .error e
  | _ => False

def psiPrimeSound (j : ℕ) (t : LocalTempData V) : Pc V → Prop
  | .start => True
  | .decrypted rho => ∃ x, C.DecryptFull (t.bigG P.PartyIndex) = some (x, rho)
  | .proved pf _ => psiPrimeCall P C j t = .ok pf
  | .failed e _ => psiPrimeCall P C j t = .error e
  | _ => False

def Pc.Sound (t : LocalTempData V) : Job → Pc V → Prop
  | .bobRespondsGamma j => bobSound P C (·.gamma) "BobResponds(gamma) failed" j t
  | .bobRespondsW j => bobSound P C (·.w) "BobResponds(w) failed" j t
  | .computeProofPsiPrime j => psiPrimeSound P C j t

def Job.finalPc (t : LocalTempData V) : Job → Pc V
  | .bobRespondsGamma j =>
    match bobRespondsCall P C t.gamma "BobResponds(gamma) failed" j t with
    | .error e => .failed e true
    | .ok r => .responded r 4
  | .bobRespondsW j =>
    match bobRespondsCall P C t.w "BobResponds(w) failed" j t with
    | .error e => .failed e true
    | .ok r => .responded r 4
  | .computeProofPsiPrime j =>
    match psiPrimeCall P C j t with
    | .error e => .failed e true
    | .ok pf => .proved pf true

def expect (s0 : FanOut V) (pc : Job → Pc V) (errChs : List Tss.Error) : FanOut V where
  temp := { s0.temp with
    beta := fun j => (pc (.bobRespondsGamma j)).stored 0 (·.1) (s0.temp.beta j)
    bigD := fun k j => if k = P.PartyIndex
      then (pc (.bobRespondsGamma j)).stored 1 (·.2.1) (s0.temp.bigD k j) else s0.temp.bigD k j
    bigF := fun k j => if k = P.PartyIndex
      then (pc (.bobRespondsGamma j)).stored 2 (·.2.2.1) (s0.temp.bigF k j) else s0.temp.bigF k j
    betaHat := fun j => (pc (.bobRespondsW j)).stored 0 (·.1) (s0.temp.betaHat j)
    bigDHat := fun k j => if k = P.PartyIndex
      then (pc (.bobRespondsW j)).stored 1 (·.2.1) (s0.temp.bigDHat k j) else s0.temp.bigDHat k j
    bigFHat := fun k j => if k = P.PartyIndex
      then (pc (.bobRespondsW j)).stored 2 (·.2.2.1) (s0.temp.bigFHat k j) else s0.temp.bigFHat k j }
  psi := fun j => (pc (.bobRespondsGamma j)).stored 3 (·.2.2.2) (s0.psi j)
  psiHat := fun j => (pc (.bobRespondsW j)).stored 3 (·.2.2.2) (s0.psiHat j)
  psiPrime := fun j => (pc (.computeProofPsiPrime j)).storedProof (s0.psiPrime j)
  errChs := errChs

def Interleaving.Sent (s0 : FanOut V) (pc : Job → Pc V) (errChs : List Tss.Error) : Prop :=
  ∃ L : List Job, L.Nodup ∧ (∀ job, job ∈ L ↔ ∃ e, pc job = .failed e true) ∧
    errChs = s0.errChs ++ L.filterMap (Job.failure P C · s0.temp)

/-- The invariant of the goroutines launched on `s0`, interleaved. -/
structure Interleaving.Inv (s0 : FanOut V) (c : Interleaving V) : Prop where
  shared : c.shared = expect P s0 c.pc c.shared.errChs
  sound : ∀ job, Pc.Sound P C s0.temp job (c.pc job)
  launched : ∀ job ∉ Jobs P, c.pc job = .start
  sent : Interleaving.Sent P C s0 c.pc c.shared.errChs

end Steps

attribute [ext] LocalTempData FanOut

/-! ## One step -/

section StepSpec
variable {V : Primitives} (P : Parameters) (C : Collaborators V)

theorem Pc.not_failed_of_returned {p : Pc V} (h : p.returned = false) (e : Tss.Error) :
    p ≠ .failed e true := by
  rintro rfl
  cases h

theorem sendStep_eq_some {e : Tss.Error} {s s' : FanOut V} {p' : Pc V}
    (h : sendStep P e s = some (s', p')) :
    p' = .failed e true ∧ s.errChs.length < errCap P ∧ s' = { s with errChs := s.errChs ++ [e] } := by
  simp only [sendStep, Option.map_eq_some', Prod.mk.injEq] at h
  obtain ⟨s₁, hs₁, rfl, rfl⟩ := h
  exact ⟨rfl, FanOut.send_eq_some hs₁⟩

theorem bobRespondsStep_cases {b : LocalTempData V → ℤ} {failed : String}
    {store : ℕ → ℤ × ℤ × ℤ × List (Option V.AffGInvProof) → FanOut V → FanOut V} {j : ℕ}
    {s s' : FanOut V} {p p' : Pc V} (h : bobRespondsStep P C b failed store j s p = some (s', p')) :
    (s' = s ∧ p.clean ∧ p'.clean ∧ p.returned = false ∧ p'.returned = false ∧
      p'.remaining < p.remaining) ∨
    (∃ r n, p = .responded r n ∧ n < 4 ∧ p' = .responded r (n + 1) ∧ s' = store n r s) ∨
    (∃ e, p = .failed e false ∧ p' = .failed e true ∧ s.errChs.length < errCap P ∧
      s' = { s with errChs := s.errChs ++ [e] }) := by
  cases p with
  | start =>
    simp only [bobRespondsStep, Option.some.injEq, Prod.mk.injEq] at h
    obtain ⟨rfl, rfl⟩ := h
    exact .inl ⟨rfl, rfl, by split <;> rfl, rfl, by split <;> rfl, by split <;> simp [Pc.remaining]⟩
  | unmarshaled psiAlice =>
    simp only [bobRespondsStep, Option.some.injEq, Prod.mk.injEq] at h
    obtain ⟨rfl, rfl⟩ := h
    exact .inl ⟨rfl, rfl, by split <;> rfl, rfl, by split <;> rfl, by split <;> simp [Pc.remaining]⟩
  | responded r n =>
    simp only [bobRespondsStep] at h
    split at h
    · cases h
      exact .inr (.inl ⟨r, n, rfl, ‹_›, rfl, rfl⟩)
    · cases h
  | decrypted => simp [bobRespondsStep] at h
  | proved => simp [bobRespondsStep] at h
  | failed e sent =>
    cases sent
    · obtain ⟨rfl, hlen, rfl⟩ := sendStep_eq_some P h
      exact .inr (.inr ⟨e, rfl, rfl, hlen, rfl⟩)
    · simp [bobRespondsStep] at h

theorem psiPrimeStep_cases {j : ℕ} {s s' : FanOut V} {p p' : Pc V}
    (h : psiPrimeStep P C j s p = some (s', p')) :
    (s' = s ∧ p.clean ∧ p'.clean ∧ p.returned = false ∧ p'.returned = false ∧
      p'.remaining < p.remaining) ∨
    (∃ pf, p = .proved pf false ∧ p' = .proved pf true ∧
      s' = { s with psiPrime := Function.update s.psiPrime j (some pf) }) ∨
    (∃ e, p = .failed e false ∧ p' = .failed e true ∧ s.errChs.length < errCap P ∧
      s' = { s with errChs := s.errChs ++ [e] }) := by
  cases p with
  | start =>
    simp only [psiPrimeStep, Option.some.injEq, Prod.mk.injEq] at h
    obtain ⟨rfl, rfl⟩ := h
    exact .inl ⟨rfl, rfl, by split <;> rfl, rfl, by split <;> rfl, by split <;> simp [Pc.remaining]⟩
  | decrypted rho =>
    simp only [psiPrimeStep, Option.some.injEq, Prod.mk.injEq] at h
    obtain ⟨rfl, rfl⟩ := h
    exact .inl ⟨rfl, rfl, rfl, rfl, rfl, by simp [Pc.remaining]⟩
  | proved pf stored =>
    cases stored
    · simp only [psiPrimeStep, Option.some.injEq, Prod.mk.injEq] at h
      obtain ⟨rfl, rfl⟩ := h
      exact .inr (.inl ⟨pf, rfl, rfl, rfl⟩)
    · simp [psiPrimeStep] at h
  | failed e sent =>
    cases sent
    · obtain ⟨rfl, hlen, rfl⟩ := sendStep_eq_some P h
      exact .inr (.inr ⟨e, rfl, rfl, hlen, rfl⟩)
    · simp [psiPrimeStep] at h
  | unmarshaled => simp [psiPrimeStep] at h
  | responded => simp [psiPrimeStep] at h

theorem Job.microStep_cases {job : Job} {s s' : FanOut V} {p p' : Pc V}
    (h : job.microStep P C s p = some (s', p')) :
    (s' = s ∧ p.clean ∧ p'.clean ∧ p.returned = false ∧ p'.returned = false ∧
      p'.remaining < p.remaining) ∨
    (∃ j r n, job = .bobRespondsGamma j ∧ p = .responded r n ∧ n < 4 ∧
      p' = .responded r (n + 1) ∧ s' = gammaStore P j n r s) ∨
    (∃ j r n, job = .bobRespondsW j ∧ p = .responded r n ∧ n < 4 ∧
      p' = .responded r (n + 1) ∧ s' = wStore P j n r s) ∨
    (∃ j pf, job = .computeProofPsiPrime j ∧ p = .proved pf false ∧ p' = .proved pf true ∧
      s' = { s with psiPrime := Function.update s.psiPrime j (some pf) }) ∨
    (∃ e, p = .failed e false ∧ p' = .failed e true ∧ s.errChs.length < errCap P ∧
      s' = { s with errChs := s.errChs ++ [e] }) := by
  cases job with
  | bobRespondsGamma j =>
    rcases bobRespondsStep_cases P C h with hr | ⟨r, n, hst⟩ | hsend
    · exact .inl hr
    · exact .inr (.inl ⟨j, r, n, rfl, hst⟩)
    · exact .inr (.inr (.inr (.inr hsend)))
  | bobRespondsW j =>
    rcases bobRespondsStep_cases P C h with hr | ⟨r, n, hst⟩ | hsend
    · exact .inl hr
    · exact .inr (.inr (.inl ⟨j, r, n, rfl, hst⟩))
    · exact .inr (.inr (.inr (.inr hsend)))
  | computeProofPsiPrime j =>
    rcases psiPrimeStep_cases P C h with hr | ⟨pf, hst⟩ | hsend
    · exact .inl hr
    · exact .inr (.inr (.inr (.inl ⟨j, pf, rfl, hst⟩)))
    · exact .inr (.inr (.inr (.inr hsend)))

theorem bobRespondsStep_sound {b : LocalTempData V → ℤ} {failed : String}
    {store : ℕ → ℤ × ℤ × ℤ × List (Option V.AffGInvProof) → FanOut V → FanOut V} {j : ℕ}
    {t : LocalTempData V} {s s' : FanOut V} {p p' : Pc V} (ht : t.SameReads s.temp)
    (hb : b s.temp = b t) (h : bobRespondsStep P C b failed store j s p = some (s', p'))
    (hp : bobSound P C b failed j t p) : bobSound P C b failed j t p' := by
  cases p with
  | start =>
    simp only [bobRespondsStep, Option.some.injEq, Prod.mk.injEq, ht.signRound1Messages] at h
    obtain ⟨-, rfl⟩ := h
    cases hU : C.UnmarshalPsi (t.signRound1Messages j) <;> simp [bobSound, bobRespondsCall, hU]
  | unmarshaled psiAlice =>
    simp only [bobRespondsStep, Option.some.injEq, Prod.mk.injEq, hb, ht.bigK] at h
    obtain ⟨-, rfl⟩ := h
    simp only [bobSound] at hp
    cases hB : C.BobRespondsG (P.key.PaillierPKs j) (psiAlice P.PartyIndex) (b t) (t.bigK j) <;>
      simp [bobSound, bobRespondsCall, hp, hB]
  | responded r n =>
    simp only [bobRespondsStep] at h
    split at h
    · cases h
      exact ⟨by omega, hp.2⟩
    · cases h
  | failed e sent =>
    cases sent
    · obtain ⟨rfl, -, -⟩ := sendStep_eq_some P h
      exact hp
    · simp [bobRespondsStep] at h
  | decrypted => simp [bobRespondsStep] at h
  | proved => simp [bobRespondsStep] at h

theorem psiPrimeStep_sound {j : ℕ} {t : LocalTempData V} {s s' : FanOut V} {p p' : Pc V}
    (ht : t.SameReads s.temp) (h : psiPrimeStep P C j s p = some (s', p'))
    (hp : psiPrimeSound P C j t p) : psiPrimeSound P C j t p' := by
  cases p with
  | start =>
    simp only [psiPrimeStep, Option.some.injEq, Prod.mk.injEq, ht.bigG] at h
    obtain ⟨-, rfl⟩ := h
    cases hD : C.DecryptFull (t.bigG P.PartyIndex) with
    | none => simp [psiPrimeSound, psiPrimeCall, hD]
    | some v => exact ⟨v.1, hD⟩
  | decrypted rho =>
    simp only [psiPrimeStep, Option.some.injEq, Prod.mk.injEq, ht.gamma, ht.bigG,
      ht.pointGamma] at h
    obtain ⟨-, rfl⟩ := h
    obtain ⟨x, hD⟩ := hp
    simp [psiPrimeSound, psiPrimeCall, hD]
  | proved pf stored =>
    cases stored
    · simp only [psiPrimeStep, Option.some.injEq, Prod.mk.injEq] at h
      obtain ⟨-, rfl⟩ := h
      exact hp
    · simp [psiPrimeStep] at h
  | failed e sent =>
    cases sent
    · obtain ⟨rfl, -, -⟩ := sendStep_eq_some P h
      exact hp
    · simp [psiPrimeStep] at h
  | unmarshaled => simp [psiPrimeStep] at h
  | responded => simp [psiPrimeStep] at h

theorem Job.microStep_sound {job : Job} {t : LocalTempData V} {s s' : FanOut V} {p p' : Pc V}
    (ht : t.SameReads s.temp) (h : job.microStep P C s p = some (s', p'))
    (hp : Pc.Sound P C t job p) : Pc.Sound P C t job p' := by
  cases job with
  | bobRespondsGamma j => exact bobRespondsStep_sound P C ht ht.gamma h hp
  | bobRespondsW j => exact bobRespondsStep_sound P C ht ht.w h hp
  | computeProofPsiPrime j => exact psiPrimeStep_sound P C ht h hp

end StepSpec

/-! ## The shared state the goroutines leave -/

section Expect
variable {V : Primitives} (P : Parameters) (s0 : FanOut V)

theorem gammaStore_all (j : ℕ) (beta bigD bigF : ℤ) (pf : List (Option V.AffGInvProof))
    (s : FanOut V) :
    { s with
      temp := { s.temp with
        beta := Function.update s.temp.beta j beta
        bigD := set2 s.temp.bigD P.PartyIndex j bigD
        bigF := set2 s.temp.bigF P.PartyIndex j bigF }
      psi := Function.update s.psi j pf } =
      gammaStore P j 3 (beta, bigD, bigF, pf) (gammaStore P j 2 (beta, bigD, bigF, pf)
        (gammaStore P j 1 (beta, bigD, bigF, pf) (gammaStore P j 0 (beta, bigD, bigF, pf) s))) := by
  simp only [gammaStore]

theorem wStore_all (j : ℕ) (betaHat bigDHat bigFHat : ℤ) (pf : List (Option V.AffGInvProof))
    (s : FanOut V) :
    { s with
      temp := { s.temp with
        betaHat := Function.update s.temp.betaHat j betaHat
        bigDHat := set2 s.temp.bigDHat P.PartyIndex j bigDHat
        bigFHat := set2 s.temp.bigFHat P.PartyIndex j bigFHat }
      psiHat := Function.update s.psiHat j pf } =
      wStore P j 3 (betaHat, bigDHat, bigFHat, pf) (wStore P j 2 (betaHat, bigDHat, bigFHat, pf)
        (wStore P j 1 (betaHat, bigDHat, bigFHat, pf)
          (wStore P j 0 (betaHat, bigDHat, bigFHat, pf) s))) := by
  simp only [wStore]

section ExpectFields
variable (pc : Job → Pc V) (e : List Tss.Error)

@[simp] theorem expect_beta : (expect P s0 pc e).temp.beta =
    fun j => (pc (.bobRespondsGamma j)).stored 0 (·.1) (s0.temp.beta j) := rfl

@[simp] theorem expect_bigD : (expect P s0 pc e).temp.bigD = fun k j => if k = P.PartyIndex
    then (pc (.bobRespondsGamma j)).stored 1 (·.2.1) (s0.temp.bigD k j) else s0.temp.bigD k j :=
  rfl

@[simp] theorem expect_bigF : (expect P s0 pc e).temp.bigF = fun k j => if k = P.PartyIndex
    then (pc (.bobRespondsGamma j)).stored 2 (·.2.2.1) (s0.temp.bigF k j) else s0.temp.bigF k j :=
  rfl

@[simp] theorem expect_psi : (expect P s0 pc e).psi =
    fun j => (pc (.bobRespondsGamma j)).stored 3 (·.2.2.2) (s0.psi j) := rfl

@[simp] theorem expect_betaHat : (expect P s0 pc e).temp.betaHat =
    fun j => (pc (.bobRespondsW j)).stored 0 (·.1) (s0.temp.betaHat j) := rfl

@[simp] theorem expect_bigDHat : (expect P s0 pc e).temp.bigDHat = fun k j =>
    if k = P.PartyIndex then (pc (.bobRespondsW j)).stored 1 (·.2.1) (s0.temp.bigDHat k j)
    else s0.temp.bigDHat k j :=
  rfl

@[simp] theorem expect_bigFHat : (expect P s0 pc e).temp.bigFHat = fun k j =>
    if k = P.PartyIndex then (pc (.bobRespondsW j)).stored 2 (·.2.2.1) (s0.temp.bigFHat k j)
    else s0.temp.bigFHat k j :=
  rfl

@[simp] theorem expect_psiHat : (expect P s0 pc e).psiHat =
    fun j => (pc (.bobRespondsW j)).stored 3 (·.2.2.2) (s0.psiHat j) := rfl

@[simp] theorem expect_psiPrime : (expect P s0 pc e).psiPrime =
    fun j => (pc (.computeProofPsiPrime j)).storedProof (s0.psiPrime j) := rfl

end ExpectFields

theorem expect_reads (pc : Job → Pc V) (e : List Tss.Error) :
    s0.temp.SameReads (expect P s0 pc e).temp :=
  ⟨rfl, rfl, rfl, rfl, rfl, rfl⟩

theorem expect_start : expect P s0 (fun _ => .start) s0.errChs = s0 := by
  ext <;> simp [expect, Pc.stored, Pc.storedProof]

theorem expect_update_clean (pc : Job → Pc V) (e : List Tss.Error) (job : Job) (p : Pc V)
    (h : (pc job).clean) (hp : p.clean) :
    expect P s0 (Function.update pc job p) e = expect P s0 pc e := by
  have hs {α : Type} (job' : Job) (n : ℕ) (f : ℤ × ℤ × ℤ × List (Option V.AffGInvProof) → α)
      (a : α) : (Function.update pc job p job').stored n f a = (pc job').stored n f a := by
    by_cases hj : job' = job
    · subst hj
      rw [Function.update_same, Pc.stored_of_clean hp, Pc.stored_of_clean h]
    · rw [Function.update_noteq hj]
  have hsp (job' : Job) (a : Option V.LogStarProof) :
      (Function.update pc job p job').storedProof a = (pc job').storedProof a := by
    by_cases hj : job' = job
    · subst hj
      rw [Function.update_same, Pc.storedProof_of_clean hp, Pc.storedProof_of_clean h]
    · rw [Function.update_noteq hj]
  simp only [expect, hs, hsp]

theorem stored_update_succ {α : Type} {pc : Job → Pc V} {job : Job}
    {r : ℤ × ℤ × ℤ × List (Option V.AffGInvProof)} {n : ℕ} (hpc : pc job = .responded r n)
    (job' : Job) (m : ℕ) (f : ℤ × ℤ × ℤ × List (Option V.AffGInvProof) → α) (a : α) :
    (Function.update pc job (.responded r (n + 1)) job').stored m f a =
      if job' = job ∧ m = n then f r else (pc job').stored m f a := by
  by_cases hj : job' = job
  · subst hj
    simp [hpc, Pc.stored_succ]
  · simp [Function.update_noteq hj, hj]

theorem set2_ite_apply {α : Type} (i j : ℕ) (F G : ℕ → ℕ → α) (v : α) (k x : ℕ) :
    set2 (fun k x => if k = i then F k x else G k x) i j v k x =
      if k = i then (if x = j then v else F k x) else G k x := by
  by_cases hk : k = i
  · subst hk
    simp [set2, Function.update_apply]
  · simp [set2, hk]

theorem gammaStore_expect (pc : Job → Pc V) (e : List Tss.Error) {j n : ℕ}
    {r : ℤ × ℤ × ℤ × List (Option V.AffGInvProof)}
    (hpc : pc (.bobRespondsGamma j) = .responded r n) (hn : n < 4) :
    gammaStore P j n r (expect P s0 pc e) =
      expect P s0 (Function.update pc (.bobRespondsGamma j) (.responded r (n + 1))) e := by
  obtain ⟨beta, D, F, pf⟩ := r
  match n, hn with
  | 0, _ | 1, _ | 2, _ | 3, _ =>
    simp only [gammaStore]
    ext <;> first
      | rfl
      | simp only [expect_beta, expect_bigD, expect_bigF, expect_psi, stored_update_succ hpc,
          set2_ite_apply, @Function.update_apply ℕ, Job.bobRespondsGamma.injEq, Nat.reduceEqDiff,
          and_true, and_false, if_false]

theorem wStore_expect (pc : Job → Pc V) (e : List Tss.Error) {j n : ℕ}
    {r : ℤ × ℤ × ℤ × List (Option V.AffGInvProof)}
    (hpc : pc (.bobRespondsW j) = .responded r n) (hn : n < 4) :
    wStore P j n r (expect P s0 pc e) =
      expect P s0 (Function.update pc (.bobRespondsW j) (.responded r (n + 1))) e := by
  obtain ⟨betaHat, DHat, FHat, pf⟩ := r
  match n, hn with
  | 0, _ | 1, _ | 2, _ | 3, _ =>
    simp only [wStore]
    ext <;> first
      | rfl
      | simp only [expect_betaHat, expect_bigDHat, expect_bigFHat, expect_psiHat,
          stored_update_succ hpc, set2_ite_apply, @Function.update_apply ℕ, Job.bobRespondsW.injEq,
          Nat.reduceEqDiff, and_true, and_false, if_false]

theorem psiPrimeStore_expect (pc : Job → Pc V) (e : List Tss.Error) {j : ℕ}
    {pf : V.LogStarProof} (hpc : pc (.computeProofPsiPrime j) = .proved pf false) :
    { expect P s0 pc e with
      psiPrime := Function.update (expect P s0 pc e).psiPrime j (some pf) } =
      expect P s0 (Function.update pc (.computeProofPsiPrime j) (.proved pf true)) e := by
  refine FanOut.ext rfl rfl rfl (funext fun x => ?_) rfl
  by_cases hx : x = j
  · subst hx
    simp [expect, Pc.storedProof]
  · simp [expect, Function.update_noteq (mt Job.computeProofPsiPrime.inj hx),
      Function.update_noteq hx]

end Expect

/-! ## The invariant along every schedule -/

section Inv
variable {V : Primitives} (P : Parameters) (C : Collaborators V)

theorem Interleaving.step_eq_some {c c' : Interleaving V} {job : Job}
    (h : c.step P C job = some c') :
    job ∈ Jobs P ∧ ∃ s' p', job.microStep P C c.shared (c.pc job) = some (s', p') ∧
      c' = ⟨s', Function.update c.pc job p'⟩ := by
  unfold Interleaving.step at h
  split at h
  · obtain ⟨⟨s', p'⟩, hm, rfl⟩ := Option.map_eq_some'.mp h
    exact ⟨‹_›, s', p', hm, rfl⟩
  · cases h

theorem Pc.Sound.failure {t : LocalTempData V} {job : Job} {e : Tss.Error} {b : Bool}
    (h : Pc.Sound P C t job (.failed e b)) : job.failure P C t = some e := by
  cases job <;> simp only [Pc.Sound, bobSound, psiPrimeSound] at h <;> simp [Job.failure, h, errorOf]

theorem Interleaving.Sent.keep {s0 : FanOut V} {pc : Job → Pc V} {errChs : List Tss.Error}
    (h : Interleaving.Sent P C s0 pc errChs) {job : Job} {p : Pc V}
    (hp : ∀ e, pc job ≠ .failed e true) (hp' : ∀ e, p ≠ .failed e true) :
    Interleaving.Sent P C s0 (Function.update pc job p) errChs := by
  obtain ⟨L, hnd, hL, herr⟩ := h
  refine ⟨L, hnd, fun job' => ?_, herr⟩
  by_cases hj : job' = job
  · subst hj
    rw [Function.update_same, hL job']
    exact ⟨fun ⟨e, he⟩ => absurd he (hp e), fun ⟨e, he⟩ => absurd he (hp' e)⟩
  · rw [Function.update_noteq hj]
    exact hL job'

theorem Interleaving.Sent.send {s0 : FanOut V} {pc : Job → Pc V} {errChs : List Tss.Error}
    (h : Interleaving.Sent P C s0 pc errChs) {job : Job} {e : Tss.Error}
    (hpc : pc job = .failed e false) (hf : job.failure P C s0.temp = some e) :
    Interleaving.Sent P C s0 (Function.update pc job (.failed e true)) (errChs ++ [e]) := by
  obtain ⟨L, hnd, hL, herr⟩ := h
  have hjL : job ∉ L := fun hm => by
    obtain ⟨e', he'⟩ := (hL job).mp hm
    rw [hpc] at he'
    cases he'
  refine ⟨L ++ [job], hnd.append (List.nodup_singleton job) (by simpa using hjL),
    fun job' => ?_, by simp [herr, hf]⟩
  by_cases hj : job' = job
  · subst hj
    simp
  · rw [Function.update_noteq hj, ← hL job']
    simp [hj]

theorem Interleaving.Inv.init (s0 : FanOut V) :
    Interleaving.Inv P C s0 ⟨s0, fun _ => .start⟩ where
  shared := (expect_start P s0).symm
  sound job := by cases job <;> trivial
  launched _ _ := rfl
  sent := ⟨[], List.nodup_nil, by simp, by simp⟩

theorem Interleaving.Inv.step {s0 : FanOut V} {c c' : Interleaving V} {job : Job}
    (hinv : Interleaving.Inv P C s0 c) (h : c.step P C job = some c') :
    Interleaving.Inv P C s0 c' := by
  obtain ⟨hj, s', p', hm, rfl⟩ := Interleaving.step_eq_some P C h
  have hreads : s0.temp.SameReads c.shared.temp := by
    rw [hinv.shared]
    exact expect_reads P s0 c.pc _
  have hsound (job' : Job) : Pc.Sound P C s0.temp job' (Function.update c.pc job p' job') := by
    by_cases hj' : job' = job
    · subst hj'
      rw [Function.update_same]
      exact Job.microStep_sound P C hreads hm (hinv.sound job')
    · rw [Function.update_noteq hj']
      exact hinv.sound job'
  have hlaunched (job' : Job) (hj' : job' ∉ Jobs P) : Function.update c.pc job p' job' = .start := by
    rw [Function.update_noteq fun e : job' = job => hj' (e.symm ▸ hj)]
    exact hinv.launched job' hj'
  -- a step that sends nothing leaves the stores made so far
  have hkeep (hs : s' = expect P s0 (Function.update c.pc job p') c.shared.errChs)
      (hp : ∀ e, c.pc job ≠ .failed e true) (hp' : ∀ e, p' ≠ .failed e true) :
      Interleaving.Inv P C s0 ⟨s', Function.update c.pc job p'⟩ :=
    ⟨by rw [hs]; rfl, hsound, hlaunched, by rw [hs]; exact hinv.sent.keep P C hp hp'⟩
  rcases Job.microStep_cases P C hm with ⟨rfl, hc, hc', hr, hr', -⟩ |
    ⟨j, r, n, rfl, hpc, hn, rfl, rfl⟩ | ⟨j, r, n, rfl, hpc, hn, rfl, rfl⟩ |
    ⟨j, pf, rfl, hpc, rfl, rfl⟩ | ⟨e, hpc, rfl, -, rfl⟩
  · -- a call
    refine hkeep ?_ (Pc.not_failed_of_returned hr) (Pc.not_failed_of_returned hr')
    rw [expect_update_clean P s0 c.pc _ job p' hc hc']
    exact hinv.shared
  · -- a store of `BobRespondsGamma`
    refine hkeep ?_ (by rw [hpc]; exact fun _ => Pc.noConfusion) fun _ => Pc.noConfusion
    conv_lhs => rw [hinv.shared]
    exact gammaStore_expect P s0 c.pc _ hpc hn
  · -- a store of `BobRespondsW`
    refine hkeep ?_ (by rw [hpc]; exact fun _ => Pc.noConfusion) fun _ => Pc.noConfusion
    conv_lhs => rw [hinv.shared]
    exact wStore_expect P s0 c.pc _ hpc hn
  · -- the store of `ComputeProofPsiPrime`
    refine hkeep ?_ (by rw [hpc]; exact fun _ => Pc.noConfusion) fun _ => Pc.noConfusion
    conv_lhs => rw [hinv.shared]
    exact psiPrimeStore_expect P s0 c.pc _ hpc
  · -- the send
    refine ⟨?_, hsound, hlaunched,
      hinv.sent.send P C hpc (Pc.Sound.failure P C (hpc ▸ hinv.sound job))⟩
    rw [expect_update_clean P s0 c.pc _ job (.failed e true) (by rw [hpc]; rfl) rfl]
    conv_lhs => rw [hinv.shared]
    rfl

/-- The invariant holds in every state of every schedule. -/
theorem Interleaving.Inv.run {s0 : FanOut V} : ∀ {sched : List Job} {c c' : Interleaving V},
    Interleaving.Inv P C s0 c → interleave P C sched c = some c' → Interleaving.Inv P C s0 c'
  | [], _, _, hinv, h => by
    cases h
    exact hinv
  | _ :: _, _, _, hinv, h => by
    obtain ⟨c₁, h₁, h'⟩ := Option.bind_eq_some.mp h
    exact Interleaving.Inv.run (hinv.step P C h₁) h'

theorem Interleaving.Inv.errChs_length_lt {s0 : FanOut V} {c : Interleaving V}
    (hinv : Interleaving.Inv P C s0 c) (hs0 : s0.errChs = []) {job : Job} (hj : job ∈ Jobs P)
    (hnot : ∀ e, c.pc job ≠ .failed e true) : c.shared.errChs.length < errCap P := by
  obtain ⟨L, hnd, hL, herr⟩ := hinv.sent
  have hsub : L ⊆ (Jobs P).erase job := fun job' hj' => by
    obtain ⟨e, he⟩ := (hL job').mp hj'
    refine (List.mem_erase_of_ne fun h : job' = job => hnot e (h ▸ he)).mpr ?_
    by_contra hn
    rw [hinv.launched job' hn] at he
    cases he
  calc c.shared.errChs.length ≤ L.length := by
        rw [herr, hs0, List.nil_append]
        exact List.length_filterMap_le _ _
    _ ≤ ((Jobs P).erase job).length := (hnd.subperm hsub).length_le
    _ < errCap P := by
        rw [List.length_erase_of_mem hj, ← Jobs_length P]
        exact Nat.sub_lt (List.length_pos_of_mem hj) Nat.one_pos

/-- No goroutine ever blocks: in every state of every schedule, a goroutine that has not
returned can step. -/
theorem Interleaving.Inv.step_isSome {s0 : FanOut V} {c : Interleaving V}
    (hinv : Interleaving.Inv P C s0 c) (hs0 : s0.errChs = []) {job : Job} (hj : job ∈ Jobs P)
    (hr : (c.pc job).returned = false) : (c.step P C job).isSome := by
  have hroom := hinv.errChs_length_lt P C hs0 hj (Pc.not_failed_of_returned hr)
  have hs := hinv.sound job
  rw [Interleaving.step, if_pos hj, Option.isSome_map']
  generalize c.pc job = p at hs hr
  cases p with
  | start => cases job <;> rfl
  | unmarshaled => cases job <;> first | rfl | exact (hs : False).elim
  | responded r n =>
    have hn : n < 4 := by
      simp only [Pc.returned, beq_eq_false_iff_ne] at hr
      cases job <;> simp only [Pc.Sound, bobSound, psiPrimeSound] at hs
      all_goals exact Nat.lt_of_le_of_ne hs.1 hr
    cases job <;> first | exact (hs : False).elim | simp [Job.microStep, bobRespondsStep, hn]
  | decrypted => cases job <;> first | rfl | exact (hs : False).elim
  | proved pf stored =>
    cases stored
    · cases job <;> first | rfl | exact (hs : False).elim
    · cases hr
  | failed e sent =>
    cases sent
    · cases job <;> simp [Job.microStep, bobRespondsStep, psiPrimeStep, sendStep, FanOut.send, hroom]
    · cases hr

/-! ## The atomic run is a special case -/

theorem Pc.eq_finalPc {t : LocalTempData V} {job : Job} {p : Pc V} (hs : Pc.Sound P C t job p)
    (hr : p.returned = true) : p = job.finalPc P C t := by
  rcases p with _ | _ | ⟨r, n⟩ | _ | ⟨pf, _ | _⟩ | ⟨e, _ | _⟩ <;>
    simp only [Pc.returned, beq_iff_eq, Bool.false_eq_true] at hr
  all_goals cases job <;> simp only [Pc.Sound, bobSound, psiPrimeSound] at hs
  all_goals simp [Job.finalPc, hs, hr]

theorem Job.failure_eq_none {t : LocalTempData V} {job : Job}
    (h : ∀ e, job.finalPc P C t ≠ .failed e true) : job.failure P C t = none := by
  cases job with
  | bobRespondsGamma j =>
    cases hc : bobRespondsCall P C t.gamma "BobResponds(gamma) failed" j t with
    | error e => exact absurd (by simp [Job.finalPc, hc]) (h e)
    | ok r => simp [Job.failure, hc, errorOf]
  | bobRespondsW j =>
    cases hc : bobRespondsCall P C t.w "BobResponds(w) failed" j t with
    | error e => exact absurd (by simp [Job.finalPc, hc]) (h e)
    | ok r => simp [Job.failure, hc, errorOf]
  | computeProofPsiPrime j =>
    cases hc : psiPrimeCall P C j t with
    | error e => exact absurd (by simp [Job.finalPc, hc]) (h e)
    | ok r => simp [Job.failure, hc, errorOf]

theorem gammaStores_expect (s0 : FanOut V) (pc : Job → Pc V) (e : List Tss.Error) {j : ℕ}
    (r : ℤ × ℤ × ℤ × List (Option V.AffGInvProof)) (hpc : pc (.bobRespondsGamma j) = .start) :
    gammaStore P j 3 r (gammaStore P j 2 r (gammaStore P j 1 r
      (gammaStore P j 0 r (expect P s0 pc e)))) =
      expect P s0 (Function.update pc (.bobRespondsGamma j) (.responded r 4)) e := by
  have h (n : ℕ) (hn : n < 4) := gammaStore_expect P s0
    (Function.update pc (.bobRespondsGamma j) (.responded r n)) e (Function.update_same _ _ _) hn
  simp only [Function.update_idem] at h
  rw [← expect_update_clean P s0 pc e (.bobRespondsGamma j) (.responded r 0) (by rw [hpc]; rfl) rfl,
    h 0 (by norm_num), h 1 (by norm_num), h 2 (by norm_num), h 3 (by norm_num)]

theorem wStores_expect (s0 : FanOut V) (pc : Job → Pc V) (e : List Tss.Error) {j : ℕ}
    (r : ℤ × ℤ × ℤ × List (Option V.AffGInvProof)) (hpc : pc (.bobRespondsW j) = .start) :
    wStore P j 3 r (wStore P j 2 r (wStore P j 1 r (wStore P j 0 r (expect P s0 pc e)))) =
      expect P s0 (Function.update pc (.bobRespondsW j) (.responded r 4)) e := by
  have h (n : ℕ) (hn : n < 4) := wStore_expect P s0
    (Function.update pc (.bobRespondsW j) (.responded r n)) e (Function.update_same _ _ _) hn
  simp only [Function.update_idem] at h
  rw [← expect_update_clean P s0 pc e (.bobRespondsW j) (.responded r 0) (by rw [hpc]; rfl) rfl,
    h 0 (by norm_num), h 1 (by norm_num), h 2 (by norm_num), h 3 (by norm_num)]

theorem Job.run_expect (s0 : FanOut V) (pc : Job → Pc V) (e : List Tss.Error) {job : Job}
    {s' : FanOut V} (hpc : pc job = .start) (h : job.run P C (expect P s0 pc e) = some s') :
    s' = expect P s0 (Function.update pc job (job.finalPc P C s0.temp)) s'.errChs := by
  have hreads := expect_reads P s0 pc e
  have hclean : (pc job).clean := by rw [hpc]; rfl
  -- a goroutine that fails makes no store
  have hfail (err : Tss.Error) (hf : job.finalPc P C s0.temp = .failed err true) :
      { expect P s0 pc e with errChs := e ++ [err] } =
        expect P s0 (Function.update pc job (job.finalPc P C s0.temp)) (e ++ [err]) := by
    rw [hf, expect_update_clean P s0 pc _ _ (.failed err true) hclean rfl]
    rfl
  cases job with
  | bobRespondsGamma j =>
    rcases bobResponds_eq_some P C h with ⟨err, herr, -, rfl⟩ | ⟨r, hr, rfl⟩
    · rw [bobRespondsCall_congr P C hreads, hreads.gamma] at herr
      exact hfail err (by simp [Job.finalPc, herr])
    · rw [bobRespondsCall_congr P C hreads, hreads.gamma] at hr
      rw [show (Job.bobRespondsGamma j).finalPc P C s0.temp = .responded r 4 by
        simp [Job.finalPc, hr]]
      have key := gammaStores_expect P s0 pc e r hpc
      generalize hS : expect P s0 pc e = S at key ⊢
      have he : S.errChs = e := hS ▸ rfl
      obtain ⟨beta, D, F, pf⟩ := r
      show _ = expect P s0 _ S.errChs
      conv_rhs => rw [he, ← key]
      exact gammaStore_all P j beta D F pf S
  | bobRespondsW j =>
    rcases bobResponds_eq_some P C h with ⟨err, herr, -, rfl⟩ | ⟨r, hr, rfl⟩
    · rw [bobRespondsCall_congr P C hreads, hreads.w] at herr
      exact hfail err (by simp [Job.finalPc, herr])
    · rw [bobRespondsCall_congr P C hreads, hreads.w] at hr
      rw [show (Job.bobRespondsW j).finalPc P C s0.temp = .responded r 4 by
        simp [Job.finalPc, hr]]
      have key := wStores_expect P s0 pc e r hpc
      generalize hS : expect P s0 pc e = S at key ⊢
      have he : S.errChs = e := hS ▸ rfl
      obtain ⟨betaHat, DHat, FHat, pf⟩ := r
      show _ = expect P s0 _ S.errChs
      conv_rhs => rw [he, ← key]
      exact wStore_all P j betaHat DHat FHat pf S
  | computeProofPsiPrime j =>
    rcases ComputeProofPsiPrime_eq_some P C h with ⟨err, herr, -, rfl⟩ | ⟨pf, hr, rfl⟩
    · rw [psiPrimeCall_congr P C hreads] at herr
      exact hfail err (by simp [Job.finalPc, herr])
    · rw [psiPrimeCall_congr P C hreads] at hr
      rw [show (Job.computeProofPsiPrime j).finalPc P C s0.temp = .proved pf true by
        simp [Job.finalPc, hr]]
      have h' := psiPrimeStore_expect P s0
        (Function.update pc (.computeProofPsiPrime j) (.proved pf false)) e (Function.update_same _ _ _)
      rw [Function.update_idem,
        expect_update_clean P s0 pc e (.computeProofPsiPrime j) (.proved pf false) hclean rfl] at h'
      exact h'

theorem runJobs_expect (s0 : FanOut V) :
    ∀ (l : List Job) (pc : Job → Pc V) (e : List Tss.Error) (s' : FanOut V), l.Nodup →
      (∀ job ∈ l, pc job = .start) → runJobs P C l (expect P s0 pc e) = some s' →
      s' = expect P s0 (fun job => if job ∈ l then job.finalPc P C s0.temp else pc job) s'.errChs
  | [], pc, e, s', _, _, h => by
    cases h
    simp only [List.not_mem_nil, if_false]
    rfl
  | job :: l, pc, e, s', hnd, hst, h => by
    obtain ⟨s₁, h₁, h'⟩ := Option.bind_eq_some.mp h
    obtain ⟨hjl, hnd⟩ := List.nodup_cons.mp hnd
    rw [Job.run_expect P C s0 pc e (hst job (List.mem_cons_self _ _)) h₁] at h'
    rw [runJobs_expect s0 l _ _ s' hnd (fun job' hj' => by
      rw [Function.update_noteq fun e : job' = job => hjl (e ▸ hj')]
      exact hst job' (List.mem_cons_of_mem _ hj')) h']
    congr 1
    funext job'
    by_cases h1 : job' ∈ l
    · simp [h1]
    · by_cases h2 : job' = job
      · subst h2
        simp [h1]
      · simp [h1, h2, Function.update_noteq h2]

theorem runJobs_perm {s0 s₁ s₂ : FanOut V} (hs0 : s0.errChs = []) {o₁ o₂ : List Job}
    (hp₁ : o₁.Perm (Jobs P)) (hp₂ : o₂.Perm (Jobs P))
    (h₁ : runJobs P C o₁ s0 = some s₁) (h₂ : runJobs P C o₂ s0 = some s₂) :
    { s₁ with errChs := s₂.errChs } = s₂ ∧ s₁.errChs.Perm s₂.errChs := by
  have hnd₁ := hp₁.nodup_iff.mpr (Jobs_nodup P)
  have hnd₂ := hp₂.nodup_iff.mpr (Jobs_nodup P)
  have hcap (o : List Job) (hp : o.Perm (Jobs P)) : s0.errChs.length + o.length ≤ errCap P := by
    rw [hs0, hp.length_eq, Jobs_length]
    simp
  obtain ⟨_, h₁', -, herr₁, -⟩ := runJobs_spec P C s0.temp o₁ s0 hnd₁ (.refl _) (hcap o₁ hp₁)
  obtain ⟨_, h₂', -, herr₂, -⟩ := runJobs_spec P C s0.temp o₂ s0 hnd₂ (.refl _) (hcap o₂ hp₂)
  rw [h₁, Option.some.injEq] at h₁'
  rw [h₂, Option.some.injEq] at h₂'
  subst h₁' h₂'
  refine ⟨?_, by rw [herr₁, herr₂]; exact ((hp₁.trans hp₂.symm).filterMap _).append_left _⟩
  rw [← expect_start P s0] at h₁ h₂
  have hF : (fun job => if job ∈ o₁ then job.finalPc P C s0.temp else Pc.start) =
      fun job => if job ∈ o₂ then job.finalPc P C s0.temp else Pc.start := by
    simp only [hp₁.mem_iff, hp₂.mem_iff]
  rw [runJobs_expect P C s0 o₂ _ _ _ hnd₂ (fun _ _ => rfl) h₂,
    runJobs_expect P C s0 o₁ _ _ _ hnd₁ (fun _ _ => rfl) h₁, hF]
  rfl

/-! ## Refinement -/

/-- A schedule that runs every goroutine launched on `s0` to its return ends in the state of
the atomic run in some permutation of the goroutines: those that failed, in the order of
their sends, then the others. -/
theorem runInterleaved_refines {s0 s : FanOut V} (hs0 : s0.errChs = []) {sched : List Job}
    (h : runInterleaved P C sched s0 = some s) :
    ∃ order, order.Perm (Jobs P) ∧ runJobs P C order s0 = some s := by
  obtain ⟨c, hc, hs⟩ := Option.bind_eq_some.mp h
  split at hs
  swap
  · cases hs
  rename_i hall
  cases hs
  have hinv := (Interleaving.Inv.init P C s0).run P C hc
  obtain ⟨L, hnd, hL, herr⟩ := hinv.sent
  have hret (job : Job) (hj : job ∈ Jobs P) : c.pc job = job.finalPc P C s0.temp :=
    Pc.eq_finalPc P C (hinv.sound job) (List.all_eq_true.mp hall job hj)
  have hLJ (job : Job) (hj : job ∈ L) : job ∈ Jobs P := by
    by_contra hn
    obtain ⟨e, he⟩ := (hL job).mp hj
    rw [hinv.launched job hn] at he
    cases he
  -- the goroutines that sent, in the order they sent, then the others
  have hperm : (L ++ (Jobs P).filter (· ∉ L)).Perm (Jobs P) := by
    refine (List.perm_ext_iff_of_nodup (hnd.append ((Jobs_nodup P).filter _) fun job h1 h2 => ?_)
      (Jobs_nodup P)).mpr fun job => ?_
    · simp only [List.mem_filter, decide_eq_true_eq] at h2
      exact h2.2 h1
    · by_cases hj : job ∈ L <;> simp [hj, hLJ]
  have hnd' := hperm.nodup_iff.mpr (Jobs_nodup P)
  obtain ⟨s', hrun, -, herr', -, -, -⟩ := runJobs_spec P C s0.temp _ s0 hnd' (.refl _)
    (by rw [hs0, hperm.length_eq, Jobs_length]; simp)
  refine ⟨_, hperm, hrun.trans (congrArg some ?_)⟩
  have hnil : ((Jobs P).filter (· ∉ L)).filterMap (Job.failure P C · s0.temp) = [] := by
    refine List.filterMap_eq_nil_iff.mpr fun job hj => ?_
    simp only [List.mem_filter, decide_eq_true_eq] at hj
    refine Job.failure_eq_none P C fun e he => hj.2 ((hL job).mpr ⟨e, ?_⟩)
    rw [hret job hj.1, he]
  rw [← expect_start P s0] at hrun
  rw [runJobs_expect P C s0 _ _ _ s' hnd' (fun _ _ => rfl) hrun]
  conv_rhs => rw [hinv.shared]
  congr 1
  · funext job
    by_cases hj : job ∈ Jobs P
    · rw [if_pos (hperm.mem_iff.mpr hj), hret job hj]
    · rw [if_neg (mt hperm.mem_iff.mp hj), hinv.launched job hj]
  · rw [herr', herr, List.filterMap_append, hnil, List.append_nil]

theorem runInterleaved_deterministic {s0 s₁ s₂ : FanOut V} (hs0 : s0.errChs = [])
    {sched₁ sched₂ : List Job} (h₁ : runInterleaved P C sched₁ s0 = some s₁)
    (h₂ : runInterleaved P C sched₂ s0 = some s₂) :
    { s₁ with errChs := s₂.errChs } = s₂ ∧ s₁.errChs.Perm s₂.errChs := by
  obtain ⟨o₁, hp₁, h₁⟩ := runInterleaved_refines P C hs0 h₁
  obtain ⟨o₂, hp₂, h₂⟩ := runInterleaved_refines P C hs0 h₂
  exact runJobs_perm P C hs0 hp₁ hp₂ h₁ h₂

/-- `Start` with its goroutines interleaved at every read, store and send, by any schedule:
in every state the schedule reaches, no goroutine that has not returned is blocked, and
what `Start` returns is what `Round2.Start` returns when the goroutines run one after
another in some permutation of the launch order. -/
theorem Round2.StartInterleaved_refines (round : Round2 V) (sched : List Job) :
    (∀ c, interleave P C sched ⟨launchState P C round.temp, fun _ => .start⟩ = some c →
      ∀ job ∈ Jobs P, (c.pc job).returned = false → (c.step P C job).isSome) ∧
    ∀ x, Round2.StartInterleaved P C sched round = some x →
      ∃ order, order.Perm (Jobs P) ∧ Round2.Start P C order round = some x := by
  refine ⟨fun c hc job hj hr =>
    ((Interleaving.Inv.init P C _).run P C hc).step_isSome P C rfl hj hr, fun x h => ?_⟩
  unfold Round2.StartInterleaved at h
  split at h
  · exact ⟨Jobs P, .refl _, by rw [Round2.Start, if_pos ‹_›]; exact h⟩
  · obtain ⟨s, hs, rfl⟩ := Option.map_eq_some'.mp h
    obtain ⟨order, hperm, hrun⟩ := runInterleaved_refines P C rfl hs
    refine ⟨order, hperm, ?_⟩
    rw [Round2.Start, if_neg ‹_›]
    exact (congrArg (Option.map _) hrun).trans rfl

/-- Which schedule ran the goroutines is invisible in what `Start` returns but for the order
of the culprits in its error: the round it leaves, with every store the goroutines made
into `round.temp` and the messages it sent, is the same for every schedule, and it fails
under one schedule exactly when it fails under another, with the same cause. -/
theorem Round2.StartInterleaved_deterministic (round : Round2 V) (sched₁ sched₂ : List Job)
    (x₁ x₂ : Option Tss.Error × Round2 V)
    (h₁ : Round2.StartInterleaved P C sched₁ round = some x₁)
    (h₂ : Round2.StartInterleaved P C sched₂ round = some x₂) :
    x₁.2 = x₂.2 ∧
      Option.Rel (fun e₁ e₂ => e₁.Cause = e₂.Cause ∧ e₁.Culprits.Perm e₂.Culprits) x₁.1 x₂.1 := by
  unfold Round2.StartInterleaved at h₁ h₂
  by_cases hst : round.started
  · rw [if_pos hst, Option.some.injEq] at h₁ h₂
    subst h₁ h₂
    exact ⟨rfl, .some ⟨rfl, .refl _⟩⟩
  rw [if_neg hst] at h₁ h₂
  obtain ⟨s₁, hs₁, rfl⟩ := Option.map_eq_some'.mp h₁
  obtain ⟨s₂, hs₂, rfl⟩ := Option.map_eq_some'.mp h₂
  obtain ⟨hs, hperm⟩ := runInterleaved_deterministic P C rfl hs₁ hs₂
  generalize s₂.errChs = e₂ at hs hperm
  subst hs
  by_cases he : e₂ = []
  · subst he
    have he₁ : s₁.errChs = [] := hperm.eq_nil
    have hs : { s₁ with errChs := [] } = s₁ := FanOut.ext rfl rfl rfl rfl he₁.symm
    simp only [WrapErrorChs, he₁, List.isEmpty_nil, if_true, hs]
    exact ⟨trivial, .none⟩
  · have he₁ : s₁.errChs ≠ [] := fun h => he (by rw [h] at hperm; exact hperm.nil_eq.symm)
    simp only [WrapErrorChs, List.isEmpty_iff, he, he₁, if_false]
    exact ⟨trivial, .some ⟨rfl, hperm.flatMap_right _⟩⟩

end Inv

/-! ## Every schedule can run to the return of `wg.Wait()` -/

section Completion
variable {V : Primitives} (P : Parameters) (C : Collaborators V)

def Interleaving.remaining (c : Interleaving V) : ℕ :=
  ((Jobs P).map fun job => (c.pc job).remaining).sum

theorem Interleaving.remaining_launch (s : FanOut V) :
    (⟨s, fun _ => .start⟩ : Interleaving V).remaining P = 6 * (Jobs P).length := by
  simp [Interleaving.remaining, Pc.remaining, mul_comm]

theorem Job.microStep_remaining {job : Job} {s s' : FanOut V} {p p' : Pc V}
    (h : job.microStep P C s p = some (s', p')) : p'.remaining < p.remaining := by
  rcases Job.microStep_cases P C h with ⟨-, -, -, -, -, hlt⟩ | ⟨-, r, n, -, rfl, hn, rfl, -⟩ |
    ⟨-, r, n, -, rfl, hn, rfl, -⟩ | ⟨-, pf, -, rfl, rfl, -⟩ | ⟨e, rfl, rfl, -, -⟩
  · exact hlt
  · exact Nat.sub_lt_sub_left hn n.lt_succ_self
  · exact Nat.sub_lt_sub_left hn n.lt_succ_self
  · exact Nat.zero_lt_one
  · exact Nat.zero_lt_one

theorem Interleaving.remaining_step {c c' : Interleaving V} {job : Job}
    (h : c.step P C job = some c') : c'.remaining P < c.remaining P := by
  obtain ⟨hj, s', p', hm, rfl⟩ := Interleaving.step_eq_some P C h
  have hlt := Job.microStep_remaining P C hm
  refine List.sum_lt_sum _ _ (fun job' _ => ?_) ⟨job, hj, by simpa using hlt⟩
  by_cases hj' : job' = job
  · subst hj'
    simpa using hlt.le
  · simp [Function.update_noteq hj']

theorem interleave_length :
    ∀ {sched : List Job} {c c' : Interleaving V}, interleave P C sched c = some c' →
      sched.length + c'.remaining P ≤ c.remaining P
  | [], _, _, h => by
    cases h
    simp
  | _ :: _, _, _, h => by
    obtain ⟨c₁, h₁, h'⟩ := Option.bind_eq_some.mp h
    have := interleave_length h'
    have := Interleaving.remaining_step P C h₁
    simp only [List.length_cons]
    omega

theorem interleave_append (sched ext : List Job) (c : Interleaving V) :
    interleave P C (sched ++ ext) c = (interleave P C sched c).bind (interleave P C ext) := by
  induction sched generalizing c with
  | nil => rfl
  | cons job sched ih =>
    simp only [List.cons_append, interleave]
    cases c.step P C job with
    | none => rfl
    | some c₁ => exact ih c₁

/-- From every state of every schedule, some schedule runs the goroutines that have not
returned to their returns, each step one that `step_isSome` says is possible. -/
theorem Interleaving.Inv.completes {s0 : FanOut V} (hs0 : s0.errChs = []) {c : Interleaving V}
    (hinv : Interleaving.Inv P C s0 c) :
    ∃ ext c', interleave P C ext c = some c' ∧ ∀ job ∈ Jobs P, (c'.pc job).returned := by
  by_cases hall : ∀ job ∈ Jobs P, (c.pc job).returned
  · exact ⟨[], c, rfl, hall⟩
  simp only [not_forall, Bool.not_eq_true, exists_prop] at hall
  obtain ⟨job, hj, hr⟩ := hall
  obtain ⟨c₁, h₁⟩ := Option.isSome_iff_exists.mp (hinv.step_isSome P C hs0 hj hr)
  have := Interleaving.remaining_step P C h₁
  obtain ⟨ext, c', h', hret⟩ := Interleaving.Inv.completes hs0 (hinv.step P C h₁)
  exact ⟨job :: ext, c', by rw [interleave, h₁, Option.some_bind, h'], hret⟩
termination_by c.remaining P

/-- `Start` with its goroutines interleaved always returns: no schedule runs more than six
steps per goroutine, and every state a schedule reaches has a continuation, within that
bound, after which `wg.Wait()` returns and so does `Start`. -/
theorem Round2.StartInterleaved_completes (round : Round2 V) (sched : List Job)
    (hc : (interleave P C sched ⟨launchState P C round.temp, fun _ => .start⟩).isSome) :
    ∃ ext, (sched ++ ext).length ≤ 6 * (Jobs P).length ∧
      (Round2.StartInterleaved P C (sched ++ ext) round).isSome := by
  obtain ⟨c, hc⟩ := Option.isSome_iff_exists.mp hc
  obtain ⟨ext, c', h', hret⟩ := ((Interleaving.Inv.init P C _).run P C hc).completes P C rfl
  have hrun : runInterleaved P C (sched ++ ext) (launchState P C round.temp) = some c'.shared := by
    rw [runInterleaved, interleave_append, hc, Option.some_bind, h', Option.some_bind,
      if_pos (List.all_eq_true.mpr hret)]
  refine ⟨ext, ?_, ?_⟩
  · have := interleave_length P C hc
    have := interleave_length P C h'
    rw [List.length_append, ← Interleaving.remaining_launch P (launchState P C round.temp)]
    omega
  · unfold Round2.StartInterleaved
    split
    · rfl
    · rw [Option.isSome_map']
      exact Option.isSome_iff_exists.mpr ⟨c'.shared, hrun⟩

end Completion

def roundRobin : List Job :=
  [.bobRespondsGamma 1, .bobRespondsW 1, .computeProofPsiPrime 1,
    .bobRespondsGamma 1, .bobRespondsW 1, .computeProofPsiPrime 1,
    .bobRespondsGamma 1, .bobRespondsW 1, .computeProofPsiPrime 1,
    .bobRespondsGamma 1, .bobRespondsW 1, .bobRespondsGamma 1, .bobRespondsW 1,
    .bobRespondsGamma 1, .bobRespondsW 1]

theorem Round2.StartInterleaved_refines_roundRobin :
    ∃ order, order.Perm (Jobs exampleParameters) ∧
      Round2.Start exampleParameters exampleCollaborators order exampleRound =
        Round2.StartInterleaved exampleParameters exampleCollaborators roundRobin exampleRound := by
  obtain ⟨x, hx⟩ := Option.isSome_iff_exists.mp (show (Round2.StartInterleaved exampleParameters
    exampleCollaborators roundRobin exampleRound).isSome = true from rfl)
  obtain ⟨order, hperm, h⟩ :=
    (Round2.StartInterleaved_refines exampleParameters exampleCollaborators exampleRound
      roundRobin).2 x hx
  exact ⟨order, hperm, h.trans hx.symm⟩

theorem Round2.StartInterleaved_deterministic_reversed :
    ∃ x₁ x₂, Round2.StartInterleaved exampleParameters exampleCollaborators roundRobin
        exampleRound = some x₁ ∧
      Round2.StartInterleaved exampleParameters exampleCollaborators roundRobin.reverse
        exampleRound = some x₂ ∧
      x₁.2 = x₂.2 ∧
      Option.Rel (fun e₁ e₂ => e₁.Cause = e₂.Cause ∧ e₁.Culprits.Perm e₂.Culprits) x₁.1 x₂.1 := by
  obtain ⟨x₁, h₁⟩ := Option.isSome_iff_exists.mp (show (Round2.StartInterleaved exampleParameters
    exampleCollaborators roundRobin exampleRound).isSome = true from rfl)
  obtain ⟨x₂, h₂⟩ := Option.isSome_iff_exists.mp (show (Round2.StartInterleaved exampleParameters
    exampleCollaborators roundRobin.reverse exampleRound).isSome = true from rfl)
  exact ⟨x₁, x₂, h₁, h₂, Round2.StartInterleaved_deterministic exampleParameters exampleCollaborators
    exampleRound roundRobin roundRobin.reverse x₁ x₂ h₁ h₂⟩

theorem Round2.StartInterleaved_completes_roundRobin :
    (interleave exampleParameters exampleCollaborators (roundRobin.take 4)
      ⟨launchState exampleParameters exampleCollaborators exampleRound.temp,
        fun _ => .start⟩).isSome ∧
    ∃ ext, (roundRobin.take 4 ++ ext).length ≤ 6 * (Jobs exampleParameters).length ∧
      (Round2.StartInterleaved exampleParameters exampleCollaborators (roundRobin.take 4 ++ ext)
        exampleRound).isSome :=
  ⟨rfl, Round2.StartInterleaved_completes exampleParameters exampleCollaborators exampleRound _ rfl⟩

end MpcLib.Cggplus
