import MpcLib.Cggplus.Round2

/-!
# Signing round 2: the completion gate `round2.Update`

`Update` walks the peers `k ≠ i` whose `ok[k]` flag is still clear; it returns `false` at
the first one with a missing or refused `Message1` from `k` to some `j ≠ k`, or a missing
or refused `Message2` from `k`, and otherwise sets `ok[k]`. A peer whose flag is set is
not looked at again, so the flags are a cache of rows already found complete; `Start`
clears the flags round 1 left behind.

A run of the round is `Start` on a round not yet started, then any sequence of `Update`
calls and stores of received messages into their slots (`Reachable`); a store never
clears a slot.

* `Reachable.okInv`: in every reachable state a set flag stands for a filled row.
* `Update_gate`: in every reachable state, `Update` returns `(true, nil)` only when every
  slot it waits for is filled, and always does when all of them hold accepted messages.
* `Update_true_final`: once `Update` returned `(true, nil)` it always does, whatever is
  stored later.
* `Update_eq_UpdateUncached`: the cache is exact. In every reachable state whose table holds
  accepted messages only, `Update` answers what a check of every row on every call answers;
  with `Message1` broadcast, `Start` and the stores of accepted messages keep the table so.
-/

namespace MpcLib.Cggplus

variable {V : Primitives}

/-- `round.CanAccept(msg)`: both message types of round 2 must be broadcast. -/
def Round2.CanAccept (msg : ParsedMessage V) : Bool :=
  match msg.Content with
  | .signRound2Message1 _ => msg.IsBroadcast
  | .signRound2Message2 _ => msg.IsBroadcast
  | .other => false

@[simp] theorem CanAccept_NewSignRound2Message1 (toParty fromParty : ℕ)
    (bigD bigDHat bigF bigFHat : ℤ) (psi psiHat : List (Option V.AffGInvProof)) :
    Round2.CanAccept (NewSignRound2Message1 toParty fromParty bigD bigDHat bigF bigFHat psi psiHat) =
      V.Message1IsBroadcast := rfl

@[simp] theorem CanAccept_NewSignRound2Message2 (fromParty : ℕ) (pointGamma : V.Point)
    (psiPrime : ℕ → Option V.LogStarProof) :
    Round2.CanAccept (NewSignRound2Message2 fromParty pointGamma psiPrime) = true := rfl

/-- A slot passes the check `msg == nil || !round.CanAccept(msg)` of `Update`. -/
def slotAccepted (slot : Option (ParsedMessage V)) : Bool :=
  match slot with
  | none => false
  | some msg => Round2.CanAccept msg

section Update
variable (P : Parameters)

/-- One pass of the outer loop of `Update` for peer `k`: the inner loop over the `Message1`s
from `k` to every `j ≠ k`, then the check of `Message2` from `k`. -/
def Round2.rowAccepted (round : Round2 V) (k : ℕ) : Bool :=
  (List.range P.PartyCount).all
      (fun j => j == k || slotAccepted (round.temp.signRound2Message1s k j)) &&
    slotAccepted (round.temp.signRound2Message2s k)

/-- The outer loop of `Update` over the peers `ks`: `false` at the first peer whose row is not
accepted, keeping the flags set before it. -/
def Round2.updateLoop (round : Round2 V) : List ℕ → Bool × Round2 V
  | [] => (true, round)
  | k :: ks =>
    if k = P.PartyIndex ∨ round.ok k = true then Round2.updateLoop round ks
    else if Round2.rowAccepted P round k then
      Round2.updateLoop { round with ok := Function.update round.ok k true } ks
    else (false, round)

/-- `round.Update()`; its error is always `nil`. -/
def Round2.Update (round : Round2 V) : (Bool × Option Tss.Error) × Round2 V :=
  let r := Round2.updateLoop P round (List.range P.PartyCount)
  ((r.1, none), r.2)

/-- What happens to a round between two `Update` calls: one of them, or a store. -/
inductive Event (V : Primitives)
  | update
  | storeMessage1 (fromParty toParty : ℕ) (msg : ParsedMessage V)
  | storeMessage2 (fromParty : ℕ) (msg : ParsedMessage V)

/-- One event. A store is modelled from the spec (the party's message store is not in the
source): a message received from `fromParty` goes into its slot. -/
def Round2.step (round : Round2 V) : Event V → Round2 V
  | .update => (Round2.Update P round).2
  | .storeMessage1 k j msg => { round with
      temp := { round.temp with
        signRound2Message1s := set2 round.temp.signRound2Message1s k j (some msg) } }
  | .storeMessage2 k msg => { round with
      temp := { round.temp with
        signRound2Message2s := Function.update round.temp.signRound2Message2s k (some msg) } }

/-- The states of a run: `Start` on a round not yet started, whatever the goroutines did,
then any events. -/
inductive Round2.Reachable (C : Collaborators V) : Round2 V → Prop
  | start (round : Round2 V) (order : List Job) (err : Option Tss.Error) (round' : Round2 V) :
      round.started = false → Round2.Start P C order round = some (err, round') →
      Round2.Reachable C round'
  | step (round : Round2 V) (e : Event V) : Round2.Reachable C round →
      Round2.Reachable C (round.step P e)

/-- Every slot `Update` waits for from peer `k` holds a message. -/
def Round2.RowFilled (round : Round2 V) (k : ℕ) : Prop :=
  (∀ j < P.PartyCount, j ≠ k → (round.temp.signRound2Message1s k j).isSome) ∧
    (round.temp.signRound2Message2s k).isSome

/-- Every slot `Update` waits for holds a message that `CanAccept` accepts. -/
def Round2.AllAccepted (round : Round2 V) : Prop :=
  ∀ k < P.PartyCount, k ≠ P.PartyIndex →
    (∀ j < P.PartyCount, j ≠ k →
      ∃ msg, round.temp.signRound2Message1s k j = some msg ∧ Round2.CanAccept msg = true) ∧
    ∃ msg, round.temp.signRound2Message2s k = some msg ∧ Round2.CanAccept msg = true

/-- The cache invariant: a peer's flag is set only when its row is filled. -/
def Round2.OkInv (round : Round2 V) : Prop :=
  ∀ k, k ≠ P.PartyIndex → round.ok k = true → Round2.RowFilled P round k

theorem slotAccepted_iff {slot : Option (ParsedMessage V)} :
    slotAccepted slot = true ↔ ∃ msg, slot = some msg ∧ Round2.CanAccept msg = true := by
  cases slot <;> simp [slotAccepted]

theorem rowAccepted_iff (round : Round2 V) (k : ℕ) :
    Round2.rowAccepted P round k = true ↔
      (∀ j < P.PartyCount, j ≠ k → slotAccepted (round.temp.signRound2Message1s k j) = true) ∧
        slotAccepted (round.temp.signRound2Message2s k) = true := by
  simp only [Round2.rowAccepted, Bool.and_eq_true, List.all_eq_true, List.mem_range,
    Bool.or_eq_true, beq_iff_eq]
  exact and_congr_left' (forall₂_congr fun j _ => or_iff_not_imp_left.trans (by rw [ne_eq]))

theorem RowFilled_of_rowAccepted {round : Round2 V} {k : ℕ}
    (h : Round2.rowAccepted P round k = true) : Round2.RowFilled P round k := by
  rw [rowAccepted_iff] at h
  refine ⟨fun j hj hjk => ?_, ?_⟩
  · obtain ⟨msg, hmsg, -⟩ := slotAccepted_iff.mp (h.1 j hj hjk)
    simp [hmsg]
  · obtain ⟨msg, hmsg, -⟩ := slotAccepted_iff.mp h.2
    simp [hmsg]

theorem updateLoop_spec : ∀ (l : List ℕ) (round : Round2 V),
    (Round2.updateLoop P round l).2 = { round with ok := (Round2.updateLoop P round l).2.ok } ∧
      ∀ k, (Round2.updateLoop P round l).2.ok k = true →
        round.ok k = true ∨ Round2.rowAccepted P round k = true
  | [], _ => ⟨rfl, fun _ h => .inl h⟩
  | k :: ks, round => by
    simp only [Round2.updateLoop]
    split
    · exact updateLoop_spec ks round
    split
    · obtain ⟨hrest, hok⟩ := updateLoop_spec ks { round with ok := Function.update round.ok k true }
      refine ⟨hrest, fun k' h => ?_⟩
      rcases hok k' h with h' | h'
      · by_cases hk : k' = k
        · exact .inr (hk ▸ ‹_›)
        · exact .inl (by simpa [Function.update_noteq hk] using h')
      · exact .inr h'
    · exact ⟨rfl, fun _ h => .inl h⟩

theorem updateLoop_temp (l : List ℕ) (round : Round2 V) :
    (Round2.updateLoop P round l).2.temp = round.temp :=
  (congrArg Round2.temp (updateLoop_spec P l round).1).trans rfl

theorem updateLoop_ok_mono : ∀ (l : List ℕ) (round : Round2 V) (k : ℕ),
    round.ok k = true → (Round2.updateLoop P round l).2.ok k = true
  | [], _, _, h => h
  | k' :: ks, round, k, h => by
    simp only [Round2.updateLoop]
    split
    · exact updateLoop_ok_mono ks round k h
    split
    · refine updateLoop_ok_mono ks _ k ?_
      by_cases hk : k = k'
      · subst hk; exact Function.update_same _ _ _
      · exact (Function.update_noteq hk _ _).trans h
    · exact h

theorem updateLoop_true_of_accepted : ∀ (l : List ℕ) (round : Round2 V),
    (∀ k ∈ l, k ≠ P.PartyIndex → round.ok k = true ∨ Round2.rowAccepted P round k = true) →
      (Round2.updateLoop P round l).1 = true
  | [], _, _ => rfl
  | k :: ks, round, h => by
    have hks := fun k' hk' => h k' (List.mem_cons_of_mem k hk')
    simp only [Round2.updateLoop]
    split
    · exact updateLoop_true_of_accepted ks round hks
    rename_i hskip
    rw [if_pos ((h k (List.mem_cons_self k ks) fun e => hskip (.inl e)).resolve_left
      fun e => hskip (.inr e))]
    refine updateLoop_true_of_accepted ks _ fun k' hk' hne => (hks k' hk' hne).imp (fun ho => ?_) id
    by_cases e : k' = k
    · subst e; exact Function.update_same _ _ _
    · exact (Function.update_noteq e _ _).trans ho

theorem updateLoop_true_flags : ∀ (l : List ℕ) (round : Round2 V),
    (Round2.updateLoop P round l).1 = true →
      ∀ k ∈ l, k ≠ P.PartyIndex → (Round2.updateLoop P round l).2.ok k = true
  | [], _, _ => by simp
  | k' :: ks, round, h => by
    intro k hk hki
    simp only [Round2.updateLoop] at h ⊢
    by_cases h1 : k' = P.PartyIndex ∨ round.ok k' = true
    · rw [if_pos h1] at h ⊢
      rcases List.mem_cons.mp hk with rfl | hk
      · exact updateLoop_ok_mono P ks round k (h1.resolve_left hki)
      · exact updateLoop_true_flags ks round h k hk hki
    rw [if_neg h1] at h ⊢
    by_cases h2 : Round2.rowAccepted P round k' = true
    · rw [if_pos h2] at h ⊢
      rcases List.mem_cons.mp hk with rfl | hk
      · exact updateLoop_ok_mono P ks _ k (by simp)
      · exact updateLoop_true_flags ks _ h k hk hki
    · rw [if_neg h2] at h
      cases h

theorem flagged_or_rowAccepted_of_Update {round : Round2 V}
    (h : (Round2.Update P round).1.1 = true) {k : ℕ} (hk : k < P.PartyCount)
    (hki : k ≠ P.PartyIndex) : round.ok k = true ∨ Round2.rowAccepted P round k = true :=
  (updateLoop_spec P _ round).2 k (updateLoop_true_flags P _ round h k (List.mem_range.mpr hk) hki)

/-! ## The cache invariant along a run -/

theorem Start_ok (C : Collaborators V) {order : List Job} {round round' : Round2 V}
    {err : Option Tss.Error} (hs : round.started = false)
    (h : Round2.Start P C order round = some (err, round')) :
    round'.ok = Function.update (resetOK round.ok) P.PartyIndex true := by
  simp only [Round2.Start, hs, Bool.false_eq_true, if_false, Option.map_eq_some'] at h
  obtain ⟨s, -, hs'⟩ := h
  split at hs'
  · cases hs'; rfl
  · cases hs'
    rw [sendMessages, foldl_sendMessage1]

theorem OkInv_start (C : Collaborators V) {order : List Job} {round round' : Round2 V}
    {err : Option Tss.Error} (hs : round.started = false)
    (h : Round2.Start P C order round = some (err, round')) : Round2.OkInv P round' := by
  intro k hk hok
  rw [Start_ok P C hs h, Function.update_noteq hk] at hok
  cases hok

theorem RowFilled_step {round : Round2 V} {k : ℕ} (e : Event V)
    (h : Round2.RowFilled P round k) : Round2.RowFilled P (round.step P e) k := by
  cases e with
  | update => simpa [Round2.RowFilled, Round2.step, Round2.Update, updateLoop_temp] using h
  | storeMessage1 k' j' msg =>
    refine ⟨fun j hj hjk => ?_, h.2⟩
    simp only [Round2.step, set2_apply]
    split
    · rfl
    · exact h.1 j hj hjk
  | storeMessage2 k' msg =>
    refine ⟨h.1, ?_⟩
    simp only [Round2.step, Function.update_apply]
    split
    · rfl
    · exact h.2

theorem OkInv_step {round : Round2 V} (e : Event V) (h : Round2.OkInv P round) :
    Round2.OkInv P (round.step P e) := by
  intro k hk hok
  cases e with
  | update =>
    have hrow : Round2.RowFilled P round k :=
      ((updateLoop_spec P (List.range P.PartyCount) round).2 k hok).elim (h k hk)
        (RowFilled_of_rowAccepted P)
    simpa [Round2.RowFilled, Round2.step, Round2.Update, updateLoop_temp] using hrow
  | storeMessage1 k' j' msg => exact RowFilled_step P _ (h k hk hok)
  | storeMessage2 k' msg => exact RowFilled_step P _ (h k hk hok)

theorem Round2.Reachable.okInv {C : Collaborators V} {round : Round2 V}
    (h : Round2.Reachable P C round) : Round2.OkInv P round := by
  induction h with
  | start _ _ _ _ hs hstart => exact OkInv_start P C hs hstart
  | step _ e _ ih => exact OkInv_step P e ih

theorem Update_of_AllAccepted {round : Round2 V} (h : Round2.AllAccepted P round) :
    (Round2.Update P round).1 = (true, none) := by
  have hrows : ∀ k ∈ List.range P.PartyCount, k ≠ P.PartyIndex →
      Round2.rowAccepted P round k = true := by
    intro k hk hki
    obtain ⟨h1, h2⟩ := h k (List.mem_range.mp hk) hki
    exact (rowAccepted_iff P round k).mpr
      ⟨fun j hj hjk => slotAccepted_iff.mpr (h1 j hj hjk), slotAccepted_iff.mpr h2⟩
  simp only [Round2.Update,
    updateLoop_true_of_accepted P _ round fun k hk hki => .inr (hrows k hk hki)]

theorem RowFilled_of_Update {C : Collaborators V} {round : Round2 V}
    (hreach : Round2.Reachable P C round) (h : (Round2.Update P round).1.1 = true) {k : ℕ}
    (hk : k < P.PartyCount) (hki : k ≠ P.PartyIndex) : Round2.RowFilled P round k :=
  (flagged_or_rowAccepted_of_Update P h hk hki).elim (hreach.okInv P k hki)
    (RowFilled_of_rowAccepted P)

/-- The completion gate of round 2, in every state of every run: `Update` returns
`(true, nil)` only when every slot it waits for is filled, and it does return
`(true, nil)` whenever all of them hold messages that `CanAccept` accepts. -/
theorem Round2.Update_gate (C : Collaborators V) (round : Round2 V)
    (hreach : Round2.Reachable P C round) :
    ((Round2.Update P round).1 = (true, none) →
      ∀ k < P.PartyCount, k ≠ P.PartyIndex → Round2.RowFilled P round k) ∧
    (Round2.AllAccepted P round → (Round2.Update P round).1 = (true, none)) := by
  exact ⟨fun h k => RowFilled_of_Update P hreach (congrArg (·.1) h), Update_of_AllAccepted P⟩

/-! ## Completion is final -/

def Round2.AllFlagged (round : Round2 V) : Prop :=
  ∀ k < P.PartyCount, k ≠ P.PartyIndex → round.ok k = true

theorem AllFlagged_of_Update {round : Round2 V} (h : (Round2.Update P round).1 = (true, none)) :
    Round2.AllFlagged P (Round2.Update P round).2 := fun k hk hki =>
  updateLoop_true_flags P _ round (congrArg Prod.fst h) k (List.mem_range.mpr hk) hki

theorem AllFlagged_step {round : Round2 V} (e : Event V) (h : Round2.AllFlagged P round) :
    Round2.AllFlagged P (round.step P e) := by
  intro k hk hki
  cases e with
  | update => exact updateLoop_ok_mono P _ round k (h k hk hki)
  | storeMessage1 => exact h k hk hki
  | storeMessage2 => exact h k hk hki

theorem Update_of_AllFlagged {round : Round2 V} (h : Round2.AllFlagged P round) :
    (Round2.Update P round).1 = (true, none) := by
  simp only [Round2.Update, updateLoop_true_of_accepted P _ round fun k hk hki =>
    .inl (h k (List.mem_range.mp hk) hki)]

/-- Once `Update` has returned `(true, nil)`, every later call does, whatever is stored in
between: the flags are never cleared, so a slot overwritten after completion is not looked
at again. -/
theorem Round2.Update_true_final {round : Round2 V} (h : (Round2.Update P round).1 = (true, none))
    (es : List (Event V)) :
    (Round2.Update P (es.foldl (Round2.step P) (Round2.Update P round).2)).1 = (true, none) := by
  suffices ∀ (es : List (Event V)) (r : Round2 V), Round2.AllFlagged P r →
      Round2.AllFlagged P (es.foldl (Round2.step P) r) from
    Update_of_AllFlagged P (this es _ (AllFlagged_of_Update P h))
  intro es
  induction es with
  | nil => exact fun _ h => h
  | cons e es ih => exact fun r h => ih _ (AllFlagged_step P e h)

/-! ## The `ok` cache is exact while the table holds accepted messages only -/

/-- `Update` without its cache: every peer's row is checked on every call. -/
def Round2.UpdateUncached (round : Round2 V) : Bool :=
  (List.range P.PartyCount).all fun k => k == P.PartyIndex || Round2.rowAccepted P round k

def LocalTempData.SlotsAccepted (t : LocalTempData V) : Prop :=
  (∀ k j msg, t.signRound2Message1s k j = some msg → Round2.CanAccept msg = true) ∧
    ∀ k msg, t.signRound2Message2s k = some msg → Round2.CanAccept msg = true

def Event.Accepted : Event V → Prop
  | .update => True
  | .storeMessage1 _ _ msg => Round2.CanAccept msg = true
  | .storeMessage2 _ msg => Round2.CanAccept msg = true

theorem LocalTempData.SlotsAccepted.store1 {t : LocalTempData V} (h : t.SlotsAccepted)
    {msg : ParsedMessage V} (hmsg : Round2.CanAccept msg = true) (k j : ℕ) :
    LocalTempData.SlotsAccepted
      { t with signRound2Message1s := set2 t.signRound2Message1s k j (some msg) } := by
  refine ⟨fun k' j' msg' hm => ?_, h.2⟩
  simp only [set2_apply] at hm
  split at hm
  · cases hm; exact hmsg
  · exact h.1 k' j' msg' hm

theorem LocalTempData.SlotsAccepted.store2 {t : LocalTempData V} (h : t.SlotsAccepted)
    {msg : ParsedMessage V} (hmsg : Round2.CanAccept msg = true) (k : ℕ) :
    LocalTempData.SlotsAccepted
      { t with signRound2Message2s := Function.update t.signRound2Message2s k (some msg) } := by
  refine ⟨h.1, fun k' msg' hm => ?_⟩
  simp only [Function.update_apply] at hm
  split at hm
  · cases hm; exact hmsg
  · exact h.2 k' msg' hm

theorem SlotsAccepted_step {round : Round2 V} {e : Event V} (he : e.Accepted)
    (h : round.temp.SlotsAccepted) : (round.step P e).temp.SlotsAccepted := by
  cases e with
  | update => rwa [Round2.step, Round2.Update, updateLoop_temp]
  | storeMessage1 k j msg => exact h.store1 he k j
  | storeMessage2 k msg => exact h.store2 he k

theorem Job.run_table (C : Collaborators V) {job : Job} {s s' : FanOut V}
    (h : job.run P C s = some s') :
    s'.temp.signRound2Message1s = s.temp.signRound2Message1s ∧
      s'.temp.signRound2Message2s = s.temp.signRound2Message2s := by
  cases job with
  | computeProofPsiPrime j =>
    rcases ComputeProofPsiPrime_eq_some P C h with ⟨_, -, -, rfl⟩ | ⟨_, -, rfl⟩ <;>
      exact ⟨rfl, rfl⟩
  | _ =>
    rcases bobResponds_eq_some P C h with ⟨_, -, -, rfl⟩ | ⟨⟨_, _, _, _⟩, -, rfl⟩ <;>
      exact ⟨rfl, rfl⟩

theorem runJobs_table (C : Collaborators V) : ∀ (l : List Job) {s s' : FanOut V},
    runJobs P C l s = some s' →
      s'.temp.signRound2Message1s = s.temp.signRound2Message1s ∧
        s'.temp.signRound2Message2s = s.temp.signRound2Message2s
  | [], _, _, h => by cases h; exact ⟨rfl, rfl⟩
  | _ :: l, _, _, h =>
    let ⟨_, h₁, h'⟩ := Option.bind_eq_some.mp h
    let ⟨e₁, e₂⟩ := Job.run_table P C h₁
    let ⟨f₁, f₂⟩ := runJobs_table C l h'
    ⟨f₁.trans e₁, f₂.trans e₂⟩

theorem launchTemp_table (C : Collaborators V) (t : LocalTempData V) :
    (launchTemp P C t).signRound2Message1s = t.signRound2Message1s ∧
      (launchTemp P C t).signRound2Message2s = t.signRound2Message2s := by
  rw [launchTemp_eq]
  exact ⟨rfl, rfl⟩

theorem foldl_sendMessage1_slotsAccepted (hb : V.Message1IsBroadcast = true)
    (psi psiHat : ℕ → List (Option V.AffGInvProof)) :
    ∀ (l : List ℕ) (r : Round2 V), r.temp.SlotsAccepted →
      (l.foldl (sendMessage1 P psi psiHat) r).temp.SlotsAccepted
  | [], _, h => h
  | j :: l, _, h => foldl_sendMessage1_slotsAccepted hb psi psiHat l _
    (h.store1 ((CanAccept_NewSignRound2Message1 ..).trans hb) P.PartyIndex j)

theorem SlotsAccepted_start (C : Collaborators V) (hb : V.Message1IsBroadcast = true)
    {order : List Job} {round round' : Round2 V} {err : Option Tss.Error} (hs : round.started = false)
    (h : Round2.Start P C order round = some (err, round')) (h0 : round.temp.SlotsAccepted) :
    round'.temp.SlotsAccepted := by
  simp only [Round2.Start, hs, Bool.false_eq_true, if_false, Option.map_eq_some'] at h
  obtain ⟨s, hrun, hs'⟩ := h
  obtain ⟨h₁, h₂⟩ := runJobs_table P C order hrun
  obtain ⟨l₁, l₂⟩ := launchTemp_table P C round.temp
  have ht : s.temp.SlotsAccepted := by
    rw [LocalTempData.SlotsAccepted, h₁, h₂, l₁, l₂]
    exact h0
  split at hs'
  · cases hs'; exact ht
  · cases hs'
    exact (foldl_sendMessage1_slotsAccepted P hb s.psi s.psiHat (peers P) _ ht).store2
      (CanAccept_NewSignRound2Message2 ..) _

theorem rowAccepted_of_RowFilled {round : Round2 V} (hacc : round.temp.SlotsAccepted) {k : ℕ}
    (h : Round2.RowFilled P round k) : Round2.rowAccepted P round k = true := by
  refine (rowAccepted_iff P round k).mpr ⟨fun j hj hjk => ?_, ?_⟩
  · obtain ⟨msg, hmsg⟩ := Option.isSome_iff_exists.mp (h.1 j hj hjk)
    exact slotAccepted_iff.mpr ⟨msg, hmsg, hacc.1 k j msg hmsg⟩
  · obtain ⟨msg, hmsg⟩ := Option.isSome_iff_exists.mp h.2
    exact slotAccepted_iff.mpr ⟨msg, hmsg, hacc.2 k msg hmsg⟩

/-- The `ok` cache changes no answer of `Update` while the table holds accepted messages
only: in every state of a run where it does, `Update` answers what the check of every row
answers. A flag stands for a filled row (`OkInv`), and a filled row of an accepted table is
an accepted row. After a refused message overwrites an accepted one the two can differ. -/
theorem Round2.Update_eq_UpdateUncached (C : Collaborators V) (round : Round2 V)
    (hreach : Round2.Reachable P C round) (hacc : round.temp.SlotsAccepted) :
    (Round2.Update P round).1.1 = Round2.UpdateUncached P round := by
  rw [Bool.eq_iff_iff, Round2.UpdateUncached, List.all_eq_true]
  simp only [Bool.or_eq_true, beq_iff_eq, List.mem_range]
  constructor
  · exact fun h k hk => or_iff_not_imp_left.mpr fun hki =>
      rowAccepted_of_RowFilled P hacc (RowFilled_of_Update P hreach h hk hki)
  · exact fun h => updateLoop_true_of_accepted P _ round fun k hk hki =>
      .inr ((h k (List.mem_range.mp hk)).resolve_left hki)

end Update

def exampleComplete : Round2 unitPrimitives :=
  (exampleStarted.step exampleParameters
      (.storeMessage1 1 0 (NewSignRound2Message1 0 1 0 0 0 0 [] []))).step exampleParameters
    (.storeMessage2 1 (NewSignRound2Message2 1 () fun _ => none))

theorem exampleComplete_reachable :
    Round2.Reachable exampleParameters exampleCollaborators exampleComplete :=
  .step _ _ (.step _ _ (.start exampleRound (Jobs exampleParameters) none exampleStarted rfl rfl))

theorem Round2.Update_gate_two_parties :
    Round2.Reachable exampleParameters exampleCollaborators exampleComplete ∧
    ((Round2.Update exampleParameters exampleComplete).1 = (true, none) →
      ∀ k < exampleParameters.PartyCount, k ≠ exampleParameters.PartyIndex →
        Round2.RowFilled exampleParameters exampleComplete k) ∧
    (Round2.AllAccepted exampleParameters exampleComplete →
      (Round2.Update exampleParameters exampleComplete).1 = (true, none)) :=
  ⟨exampleComplete_reachable, Round2.Update_gate _ _ _ exampleComplete_reachable⟩

theorem Round2.Update_true_final_overwritten :
    (Round2.Update exampleParameters exampleComplete).1 = (true, none) ∧
    (Round2.Update exampleParameters
      ([Event.storeMessage2 1 ⟨.other, false⟩].foldl (Round2.step exampleParameters)
        (Round2.Update exampleParameters exampleComplete).2)).1 = (true, none) :=
  have h : (Round2.Update exampleParameters exampleComplete).1 = (true, none) := by decide
  ⟨h, Round2.Update_true_final _ h _⟩

theorem exampleRound_slotsAccepted : exampleRound.temp.SlotsAccepted :=
  ⟨fun _ _ _ h => (nomatch h), fun _ _ h => (nomatch h)⟩

theorem Round2.Update_eq_UpdateUncached_two_parties :
    Round2.Reachable exampleParameters exampleCollaborators exampleComplete ∧
    exampleComplete.temp.SlotsAccepted ∧
    (Round2.Update exampleParameters exampleComplete).1.1 =
      Round2.UpdateUncached exampleParameters exampleComplete :=
  have hstart : Round2.Start exampleParameters exampleCollaborators (Jobs exampleParameters)
      exampleRound = some (none, exampleStarted) := rfl
  have hacc : exampleComplete.temp.SlotsAccepted :=
    SlotsAccepted_step _ rfl <| SlotsAccepted_step _ rfl <|
      SlotsAccepted_start _ _ rfl rfl hstart exampleRound_slotsAccepted
  ⟨exampleComplete_reachable, hacc,
    Round2.Update_eq_UpdateUncached _ _ _ exampleComplete_reachable hacc⟩

end MpcLib.Cggplus
