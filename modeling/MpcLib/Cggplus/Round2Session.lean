import MpcLib.Cggplus.Round2Update

/-!
# Signing round 2 across a session: every party completes, and all agree

The `n` parties of a session run round 2, party `k` as index `k`. A party hands each message
it receives to its store, which puts it into the slot of its sender (and of its receiver,
for a `Message1`), and then calls `Update`. Neither the store nor the network is in the
source: the store is modelled from the spec, and the network by what each party receives,
every message another party sent and nothing that no party sent.

* `Round2.receive_slot`: a receipt writes the message's own slot and no other.
* `foldl_receive_slot`: over receipts whose messages for a slot all have some property, a
  slot that has it, or that one of them goes into, ends with it.
* `Start_sent_own_slot`: each message `Start` sends sits in its sender's own slot for it.
* `Session.all_complete`: with `Message1` broadcast, when every party's `Start` succeeds,
  every party's `Update` returns `(true, nil)` once it has received the others' messages, in
  any order and with repetitions. A message no party sent could overwrite a slot with one
  `CanAccept` refuses, which is why the network may not forge.
* `Session.p2p_never_completes`: with `Message1` sent P2P, as the spec lists it, `CanAccept`
  refuses it, and no party's `Update` ever returns `(true, nil)`.
* `Session.all_agree`: every party then holds, in each slot, the message its sender sent
  for it, so all parties hold the same table.
* `Session.complete_holds_sent`: whatever part of the messages has arrived, a party's
  `Update` returns `(true, nil)` only when it holds that table: the gate of round 2 never
  lets a party go on with a message missing or other than the one its sender sent.
* `Session.failed_start_blocks`: a party whose `Start` fails sends nothing, and no other
  party's `Update` then ever returns `(true, nil)`: the abort reaches every party.
-/

namespace MpcLib.Cggplus

variable {V : Primitives}

/-- A slot of the message table of round 2. -/
inductive Slot
  | message1 (k j : ℕ)
  | message2 (k : ℕ)
  deriving DecidableEq

def Round2.slot (round : Round2 V) : Slot → Option (ParsedMessage V)
  | .message1 k j => round.temp.signRound2Message1s k j
  | .message2 k => round.temp.signRound2Message2s k

def Slot.row : Slot → ℕ
  | .message1 k _ => k
  | .message2 k => k

/-- The slots the parties `0, …, n - 1` send into: `Message1` from `k` to each other party,
and `Message2` from `k`. -/
def Slot.Sent (n : ℕ) : Slot → Prop
  | .message1 k j => k < n ∧ j < n ∧ j ≠ k
  | .message2 k => k < n

/-- The slot a received message goes into, by its `From` and `To`; a message of another
type is not stored. -/
def slotOf (msg : ParsedMessage V) : Option Slot :=
  match msg.Content with
  | .signRound2Message1 m => some (.message1 m.From m.To)
  | .signRound2Message2 m => some (.message2 m.From)
  | .other => none

section Receive
variable (P : Parameters)

/-- Modelled from the spec: what a party does with a message it receives (its store and its
message loop are not in the source): store it into its slot, then call `Update`. -/
def Round2.receive (round : Round2 V) (msg : ParsedMessage V) : Round2 V :=
  let stored := match msg.Content with
    | .signRound2Message1 m => round.step P (.storeMessage1 m.From m.To msg)
    | .signRound2Message2 m => round.step P (.storeMessage2 m.From msg)
    | .other => round
  stored.step P .update

theorem Round2.receive_slot (round : Round2 V) (msg : ParsedMessage V) (s : Slot) :
    (Round2.receive P round msg).slot s = if slotOf msg = some s then some msg else round.slot s := by
  obtain ⟨content, b⟩ := msg
  cases content <;> cases s <;>
    simp [Round2.receive, Round2.step, Round2.Update, updateLoop_temp, Round2.slot, slotOf,
      Function.update_apply, eq_comm, and_comm]

/-- Over receipts whose messages for slot `s` all satisfy `Q`, a slot whose entry satisfies
`Q`, or that one of them goes into, ends with an entry satisfying `Q`: a later receipt may
overwrite it, but only with such a message. -/
theorem foldl_receive_slot (s : Slot) (Q : Option (ParsedMessage V) → Prop) :
    ∀ (l : List (ParsedMessage V)) (round : Round2 V),
      (∀ msg ∈ l, slotOf msg = some s → Q (some msg)) →
      (Q (round.slot s) ∨ ∃ msg ∈ l, slotOf msg = some s) →
        Q ((l.foldl (Round2.receive P) round).slot s)
  | [], _, _, h => h.resolve_right (by simp)
  | msg :: l, round, hl, h => by
    refine foldl_receive_slot s Q l _ (fun m hm => hl m (List.mem_cons_of_mem _ hm)) ?_
    rw [Round2.receive_slot]
    by_cases hs : slotOf msg = some s
    · exact .inl (by rw [if_pos hs]; exact hl msg (List.mem_cons_self _ _) hs)
    rw [if_neg hs]
    rcases h with h | ⟨m, hm, hms⟩
    · exact .inl h
    rcases List.mem_cons.mp hm with rfl | hm
    · exact absurd hms hs
    · exact .inr ⟨m, hm, hms⟩

theorem Round2.receive_ok (round : Round2 V) (msg : ParsedMessage V) {k : ℕ}
    (h : (Round2.receive P round msg).ok k = true) :
    round.ok k = true ∨ Round2.rowAccepted P (Round2.receive P round msg) k = true := by
  obtain ⟨content, b⟩ := msg
  cases content <;>
    simpa only [Round2.receive, Round2.step, Round2.Update, Round2.rowAccepted, updateLoop_temp]
      using (updateLoop_spec P _ _).2 k h

theorem rowAccepted_false_of_slot {round : Round2 V} {k j : ℕ} (hj : j < P.PartyCount)
    (hjk : j ≠ k) (h : ∀ msg, round.slot (.message1 k j) = some msg → Round2.CanAccept msg = false) :
    Round2.rowAccepted P round k = false := by
  rw [← Bool.not_eq_true]
  intro hrow
  obtain ⟨m, hm, hacc⟩ := slotAccepted_iff.mp (((rowAccepted_iff P round k).mp hrow).1 j hj hjk)
  rw [h m hm] at hacc; cases hacc

theorem foldl_receive_ok_false {k j : ℕ} (hj : j < P.PartyCount) (hjk : j ≠ k) :
    ∀ (l : List (ParsedMessage V)) (round : Round2 V),
      (∀ msg ∈ l, slotOf msg = some (.message1 k j) → Round2.CanAccept msg = false) →
      (∀ msg, round.slot (.message1 k j) = some msg → Round2.CanAccept msg = false) →
      round.ok k = false →
        (l.foldl (Round2.receive P) round).ok k = false ∧
          ∀ msg, (l.foldl (Round2.receive P) round).slot (.message1 k j) = some msg →
            Round2.CanAccept msg = false
  | [], _, _, hslot, hok => ⟨hok, hslot⟩
  | msg :: l, round, hl, hslot, hok => by
    have hslot' (m) (hm : (Round2.receive P round msg).slot (.message1 k j) = some m) :
        Round2.CanAccept m = false := by
      rw [Round2.receive_slot] at hm
      split at hm
      · cases hm; exact hl msg (List.mem_cons_self _ _) ‹_›
      · exact hslot m hm
    refine foldl_receive_ok_false hj hjk l _ (fun m hm => hl m (List.mem_cons_of_mem _ hm)) hslot' ?_
    rw [← Bool.not_eq_true]
    intro h
    rcases Round2.receive_ok P round msg h with h | h
    · rw [hok] at h; cases h
    · rw [rowAccepted_false_of_slot P hj hjk hslot'] at h; cases h

variable (C : Collaborators V)

theorem Start_sent_slots {order : List Job} {round round' : Round2 V}
    (hs : round.started = false) (h : Round2.Start P C order round = some (none, round')) :
    ∀ s : Slot, (s = .message2 P.PartyIndex ∨ ∃ j ∈ peers P, s = .message1 P.PartyIndex j) →
      ∃ msg ∈ round'.out.drop round.out.length, slotOf msg = some s := by
  simp only [Round2.Start, hs, Bool.false_eq_true, if_false, Option.map_eq_some'] at h
  obtain ⟨s, -, hs'⟩ := h
  split at hs'
  · cases hs'
  cases hs'
  rw [sendMessages, foldl_sendMessage1]
  simp only [List.append_assoc, List.drop_left, List.mem_append, List.mem_map,
    List.mem_singleton]
  rintro _ (rfl | ⟨j, hj, rfl⟩)
  · exact ⟨_, .inr rfl, rfl⟩
  · exact ⟨_, .inl ⟨j, hj, rfl⟩, rfl⟩

/-- What a successful `Start` sends sits in its own slot of the sender's row: each message
it sent is what the round then holds in the slot the message goes into. -/
theorem Start_sent_own_slot {order : List Job} {round round' : Round2 V}
    (hs : round.started = false) (h : Round2.Start P C order round = some (none, round')) :
    ∀ msg ∈ round'.out.drop round.out.length,
      ∃ s, slotOf msg = some s ∧ s.row = P.PartyIndex ∧ round'.slot s = some msg := by
  simp only [Round2.Start, hs, Bool.false_eq_true, if_false, Option.map_eq_some'] at h
  obtain ⟨s, -, hs'⟩ := h
  split at hs'
  · cases hs'
  cases hs'
  rw [sendMessages, foldl_sendMessage1]
  simp only [List.append_assoc, List.drop_left, List.mem_append, List.mem_map,
    List.mem_singleton]
  rintro msg (⟨j, hj, rfl⟩ | rfl)
  · refine ⟨.message1 P.PartyIndex j, rfl, rfl, ?_⟩
    simp [Round2.slot, foldl_sendMessage1_slot, hj]
  · exact ⟨.message2 P.PartyIndex, rfl, rfl, by simp [Round2.slot]⟩

theorem Start_out_of_error {order : List Job} {round round' : Round2 V} {e : Tss.Error}
    (hs : round.started = false) (h : Round2.Start P C order round = some (some e, round')) :
    round'.out = round.out := by
  simp only [Round2.Start, hs, Bool.false_eq_true, if_false, Option.map_eq_some'] at h
  obtain ⟨fo, -, hfo⟩ := h
  split at hfo <;> cases hfo
  rfl

theorem Start_sent_routing {order : List Job} {round round' : Round2 V} {err : Option Tss.Error}
    (hs : round.started = false) (h : Round2.Start P C order round = some (err, round')) :
    ∀ msg ∈ round'.out.drop round.out.length,
      (∃ m, msg = ⟨.signRound2Message1 m, V.Message1IsBroadcast⟩) ∨
        ∃ m, msg = ⟨.signRound2Message2 m, true⟩ := by
  cases err with
  | some e => simp [Start_out_of_error P C hs h]
  | none =>
    simp only [Round2.Start, hs, Bool.false_eq_true, if_false, Option.map_eq_some'] at h
    obtain ⟨s, -, hs'⟩ := h
    split at hs'
    · cases hs'
    cases hs'
    rw [sendMessages, foldl_sendMessage1]
    simp only [List.append_assoc, List.drop_left, List.mem_append, List.mem_map,
      List.mem_singleton]
    rintro msg (⟨j, -, rfl⟩ | rfl)
    · exact .inl ⟨_, rfl⟩
    · exact .inr ⟨_, rfl⟩

theorem Start_sent_accepted (hb : V.Message1IsBroadcast = true) {order : List Job}
    {round round' : Round2 V} {err : Option Tss.Error} (hs : round.started = false)
    (h : Round2.Start P C order round = some (err, round')) :
    ∀ msg ∈ round'.out.drop round.out.length, Round2.CanAccept msg = true := fun msg hm => by
  rcases Start_sent_routing P C hs h msg hm with ⟨m, rfl⟩ | ⟨m, rfl⟩
  exacts [hb, rfl]

theorem Start_sent_message1_refused (hp2p : V.Message1IsBroadcast = false) {order : List Job}
    {round round' : Round2 V} {err : Option Tss.Error} (hs : round.started = false)
    (h : Round2.Start P C order round = some (err, round')) :
    ∀ msg ∈ round'.out.drop round.out.length, ∀ k j, slotOf msg = some (.message1 k j) →
      Round2.CanAccept msg = false := fun msg hm k j hms => by
  rcases Start_sent_routing P C hs h msg hm with ⟨m, rfl⟩ | ⟨m, rfl⟩
  exacts [hp2p, by cases hms]

theorem Start_sent_row {order : List Job} {round round' : Round2 V} {err : Option Tss.Error}
    (hs : round.started = false) (h : Round2.Start P C order round = some (err, round')) :
    ∀ msg ∈ round'.out.drop round.out.length, ∃ s, slotOf msg = some s ∧ s.row = P.PartyIndex := by
  cases err with
  | none => exact fun msg hm =>
    let ⟨s, h₁, h₂, _⟩ := Start_sent_own_slot P C hs h msg hm
    ⟨s, h₁, h₂⟩
  | some e => simp [Start_out_of_error P C hs h]

theorem foldl_sendMessage1_row_ne (psi psiHat : ℕ → List (Option V.AffGInvProof)) :
    ∀ (l : List ℕ) (r : Round2 V) {k : ℕ}, k ≠ P.PartyIndex → ∀ j,
      (l.foldl (sendMessage1 P psi psiHat) r).temp.signRound2Message1s k j =
        r.temp.signRound2Message1s k j
  | [], _, _, _, _ => rfl
  | j' :: l, r, k, hk, j => by
    rw [List.foldl_cons, foldl_sendMessage1_row_ne psi psiHat l _ hk]
    simp [sendMessage1, hk]

theorem Start_slot_of_row_ne {order : List Job} {round round' : Round2 V} {err : Option Tss.Error}
    (hs : round.started = false) (h : Round2.Start P C order round = some (err, round'))
    {s : Slot} (hrow : s.row ≠ P.PartyIndex) : round'.slot s = round.slot s := by
  simp only [Round2.Start, hs, Bool.false_eq_true, if_false, Option.map_eq_some'] at h
  obtain ⟨fo, hrun, hfo⟩ := h
  obtain ⟨h₁, h₂⟩ := runJobs_table P C _ hrun
  obtain ⟨l₁, l₂⟩ := launchTemp_table P C round.temp
  split at hfo <;> cases hfo
  · cases s <;> simp only [Round2.slot, h₁, h₂, l₁, l₂]
  · cases s with
    | message1 k j =>
      simp only [Slot.row] at hrow
      simp only [Round2.slot, sendMessages, foldl_sendMessage1_row_ne P _ _ _ _ hrow, h₁, l₁]
    | message2 k =>
      simp only [Slot.row] at hrow
      rw [sendMessages, foldl_sendMessage1]
      simp [Round2.slot, Function.update_noteq hrow, h₂, l₂]

theorem Round2.Reachable.foldl_receive :
    ∀ (l : List (ParsedMessage V)) {round : Round2 V}, Round2.Reachable P C round →
      Round2.Reachable P C (l.foldl (Round2.receive P) round)
  | [], _, h => h
  | msg :: l, round, h => by
    refine Round2.Reachable.foldl_receive l (.step _ .update ?_)
    obtain ⟨_ | _ | _, _⟩ := msg
    exacts [.step _ _ h, .step _ _ h, h]

theorem Round2.RowFilled.slot_isSome {round : Round2 V} {s : Slot}
    (h : Round2.RowFilled P round s.row) (hs : s.Sent P.PartyCount) : (round.slot s).isSome := by
  cases s with
  | message1 k j => exact h.1 j hs.2.1 hs.2.2
  | message2 k => exact h.2

end Receive

/-! ## A session -/

/-- The parties `0, …, n - 1` of a signing session as round 1 hands them over: party `k` is
index `k` of `n`, its round is not started, and its goroutines run in the order `order k`. -/
structure Session (V : Primitives) (n : ℕ) where
  party : ℕ → Parameters
  collab : ℕ → Collaborators V
  round : ℕ → Round2 V
  order : ℕ → List Job
  party_index : ∀ k < n, (party k).PartyCount = n ∧ (party k).PartyIndex = k
  not_started : ∀ k < n, (round k).started = false

theorem Slot.Sent.row_lt {n : ℕ} {s : Slot} (hs : s.Sent n) : s.row < n := by
  cases s with
  | message1 k j => exact hs.1
  | message2 k => exact hs

theorem Session.sent_slot {n : ℕ} (S : Session V n) (done : ℕ → Round2 V)
    (hstart : ∀ k < n, Round2.Start (S.party k) (S.collab k) (S.order k) (S.round k) =
      some (none, done k))
    {s : Slot} (hs : s.Sent n) :
    ∃ m, (done s.row).slot s = some m ∧ m ∈ (done s.row).out.drop (S.round s.row).out.length ∧
      slotOf m = some s ∧
      ∀ k < n, ∀ msg ∈ (done k).out.drop (S.round k).out.length, slotOf msg = some s → msg = m := by
  have hown (k) (hk : k < n) := Start_sent_own_slot _ _ (S.not_started k hk) (hstart k hk)
  have hrow := hs.row_lt
  obtain ⟨hc, hi⟩ := S.party_index s.row hrow
  obtain ⟨m, hm, hms⟩ := Start_sent_slots _ _ (S.not_started _ hrow) (hstart _ hrow) s (by
    cases s with
    | message1 k j =>
      simp only [Slot.row] at hc hi ⊢
      exact .inr ⟨j, by simpa [mem_peers, hc, hi] using hs.2, by rw [hi]⟩
    | message2 k =>
      simp only [Slot.row] at hi ⊢
      exact .inl (by rw [hi]))
  obtain ⟨_, hs', -, hm'⟩ := hown _ hrow m hm
  rw [hms, Option.some.injEq] at hs'
  subst hs'
  refine ⟨m, hm', hm, hms, fun k hk msg hmk hmsgs => ?_⟩
  -- the owner of the row sent only `m` for `s`
  obtain ⟨_, hs'', hrow'', hm''⟩ := hown k hk msg hmk
  rw [hmsgs, Option.some.injEq] at hs''
  subst hs''
  rw [(S.party_index k hk).2] at hrow''
  rw [← Option.some.injEq, ← hm'', ← hm', hrow'']

section Held
variable {n : ℕ} (S : Session V n) (err : ℕ → Option Tss.Error) (done : ℕ → Round2 V)
  (hstart : ∀ k < n, Round2.Start (S.party k) (S.collab k) (S.order k) (S.round k) =
    some (err k, done k))
  (inbox : ℕ → List (ParsedMessage V))
include hstart

theorem Session.held_sent
    (hheld : ∀ k < n, ∀ s : Slot, s.row ≠ k → ∀ msg, (S.round k).slot s = some msg →
      slotOf msg = some s ∧ ∃ k₀ < n, msg ∈ (done k₀).out.drop (S.round k₀).out.length)
    (hauth : ∀ k' < n, ∀ msg ∈ inbox k', ∃ k < n, msg ∈ (done k).out.drop (S.round k).out.length)
    (k' : ℕ) (hk' : k' < n) (s : Slot) (hrow : s.row ≠ k') :
    ∀ msg, ((inbox k').foldl (Round2.receive (S.party k')) (done k')).slot s = some msg →
      slotOf msg = some s ∧ ∃ k₀ < n, msg ∈ (done k₀).out.drop (S.round k₀).out.length := by
  refine foldl_receive_slot (S.party k') s (fun o => ∀ msg, o = some msg → slotOf msg = some s ∧
      ∃ k₀ < n, msg ∈ (done k₀).out.drop (S.round k₀).out.length) (inbox k') (done k')
    (fun msg hmsg hmsgs _ h => by cases h; exact ⟨hmsgs, hauth k' hk' msg hmsg⟩) (.inl ?_)
  rw [Start_slot_of_row_ne _ _ (S.not_started k' hk') (hstart k' hk')
    (by rw [(S.party_index k' hk').2]; exact hrow)]
  exact hheld k' hk' s hrow

theorem Session.slot_filled (k' : ℕ) (hk' : k' < n)
    (hupd : (Round2.Update (S.party k')
      ((inbox k').foldl (Round2.receive (S.party k')) (done k'))).1 = (true, none))
    (s : Slot) (hs : s.Sent n) (hrow : s.row ≠ k') :
    (((inbox k').foldl (Round2.receive (S.party k')) (done k')).slot s).isSome := by
  obtain ⟨hc, hi⟩ := S.party_index k' hk'
  have hreach := (Round2.Reachable.start _ _ _ _ (S.not_started k' hk')
    (hstart k' hk')).foldl_receive _ _ (inbox k')
  exact (RowFilled_of_Update _ hreach (congrArg (·.1) hupd) (by rw [hc]; exact hs.row_lt)
    (by rw [hi]; exact hrow)).slot_isSome _ (by rw [hc]; exact hs)

end Held

/-- Round 2 completes at every party: when every party's `Start` succeeds, and each party
receives every message another party sent and none that no party sent, in any order and
with repetitions, every party's `Update` returns `(true, nil)`. -/
theorem Session.all_complete {n : ℕ} (S : Session V n) (hb : V.Message1IsBroadcast = true)
    (done : ℕ → Round2 V)
    (hstart : ∀ k < n, Round2.Start (S.party k) (S.collab k) (S.order k) (S.round k) =
      some (none, done k))
    (inbox : ℕ → List (ParsedMessage V))
    (hcomplete : ∀ k' < n, ∀ k < n, k ≠ k' →
      ∀ msg ∈ (done k).out.drop (S.round k).out.length, msg ∈ inbox k')
    (hauth : ∀ k' < n, ∀ msg ∈ inbox k', ∃ k < n, msg ∈ (done k).out.drop (S.round k).out.length)
    (k' : ℕ) (hk' : k' < n) :
    (Round2.Update (S.party k')
      ((inbox k').foldl (Round2.receive (S.party k')) (done k'))).1 = (true, none) := by
  have hsent (k) (hk : k < n) := Start_sent_slots _ _ (S.not_started k hk) (hstart k hk)
  have hacc : ∀ msg ∈ inbox k', Round2.CanAccept msg = true := fun msg hm =>
    let ⟨k, hk, hmk⟩ := hauth k' hk' msg hm
    Start_sent_accepted _ _ hb (S.not_started k hk) (hstart k hk) msg hmk
  -- every slot of another party's row holds an accepted message
  have hslot (s : Slot) (k : ℕ) (hk : k < n) (hkk : k ≠ k')
      (hs : s = .message2 k ∨ ∃ j < n, j ≠ k ∧ s = .message1 k j) :
      slotAccepted (((inbox k').foldl (Round2.receive (S.party k')) (done k')).slot s) = true := by
    obtain ⟨hc, hi⟩ := S.party_index k hk
    obtain ⟨msg, hm, hms⟩ := hsent k hk s (by simpa [mem_peers, hc, hi, and_assoc] using hs)
    exact foldl_receive_slot _ s (slotAccepted · = true) _ _ (fun msg hm _ => hacc msg hm)
      (.inr ⟨msg, hcomplete k' hk' k hk hkk msg hm, hms⟩)
  obtain ⟨hc, hi⟩ := S.party_index k' hk'
  refine Update_of_AllAccepted _ fun k hk hki => ⟨fun j hj hjk => ?_, ?_⟩
  · exact slotAccepted_iff.mp
      (hslot (.message1 k j) k (hc ▸ hk) (hi ▸ hki) (.inr ⟨j, hc ▸ hj, hjk, rfl⟩))
  · exact slotAccepted_iff.mp (hslot (.message2 k) k (hc ▸ hk) (hi ▸ hki) (.inl rfl))

/-- Agreement on the message table of round 2: when every party's `Start` succeeds, and each
party receives every message another party sent and none that no party sent, in any order
and with repetitions, every party ends holding, in each slot a party sends into, the message
that party sent for it. So all parties hold the same table, the one round 3 reads. -/
theorem Session.all_agree {n : ℕ} (S : Session V n) (done : ℕ → Round2 V)
    (hstart : ∀ k < n, Round2.Start (S.party k) (S.collab k) (S.order k) (S.round k) =
      some (none, done k))
    (inbox : ℕ → List (ParsedMessage V))
    (hcomplete : ∀ k' < n, ∀ k < n, k ≠ k' →
      ∀ msg ∈ (done k).out.drop (S.round k).out.length, msg ∈ inbox k')
    (hauth : ∀ k' < n, ∀ msg ∈ inbox k', ∃ k < n, msg ∈ (done k).out.drop (S.round k).out.length)
    (k' : ℕ) (hk' : k' < n) (s : Slot) (hs : s.Sent n) :
    ((inbox k').foldl (Round2.receive (S.party k')) (done k')).slot s = (done s.row).slot s := by
  obtain ⟨m, hm', hm, hms, huniq⟩ := S.sent_slot done hstart hs
  rw [hm']
  refine foldl_receive_slot _ s (· = some m) _ _ (fun msg hmsg hmsgs => ?_) ?_
  · obtain ⟨k, hk, hmk⟩ := hauth k' hk' msg hmsg
    rw [huniq k hk msg hmk hmsgs]
  · by_cases hkk : s.row = k'
    · exact .inl (hkk ▸ hm')
    · exact .inr ⟨m, hcomplete k' hk' s.row hs.row_lt hkk m hm, hms⟩

/-- The safety of round 2 across a session: whatever part of the messages a party has
received so far, in any order, as long as none is one no party sent, its `Update` returns
`(true, nil)` only when it holds, in each slot a party sends into, the message that party
sent for it. What a party stored before `Start` must also have been sent, into its slot. -/
theorem Session.complete_holds_sent {n : ℕ} (S : Session V n) (done : ℕ → Round2 V)
    (hstart : ∀ k < n, Round2.Start (S.party k) (S.collab k) (S.order k) (S.round k) =
      some (none, done k))
    (hheld : ∀ k < n, ∀ s : Slot, s.row ≠ k → ∀ msg, (S.round k).slot s = some msg →
      slotOf msg = some s ∧ ∃ k₀ < n, msg ∈ (done k₀).out.drop (S.round k₀).out.length)
    (inbox : ℕ → List (ParsedMessage V))
    (hauth : ∀ k' < n, ∀ msg ∈ inbox k', ∃ k < n, msg ∈ (done k).out.drop (S.round k).out.length)
    (k' : ℕ) (hk' : k' < n)
    (hupd : (Round2.Update (S.party k')
      ((inbox k').foldl (Round2.receive (S.party k')) (done k'))).1 = (true, none))
    (s : Slot) (hs : s.Sent n) :
    ((inbox k').foldl (Round2.receive (S.party k')) (done k')).slot s = (done s.row).slot s := by
  obtain ⟨m, hm', -, -, huniq⟩ := S.sent_slot done hstart hs
  rw [hm']
  by_cases hkk : s.row = k'
  · -- its own row: `Start` put `m` there, and `m` is the only message received for it
    refine foldl_receive_slot _ s (· = some m) _ _ (fun msg hmsg hmsgs => ?_) (.inl (hkk ▸ hm'))
    obtain ⟨k, hk, hmk⟩ := hauth k' hk' msg hmsg
    rw [huniq k hk msg hmk hmsgs]
  -- another party's row: filled once `Update` answers `true`, with a message sent for it
  obtain ⟨msg, hmsg⟩ := Option.isSome_iff_exists.mp
    (S.slot_filled (fun _ => none) done hstart inbox k' hk' hupd s hs hkk)
  obtain ⟨hms, k₀, hk₀, hmk⟩ :=
    S.held_sent (fun _ => none) done hstart inbox hheld hauth k' hk' s hkk msg hmsg
  rw [hmsg, huniq k₀ hk₀ msg hmk hms]

/-- Abort across a session: a party whose `Start` fails sends nothing, and then no other
party's `Update` ever returns `(true, nil)`, whatever messages some party sent it receives,
in any order: round 2 completes nowhere without every party's messages. -/
theorem Session.failed_start_blocks {n : ℕ} (S : Session V n) (err : ℕ → Option Tss.Error)
    (done : ℕ → Round2 V)
    (hstart : ∀ k < n, Round2.Start (S.party k) (S.collab k) (S.order k) (S.round k) =
      some (err k, done k))
    (hheld : ∀ k < n, ∀ s : Slot, s.row ≠ k → ∀ msg, (S.round k).slot s = some msg →
      slotOf msg = some s ∧ ∃ k₀ < n, msg ∈ (done k₀).out.drop (S.round k₀).out.length)
    (inbox : ℕ → List (ParsedMessage V))
    (hauth : ∀ k' < n, ∀ msg ∈ inbox k', ∃ k < n, msg ∈ (done k).out.drop (S.round k).out.length)
    (k₀ : ℕ) (hk₀ : k₀ < n) (hfail : (err k₀).isSome) (k' : ℕ) (hk' : k' < n) (hne : k' ≠ k₀) :
    (Round2.Update (S.party k')
      ((inbox k').foldl (Round2.receive (S.party k')) (done k'))).1 ≠ (true, none) := by
  intro hupd
  have hnil : (done k₀).out.drop (S.round k₀).out.length = [] := by
    obtain ⟨e, he⟩ := Option.isSome_iff_exists.mp hfail
    have h : Round2.Start (S.party k₀) (S.collab k₀) (S.order k₀) (S.round k₀) =
        some (some e, done k₀) := he ▸ hstart k₀ hk₀
    rw [Start_out_of_error _ _ (S.not_started k₀ hk₀) h, List.drop_length]
  -- `k'` holds a message in the slot of `k₀`'s `Message2`, which some party `k₁` sent
  obtain ⟨msg, hmsg⟩ := Option.isSome_iff_exists.mp
    (S.slot_filled err done hstart inbox k' hk' hupd (.message2 k₀) hk₀ (Ne.symm hne))
  obtain ⟨hms, k₁, hk₁, hm⟩ :=
    S.held_sent err done hstart inbox hheld hauth k' hk' (.message2 k₀) (Ne.symm hne) msg hmsg
  -- what `k₁` sent goes into its own row, so `k₁ = k₀`, who sent nothing
  obtain ⟨s, hs, hrow⟩ := Start_sent_row _ _ (S.not_started k₁ hk₁) (hstart k₁ hk₁) msg hm
  rw [hms, Option.some.injEq] at hs
  subst hs
  rw [(S.party_index k₁ hk₁).2, Slot.row] at hrow
  subst hrow
  simp [hnil] at hm

/-- Round 2 with `Message1` sent P2P, as §6 of the spec lists it: `CanAccept` refuses every
`Message1`, and in a session of two or more no party's `Update` ever returns `(true, nil)`,
whatever messages some party sent it receives, in any order and with repetitions. A peer's
`Message1` to the party itself is never accepted, so that peer's row never is. -/
theorem Session.p2p_never_completes {n : ℕ} (S : Session V n) (hp2p : V.Message1IsBroadcast = false)
    (hn : 2 ≤ n) (err : ℕ → Option Tss.Error) (done : ℕ → Round2 V)
    (hstart : ∀ k < n, Round2.Start (S.party k) (S.collab k) (S.order k) (S.round k) =
      some (err k, done k))
    (hheld : ∀ k < n, ∀ s : Slot, s.row ≠ k → ∀ msg, (S.round k).slot s = some msg →
      slotOf msg = some s ∧ ∃ k₀ < n, msg ∈ (done k₀).out.drop (S.round k₀).out.length)
    (inbox : ℕ → List (ParsedMessage V))
    (hauth : ∀ k' < n, ∀ msg ∈ inbox k', ∃ k < n, msg ∈ (done k).out.drop (S.round k).out.length)
    (k' : ℕ) (hk' : k' < n) :
    (Round2.Update (S.party k')
      ((inbox k').foldl (Round2.receive (S.party k')) (done k'))).1 ≠ (true, none) := by
  intro hupd
  obtain ⟨hc, hi⟩ := S.party_index k' hk'
  obtain ⟨k, hk, hkk⟩ : ∃ k < n, k ≠ k' :=
    ⟨if k' = 0 then 1 else 0, by split <;> omega, by split <;> omega⟩
  have hki : k ≠ (S.party k').PartyIndex := by rw [hi]; exact hkk
  have hkc : k < (S.party k').PartyCount := by rw [hc]; exact hk
  have hk'c : k' < (S.party k').PartyCount := by rw [hc]; exact hk'
  have hrefused (msg) (k₀) (hk₀ : k₀ < n) (hm : msg ∈ (done k₀).out.drop (S.round k₀).out.length)
      (hms : slotOf msg = some (.message1 k k')) : Round2.CanAccept msg = false :=
    Start_sent_message1_refused _ _ hp2p (S.not_started k₀ hk₀) (hstart k₀ hk₀) msg hm k k' hms
  -- the slot of `k`'s `Message1` to `k'` never holds an accepted message
  have hin (msg) (hm : msg ∈ inbox k') (hms : slotOf msg = some (.message1 k k')) :
      Round2.CanAccept msg = false :=
    let ⟨k₀, hk₀, hmk⟩ := hauth k' hk' msg hm
    hrefused msg k₀ hk₀ hmk hms
  have h0 (msg) (hmsg : (done k').slot (.message1 k k') = some msg) :
      Round2.CanAccept msg = false := by
    rw [Start_slot_of_row_ne _ _ (S.not_started k' hk') (hstart k' hk') (s := .message1 k k') hki]
      at hmsg
    obtain ⟨hms, k₀, hk₀, hmk⟩ := hheld k' hk' (.message1 k k') hkk msg hmsg
    exact hrefused msg k₀ hk₀ hmk hms
  have hok0 : (done k').ok k = false := by
    rw [Start_ok _ _ (S.not_started k' hk') (hstart k' hk'), Function.update_noteq hki]
    rfl
  obtain ⟨hokR, hslotR⟩ :=
    foldl_receive_ok_false _ hk'c (Ne.symm hkk) (inbox k') (done k') hin h0 hok0
  -- yet `Update` answering `true` flags `k`, so `k`'s row was accepted
  rcases flagged_or_rowAccepted_of_Update _ (congrArg (·.1) hupd) hkc hki with h | h
  · rw [hokR] at h; cases h
  · rw [rowAccepted_false_of_slot _ hk'c (Ne.symm hkk) hslotR] at h; cases h

def exampleParty (k : ℕ) : Parameters :=
  ⟨max 2 (k + 1), k, by omega, 256, exampleParameters.key⟩

def exampleSession : Session unitPrimitives 2 where
  party := exampleParty
  collab _ := exampleCollaborators
  round _ := exampleRound
  order k := Jobs (exampleParty k)
  party_index := by decide
  not_started _ _ := rfl

def exampleDone (k : ℕ) : Round2 unitPrimitives :=
  ((Round2.Start (exampleParty k) exampleCollaborators (Jobs (exampleParty k))
    exampleRound).getD (none, exampleRound)).2

def exampleInbox : List (ParsedMessage unitPrimitives) :=
  (List.range 2).flatMap fun k => (exampleDone k).out.drop exampleRound.out.length

theorem exampleDone_Start : ∀ k < 2, Round2.Start (exampleSession.party k)
    (exampleSession.collab k) (exampleSession.order k) (exampleSession.round k) =
      some (none, exampleDone k)
  | 0, _ => rfl
  | 1, _ => rfl

theorem exampleInbox_complete : ∀ k' < 2, ∀ k < 2, k ≠ k' →
    ∀ msg ∈ (exampleDone k).out.drop (exampleSession.round k).out.length, msg ∈ exampleInbox :=
  fun _ _ k hk _ _ hm => List.mem_flatMap.mpr ⟨k, List.mem_range.mpr hk, hm⟩

theorem exampleInbox_auth : ∀ k' < 2, ∀ msg ∈ exampleInbox,
    ∃ k < 2, msg ∈ (exampleDone k).out.drop (exampleSession.round k).out.length :=
  fun _ _ _ hm => let ⟨k, hk, hm⟩ := List.mem_flatMap.mp hm; ⟨k, List.mem_range.mp hk, hm⟩

theorem Session.all_complete_two_parties :
    (unitPrimitives.Message1IsBroadcast = true ∧
      ∀ k < 2, Round2.Start (exampleSession.party k) (exampleSession.collab k)
        (exampleSession.order k) (exampleSession.round k) = some (none, exampleDone k)) ∧
    ∀ k' < 2, (Round2.Update (exampleParty k')
      (exampleInbox.foldl (Round2.receive (exampleParty k')) (exampleDone k'))).1 = (true, none) :=
  ⟨⟨rfl, exampleDone_Start⟩, Session.all_complete exampleSession rfl exampleDone exampleDone_Start
    (fun _ => exampleInbox) exampleInbox_complete exampleInbox_auth⟩

theorem Session.all_agree_two_parties :
    (∀ k < 2, Round2.Start (exampleSession.party k) (exampleSession.collab k)
      (exampleSession.order k) (exampleSession.round k) = some (none, exampleDone k)) ∧
    ∀ k' < 2, ∀ s : Slot, s.Sent 2 →
      (exampleInbox.foldl (Round2.receive (exampleParty k')) (exampleDone k')).slot s =
        (exampleDone s.row).slot s :=
  ⟨exampleDone_Start, Session.all_agree exampleSession exampleDone exampleDone_Start
    (fun _ => exampleInbox) exampleInbox_complete exampleInbox_auth⟩

theorem Session.complete_holds_sent_two_parties :
    ((∀ k < 2, Round2.Start (exampleSession.party k) (exampleSession.collab k)
      (exampleSession.order k) (exampleSession.round k) = some (none, exampleDone k)) ∧
      (∀ k < 2, ∀ s : Slot, s.row ≠ k → ∀ msg, (exampleSession.round k).slot s = some msg →
        slotOf msg = some s ∧
          ∃ k₀ < 2, msg ∈ (exampleDone k₀).out.drop (exampleSession.round k₀).out.length) ∧
      (Round2.Update (exampleParty 1)
        (exampleInbox.foldl (Round2.receive (exampleParty 1)) (exampleDone 1))).1 = (true, none)) ∧
    ∀ s : Slot, s.Sent 2 →
      (exampleInbox.foldl (Round2.receive (exampleParty 1)) (exampleDone 1)).slot s =
        (exampleDone s.row).slot s :=
  have hheld : ∀ k < 2, ∀ s : Slot, s.row ≠ k → ∀ msg, (exampleSession.round k).slot s = some msg →
      slotOf msg = some s ∧
        ∃ k₀ < 2, msg ∈ (exampleDone k₀).out.drop (exampleSession.round k₀).out.length := by
    rintro _ _ (_ | _) _ _ h <;> cases h
  have hupd : (Round2.Update (exampleParty 1)
      (exampleInbox.foldl (Round2.receive (exampleParty 1)) (exampleDone 1))).1 = (true, none) := by
    decide
  ⟨⟨exampleDone_Start, hheld, hupd⟩, Session.complete_holds_sent exampleSession exampleDone
    exampleDone_Start hheld (fun _ => exampleInbox) exampleInbox_auth 1 (by decide) hupd⟩

def exampleFailingCollaborators : Collaborators unitPrimitives :=
  { exampleCollaborators with UnmarshalPsi := fun _ => none }

def exampleAbortSession : Session unitPrimitives 2 where
  party := exampleParty
  collab k := if k = 0 then exampleFailingCollaborators else exampleCollaborators
  round _ := exampleRound
  order k := Jobs (exampleParty k)
  party_index := by decide
  not_started _ _ := rfl

def exampleAbortResult (k : ℕ) : Option Tss.Error × Round2 unitPrimitives :=
  (Round2.Start (exampleParty k) (exampleAbortSession.collab k) (Jobs (exampleParty k))
    exampleRound).getD (none, exampleRound)

def exampleAbortInbox : List (ParsedMessage unitPrimitives) :=
  (List.range 2).flatMap fun k => (exampleAbortResult k).2.out.drop exampleRound.out.length

theorem Session.failed_start_blocks_two_parties :
    ((∀ k < 2, Round2.Start (exampleAbortSession.party k) (exampleAbortSession.collab k)
        (exampleAbortSession.order k) (exampleAbortSession.round k) =
          some ((exampleAbortResult k).1, (exampleAbortResult k).2)) ∧
      (∀ k < 2, ∀ s : Slot, s.row ≠ k → ∀ msg, (exampleAbortSession.round k).slot s = some msg →
        slotOf msg = some s ∧ ∃ k₀ < 2,
          msg ∈ (exampleAbortResult k₀).2.out.drop (exampleAbortSession.round k₀).out.length) ∧
      (∀ k' < 2, ∀ msg ∈ exampleAbortInbox, ∃ k < 2,
        msg ∈ (exampleAbortResult k).2.out.drop (exampleAbortSession.round k).out.length) ∧
      (exampleAbortResult 0).1.isSome) ∧
    (Round2.Update (exampleParty 1) (exampleAbortInbox.foldl (Round2.receive (exampleParty 1))
      (exampleAbortResult 1).2)).1 ≠ (true, none) :=
  have hstart : ∀ k < 2, Round2.Start (exampleAbortSession.party k) (exampleAbortSession.collab k)
      (exampleAbortSession.order k) (exampleAbortSession.round k) =
        some ((exampleAbortResult k).1, (exampleAbortResult k).2)
    | 0, _ => rfl
    | 1, _ => rfl
  have hheld : ∀ k < 2, ∀ s : Slot, s.row ≠ k → ∀ msg,
      (exampleAbortSession.round k).slot s = some msg → slotOf msg = some s ∧ ∃ k₀ < 2,
        msg ∈ (exampleAbortResult k₀).2.out.drop (exampleAbortSession.round k₀).out.length := by
    rintro _ _ (_ | _) _ _ h <;> cases h
  have hauth : ∀ k' < 2, ∀ msg ∈ exampleAbortInbox, ∃ k < 2,
      msg ∈ (exampleAbortResult k).2.out.drop (exampleAbortSession.round k).out.length :=
    fun _ _ _ hm => let ⟨k, hk, hm⟩ := List.mem_flatMap.mp hm; ⟨k, List.mem_range.mp hk, hm⟩
  have hfail : (exampleAbortResult 0).1.isSome := rfl
  ⟨⟨hstart, hheld, hauth, hfail⟩, Session.failed_start_blocks exampleAbortSession
    (fun k => (exampleAbortResult k).1) (fun k => (exampleAbortResult k).2) hstart hheld
    (fun _ => exampleAbortInbox) hauth 0 (by decide) hfail 1 (by decide) (by decide)⟩

def exampleP2PSession : Session (unitPrimitivesOf false) 2 where
  party := exampleParty
  collab _ := exampleCollaboratorsOf false
  round _ := exampleRoundOf false
  order k := Jobs (exampleParty k)
  party_index := by decide
  not_started _ _ := rfl

def exampleP2PDone (k : ℕ) : Round2 (unitPrimitivesOf false) :=
  ((Round2.Start (exampleParty k) (exampleCollaboratorsOf false) (Jobs (exampleParty k))
    (exampleRoundOf false)).getD (none, exampleRoundOf false)).2

def exampleP2PInbox : List (ParsedMessage (unitPrimitivesOf false)) :=
  (List.range 2).flatMap fun k => (exampleP2PDone k).out.drop (exampleRoundOf false).out.length

theorem Session.p2p_never_completes_two_parties :
    ((unitPrimitivesOf false).Message1IsBroadcast = false ∧ 2 ≤ 2 ∧
      (∀ k < 2, Round2.Start (exampleP2PSession.party k) (exampleP2PSession.collab k)
        (exampleP2PSession.order k) (exampleP2PSession.round k) = some (none, exampleP2PDone k)) ∧
      (∀ k < 2, ∀ s : Slot, s.row ≠ k → ∀ msg, (exampleP2PSession.round k).slot s = some msg →
        slotOf msg = some s ∧
          ∃ k₀ < 2, msg ∈ (exampleP2PDone k₀).out.drop (exampleP2PSession.round k₀).out.length) ∧
      ∀ k' < 2, ∀ msg ∈ exampleP2PInbox, ∃ k < 2,
        msg ∈ (exampleP2PDone k).out.drop (exampleP2PSession.round k).out.length) ∧
    (Round2.Update (exampleParty 1)
      (exampleP2PInbox.foldl (Round2.receive (exampleParty 1)) (exampleP2PDone 1))).1 ≠ (true, none) :=
  have hstart : ∀ k < 2, Round2.Start (exampleP2PSession.party k) (exampleP2PSession.collab k)
      (exampleP2PSession.order k) (exampleP2PSession.round k) = some (none, exampleP2PDone k)
    | 0, _ => rfl
    | 1, _ => rfl
  have hheld : ∀ k < 2, ∀ s : Slot, s.row ≠ k → ∀ msg, (exampleP2PSession.round k).slot s = some msg →
      slotOf msg = some s ∧
        ∃ k₀ < 2, msg ∈ (exampleP2PDone k₀).out.drop (exampleP2PSession.round k₀).out.length := by
    rintro _ _ (_ | _) _ _ h <;> cases h
  have hauth : ∀ k' < 2, ∀ msg ∈ exampleP2PInbox, ∃ k < 2,
      msg ∈ (exampleP2PDone k).out.drop (exampleP2PSession.round k).out.length :=
    fun _ _ _ hm => let ⟨k, hk, hm⟩ := List.mem_flatMap.mp hm; ⟨k, List.mem_range.mp hk, hm⟩
  ⟨⟨rfl, le_refl 2, hstart, hheld, hauth⟩, Session.p2p_never_completes exampleP2PSession rfl
    (le_refl 2) (fun _ => none) exampleP2PDone hstart hheld (fun _ => exampleP2PInbox) hauth 1
    (by decide)⟩

end MpcLib.Cggplus
