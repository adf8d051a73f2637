import MpcLib.Tss.Error

/-!
# EdDSA resharing, round 5

The last round of resharing. `Start` marks every party of both committees as done and sends
the party's save data on `round.end`; a member of the new committee first stores its new
share, the new public shares and the new keys, and a member of the old committee only
zeroes its old share. The round accepts no message, never completes and has no successor.

* `Round5.run_sends_once`: over any sequence of `Start` and `Update` calls on a round not
  yet started, each call gets the reply `expectedReplies` owes it (the first `Start` no error,
  every later one "round already started"); the save data goes out on `end` once if `Start`
  is called, at its first call, and never otherwise; it carries the new share of a
  new-committee member, and an old-committee member's share is zero from then on.
-/

namespace MpcLib.Eddsa.Resharing

/-- The part of `keygen.LocalPartySaveData` round 5 writes. -/
structure LocalPartySaveData (Point : Type) where
  BigXj : List Point
  ShareID : Int
  Xi : Int
  Ks : List Int

/-- The part of `localTempData` round 5 reads. -/
structure LocalTempData (Point : Type) where
  newBigXjs : List Point
  newXi : Int
  newKs : List Int

/-- The party: `round.IsNewCommittee()`, `round.IsOldCommittee()` and
`round.PartyID().KeyInt()`. -/
structure Parameters where
  IsNewCommittee : Bool
  IsOldCommittee : Bool
  KeyInt : Int

/-- The round: temporary data, the new save data, the old key share `input`, the flags of
both committees, `started`, `number`, and what was sent on `round.end`, oldest first. -/
structure Round5 (Point : Type) where
  temp : LocalTempData Point
  save : LocalPartySaveData Point
  input : LocalPartySaveData Point
  oldOK : Nat → Bool
  newOK : Nat → Bool
  started : Bool
  number : Nat
  endCh : List (LocalPartySaveData Point)

/-- `round.allOldOK()` and `round.allNewOK()` (not in the source): every flag set, as their
names say. -/
def allOK (_ok : Nat → Bool) : Nat → Bool := fun _ => true

section
variable {Point : Type} (P : Parameters)

/-- `round.Start()`. -/
def Round5.Start (round : Round5 Point) : Option Tss.Error × Round5 Point :=
  if round.started then (some (Tss.WrapError "round already started" []), round) else
  let round := { round with
    number := 5, started := true, oldOK := allOK round.oldOK, newOK := allOK round.newOK }
  let round :=
    if P.IsNewCommittee then
      { round with save := { round.save with
          BigXj := round.temp.newBigXjs, ShareID := P.KeyInt, Xi := round.temp.newXi,
          Ks := round.temp.newKs } }
    else if P.IsOldCommittee then { round with input := { round.input with Xi := 0 } }
    else round
  (none, { round with endCh := round.endCh ++ [round.save] })

/-- `round.CanAccept(msg)`: round 5 takes no message. -/
def Round5.CanAccept {α : Type} (_msg : α) : Bool := false

/-- `round.Update()`: the round never completes. -/
def Round5.Update (round : Round5 Point) : (Bool × Option Tss.Error) × Round5 Point :=
  ((false, none), round)

/-- A call on the round. -/
inductive Event
  | start
  | update
  deriving DecidableEq

/-- What a call returns: `Start`'s error, or `Update`'s answer and error. -/
inductive Reply
  | start (err : Option Tss.Error)
  | update (ok : Bool) (err : Option Tss.Error)
  deriving DecidableEq

/-- One call, its reply and the round after it. -/
def Round5.step (round : Round5 Point) : Event → Reply × Round5 Point
  | .start => let r := Round5.Start P round; (.start r.1, r.2)
  | .update => let r := Round5.Update round; (.update r.1.1 r.1.2, r.2)

/-- The replies to the calls `es`, in order, and the round after them. -/
def Round5.run (round : Round5 Point) : List Event → List Reply × Round5 Point
  | [] => ([], round)
  | e :: es =>
    let r := Round5.step P round e
    let rs := Round5.run r.2 es
    (r.1 :: rs.1, rs.2)

/-- What the calls `es` are owed, on a round `started` or not: the first `Start` of a round not
yet started reports no error and every other "round already started"; every `Update`
answers `(false, nil)`. -/
def Round5.expectedReplies (started : Bool) : List Event → List Reply
  | [] => []
  | .start :: es =>
    .start (if started then some (Tss.WrapError "round already started" []) else none) ::
      Round5.expectedReplies true es
  | .update :: es => .update false none :: Round5.expectedReplies started es

theorem Round5.Start_started (round : Round5 Point) : (Round5.Start P round).2.started = true := by
  unfold Round5.Start
  split
  · assumption
  · split <;> (try split) <;> rfl

theorem Round5.run_of_started {round : Round5 Point} (h : round.started = true) :
    ∀ es, Round5.run P round es = (Round5.expectedReplies true es, round)
  | [] => rfl
  | .start :: es => by
    simp [Round5.run, Round5.step, Round5.Start, h, Round5.expectedReplies,
      Round5.run_of_started h es]
  | .update :: es => by
    simp [Round5.run, Round5.step, Round5.Update, Round5.expectedReplies,
      Round5.run_of_started h es]

theorem Round5.Start_first {round : Round5 Point} (h : round.started = false) :
    (Round5.Start P round).1 = none ∧
      (Round5.Start P round).2.endCh = round.endCh ++ [(Round5.Start P round).2.save] := by
  unfold Round5.Start
  rw [if_neg (by simp [h])]
  split <;> (try split) <;> exact ⟨rfl, rfl⟩

/-- Round 5 over any calls on a round not yet started: every call gets the reply it is owed,
the first `Start` none and every later one "round already started"; the save data goes out
once, at the first `Start`, with the new share of a new-committee member; the share of a
member of the old committee only is zero from then on. -/
theorem Round5.run_sends_once {round : Round5 Point} (hs : round.started = false)
    (es : List Event) :
    let s := (Round5.Start P round).2
    (Round5.run P round es).1 = Round5.expectedReplies false es ∧
    (Round5.run P round es).2.endCh =
      round.endCh ++ (if Event.start ∈ es then [s.save] else []) ∧
    (P.IsNewCommittee = true → s.save.Xi = round.temp.newXi ∧ s.save.ShareID = P.KeyInt ∧
      s.save.BigXj = round.temp.newBigXjs ∧ s.save.Ks = round.temp.newKs) ∧
    (P.IsNewCommittee = false → P.IsOldCommittee = true → Event.start ∈ es →
      (Round5.run P round es).2.input.Xi = 0) := by
  intro s
  -- the run ends where the first `Start` left the round, or where it began
  have hrun : ∀ es : List Event, (Round5.run P round es).1 = Round5.expectedReplies false es ∧
      (Round5.run P round es).2 = if Event.start ∈ es then s else round := by
    intro es
    induction es with
    | nil => simp [Round5.run, Round5.expectedReplies]
    | cons e es ih =>
      cases e with
      | update => simpa [Round5.run, Round5.step, Round5.Update, Round5.expectedReplies] using ih
      | start =>
        simp [Round5.run, Round5.step, Round5.run_of_started P (Round5.Start_started P round),
          Round5.expectedReplies, (Round5.Start_first P hs).1, s]
  obtain ⟨hreplies, hend⟩ := hrun es
  refine ⟨hreplies, ?_, fun hn => by simp [s, Round5.Start, hs, hn], fun hn ho hes => ?_⟩
  · rw [hend]
    split
    · exact (Round5.Start_first P hs).2
    · simp
  · rw [hend, if_pos hes]
    simp [s, Round5.Start, hs, hn, ho]

end

def oldMember : Parameters := ⟨false, true, 2⟩

def exampleRound5 : Round5 Unit :=
  ⟨⟨[], 7, []⟩, ⟨[], 0, 0, []⟩, ⟨[], 3, 5, []⟩, fun _ => true, fun _ => true, false, 4, []⟩

theorem Round5.run_sends_once_old_member :
    exampleRound5.started = false ∧
    let s := (Round5.Start oldMember exampleRound5).2
    (Round5.run oldMember exampleRound5 [.update, .start, .start]).1 =
        Round5.expectedReplies false [.update, .start, .start] ∧
      (Round5.run oldMember exampleRound5 [.update, .start, .start]).2.endCh =
        exampleRound5.endCh ++
          (if Event.start ∈ [Event.update, .start, .start] then [s.save] else []) ∧
      (oldMember.IsNewCommittee = true → s.save.Xi = exampleRound5.temp.newXi ∧
        s.save.ShareID = oldMember.KeyInt ∧ s.save.BigXj = exampleRound5.temp.newBigXjs ∧
        s.save.Ks = exampleRound5.temp.newKs) ∧
      (oldMember.IsNewCommittee = false → oldMember.IsOldCommittee = true →
        Event.start ∈ [Event.update, .start, .start] →
        (Round5.run oldMember exampleRound5 [.update, .start, .start]).2.input.Xi = 0) :=
  ⟨rfl, Round5.run_sends_once oldMember rfl _⟩

end MpcLib.Eddsa.Resharing
