import MpcLib.Common.Bytes
import MpcLib.ZkProofs.Dec

/-!
# Proof arrays on the wire

`ProofArrayToBytes` writes `Parts` byte strings per proof, empty ones for a `nil`
proof; `ProofArrayFromBytes` cuts the input into chunks of `Parts` and reads a chunk
whose parts are all non-empty as a proof and any other chunk as `nil`.

For any proof type, an array whose proofs write no empty part and are read back by their
own `ProofFromBytes` makes the round trip whole: `ProofArrayFromBytes_ToBytes_of_inverse`.
For the Dec proof the decoder fails exactly on a length that is no multiple of `7`, and
re-encoding what it read gives back its input exactly when every chunk is canonical:
`ProofArrayFromBytes_canonical`. A proof with a zero field writes an empty part, so
its chunk is read back as `nil`: `ProofArrayFromBytes_ToBytes`.
-/

namespace MpcLib

/-- The `Proof` interface, with the methods the array functions call. A proof pointer is
an `Option P`: `IsNil` is `none`. -/
class Proof (P : Type) where
  Parts : ℕ
  Parts_pos : 0 < Parts
  Bytes : P → List (List UInt8)
  ProofFromBytes : List (List UInt8) → Except String P

/-- What one entry contributes to `ProofArrayToBytes`: `Parts` empty strings for `nil`. -/
def proofParts [Proof P] : Option P → List (List UInt8)
  | none => List.replicate (Proof.Parts P) []
  | some proof => Proof.Bytes proof

/-- `ProofArrayToBytes(proofs)`: the parts of each entry in turn (`nil` for no entries). -/
def ProofArrayToBytes [Proof P] (proofs : List (Option P)) : List (List UInt8) :=
  proofs.flatMap proofParts

/-- One iteration of the loop of `ProofArrayFromBytes`, on `slice = bzs[start:end]`. -/
def decodeSlice (P : Type) [Proof P] (slice : List (List UInt8)) : Except String (Option P) :=
  if NonEmptyMultiBytes slice slice.length then (Proof.ProofFromBytes slice).map some
  else pure none

/-- `ProofArrayFromBytes[P](ec, bzs)`; the curve is not read. -/
def ProofArrayFromBytes (P : Type) [Proof P] (bzs : List (List UInt8)) :
    Except String (List (Option P)) :=
  let parts := Proof.Parts P
  if bzs.length % parts ≠ 0 then .error "Improper input length" else
  (List.range (bzs.length / parts)).mapM fun p =>
    decodeSlice P ((bzs.drop (p * parts)).take parts)

/-! ## The Dec proof on the wire -/

def DecProof.Bytes (proof : DecProof) : List (List UInt8) :=
  [MpcLib.Bytes proof.S, MpcLib.Bytes proof.T, MpcLib.Bytes proof.A, MpcLib.Bytes proof.Gamma,
    MpcLib.Bytes proof.Z1, MpcLib.Bytes proof.Z2, MpcLib.Bytes proof.W]

def DecProof.ProofFromBytes (bzs : List (List UInt8)) : Except String DecProof :=
  if !NonEmptyMultiBytes bzs DecProofParts then
    .error s!"expected {DecProofParts} byte parts to construct DecProof"
  else .ok
    { S := SetBytes (bzs.getD 0 []), T := SetBytes (bzs.getD 1 []),
      A := SetBytes (bzs.getD 2 []), Gamma := SetBytes (bzs.getD 3 []),
      Z1 := SetBytes (bzs.getD 4 []), Z2 := SetBytes (bzs.getD 5 []),
      W := SetBytes (bzs.getD 6 []) }

instance : Proof DecProof where
  Parts := DecProofParts
  Parts_pos := by decide
  Bytes := DecProof.Bytes
  ProofFromBytes := DecProof.ProofFromBytes

@[simp] theorem Proof.Parts_dec : Proof.Parts DecProof = 7 := rfl

@[simp] theorem Proof.Bytes_dec (p : DecProof) : Proof.Bytes p = p.Bytes := rfl

@[simp] theorem Proof.ProofFromBytes_dec (bzs : List (List UInt8)) :
    Proof.ProofFromBytes bzs = DecProof.ProofFromBytes bzs := rfl

/-! ## Chunks -/

def chunks (k : ℕ) : ℕ → List α → List (List α)
  | 0, _ => []
  | n + 1, l => l.take k :: chunks k n (l.drop k)

theorem map_range_chunk (k : ℕ) : ∀ (n : ℕ) (l : List α),
    (List.range n).map (fun p => (l.drop (p * k)).take k) = chunks k n l
  | 0, _ => rfl
  | n + 1, l => by
    rw [List.range_succ_eq_map, List.map_cons, List.map_map, chunks,
      ← map_range_chunk k n (l.drop k)]
    simp [Function.comp_def, Nat.succ_mul, List.drop_drop, Nat.add_comm]

theorem flatten_chunks (k : ℕ) : ∀ (n : ℕ) (l : List α), l.length = n * k →
    (chunks k n l).flatten = l
  | 0, l, h => by simp_all [chunks]
  | n + 1, l, h => by
    rw [chunks, List.flatten_cons, flatten_chunks k n _ (by simp [h, Nat.succ_mul]),
      List.take_append_drop]

theorem length_of_mem_chunks (k : ℕ) : ∀ (n : ℕ) (l : List α), n * k ≤ l.length →
    ∀ c ∈ chunks k n l, c.length = k
  | 0, _, _ => by simp [chunks]
  | n + 1, l, h => by
    simp only [chunks, List.mem_cons, forall_eq_or_imp, List.length_take]
    refine ⟨by rw [Nat.succ_mul] at h; omega, length_of_mem_chunks k n _ ?_⟩
    simp [Nat.succ_mul] at h ⊢; omega

theorem chunks_flatMap {f : β → List α} {k : ℕ} (hf : ∀ x, (f x).length = k) :
    ∀ xs : List β, chunks k xs.length (xs.flatMap f) = xs.map f
  | [] => rfl
  | x :: xs => by
    simp [chunks, List.take_left' (hf x), List.drop_left' (hf x), chunks_flatMap hf xs]

theorem mapM_map {f : β → Except ε γ} {g : α → β} :
    ∀ l : List α, (l.map g).mapM f = l.mapM (f ∘ g)
  | [] => rfl
  | a :: l => by rw [List.map_cons, List.mapM_cons, List.mapM_cons, mapM_map l]; rfl

theorem ProofArrayFromBytes_eq [Proof P] {bzs : List (List UInt8)}
    (h : bzs.length % Proof.Parts P = 0) :
    ProofArrayFromBytes P bzs =
      (chunks (Proof.Parts P) (bzs.length / Proof.Parts P) bzs).mapM (decodeSlice P) := by
  rw [ProofArrayFromBytes, if_neg (by simpa using h), ← map_range_chunk, mapM_map]
  rfl

theorem proofParts_length [Proof P] (hb : ∀ p : P, (Proof.Bytes p).length = Proof.Parts P) :
    ∀ o : Option P, (proofParts o).length = Proof.Parts P
  | none => List.length_replicate _ _
  | some p => hb p

theorem ProofArrayToBytes_length [Proof P] (hb : ∀ p : P, (Proof.Bytes p).length = Proof.Parts P)
    (A : List (Option P)) : (ProofArrayToBytes A).length = A.length * Proof.Parts P := by
  rw [ProofArrayToBytes, List.length_flatMap]
  simp [Function.comp_def, proofParts_length hb, List.sum_replicate, mul_comm]

theorem DecProof.Bytes_length (p : DecProof) : p.Bytes.length = DecProofParts := rfl

/-! ## Decoding Dec proof arrays -/

/-- A chunk that re-encodes to itself: the empty parts of an absent proof, or parts that
are all non-empty with no leading zero byte. -/
def CanonicalChunk (slice : List (List UInt8)) : Prop :=
  (∀ bz ∈ slice, bz = []) ∨ ∀ bz ∈ slice, bz ≠ [] ∧ bz.head? ≠ some 0

instance (slice : List (List UInt8)) : Decidable (CanonicalChunk slice) :=
  inferInstanceAs (Decidable ((∀ bz ∈ slice, bz = []) ∨ ∀ bz ∈ slice, bz ≠ [] ∧ bz.head? ≠ some 0))

theorem decodeSlice_dec {c : List (List UInt8)} (hc : c.length = DecProofParts) :
    ∃ o, decodeSlice DecProof c = .ok o ∧ (proofParts o = c ↔ CanonicalChunk c) := by
  match c, hc with
  | [c₀, c₁, c₂, c₃, c₄, c₅, c₆], _ =>
    have hiff : NonEmptyMultiBytes [c₀, c₁, c₂, c₃, c₄, c₅, c₆] 7 = true ↔
        c₀ ≠ [] ∧ c₁ ≠ [] ∧ c₂ ≠ [] ∧ c₃ ≠ [] ∧ c₄ ≠ [] ∧ c₅ ≠ [] ∧ c₆ ≠ [] := by
      simp [NonEmptyMultiBytes]
    by_cases hne : c₀ ≠ [] ∧ c₁ ≠ [] ∧ c₂ ≠ [] ∧ c₃ ≠ [] ∧ c₄ ≠ [] ∧ c₅ ≠ [] ∧ c₆ ≠ []
    · refine ⟨some ⟨SetBytes c₀, SetBytes c₁, SetBytes c₂, SetBytes c₃, SetBytes c₄,
        SetBytes c₅, SetBytes c₆⟩, ?_, ?_⟩
      · simp only [decodeSlice, List.length_cons, List.length_nil, hiff.mpr hne, if_true,
          Proof.ProofFromBytes_dec, DecProof.ProofFromBytes, DecProofParts, Bool.not_true,
          Bool.false_eq_true, if_false]
        rfl
      · simp only [proofParts, Proof.Bytes_dec, DecProof.Bytes, List.cons.injEq, and_true,
          Bytes_SetBytes_iff, CanonicalChunk, List.mem_cons, List.mem_singleton, forall_eq_or_imp,
          forall_eq, List.not_mem_nil, false_implies, implies_true, hne, ne_eq, not_false_eq_true,
          true_and, false_and, false_or]
    · refine ⟨none, ?_, ?_⟩
      · simp only [decodeSlice, List.length_cons, List.length_nil,
          Bool.eq_false_iff.mpr (mt hiff.mp hne)]
        rfl
      · simp only [proofParts, Proof.Parts_dec, CanonicalChunk, List.mem_cons,
          List.mem_singleton, forall_eq_or_imp, forall_eq, List.not_mem_nil, false_implies,
          implies_true]
        simp only [List.replicate, List.cons.injEq, and_true]
        constructor
        · rintro ⟨h₀, h₁, h₂, h₃, h₄, h₅, h₆⟩
          exact Or.inl ⟨h₀.symm, h₁.symm, h₂.symm, h₃.symm, h₄.symm, h₅.symm, h₆.symm⟩
        · rintro (⟨h₀, h₁, h₂, h₃, h₄, h₅, h₆⟩ | ⟨⟨h₀, -⟩, ⟨h₁, -⟩, ⟨h₂, -⟩, ⟨h₃, -⟩, ⟨h₄, -⟩, ⟨h₅, -⟩, h₆, -⟩)
          · simp [h₀, h₁, h₂, h₃, h₄, h₅, h₆]
          · exact absurd ⟨h₀, h₁, h₂, h₃, h₄, h₅, h₆⟩ hne

theorem mapM_decodeSlice_dec : ∀ cs : List (List (List UInt8)),
    (∀ c ∈ cs, c.length = DecProofParts) →
    ∃ ys, cs.mapM (decodeSlice DecProof) = .ok ys ∧
      (ys.flatMap proofParts = cs.flatten ↔ ∀ c ∈ cs, CanonicalChunk c)
  | [], _ => ⟨[], rfl, by simp⟩
  | c :: cs, h => by
    have hc := h c (List.mem_cons_self c cs)
    obtain ⟨o, ho, hco⟩ := decodeSlice_dec hc
    obtain ⟨ys, hys, hcs⟩ := mapM_decodeSlice_dec cs fun c' hc' => h c' (List.mem_cons_of_mem c hc')
    refine ⟨o :: ys, by rw [List.mapM_cons, ho, hys]; rfl, ?_⟩
    rw [List.flatMap_cons, List.flatten_cons, List.forall_mem_cons, ← hco, ← hcs]
    constructor
    · intro heq
      exact List.append_inj heq (by rw [proofParts_length DecProof.Bytes_length, hc]; rfl)
    · rintro ⟨h₁, h₂⟩
      rw [h₁, h₂]

/-- Decoding a Dec proof array fails exactly on a length that is no multiple of `7`, never
inside a chunk; what it reads re-encodes to its input iff every chunk is canonical. -/
theorem ProofArrayFromBytes_canonical (b : List (List UInt8)) :
    ((∃ err, ProofArrayFromBytes DecProof b = .error err) ↔ b.length % DecProofParts ≠ 0) ∧
    ∀ proofs, ProofArrayFromBytes DecProof b = .ok proofs →
      (ProofArrayToBytes proofs = b ↔
        ∀ p < b.length / DecProofParts,
          CanonicalChunk ((b.drop (p * DecProofParts)).take DecProofParts)) := by
  by_cases hb : b.length % DecProofParts = 0
  · have hlen : b.length = b.length / 7 * 7 := (Nat.div_mul_cancel (Nat.dvd_of_mod_eq_zero hb)).symm
    obtain ⟨ys, hys, hiff⟩ := mapM_decodeSlice_dec (chunks 7 (b.length / 7) b)
      (length_of_mem_chunks 7 _ b hlen.ge)
    have hdec : ProofArrayFromBytes DecProof b = .ok ys := by
      rw [ProofArrayFromBytes_eq (by simpa using hb)]; exact hys
    refine ⟨Iff.intro (fun ⟨err, he⟩ => by rw [hdec] at he; cases he) (absurd hb), ?_⟩
    rintro proofs hp
    rw [hdec] at hp
    cases hp
    rw [ProofArrayToBytes]
    conv_lhs => rw [← flatten_chunks 7 (b.length / 7) b hlen]
    rw [hiff, ← map_range_chunk]
    simp [DecProofParts]
  · have herr : ProofArrayFromBytes DecProof b = .error "Improper input length" := by
      simp only [ProofArrayFromBytes, Proof.Parts_dec]
      exact if_pos hb
    exact ⟨⟨fun _ => hb, fun _ => ⟨_, herr⟩⟩, fun proofs hp => by rw [herr] at hp; cases hp⟩

theorem ProofArrayFromBytes_canonical_leading_zero :
    let b : List (List UInt8) := List.replicate 7 [1] ++ [0, 1] :: List.replicate 6 [1]
    let proofs : List (Option DecProof) := [some ⟨1, 1, 1, 1, 1, 1, 1⟩, some ⟨1, 1, 1, 1, 1, 1, 1⟩]
    ProofArrayFromBytes DecProof b = .ok proofs ∧
      (ProofArrayToBytes proofs = b ↔
        ∀ p < b.length / DecProofParts, CanonicalChunk ((b.drop (p * DecProofParts)).take DecProofParts)) ∧
      ProofArrayToBytes proofs ≠ b :=
  have h : ProofArrayFromBytes DecProof (List.replicate 7 [1] ++ [0, 1] :: List.replicate 6 [1]) =
      .ok [some ⟨1, 1, 1, 1, 1, 1, 1⟩, some ⟨1, 1, 1, 1, 1, 1, 1⟩] := rfl
  have hiff := (ProofArrayFromBytes_canonical _).2 _ h
  ⟨h, hiff, fun heq => absurd (hiff.mp heq 1 (by decide)) (by decide)⟩

/-! ## The round trip -/

def DecProof.NoZeroField (p : DecProof) : Bool :=
  p.S != 0 && p.T != 0 && p.A != 0 && p.Gamma != 0 && p.Z1 != 0 && p.Z2 != 0 && p.W != 0

def DecProof.FieldsNonneg (p : DecProof) : Prop :=
  0 ≤ p.S ∧ 0 ≤ p.T ∧ 0 ≤ p.A ∧ 0 ≤ p.Gamma ∧ 0 ≤ p.Z1 ∧ 0 ≤ p.Z2 ∧ 0 ≤ p.W

theorem DecProof.NonEmptyMultiBytes_Bytes (p : DecProof) :
    NonEmptyMultiBytes p.Bytes DecProofParts = p.NoZeroField := by
  simp only [NonEmptyMultiBytes, DecProof.Bytes, DecProof.NoZeroField, Bytes_isEmpty,
    List.all_cons, List.all_nil, Bool.and_true, List.isEmpty_cons, Bool.not_false, Bool.true_and,
    List.length_cons, List.length_nil, DecProofParts, beq_self_eq_true, Bool.and_assoc]
  rfl

theorem DecProof.ProofFromBytes_Bytes {p : DecProof} (hp : p.FieldsNonneg)
    (hz : p.NoZeroField = true) : DecProof.ProofFromBytes p.Bytes = .ok p := by
  obtain ⟨hS, hT, hA, hΓ, hZ₁, hZ₂, hW⟩ := hp
  have hn := DecProof.NonEmptyMultiBytes_Bytes p
  rw [hz] at hn
  simp only [DecProof.ProofFromBytes, hn, Bool.not_true, Bool.false_eq_true, if_false]
  simp only [DecProof.Bytes, List.getD_cons_zero, List.getD_cons_succ, SetBytes_Bytes,
    Int.natAbs_of_nonneg, hS, hT, hA, hΓ, hZ₁, hZ₂, hW]

theorem decodeSlice_proofParts (o : Option DecProof) (ho : ∀ p ∈ o, p.FieldsNonneg) :
    decodeSlice DecProof (proofParts o) = .ok (o.filter DecProof.NoZeroField) := by
  cases o with
  | none => rfl
  | some p =>
    simp only [decodeSlice, proofParts, Proof.Bytes_dec, DecProof.Bytes_length,
      DecProof.NonEmptyMultiBytes_Bytes, Option.filter]
    cases hz : p.NoZeroField
    · rfl
    · rw [if_pos rfl, Proof.ProofFromBytes_dec, DecProof.ProofFromBytes_Bytes (ho p rfl) hz]
      rfl

theorem mapM_ok {f : α → Except ε β} {g : α → β} :
    ∀ l : List α, (∀ a ∈ l, f a = .ok (g a)) → l.mapM f = .ok (l.map g)
  | [], _ => rfl
  | a :: l, h => by
    rw [List.mapM_cons, h a (List.mem_cons_self a l),
      mapM_ok l fun a' ha' => h a' (List.mem_cons_of_mem a ha')]
    rfl

/-- The round trip of a Dec proof array with non-negative fields: every entry comes back,
and comes back `nil` exactly when it was `nil` or had a zero field. -/
theorem ProofArrayFromBytes_ToBytes (A : List (Option DecProof))
    (hA : ∀ o ∈ A, ∀ p ∈ o, p.FieldsNonneg) :
    ProofArrayFromBytes DecProof (ProofArrayToBytes A) =
      .ok (A.map (Option.filter DecProof.NoZeroField)) := by
  have hparts (o : Option DecProof) : (proofParts o).length = 7 :=
    proofParts_length DecProof.Bytes_length o
  have hlen : (ProofArrayToBytes A).length = A.length * 7 :=
    ProofArrayToBytes_length DecProof.Bytes_length A
  rw [ProofArrayFromBytes_eq (by simp [hlen]), Proof.Parts_dec, hlen, Nat.mul_div_cancel _ (by norm_num),
    ProofArrayToBytes, chunks_flatMap hparts, mapM_map]
  exact mapM_ok A fun o ho => decodeSlice_proofParts o (hA o ho)

theorem ProofArrayFromBytes_ToBytes_pair :
    (∀ o ∈ [some (DecProof.mk 2 3 5 0 7 11 13), none], ∀ p ∈ o, p.FieldsNonneg) ∧
    ProofArrayFromBytes DecProof (ProofArrayToBytes [some (DecProof.mk 2 3 5 0 7 11 13), none]) =
      .ok [none, none] := by
  have hA : ∀ o ∈ [some (DecProof.mk 2 3 5 0 7 11 13), none], ∀ p ∈ o, p.FieldsNonneg := by
    simp [DecProof.FieldsNonneg]
  exact ⟨hA, by rw [ProofArrayFromBytes_ToBytes _ hA]; rfl⟩

/-! ## Any proof type -/

theorem decodeSlice_proofParts_of_inverse [Proof P]
    (hb : ∀ p : P, (Proof.Bytes p).length = Proof.Parts P) {o : Option P}
    (ho : ∀ p ∈ o, (∀ bz ∈ Proof.Bytes p, bz ≠ []) ∧
      Proof.ProofFromBytes (Proof.Bytes p) = .ok p) :
    decodeSlice P (proofParts o) = .ok o := by
  obtain ⟨k, hk⟩ := Nat.exists_eq_add_of_lt (Proof.Parts_pos (P := P))
  cases o with
  | none => simp [decodeSlice, proofParts, NonEmptyMultiBytes, hk]; rfl
  | some p =>
    obtain ⟨hne, hinv⟩ := ho p rfl
    have hn : NonEmptyMultiBytes (Proof.Bytes p) (Proof.Bytes p).length = true := by
      have hpos : (Proof.Bytes p) ≠ [] := List.ne_nil_of_length_pos (by rw [hb]; omega)
      simpa [NonEmptyMultiBytes, hpos] using hne
    simp only [decodeSlice, proofParts, hn, if_true, hinv]
    rfl

/-- The round trip for any proof type: an array whose proofs each write no empty part, and
are read back by `ProofFromBytes` from what they write, comes back whole, with its `nil`
entries as `nil`. -/
theorem ProofArrayFromBytes_ToBytes_of_inverse [Proof P]
    (hb : ∀ p : P, (Proof.Bytes p).length = Proof.Parts P) (A : List (Option P))
    (hA : ∀ o ∈ A, ∀ p ∈ o, (∀ bz ∈ Proof.Bytes p, bz ≠ []) ∧
      Proof.ProofFromBytes (Proof.Bytes p) = .ok p) :
    ProofArrayFromBytes P (ProofArrayToBytes A) = .ok A := by
  have hlen := ProofArrayToBytes_length hb A
  rw [ProofArrayFromBytes_eq (by simp [hlen]), hlen, Nat.mul_div_cancel _ Proof.Parts_pos,
    ProofArrayToBytes, chunks_flatMap (proofParts_length hb), mapM_map]
  simpa using mapM_ok (g := id) A fun o ho => decodeSlice_proofParts_of_inverse hb (hA o ho)

theorem DecProof.inverse_iff {p : DecProof} (hp : p.FieldsNonneg) :
    ((∀ bz ∈ Proof.Bytes p, bz ≠ []) ∧ Proof.ProofFromBytes (Proof.Bytes p) = .ok p) ↔
      p.NoZeroField = true := by
  have hall : (∀ bz ∈ Proof.Bytes p, bz ≠ []) ↔ p.NoZeroField = true := by
    rw [← DecProof.NonEmptyMultiBytes_Bytes]
    simp [NonEmptyMultiBytes, DecProof.Bytes, DecProofParts]
  exact ⟨fun h => hall.mp h.1, fun hz => ⟨hall.mpr hz, DecProof.ProofFromBytes_Bytes hp hz⟩⟩

theorem ProofArrayFromBytes_ToBytes_of_inverse_dec :
    (∀ p : DecProof, (Proof.Bytes p).length = Proof.Parts DecProof) ∧
    (∀ o ∈ [some (DecProof.mk 2 3 5 7 11 13 17), none], ∀ p ∈ o,
      (∀ bz ∈ Proof.Bytes p, bz ≠ []) ∧ Proof.ProofFromBytes (Proof.Bytes p) = .ok p) ∧
    ProofArrayFromBytes DecProof (ProofArrayToBytes [some (DecProof.mk 2 3 5 7 11 13 17), none]) =
      .ok [some (DecProof.mk 2 3 5 7 11 13 17), none] := by
  have hA : ∀ o ∈ [some (DecProof.mk 2 3 5 7 11 13 17), none], ∀ p ∈ o,
      (∀ bz ∈ Proof.Bytes p, bz ≠ []) ∧ Proof.ProofFromBytes (Proof.Bytes p) = .ok p := by
    rintro o ho p hp
    simp only [List.mem_cons, List.mem_singleton, List.not_mem_nil, or_false] at ho
    rcases ho with rfl | rfl <;> cases hp
    exact (DecProof.inverse_iff (by simp [DecProof.FieldsNonneg])).mpr rfl
  exact ⟨DecProof.Bytes_length, hA,
    ProofArrayFromBytes_ToBytes_of_inverse DecProof.Bytes_length _ hA⟩

/-- A proof whose `Gamma = alpha mod q` is zero, as `NewDecProof` can output, is read back
as `nil`. -/
theorem ProofArrayFromBytes_zero_gamma :
    ProofArrayFromBytes DecProof (ProofArrayToBytes [some (DecProof.mk 1 1 1 0 1 1 1)]) =
      .ok [none] := by
  have hparts (o : Option DecProof) : (proofParts o).length = 7 :=
    proofParts_length DecProof.Bytes_length o
  rw [ProofArrayFromBytes_eq (by simp [ProofArrayToBytes, hparts]), Proof.Parts_dec]
  rw [show (ProofArrayToBytes [some (⟨1, 1, 1, 0, 1, 1, 1⟩ : DecProof)]).length / 7 =
    [some (⟨1, 1, 1, 0, 1, 1, 1⟩ : DecProof)].length by simp [ProofArrayToBytes, hparts],
    ProofArrayToBytes, chunks_flatMap hparts, mapM_map]
  rw [List.mapM_cons, Function.comp_apply,
    decodeSlice_proofParts _ (by simp [DecProof.FieldsNonneg])]
  rfl

end MpcLib
