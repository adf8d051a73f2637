import Mathlib.Data.Nat.Digits

/-!
# Byte strings of `math/big` integers

`x.Bytes()` writes `|x|` big-endian with no leading zero byte, so `0` is the empty
string; `SetBytes` reads a big-endian unsigned integer. Reading back what was written
gives `|x|`, and writing back what was read gives the input exactly when it has no
leading zero byte: `Bytes_SetBytes_iff`. A Go `nil` slice and an empty one are both `[]`.
-/

namespace MpcLib

/-- `x.Bytes()`: the base-256 digits of `|x|`, most significant first. -/
def Bytes (x : ℤ) : List UInt8 := ((Nat.digits 256 x.natAbs).map UInt8.ofNat).reverse

/-- `new(big.Int).SetBytes(buf)`: `buf` as a big-endian unsigned integer. -/
def SetBytes (buf : List UInt8) : ℤ := (buf.foldl (fun acc b => acc * 256 + b.toNat) 0 : ℕ)

/-- Modelled from the spec: `common.NonEmptyBytes` and `common.NonEmptyMultiBytes` (the
`common` package is not in the source): a list of the expected length, not empty, whose
parts are all non-empty, an absent slot being an empty string (§4.4). -/
def NonEmptyMultiBytes (bzs : List (List UInt8)) (expectLen : ℕ) : Bool :=
  !bzs.isEmpty && bzs.length == expectLen && bzs.all fun bz => !bz.isEmpty

theorem UInt8.ofNat_toNat (b : UInt8) : UInt8.ofNat b.toNat = b :=
  UInt8.toNat.inj (UInt8.toNat_ofNat_of_lt b.toNat_lt_size)

theorem foldl_bytes (buf : List UInt8) (a : ℕ) :
    buf.foldl (fun acc b => acc * 256 + b.toNat) a =
      a * 256 ^ buf.length + Nat.ofDigits 256 (buf.map UInt8.toNat).reverse := by
  induction buf generalizing a with
  | nil => simp [Nat.ofDigits]
  | cons b bs ih =>
    simp only [List.foldl_cons, ih, List.length_cons, List.map_cons, List.reverse_cons,
      Nat.ofDigits_append, List.length_reverse, List.length_map, Nat.ofDigits_singleton]
    ring

theorem SetBytes_eq (buf : List UInt8) :
    SetBytes buf = ((Nat.ofDigits 256 (buf.map UInt8.toNat).reverse : ℕ) : ℤ) := by
  simp [SetBytes, foldl_bytes]

theorem map_toNat_Bytes (x : ℤ) : ((Bytes x).map UInt8.toNat).reverse = Nat.digits 256 x.natAbs := by
  rw [Bytes, List.map_reverse, List.reverse_reverse, List.map_map]
  conv_rhs => rw [← List.map_id (Nat.digits 256 x.natAbs)]
  refine List.map_congr_left fun d hd => ?_
  exact UInt8.toNat_ofNat_of_lt (Nat.digits_lt_base (by norm_num) hd)

theorem SetBytes_Bytes (x : ℤ) : SetBytes (Bytes x) = x.natAbs := by
  rw [SetBytes_eq, map_toNat_Bytes, Nat.ofDigits_digits]

theorem Bytes_eq_nil_iff (x : ℤ) : Bytes x = [] ↔ x = 0 := by
  simp [Bytes, Nat.digits_eq_nil_iff_eq_zero]

theorem Bytes_isEmpty (x : ℤ) : (Bytes x).isEmpty = (x == 0) := by
  rw [Bool.eq_iff_iff, List.isEmpty_iff, beq_iff_eq, Bytes_eq_nil_iff]

theorem Bytes_head?_ne_zero (x : ℤ) : (Bytes x).head? ≠ some 0 := by
  rw [Bytes, List.head?_reverse]
  rcases eq_or_ne x.natAbs 0 with hx | hx
  · simp [hx]
  have hne : Nat.digits 256 x.natAbs ≠ [] := by simp [Nat.digits_eq_nil_iff_eq_zero, hx]
  rw [List.getLast?_eq_getLast _ (by simpa using hne), List.getLast_map]
  intro h
  have hlt := Nat.digits_lt_base (by norm_num : 1 < 256) (List.getLast_mem hne)
  have h0 := congrArg UInt8.toNat (Option.some.inj h)
  rw [UInt8.toNat_ofNat_of_lt hlt] at h0
  exact Nat.getLast_digit_ne_zero 256 hx h0

/-- Writing back what `SetBytes` read reproduces the input iff it has no leading zero. -/
theorem Bytes_SetBytes_iff (buf : List UInt8) : Bytes (SetBytes buf) = buf ↔ buf.head? ≠ some 0 := by
  refine ⟨fun h => h ▸ Bytes_head?_ne_zero _, fun h => ?_⟩
  have hlast : ∀ hne : (buf.map UInt8.toNat).reverse ≠ [],
      ((buf.map UInt8.toNat).reverse).getLast hne ≠ 0 := by
    intro hne h0
    rw [List.getLast_reverse, List.head_map] at h0
    apply h
    rw [List.head?_eq_head (by simpa using hne)]
    exact congrArg some (UInt8.toNat.inj (by simpa using h0))
  have hdig : Nat.digits 256 (SetBytes buf).natAbs = (buf.map UInt8.toNat).reverse := by
    rw [SetBytes_eq, Int.natAbs_ofNat]
    exact Nat.digits_ofDigits _ (by norm_num) _
      (fun d hd => by
        obtain ⟨b, -, rfl⟩ := List.mem_map.mp (List.mem_reverse.mp hd)
        exact b.toNat_lt_size) hlast
  rw [Bytes, hdig, List.map_reverse, List.reverse_reverse, List.map_map]
  conv_rhs => rw [← List.map_id buf]
  exact List.map_congr_left fun b _ => UInt8.ofNat_toNat b

end MpcLib
