import Snmpio.Core.Octets

/-
  Fixed-width integers built octet by octet.

  Key theorems include:
    * `Words.foldl_shift_or_uint32`
    * `Words.foldl_shift_or_uint64`
    * `Words.toInt_foldl_signed`
    * `Words.signedValue_bigEndian`
-/

------------------------------------------------------------
-- Accumulator Loops
------------------------------------------------------------

namespace Snmpio

namespace Words

open Octets

theorem shift_or_uint32
    (m : UInt32)
    (b : UInt8) :
    ((m <<< 8) ||| b.toUInt32).toNat =
      (m.toNat * 256 + b.toNat) % 2 ^ 32 := by
  have hOr :=
    Nat.two_pow_add_eq_or_of_lt (i := 8) b.toNat_lt
      (m.toNat % 2 ^ 24)
  have hByte := b.toNat_lt
  have hShift :
      m.toNat <<< ((8 : UInt32).toNat % 32) % 2 ^ 32 =
        2 ^ 8 * (m.toNat % 2 ^ 24) := by
    rw [show (8 : UInt32).toNat % 32 = 8 from rfl,
      Nat.shiftLeft_eq]
    omega
  rw [UInt32.toNat_or, UInt32.toNat_shiftLeft,
    UInt8.toNat_toUInt32, hShift, ← hOr]
  omega

theorem shift_or_uint64
    (m : UInt64)
    (b : UInt8) :
    ((m <<< 8) ||| b.toUInt64).toNat =
      (m.toNat * 256 + b.toNat) % 2 ^ 64 := by
  have hOr :=
    Nat.two_pow_add_eq_or_of_lt (i := 8) b.toNat_lt
      (m.toNat % 2 ^ 56)
  have hByte := b.toNat_lt
  have hShift :
      m.toNat <<< ((8 : UInt64).toNat % 64) % 2 ^ 64 =
        2 ^ 8 * (m.toNat % 2 ^ 56) := by
    rw [show (8 : UInt64).toNat % 64 = 8 from rfl,
      Nat.shiftLeft_eq]
    omega
  rw [UInt64.toNat_or, UInt64.toNat_shiftLeft,
    UInt8.toNat_toUInt64, hShift, ← hOr]
  omega

/- Shifting octets in is arithmetic modulo the width. -/
theorem foldl_shift_or_uint32
    (bs : Octets)
    (m : UInt32) :
    (bs.foldl
        (fun (m : UInt32) b => (m <<< 8) ||| b.toUInt32)
        m).toNat =
      (m.toNat * 256 ^ bs.length + unsignedValue bs) %
        2 ^ 32 := by
  induction bs generalizing m with
  | nil =>
      have hLt := m.toNat_lt
      simp only [List.foldl_nil, List.length_nil, pow_zero,
        unsignedValue_nil]
      omega
  | cons b bs ih =>
      rw [List.foldl_cons, ih, shift_or_uint32,
        unsignedValue_cons, List.length_cons, pow_succ]
      rw [Nat.add_mod, Nat.mod_mul_mod, ← Nat.add_mod]
      congr 1
      ring

theorem foldl_shift_or_uint64
    (bs : Octets)
    (m : UInt64) :
    (bs.foldl
        (fun (m : UInt64) b => (m <<< 8) ||| b.toUInt64)
        m).toNat =
      (m.toNat * 256 ^ bs.length + unsignedValue bs) %
        2 ^ 64 := by
  induction bs generalizing m with
  | nil =>
      have hLt := m.toNat_lt
      simp only [List.foldl_nil, List.length_nil, pow_zero,
        unsignedValue_nil]
      omega
  | cons b bs ih =>
      rw [List.foldl_cons, ih, shift_or_uint64,
        unsignedValue_cons, List.length_cons, pow_succ]
      rw [Nat.add_mod, Nat.mod_mul_mod, ← Nat.add_mod]
      congr 1
      ring

end Words

end Snmpio

------------------------------------------------------------
-- Signed Words
------------------------------------------------------------

namespace Snmpio

namespace Words

open Octets

/- `static_cast<std::int32_t>` of an unsigned word. -/
theorem toInt_toInt32
    (x : UInt32) :
    x.toInt32.toInt = (x.toNat : Int).bmod (2 ^ 32) := by
  rw [← Int32.toInt_toBitVec, UInt32.toBitVec_toInt32,
    BitVec.toInt_eq_toNat_bmod, UInt32.toNat_toBitVec]

/- Up to four octets denote a 32-bit number. -/
theorem signedValue_range
    {bs : Octets}
    (hBs : bs ≠ [])
    (hLength : bs.length ≤ 4) :
    -2 ^ 31 ≤ signedValue bs ∧ signedValue bs < 2 ^ 31 := by
  cases bs with
  | nil => exact absurd rfl hBs
  | cons b rest =>
      have hBounds := signedValue_bounds b rest
      have hPow : 256 ^ rest.length ≤ 256 ^ 3 := by
        apply Nat.pow_le_pow_right (by omega)
        rw [List.length_cons] at hLength
        omega
      zify at hPow
      constructor
      · linarith [hBounds.1]
      · linarith [hBounds.2]

/-
  The reader's signed accumulator, started at all ones for a
  negative number, computes the two's-complement value.
-/
theorem toInt_foldl_signed
    {bs : Octets}
    (hBs : bs ≠ [])
    (hLength : bs.length ≤ 4) :
    (bs.foldl
        (fun (m : UInt32) b => (m <<< 8) ||| b.toUInt32)
        (if isNegative bs then 0xFFFFFFFF
          else 0)).toInt32.toInt =
      signedValue bs := by
  have hRange := signedValue_range hBs hLength
  rw [toInt_toInt32, foldl_shift_or_uint32,
    Int.natCast_emod, Int.emod_bmod]
  have hMod :
      (((if isNegative bs then (0xFFFFFFFF : UInt32)
          else 0).toNat * 256 ^ bs.length +
        unsignedValue bs : Nat) : Int) =
      signedValue bs +
        (2 ^ 32 : Nat) *
          (if isNegative bs then 256 ^ bs.length
            else 0) := by
    unfold signedValue
    cases isNegative bs with
    | false => simp
    | true =>
        simp only [if_true]
        rw [show (0xFFFFFFFF : UInt32).toNat =
          2 ^ 32 - 1 from rfl]
        push_cast
        ring
  rw [hMod, Int.add_mul_bmod_self_left]
  apply Int.bmod_eq_of_le
  · norm_num
    linarith [hRange.1]
  · norm_num
    linarith [hRange.2]

/- The four octets of a word denote it, sign included. -/
theorem signedValue_bigEndian
    (v : Int32) :
    signedValue (bigEndian 4 v.toUInt32.toNat) = v.toInt := by
  have hLt := v.toUInt32.toNat_lt
  have hNe : bigEndian 4 v.toUInt32.toNat ≠ [] := by
    simp [bigEndian]
  rw [← toInt_foldl_signed hNe (by simp)]
  have hWord :
      (bigEndian 4 v.toUInt32.toNat).foldl
          (fun (m : UInt32) b => (m <<< 8) ||| b.toUInt32)
          (if isNegative (bigEndian 4 v.toUInt32.toNat)
            then 0xFFFFFFFF else 0) =
        v.toUInt32 := by
    apply UInt32.toNat_inj.mp
    rw [foldl_shift_or_uint32, unsignedValue_bigEndian,
      bigEndian_length]
    omega
  rw [hWord, Int32.toInt32_toUInt32]

end Words

end Snmpio
