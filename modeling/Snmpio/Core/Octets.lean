import Snmpio.Lib.Positional
import Mathlib.Data.List.Basic
import Mathlib.Tactic.Linarith
import Mathlib.Tactic.Push

/-
  Octet strings and the numbers they denote.

  `unsignedValue` and `signedValue` give the two readings a
  BER content has: big-endian unsigned, and two's
  complement.  `bigEndian` and `stripPadding` are the two
  loops the writer and the reader share.

  Key definitions include:
    * `Octets`
    * `Octets.bigEndian`
    * `Octets.stripPadding`
    * `Octets.unsignedValue`
    * `Octets.signedValue`

  Key theorems include:
    * `Octets.unsignedValue_bigEndian`
    * `Octets.signedValue_stripPadding`
    * `Octets.signedValue_bounds`
    * `Octets.signedValue_out_of_range`
-/

------------------------------------------------------------
-- Octets
------------------------------------------------------------

namespace Snmpio

/- `std::vector<std::byte>`, and `std::string` as well. -/
abbrev Octets := List UInt8

namespace Octets

/- `static_cast<std::byte>((n >> (i * 8)) & 0xFF)`. -/
def octetAt
    (n i : Nat) : UInt8 :=
  UInt8.ofNat ((n >>> (i * 8)) &&& 0xFF)

/-
  The loop `for (i = k; i-- > 0;)` over `octetAt n i`: the
  low `k` octets of `n`, most significant first.
-/
def bigEndian :
    (k n : Nat) → Octets
| 0, _ => []
| k + 1, n => octetAt n k :: bigEndian k n

/- `(static_cast<unsigned>(b) & 0x80) != 0`. -/
def highBit
    (b : UInt8) : Bool :=
  b.toNat &&& 0x80 != 0

/- The octet that sign extension repeats. -/
def pad
    (negative : Bool) : UInt8 :=
  if negative then 0xFF else 0x00

/-
  Drops a leading octet for as long as it is pure sign
  extension of the top bit of the one after it.
-/
def stripPadding
    (negative : Bool) :
    Octets → Octets
| b :: c :: rest =>
    if b = pad negative ∧ highBit c = negative then
      stripPadding negative (c :: rest)
    else
      b :: c :: rest
| bs => bs

/- The big-endian unsigned value. -/
def unsignedValue
    (bs : Octets) : Nat :=
  Positional.value 256 (bs.map UInt8.toNat)

/- Whether the first octet carries the sign bit. -/
def isNegative :
    Octets → Bool
| [] => false
| b :: _ => highBit b

/- The two's-complement value. -/
def signedValue
    (bs : Octets) : Int :=
  if isNegative bs then
    (unsignedValue bs : Int) - 256 ^ bs.length
  else
    unsignedValue bs

end Octets

end Snmpio

------------------------------------------------------------
-- Bits of One Octet
------------------------------------------------------------

namespace Snmpio

namespace Octets

theorem highBit_eq
    (b : UInt8) :
    highBit b = decide (128 ≤ b.toNat) := by
  have hTable :
      ∀ n : Fin 256,
        (n.val &&& 0x80 != 0) = decide (128 ≤ n.val) := by
    decide +kernel
  exact hTable ⟨b.toNat, b.toNat_lt⟩

theorem highBit_eq_true_iff
    (b : UInt8) :
    highBit b = true ↔ 128 ≤ b.toNat := by
  rw [highBit_eq, decide_eq_true_iff]

theorem highBit_eq_false_iff
    (b : UInt8) :
    highBit b = false ↔ b.toNat < 128 := by
  rw [highBit_eq, decide_eq_false_iff_not]
  omega

theorem toNat_ofNat_octet
    {n : Nat}
    (hn : n < 256) :
    (UInt8.ofNat n).toNat = n := by
  rw [UInt8.toNat_ofNat']
  omega

theorem octetAt_toNat
    (n i : Nat) :
    (octetAt n i).toNat = n / 256 ^ i % 256 := by
  unfold octetAt
  rw [UInt8.toNat_ofNat', Nat.shiftRight_eq_div_pow,
    show (0xFF : Nat) = 2 ^ 8 - 1 from rfl,
    Nat.and_two_pow_sub_one_eq_mod, Nat.mod_mod,
    Nat.mul_comm, Nat.pow_mul]

end Octets

end Snmpio

------------------------------------------------------------
-- Unsigned Values
------------------------------------------------------------

namespace Snmpio

namespace Octets

@[simp] theorem unsignedValue_nil :
    unsignedValue [] = 0 := by
  simp [unsignedValue]

theorem unsignedValue_cons
    (b : UInt8)
    (bs : Octets) :
    unsignedValue (b :: bs) =
      b.toNat * 256 ^ bs.length + unsignedValue bs := by
  simp [unsignedValue, Positional.value_cons]

theorem unsignedValue_lt
    (bs : Octets) :
    unsignedValue bs < 256 ^ bs.length := by
  have hDigits :
      ∀ d ∈ bs.map UInt8.toNat, d < 256 := by
    intro d hd
    rcases List.mem_map.mp hd with ⟨b, _, hb⟩
    subst hb
    exact b.toNat_lt
  simpa [unsignedValue] using
    Positional.value_lt (by omega) hDigits

/- `(v << 8) | b` appends one octet. -/
theorem shift_or_octet
    (v : Nat)
    (b : UInt8) :
    (v <<< 8) ||| b.toNat = v * 256 + b.toNat := by
  rw [← Nat.shiftLeft_add_eq_or_of_lt b.toNat_lt,
    Nat.shiftLeft_eq]

/- The reader's accumulator loop computes the value. -/
theorem foldl_shift_or
    (bs : Octets)
    (acc : Nat) :
    bs.foldl (fun v b => (v <<< 8) ||| b.toNat) acc =
      acc * 256 ^ bs.length + unsignedValue bs := by
  have hMap :=
    Positional.foldl_eq_value 256 acc (bs.map UInt8.toNat)
  rw [List.foldl_map, List.length_map] at hMap
  simpa only [shift_or_octet, unsignedValue] using hMap

@[simp] theorem bigEndian_length
    (k n : Nat) :
    (bigEndian k n).length = k := by
  induction k with
  | zero => rfl
  | succ k ih => simp [bigEndian, ih]

theorem bigEndian_map_toNat
    (k n : Nat) :
    (bigEndian k n).map UInt8.toNat =
      Positional.digits 256 k n := by
  induction k with
  | zero => rfl
  | succ k ih =>
      simp [bigEndian, Positional.digits, ih, octetAt_toNat]

theorem unsignedValue_bigEndian
    (k n : Nat) :
    unsignedValue (bigEndian k n) = n % 256 ^ k := by
  rw [unsignedValue, bigEndian_map_toNat,
    Positional.value_digits]

/- Leading zero octets carry no value. -/
theorem unsignedValue_dropWhile
    (bs : Octets) :
    unsignedValue (bs.dropWhile (· == 0)) =
      unsignedValue bs := by
  induction bs with
  | nil => rfl
  | cons b bs ih =>
      by_cases hb : b = 0
      · subst hb
        rw [List.dropWhile_cons_of_pos (by rfl), ih,
          unsignedValue_cons]
        simp
      · rw [List.dropWhile_cons_of_neg (by simpa using hb)]

/-
  Without leading zeros the length says how large the value
  is, so a bound on one is a bound on the other.
-/
theorem length_dropWhile_le_iff
    (bs : Octets)
    (k : Nat) :
    (bs.dropWhile (· == 0)).length ≤ k ↔
      unsignedValue bs < 256 ^ k := by
  rw [← unsignedValue_dropWhile bs]
  cases hDrop : bs.dropWhile (· == 0) with
  | nil => simp
  | cons b rest =>
      have hHead : b ≠ 0 := by
        have hNonempty : bs.dropWhile (· == 0) ≠ [] := by
          rw [hDrop]
          simp
        have hNot :=
          List.head_dropWhile_not (· == 0) hNonempty
        simpa [hDrop] using hNot
      have hPos : 0 < b.toNat := by
        rcases Nat.eq_zero_or_pos b.toNat with hZero | hPos
        · exact absurd (UInt8.toNat_inj.mp hZero) hHead
        · exact hPos
      have hLow : 256 ^ rest.length ≤
          unsignedValue (b :: rest) := by
        rw [unsignedValue_cons]
        nlinarith [Nat.pow_pos (n := rest.length)
          (show 0 < 256 by omega)]
      constructor
      · intro hLength
        exact lt_of_lt_of_le (unsignedValue_lt _)
          (Nat.pow_le_pow_right (by omega) hLength)
      · intro hValue
        have hPow : 256 ^ rest.length < 256 ^ k :=
          lt_of_le_of_lt hLow hValue
        have hLt : rest.length < k :=
          (Nat.pow_lt_pow_iff_right (by omega)).mp hPow
        exact hLt

end Octets

end Snmpio

------------------------------------------------------------
-- Two's-Complement Values
------------------------------------------------------------

namespace Snmpio

namespace Octets

/- One padding octet carries no value. -/
theorem signedValue_pad
    (negative : Bool)
    (c : UInt8)
    (rest : Octets)
    (hSign : highBit c = negative) :
    signedValue (pad negative :: c :: rest) =
      signedValue (c :: rest) := by
  have hPow :
      (256 : Int) ^ (rest.length + 1 + 1) =
        256 * 256 ^ (rest.length + 1) := by
    ring
  cases negative with
  | false =>
      have hPad : isNegative (pad false :: c :: rest) =
          false := rfl
      have hRest : isNegative (c :: rest) = false := hSign
      rw [signedValue, signedValue, hPad, hRest,
        unsignedValue_cons]
      simp [pad]
  | true =>
      have hPad : isNegative (pad true :: c :: rest) =
          true := rfl
      have hRest : isNegative (c :: rest) = true := hSign
      rw [signedValue, signedValue, hPad, hRest,
        unsignedValue_cons]
      simp only [pad, if_true, List.length_cons, hPow]
      push_cast
      ring

/- Stripping padding keeps the two's-complement value. -/
theorem signedValue_stripPadding
    (negative : Bool)
    (bs : Octets) :
    signedValue (stripPadding negative bs) =
      signedValue bs := by
  induction bs with
  | nil => rfl
  | cons b bs ih =>
      cases bs with
      | nil => rfl
      | cons c rest =>
          rw [stripPadding]
          split
          · next hStrip =>
            rw [ih, hStrip.1]
            exact (signedValue_pad negative c rest
              hStrip.2).symm
          · rfl

/- Stripping never empties an octet string. -/
theorem stripPadding_length_le
    (negative : Bool)
    (bs : Octets) :
    (stripPadding negative bs).length ≤ bs.length := by
  induction bs with
  | nil => simp [stripPadding]
  | cons b bs ih =>
      cases bs with
      | nil => simp [stripPadding]
      | cons c rest =>
          rw [stripPadding]
          split
          · exact ih.trans (by simp)
          · exact le_rfl

theorem stripPadding_ne_nil
    (negative : Bool)
    (bs : Octets)
    (hBs : bs ≠ []) :
    stripPadding negative bs ≠ [] := by
  induction bs with
  | nil => exact hBs
  | cons b bs ih =>
      cases bs with
      | nil => simp [stripPadding]
      | cons c rest =>
          rw [stripPadding]
          split
          · exact ih (by simp)
          · simp

/- Stripping keeps the sign it strips for. -/
theorem isNegative_stripPadding
    (bs : Octets) :
    isNegative (stripPadding (isNegative bs) bs) =
      isNegative bs := by
  suffices hGeneral :
      ∀ (negative : Bool) (bs : Octets),
        isNegative bs = negative →
          isNegative (stripPadding negative bs) = negative by
    exact hGeneral _ bs rfl
  intro negative bs
  induction bs with
  | nil => exact id
  | cons b bs ih =>
      intro hSign
      cases bs with
      | nil => exact hSign
      | cons c rest =>
          rw [stripPadding]
          split
          · next hStrip =>
            exact ih hStrip.2
          · exact hSign

/- What is left starts with no redundant octet. -/
theorem stripPadding_minimal
    {negative : Bool}
    {bs : Octets}
    {b c : UInt8}
    {rest : Octets}
    (hStrip : stripPadding negative bs = b :: c :: rest) :
    ¬ (b = pad negative ∧ highBit c = negative) := by
  induction bs with
  | nil => simp [stripPadding] at hStrip
  | cons d bs ih =>
      cases bs with
      | nil => simp [stripPadding] at hStrip
      | cons e tail =>
          rw [stripPadding] at hStrip
          split at hStrip
          · exact ih hStrip
          · next hKeep =>
            simp only [List.cons.injEq] at hStrip
            rcases hStrip with ⟨rfl, rfl, rfl⟩
            exact hKeep

/- An `n`-octet string covers the `8 n`-bit signed range. -/
theorem signedValue_bounds
    (b : UInt8)
    (rest : Octets) :
    -(128 * 256 ^ rest.length : Int) ≤
        signedValue (b :: rest) ∧
      signedValue (b :: rest) <
        128 * 256 ^ rest.length := by
  have hRest := unsignedValue_lt rest
  have hByte := b.toNat_lt
  have hCons := unsignedValue_cons b rest
  have hPos : 0 < 256 ^ rest.length :=
    Nat.pow_pos (by omega)
  zify at hRest hCons hPos
  unfold signedValue
  cases hSign : highBit b with
  | false =>
      rw [highBit_eq_false_iff] at hSign
      rw [if_neg (by simp [isNegative, highBit_eq, hSign]),
        hCons]
      constructor
      · nlinarith
      · nlinarith
  | true =>
      rw [highBit_eq_true_iff] at hSign
      rw [if_pos (by simp [isNegative, highBit_eq, hSign]),
        hCons, List.length_cons, pow_succ]
      constructor
      · nlinarith
      · nlinarith

/-
  A minimal octet string of five or more octets denotes a
  number outside the 32-bit range.
-/
theorem signedValue_out_of_range
    {b c : UInt8}
    {rest : Octets}
    (hMinimal :
      ¬ (b = pad (highBit b) ∧ highBit c = highBit b))
    (hLength : 3 ≤ rest.length) :
    signedValue (b :: c :: rest) < -2 ^ 31 ∨
      2 ^ 31 ≤ signedValue (b :: c :: rest) := by
  have hRest := unsignedValue_lt rest
  have hByte := b.toNat_lt
  have hNext := c.toNat_lt
  have hCons := unsignedValue_cons b (c :: rest)
  have hConsNext := unsignedValue_cons c rest
  have hPow : 256 ^ 3 ≤ 256 ^ rest.length :=
    Nat.pow_le_pow_right (by omega) hLength
  rw [hConsNext, List.length_cons, pow_succ] at hCons
  zify at hRest hCons hPow
  generalize hP : (256 : Int) ^ rest.length = p at *
  unfold signedValue
  cases hSign : highBit b with
  | false =>
      right
      rw [if_neg (by simp [isNegative, hSign]), hCons]
      rw [hSign] at hMinimal
      by_cases hZero : b.toNat = 0
      · have hB : b = pad false := UInt8.toNat_inj.mp hZero
        have hHigh : 128 ≤ c.toNat := by
          rw [← highBit_eq_true_iff]
          simpa [hB] using hMinimal
        rw [hZero]
        zify at hHigh
        nlinarith
      · have hOne : 1 ≤ b.toNat := by omega
        zify at hOne
        nlinarith
  | true =>
      left
      rw [if_pos (by simp [isNegative, hSign]), hCons,
        List.length_cons, List.length_cons, pow_succ,
        pow_succ, hP]
      rw [hSign] at hMinimal
      by_cases hFull : b.toNat = 255
      · have hB : b = pad true := UInt8.toNat_inj.mp hFull
        have hLow : c.toNat < 128 := by
          rw [← highBit_eq_false_iff]
          simpa [hB] using hMinimal
        have hAtMost : c.toNat ≤ 127 := by omega
        rw [hFull]
        zify at hAtMost
        push_cast
        nlinarith
      · have hLess : b.toNat ≤ 254 := by omega
        zify at hLess
        nlinarith

end Octets

end Snmpio
