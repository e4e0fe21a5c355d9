import Mathlib.Data.Nat.Digits.Defs
import Mathlib.Tactic.Ring

/-
  Positional notation, most significant digit first.

  Mathlib's `Nat.ofDigits` reads the least significant digit
  first.  Wire formats are written the other way round, so
  this file restates the value of a digit list in wire order
  and gives the fixed-width digit list of a number.

  Key definitions include:
    * `Positional.value`
    * `Positional.digits`

  Key theorems include:
    * `Positional.value_cons`
    * `Positional.value_lt`
    * `Positional.foldl_eq_value`
    * `Positional.value_digits`
    * `Positional.digits_value`
-/

------------------------------------------------------------
-- Values of Digit Lists
------------------------------------------------------------

namespace Snmpio

namespace Positional

/- The number a digit list denotes, leading digit first. -/
def value
    (b : Nat)
    (ds : List Nat) : Nat :=
  Nat.ofDigits b ds.reverse

@[simp] theorem value_nil
    (b : Nat) :
    value b [] = 0 := by
  simp [value]

/- The leading digit is weighted by the digits after it. -/
theorem value_cons
    (b d : Nat)
    (ds : List Nat) :
    value b (d :: ds) =
      d * b ^ ds.length + value b ds := by
  unfold value
  rw [List.reverse_cons, Nat.ofDigits_append,
    Nat.ofDigits_singleton, List.length_reverse]
  ring

theorem value_singleton
    (b d : Nat) :
    value b [d] = d := by
  simp [value]

/- A list of digits denotes less than the next power. -/
theorem value_lt
    {b : Nat}
    {ds : List Nat}
    (hBase : 1 < b)
    (hDigits : ∀ d ∈ ds, d < b) :
    value b ds < b ^ ds.length := by
  have hReverse : ∀ d ∈ ds.reverse, d < b := by
    intro d hd
    exact hDigits d (List.mem_reverse.mp hd)
  simpa [value] using
    Nat.ofDigits_lt_base_pow_length hBase hReverse

/-
  The usual accumulator loop computes the value, after the
  digits already in the accumulator.
-/
theorem foldl_eq_value
    (b acc : Nat)
    (ds : List Nat) :
    ds.foldl (fun v d => v * b + d) acc =
      acc * b ^ ds.length + value b ds := by
  induction ds generalizing acc with
  | nil => simp
  | cons d ds ih =>
      rw [List.foldl_cons, ih, value_cons,
        List.length_cons]
      ring

end Positional

end Snmpio

------------------------------------------------------------
-- Fixed-Width Digit Lists
------------------------------------------------------------

namespace Snmpio

namespace Positional

/- The last `k` digits of `n`, leading digit first. -/
def digits
    (b : Nat) :
    (k n : Nat) → List Nat
| 0, _ => []
| k + 1, n => n / b ^ k % b :: digits b k n

@[simp] theorem digits_length
    (b k n : Nat) :
    (digits b k n).length = k := by
  induction k with
  | zero => rfl
  | succ k ih => simp [digits, ih]

/- The digits of `n` denote `n` up to the width. -/
theorem value_digits
    (b k n : Nat) :
    value b (digits b k n) = n % b ^ k := by
  induction k with
  | zero => simp [digits, Nat.mod_one]
  | succ k ih =>
      rw [digits, value_cons, digits_length, ih,
        Nat.pow_succ, Nat.mod_mul]
      ring

/- Digits only see the number below their width. -/
theorem digits_add_mul
    {b : Nat}
    (hBase : 0 < b)
    (k a n : Nat) :
    digits b k (a * b ^ k + n) = digits b k n := by
  induction k generalizing a with
  | zero => rfl
  | succ k ih =>
      have hShift :
          a * b ^ (k + 1) + n = (a * b) * b ^ k + n := by
        ring
      rw [digits, digits]
      congr 1
      · rw [hShift, Nat.add_comm,
          Nat.add_mul_div_right _ _ (Nat.pow_pos hBase),
          Nat.add_mul_mod_self_right]
      · rw [hShift, ih]

/- Reading a digit list back at its own width returns it. -/
theorem digits_value
    {b : Nat}
    {ds : List Nat}
    (hBase : 1 < b)
    (hDigits : ∀ d ∈ ds, d < b) :
    digits b ds.length (value b ds) = ds := by
  induction ds with
  | nil => rfl
  | cons d ds ih =>
      have hTail : ∀ e ∈ ds, e < b := by
        intro e he
        exact hDigits e (List.mem_cons_of_mem d he)
      have hHead : d < b := hDigits d List.mem_cons_self
      have hLow := value_lt hBase hTail
      rw [List.length_cons, digits, value_cons]
      congr 1
      · rw [Nat.add_comm,
          Nat.add_mul_div_right _ _
            (Nat.pow_pos (by omega)),
          Nat.div_eq_of_lt hLow, Nat.zero_add,
          Nat.mod_eq_of_lt hHead]
      · rw [digits_add_mul (by omega), ih hTail]

end Positional

end Snmpio
