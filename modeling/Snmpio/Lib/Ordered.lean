import Mathlib.Data.List.Lex
import Mathlib.Data.List.TakeWhile
import Mathlib.Order.WellFoundedSet

/-
  Sorted lists, and prefixes in the lexicographic order.

  The lists that have a given prefix are an interval of the
  lexicographic order.  In a list sorted by a key, what an
  interval's upper part cuts off is a tail.  A climb inside
  a finite set ends.

  Key definitions include:
    * `Ordered.above`

  Key theorems include:
    * `Ordered.prefix_of_between`
    * `Ordered.filter_eq_takeWhile`
    * `Ordered.above_of_split`
    * `Ordered.wellFounded_climb`
-/

------------------------------------------------------------
-- The Lexicographic Order
------------------------------------------------------------

namespace Ordered

variable {α : Type} [LT α]
variable [Std.Irrefl (fun a b : α => a < b)]
variable [Std.Asymm (fun a b : α => a < b)]

/- A proper extension comes after the list it extends. -/
omit [Std.Irrefl (fun a b : α => a < b)]
  [Std.Asymm (fun a b : α => a < b)] in
theorem lt_append
    (base : List α)
    {t : List α}
    (ht : t ≠ []) :
    base < base ++ t := by
  induction base with
  | nil =>
      cases t with
      | nil => exact absurd rfl ht
      | cons x xs => exact List.nil_lt_cons x xs
  | cons b bs ih =>
      rw [List.cons_append, List.cons_lt_cons_iff]
      exact Or.inr ⟨rfl, ih⟩

/- Between a list and an extension of it, all extend it. -/
theorem prefix_of_between
    {base a t : List α}
    (hLower : base < a)
    (hUpper : a < base ++ t) :
    base <+: a := by
  induction base generalizing a with
  | nil => exact List.nil_prefix
  | cons b bs ih =>
      cases a with
      | nil => exact absurd hLower (List.not_lt_nil _)
      | cons x xs =>
          rw [List.cons_lt_cons_iff] at hLower
          rw [List.cons_append, List.cons_lt_cons_iff]
            at hUpper
          rcases hLower with hLt | ⟨rfl, hRest⟩
          · rcases hUpper with hGt | ⟨rfl, _⟩
            · exact absurd hGt (Std.Asymm.asymm _ _ hLt)
            · exact absurd hLt (Std.Irrefl.irrefl _)
          · rcases hUpper with hGt | ⟨_, hRest'⟩
            · exact absurd hGt (Std.Irrefl.irrefl _)
            · exact (List.cons_prefix_cons).mpr
                ⟨rfl, ih hRest hRest'⟩

end Ordered

------------------------------------------------------------
-- Initial Segments
------------------------------------------------------------

namespace Ordered

variable {α : Type}

/- A property inherited downwards holds up to a point. -/
theorem filter_eq_takeWhile
    {p : α → Bool}
    {l : List α}
    (hDown :
      l.Pairwise (fun x y => p y = true → p x = true)) :
    l.filter p = l.takeWhile p := by
  induction l with
  | nil => rfl
  | cons x xs ih =>
      rw [List.pairwise_cons] at hDown
      cases hx : p x with
      | true =>
          rw [List.filter_cons_of_pos hx,
            List.takeWhile_cons_of_pos hx, ih hDown.2]
      | false =>
          have hNone : ∀ y ∈ xs, ¬ p y = true := by
            intro y hy hTrue
            have hTrue' := hDown.1 y hy hTrue
            rw [hx] at hTrue'
            exact Bool.false_ne_true hTrue'
          rw [List.filter_cons_of_neg (by simp [hx]),
            List.takeWhile_cons_of_neg (by simp [hx]),
            List.filter_eq_nil_iff.mpr hNone]

/- A prefix with a failure already shows where it stops. -/
theorem takeWhile_append_of_not_all
    {p : α → Bool}
    {l : List α}
    (hNot : ¬ l.all p = true)
    (rest : List α) :
    (l ++ rest).takeWhile p = l.takeWhile p := by
  induction l with
  | nil => simp at hNot
  | cons x xs ih =>
      cases hx : p x with
      | true =>
          rw [List.cons_append,
            List.takeWhile_cons_of_pos hx,
            List.takeWhile_cons_of_pos hx]
          rw [List.all_cons, hx, Bool.true_and] at hNot
          rw [ih hNot]
      | false =>
          rw [List.cons_append,
            List.takeWhile_cons_of_neg (by simp [hx]),
            List.takeWhile_cons_of_neg (by simp [hx])]

end Ordered

------------------------------------------------------------
-- Tails of Sorted Lists
------------------------------------------------------------

namespace Ordered

variable {α κ : Type} [LT κ]
variable [DecidableRel (fun a b : κ => a < b)] (key : α → κ)

/- The members whose key is above a bound. -/
def above
    (bound : κ)
    (l : List α) : List α :=
  l.filter (fun x => decide (bound < key x))

theorem mem_above
    {bound : κ}
    {l : List α}
    {x : α} :
    x ∈ above key bound l ↔ x ∈ l ∧ bound < key x := by
  rw [above, List.mem_filter, decide_eq_true_iff]

theorem above_sorted
    {bound : κ}
    {l : List α}
    (hSorted : l.Pairwise (fun x y => key x < key y)) :
    (above key bound l).Pairwise
      (fun x y => key x < key y) :=
  hSorted.filter _

/-
  Moving the bound up to a member leaves what comes after
  that member.
-/
theorem above_of_split
    [Std.Irrefl (fun a b : κ => a < b)]
    [Std.Asymm (fun a b : κ => a < b)]
    [Trans (fun a b : κ => a < b) (fun a b : κ => a < b)
      (fun a b : κ => a < b)]
    {bound : κ}
    {l before after : List α}
    {x : α}
    (hSorted : l.Pairwise (fun x y => key x < key y))
    (hSplit :
      above key bound l = before ++ x :: after) :
    above key (key x) l = after := by
  have hMem : bound < key x := by
    have hx : x ∈ above key bound l := by
      rw [hSplit]
      simp
    exact ((mem_above key).mp hx).2
  have hTwice :
      above key (key x) l =
        above key (key x) (above key bound l) := by
    unfold above
    rw [List.filter_filter]
    apply List.filter_congr
    intro y _
    by_cases hy : key x < key y
    · have hBound : bound < key y := Trans.trans hMem hy
      simp [hy, hBound]
    · simp [hy]
  have hOrder :
      (above key bound l).Pairwise
        (fun x y => key x < key y) :=
    above_sorted key hSorted
  rw [hSplit, List.pairwise_append, List.pairwise_cons]
    at hOrder
  rcases hOrder with ⟨_, ⟨hAfter, _⟩, hBefore⟩
  rw [hTwice, hSplit, above, List.filter_append,
    List.filter_cons_of_neg (by
      simpa using Std.Irrefl.irrefl (key x))]
  have hNone :
      before.filter
        (fun y => decide (key x < key y)) = [] := by
    rw [List.filter_eq_nil_iff]
    intro y hy
    have hLt := hBefore y hy x List.mem_cons_self
    simpa using Std.Asymm.asymm _ _ hLt
  have hAll :
      after.filter
        (fun y => decide (key x < key y)) = after := by
    rw [List.filter_eq_self]
    intro y hy
    simpa using hAfter y hy
  rw [hNone, hAll, List.nil_append]

end Ordered

------------------------------------------------------------
-- Climbs
------------------------------------------------------------

namespace Ordered

variable {α : Type}

/-
  A climb may start outside the set, but every step of it
  ends inside.
-/
theorem wellFounded_climb
    {r : α → α → Prop}
    [IsStrictOrder α r]
    {s : Set α}
    (hFinite : s.Finite) :
    WellFounded (fun b a => r a b ∧ b ∈ s) := by
  have hInside :
      WellFounded (fun b a => r a b ∧ b ∈ s ∧ a ∈ s) :=
    Set.wellFoundedOn_iff.mp
      (hFinite.wellFoundedOn (r := Function.swap r))
  have hAcc :
      ∀ a, a ∈ s → Acc (fun b a => r a b ∧ b ∈ s) a := by
    intro a
    induction a using hInside.induction with
    | h a ih =>
        intro ha
        apply Acc.intro
        rintro b ⟨hStep, hb⟩
        exact ih b ⟨hStep, hb, ha⟩ hb
  constructor
  intro a
  apply Acc.intro
  rintro b ⟨_, hb⟩
  exact hAcc b hb

end Ordered
