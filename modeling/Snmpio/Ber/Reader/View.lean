import Snmpio.Ber.Grammar
import Snmpio.Ber.Reader

/-
  What a healthy reader still has in front of it, and what
  it means for a read to follow a grammar.

  `View r w` says that no error is recorded and that `w` is
  what lies between the cursor and the end of the innermost
  scope.  `ReadsAt G read` says that `read` accepts exactly
  the prefixes of the view that `G` allows at the cursor's
  position, and `Reads` is the case where it is immaterial.

  Key definitions include:
    * `Ber.Reader.View`
    * `Ber.Reader.ReadsAt`
    * `Ber.Reader.Reads`
    * `Ber.Reader.Fills`

  Key theorems include:
    * `Ber.Reader.readHeader_sound`
    * `Ber.Reader.readHeader_complete`
    * `Ber.Reader.primitiveContent_reads`
    * `Ber.Reader.both_reads`
    * `Ber.Reader.inScope_reads`
-/

------------------------------------------------------------
-- The View
------------------------------------------------------------

namespace Snmpio

namespace Ber

namespace Reader

variable {r : Reader} {w : Octets}

/-
  The reader is healthy and `w` is what it may still read.
-/
def View
    (r : Reader)
    (w : Octets) : Prop :=
  r.ec = none ∧
    ∃ before after,
      r.buf = before ++ w ++ after ∧
        r.pos = before.length ∧
        r.endPos = before.length + w.length

theorem View.isSome_eq
    (hView : View r w) :
    r.ec.isSome = false := by
  rw [hView.1]
  rfl

theorem View.ok_eq
    (hView : View r w) :
    r.ok = true := by
  rw [ok, hView.1]
  rfl

theorem View.endPos_eq
    (hView : View r w) :
    r.endPos = r.pos + w.length := by
  rcases hView with ⟨_, before, after, _, hPos, hEnd⟩
  rw [hPos, hEnd]

theorem View.remaining_eq
    (hView : View r w) :
    r.remaining = w.length := by
  rw [remaining, hView.endPos_eq]
  omega

theorem View.ofInput
    (input : Octets) :
    View (Reader.ofInput input) input :=
  ⟨rfl, [], [], by simp [Reader.ofInput], rfl,
    by simp [Reader.ofInput]⟩

/- Moving past a prefix leaves the rest in view. -/
theorem View.advance
    {b : Octets}
    (hView : View r (b ++ w)) :
    View (r.advance b.length) w := by
  rcases hView with ⟨hEc, before, after, hBuf, hPos, hEnd⟩
  refine ⟨hEc, before ++ b, after, ?_, ?_, ?_⟩
  · simpa [Reader.advance] using hBuf
  · simp [Reader.advance, hPos]
  · simp only [Reader.advance, hEnd, List.length_append]
    omega

theorem View.current_eq
    {b : UInt8}
    (hView : View r (b :: w)) :
    r.current = b := by
  rcases hView with ⟨_, before, after, hBuf, hPos, _⟩
  simp [Reader.current, hBuf, hPos, List.getD_eq_getElem?_getD]

theorem View.subspan_octets
    {b : Octets}
    (hView : View r (b ++ w)) :
    (r.subspan b.length).octets = b := by
  rcases hView with ⟨_, before, after, hBuf, hPos, _⟩
  simp [Reader.subspan, hBuf, hPos]

@[simp] theorem advance_advance
    (r : Reader)
    (m n : Nat) :
    (r.advance m).advance n = r.advance (m + n) := by
  simp [Reader.advance, Nat.add_assoc]

@[simp] theorem advance_zero
    (r : Reader) :
    r.advance 0 = r := rfl

@[simp] theorem advance_ec
    (r : Reader)
    (n : Nat) :
    (r.advance n).ec = r.ec := rfl

@[simp] theorem fail_isSome
    (r : Reader)
    (e : Errc) :
    (r.fail e).ec.isSome = true := rfl

theorem View.peekTag_cons
    {b : UInt8}
    (hView : View r (b :: w)) :
    r.peekTag = some b := by
  have hEnd := hView.endPos_eq
  rw [peekTag, if_neg, hView.current_eq]
  rintro (hEc | hPos)
  · simp [hView.isSome_eq] at hEc
  · rw [hEnd, List.length_cons] at hPos
    omega

theorem View.peekTag_nil
    (hView : View r []) :
    r.peekTag = none := by
  have hEnd := hView.endPos_eq
  rw [peekTag, if_pos]
  right
  simpa using hEnd.le

/- Only an empty view is finished. -/
theorem View.finish_eq
    (hView : View r w) :
    r.finish =
      if w = [] then (true, r)
      else (false, r.fail .trailingData) := by
  have hEnd := hView.endPos_eq
  rw [finish, if_neg (by simp [hView.isSome_eq])]
  by_cases hw : w = []
  · subst hw
    rw [if_neg (by simpa using hEnd.symm), if_pos rfl]
  · have hPos := List.length_pos_of_ne_nil hw
    rw [if_pos (by omega), if_neg hw]

end Reader

end Ber

end Snmpio

------------------------------------------------------------
-- Reads and Grammars
------------------------------------------------------------

namespace Snmpio

namespace Ber

namespace Reader

variable {α β γ : Type}

/-
  `read` takes exactly the prefixes `G` allows at its
  position: it returns a value only for one of them, it
  finds every one of them, it records an error otherwise,
  and after an error it does nothing.
-/
structure ReadsAt
    (G : Nat → Octets → α → Prop)
    (read : Reader → Option α × Reader) : Prop where
  sound :
    ∀ {r r' : Reader} {w : Octets} {x : α},
      View r w → read r = (some x, r') →
        ∃ b w', w = b ++ w' ∧ G r.pos b x ∧
          r' = r.advance b.length
  complete :
    ∀ {r : Reader} {b w : Octets} {x : α},
      View r (b ++ w) → G r.pos b x →
        read r = (some x, r.advance b.length)
  fails :
    ∀ {r r' : Reader} {w : Octets},
      View r w → read r = (none, r') → r'.ec.isSome
  sticky :
    ∀ {r : Reader}, r.ec.isSome → read r = (none, r)

/- The common case: the position does not matter. -/
abbrev Reads
    (G : Octets → α → Prop)
    (read : Reader → Option α × Reader) : Prop :=
  ReadsAt (fun _ => G) read

/-
  `body` reads what fills a scope.  It may stop early, which
  the scope's guard then reports, so a value only counts
  when the whole view was taken.
-/
structure Fills
    (G : Octets → α → Prop)
    (body : Reader → Option α × Reader) : Prop where
  sound :
    ∀ {r r' : Reader} {w : Octets} {x : α},
      View r w → body r = (some x, r') →
        ∃ k, k ≤ w.length ∧ r' = r.advance k ∧
          (k = w.length → G w x)
  complete :
    ∀ {r : Reader} {w : Octets} {x : α},
      View r w → G w x →
        body r = (some x, r.advance w.length)
  fails :
    ∀ {r r' : Reader} {w : Octets},
      View r w → body r = (none, r') → r'.ec.isSome
  sticky :
    ∀ {r : Reader}, r.ec.isSome → (body r).2 = r

/- A read that takes prefixes also fills scopes. -/
theorem Reads.fills
    {G : Octets → α → Prop}
    {read : Reader → Option α × Reader}
    (hReads : Reads G read) :
    Fills G read where
  sound := by
    intro r r' w x hView hRead
    rcases hReads.sound hView hRead with
      ⟨b, w', hw, hG, hr'⟩
    refine ⟨b.length, by simp [hw], hr', ?_⟩
    intro hLength
    have hNil : w' = [] := by
      rw [hw, List.length_append] at hLength
      exact List.eq_nil_of_length_eq_zero (by omega)
    rw [hw, hNil, List.append_nil]
    exact hG
  complete := by
    intro r w x hView hG
    exact hReads.complete (w := []) (by simpa using hView) hG
  fails := hReads.fails
  sticky := by
    intro r hEc
    rw [hReads.sticky hEc]

/- Whatever a read returns, an error means no value. -/
theorem ReadsAt.cases
    {G : Nat → Octets → α → Prop}
    {read : Reader → Option α × Reader}
    (hReads : ReadsAt G read)
    {r : Reader}
    {w : Octets}
    (hView : View r w) :
    (∃ x b w', w = b ++ w' ∧ G r.pos b x ∧
        read r = (some x, r.advance b.length)) ∨
      ∃ r', r'.ec.isSome ∧ read r = (none, r') := by
  rcases hRead : read r with ⟨result, r'⟩
  cases result with
  | none =>
      exact Or.inr ⟨r', hReads.fails hView hRead, rfl⟩
  | some x =>
      rcases hReads.sound hView hRead with
        ⟨b, w', hw, hG, hr'⟩
      exact Or.inl ⟨x, b, w', hw, hG, by rw [hr']⟩

/- Two reads in a row take one part after the other. -/
theorem both_readsAt
    {G : Nat → Octets → α → Prop}
    {H : Nat → Octets → β → Prop}
    {first : Reader → Option α × Reader}
    {second : Reader → Option β × Reader}
    (hFirst : ReadsAt G first)
    (hSecond : ReadsAt H second) :
    ReadsAt (SeqAt G H) (both first second) where
  sound := by
    intro r r' w x hView hRead
    rcases hFirst.cases hView with
      ⟨a, b₁, w₁, hw₁, hG, hA⟩ | ⟨r₁, hEc, hA⟩
    · subst hw₁
      rcases hSecond.cases hView.advance with
        ⟨c, b₂, w₂, hw₂, hH, hB⟩ | ⟨r₂, hEc, hB⟩
      · simp only [both, hA, hB, Prod.mk.injEq,
          Option.some.injEq] at hRead
        rcases hRead with ⟨hx, hr'⟩
        subst hx hw₂
        refine ⟨b₁ ++ b₂, w₂, by simp,
          ⟨b₁, b₂, rfl, hG, hH⟩, ?_⟩
        rw [← hr', advance_advance, List.length_append]
      · simp [both, hA, hB] at hRead
    · simp [both, hA] at hRead
  complete := by
    intro r b w x hView hG
    rcases hG with ⟨d₁, d₂, rfl, hG, hH⟩
    have hView₁ : View r (d₁ ++ (d₂ ++ w)) := by
      simpa using hView
    have hA := hFirst.complete hView₁ hG
    have hB := hSecond.complete hView₁.advance hH
    simp only [both, hA, hB, advance_advance,
      List.length_append]
  fails := by
    intro r r' w hView hRead
    rcases hFirst.cases hView with
      ⟨a, b₁, w₁, hw₁, hG, hA⟩ | ⟨r₁, hEc, hA⟩
    · subst hw₁
      rcases hSecond.cases hView.advance with
        ⟨c, b₂, w₂, hw₂, hH, hB⟩ | ⟨r₂, hEc, hB⟩
      · simp [both, hA, hB] at hRead
      · simp only [both, hA, hB, Prod.mk.injEq] at hRead
        rw [← hRead.2]
        exact hEc
    · simp only [both, hA, hSecond.sticky hEc,
        Prod.mk.injEq] at hRead
      rw [← hRead.2]
      exact hEc
  sticky := by
    intro r hEc
    simp only [both, hFirst.sticky hEc, hSecond.sticky hEc]

theorem both_reads
    {G : Octets → α → Prop}
    {H : Octets → β → Prop}
    {first : Reader → Option α × Reader}
    {second : Reader → Option β × Reader}
    (hFirst : Reads G first)
    (hSecond : Reads H second) :
    Reads (Seq G H) (both first second) :=
  both_readsAt hFirst hSecond

/- A read beside the position just past it. -/
theorem positioned_readsAt
    {G : Nat → Octets → α → Prop}
    {read : Reader → Option α × Reader}
    (hReads : ReadsAt G read) :
    ReadsAt
      (fun p d x => G p d x.1 ∧ x.2 = p + d.length)
      (positioned read) where
  sound := by
    intro r r' w x hView hRead
    rcases hReads.cases hView with
      ⟨y, b, w', hw, hG, hY⟩ | ⟨r₁, _, hY⟩
    · simp only [positioned, hY, Option.map_some,
        Prod.mk.injEq, Option.some.injEq] at hRead
      rcases hRead with ⟨rfl, rfl⟩
      exact ⟨b, w', hw, ⟨hG, rfl⟩, rfl⟩
    · simp [positioned, hY] at hRead
  complete := by
    rintro r b w ⟨y, q⟩ hView ⟨hG, rfl⟩
    simp only [positioned, hReads.complete hView hG]
    rfl
  fails := by
    intro r r' w hView hRead
    rcases hReads.cases hView with
      ⟨y, b, w', hw, hG, hY⟩ | ⟨r₁, hEc, hY⟩
    · simp [positioned, hY] at hRead
    · simp only [positioned, hY, Prod.mk.injEq] at hRead
      rw [← hRead.2]
      exact hEc
  sticky := by
    intro r hEc
    simp [positioned, hReads.sticky hEc]

/- Mapping the value maps the grammar. -/
theorem mapRead_reads
    {G : Octets → α → Prop}
    {H : Octets → β → Prop}
    {read : Reader → Option α × Reader}
    {f : α → β}
    (hReads : Reads G read)
    (hSound : ∀ d x, G d x → H d (f x))
    (hComplete : ∀ d y, H d y → ∃ x, y = f x ∧ G d x) :
    Reads H (fun r => mapRead f (read r)) where
  sound := by
    intro r r' w y hView hRead
    rcases hReads.cases hView with
      ⟨x, b, w', hw, hG, hX⟩ | ⟨r₁, _, hX⟩
    · simp only [mapRead, hX, Option.map_some,
        Prod.mk.injEq, Option.some.injEq] at hRead
      rcases hRead with ⟨rfl, rfl⟩
      exact ⟨b, w', hw, hSound b x hG, rfl⟩
    · simp [mapRead, hX] at hRead
  complete := by
    intro r b w y hView hH
    rcases hComplete b y hH with ⟨x, rfl, hG⟩
    simp [mapRead, hReads.complete hView hG]
  fails := by
    intro r r' w hView hRead
    rcases hReads.cases hView with
      ⟨x, b, w', hw, hG, hX⟩ | ⟨r₁, hEc, hX⟩
    · simp [mapRead, hX] at hRead
    · simp only [mapRead, hX, Prod.mk.injEq] at hRead
      rw [← hRead.2]
      exact hEc
  sticky := by
    intro r hEc
    simp [mapRead, hReads.sticky hEc]

/- An early return between two reads changes nothing. -/
theorem andThen_eq
    {G : Octets → α → Prop}
    {H : Octets → β → Prop}
    {first : Reader → Option α × Reader}
    {second : Reader → Option β × Reader}
    {make : α → β → γ}
    (hFirst : Reads G first)
    (hSecond : Reads H second)
    {r : Reader}
    {w : Octets}
    (hView : View r w) :
    andThen first second make r =
      mapRead (fun x => make x.1 x.2)
        (both first second r) := by
  unfold andThen both mapRead
  rcases hFirst.cases hView with
    ⟨x, b, w', rfl, hG, hX⟩ | ⟨r₁, hEc, hX⟩
  · rw [hX]
    simp only
    rcases second (r.advance b.length) with ⟨y, r₂⟩
    cases y <;> rfl
  · rw [hX]
    simp only [hSecond.sticky hEc]
    rfl

theorem andThen_reads
    {G : Octets → α → Prop}
    {H : Octets → β → Prop}
    {K : Octets → γ → Prop}
    {first : Reader → Option α × Reader}
    {second : Reader → Option β × Reader}
    {make : α → β → γ}
    (hFirst : Reads G first)
    (hSecond : Reads H second)
    (hIff :
      ∀ d z, (∃ x y, z = make x y ∧ Seq G H d (x, y)) ↔
        K d z) :
    Reads K (andThen first second make) := by
  have hReads :
      Reads K (fun r =>
        mapRead (fun x : α × β => make x.1 x.2)
          (both first second r)) := by
    apply mapRead_reads (both_reads hFirst hSecond)
    · intro d x hSeq
      exact (hIff d _).mp ⟨x.1, x.2, rfl, hSeq⟩
    · intro d z hK
      rcases (hIff d z).mpr hK with ⟨x, y, rfl, hSeq⟩
      exact ⟨(x, y), rfl, hSeq⟩
  constructor
  · intro r r' w z hView hRead
    rw [andThen_eq hFirst hSecond hView] at hRead
    exact hReads.sound hView hRead
  · intro r b w z hView hK
    rw [andThen_eq hFirst hSecond hView]
    exact hReads.complete hView hK
  · intro r r' w hView hRead
    rw [andThen_eq hFirst hSecond hView] at hRead
    exact hReads.fails hView hRead
  · intro r hEc
    simp [andThen, hFirst.sticky hEc]

end Reader

end Ber

end Snmpio

------------------------------------------------------------
-- Headers
------------------------------------------------------------

namespace Snmpio

namespace Ber

namespace Reader

open Octets

variable {b : UInt8} {r r' : Reader} {w : Octets}
variable {t : TagType} {h : Header}

/- The tag is in the low-tag-number form. -/
def LowTag
    (t : TagType) : Prop :=
  t &&& numberMask ≠ highTagNumberEscape

instance
    (t : TagType) :
    Decidable (LowTag t) :=
  inferInstanceAs (Decidable (¬ _ = _))

/- The long form's first octet and the count in it. -/
theorem longForm_count
    {k : Nat}
    (hb : b.toNat = 128 + k)
    (hk : k ≤ 4) :
    b.toNat &&& 0x7F = k := by
  rw [show (0x7F : Nat) = 2 ^ 7 - 1 from rfl,
    Nat.and_two_pow_sub_one_eq_mod]
  omega

theorem View.cons_advance
    (hView : View r (b :: w)) :
    View (r.advance 1) w :=
  View.advance (b := [b]) hView

/- A well-formed header is read as what it says. -/
theorem readHeader_complete
    {ls rest : Octets}
    {n : Nat}
    (hView : View r (t :: (ls ++ rest)))
    (hTag : LowTag t)
    (hLength : LengthForm n ls)
    (hFits : n ≤ rest.length) :
    r.readHeader =
      (some ⟨t, n⟩, r.advance (1 + ls.length)) := by
  have hView₁ := hView.cons_advance
  rcases hLength with ⟨b, hb, rfl, rfl⟩ |
    ⟨b, os, rfl, hb, hOne, hFour, rfl⟩
  · have hView₂ : View ((r.advance 1).advance 1) rest :=
      hView₁.cons_advance
    have hRoom : ¬ r.remaining < 2 := by
      rw [hView.remaining_eq]
      simp
    rw [readHeader, if_neg (by simp [hView.isSome_eq]),
      if_neg hRoom, hView.current_eq]
    simp only
    rw [if_neg hTag, hView₁.current_eq, if_pos hb,
      headerOf, if_neg (by rw [hView₂.remaining_eq]; omega)]
    simp
  · have hView₂ : View ((r.advance 1).advance 1)
        (os ++ rest) := hView₁.cons_advance
    have hView₃ := hView₂.advance
    have hRoom : ¬ r.remaining < 2 := by
      rw [hView.remaining_eq]
      simp
    have hCount := longForm_count hb hFour
    rw [readHeader, if_neg (by simp [hView.isSome_eq]),
      if_neg hRoom, hView.current_eq]
    simp only
    rw [if_neg hTag, hView₁.current_eq,
      if_neg (by omega), if_neg (by omega),
      if_neg (by omega), hCount, if_neg (by omega),
      if_neg (by rw [hView₂.remaining_eq]; simp),
      hView₂.subspan_octets, foldl_shift_or, headerOf,
      if_neg (by rw [hView₃.remaining_eq]; omega)]
    simp [Nat.add_comm, Nat.add_left_comm]

/- A header that cannot be read records an error. -/
theorem readHeader_fails
    (hView : View r w)
    (hRead : r.readHeader = (none, r')) :
    r'.ec.isSome := by
  have hSimp := hView.isSome_eq
  unfold readHeader headerOf at hRead
  simp only [hSimp] at hRead
  grind [fail_isSome]

/- The last check: the content has to fit the view. -/
theorem headerOf_sound
    {n : Nat}
    (hView : View r w)
    (hRead : r.headerOf t n = (some h, r')) :
    h = ⟨t, n⟩ ∧ n ≤ w.length ∧ r' = r := by
  unfold headerOf at hRead
  rw [hView.remaining_eq] at hRead
  split at hRead
  · simp at hRead
  · next hFits =>
    simp only [Prod.mk.injEq, Option.some.injEq] at hRead
    exact ⟨hRead.1.symm, by omega, hRead.2.symm⟩

/- The long form, once its count octet `b` was accepted. -/
theorem readHeader_long
    {rest : Octets}
    (hTag : LowTag t)
    (hView : View ((r.advance 1).advance 1) rest)
    (hRead :
      (((r.advance 1).advance 1).advance
          (b.toNat - 128)).headerOf t
        ((((r.advance 1).advance 1).subspan
          (b.toNat - 128)).octets.foldl
            (fun n c => (n <<< 8) ||| c.toNat) 0) =
          (some h, r'))
    (hLong : 128 < b.toNat)
    (hFour : b.toNat ≤ 132)
    (hEnough : b.toNat - 128 ≤ rest.length) :
    ∃ ls rest',
      t :: b :: rest = h.tag :: (ls ++ rest') ∧
        LowTag h.tag ∧ LengthForm h.length ls ∧
        h.length ≤ rest'.length ∧
        r' = r.advance (1 + ls.length) := by
  -- Split the view after the length octets.
  obtain ⟨os, rest', rfl, hOs⟩ :
      ∃ os rest', rest = os ++ rest' ∧
        os.length = b.toNat - 128 :=
    ⟨rest.take (b.toNat - 128), rest.drop (b.toNat - 128),
      by simp, by simpa using hEnough⟩
  rw [← hOs, hView.subspan_octets, foldl_shift_or,
    Nat.zero_mul, Nat.zero_add] at hRead
  rcases headerOf_sound hView.advance hRead with
    ⟨rfl, hFits, rfl⟩
  refine ⟨b :: os, rest', rfl, hTag,
    Or.inr ⟨b, os, rfl, by omega, by omega, by omega, rfl⟩,
    hFits, ?_⟩
  simp [Nat.add_comm, Nat.add_left_comm]

/- Whatever is read as a header was one. -/
theorem readHeader_sound
    (hView : View r w)
    (hRead : r.readHeader = (some h, r')) :
    ∃ ls rest,
      w = h.tag :: (ls ++ rest) ∧ LowTag h.tag ∧
        LengthForm h.length ls ∧
        h.length ≤ rest.length ∧
        r' = r.advance (1 + ls.length) := by
  have hEc := hView.isSome_eq
  cases w with
  | nil =>
      simp [readHeader, hEc, hView.remaining_eq] at hRead
  | cons t w =>
      cases w with
      | nil =>
          simp [readHeader, hEc, hView.remaining_eq]
            at hRead
      | cons b rest =>
          have hView₁ := hView.cons_advance
          have hView₂ := hView₁.cons_advance
          have hRoom : ¬ r.remaining < 2 := by
            rw [hView.remaining_eq]
            simp
          rw [readHeader, if_neg (by simp [hEc]),
            if_neg hRoom, hView.current_eq] at hRead
          simp only at hRead
          by_cases hTag : LowTag t
          · rw [if_neg hTag, hView₁.current_eq] at hRead
            by_cases hShort : b.toNat < 0x80
            · rw [if_pos hShort] at hRead
              rcases headerOf_sound hView₂ hRead with
                ⟨rfl, hFits, rfl⟩
              exact ⟨[b], rest, rfl, hTag,
                Or.inl ⟨b, hShort, rfl, rfl⟩, hFits,
                by simp⟩
            · rw [if_neg hShort] at hRead
              split at hRead
              · simp at hRead
              · next hIndefinite =>
                split at hRead
                · simp at hRead
                · next hReserved =>
                  have hCount :
                      b.toNat &&& 0x7F = b.toNat - 128 := by
                    rw [show (0x7F : Nat) = 2 ^ 7 - 1
                        from rfl,
                      Nat.and_two_pow_sub_one_eq_mod]
                    have := b.toNat_lt
                    omega
                  rw [hCount] at hRead
                  split at hRead
                  · simp at hRead
                  · next hFour =>
                    split at hRead
                    · simp at hRead
                    · next hEnough =>
                      rw [hView₂.remaining_eq] at hEnough
                      exact readHeader_long hTag hView₂
                        hRead (by omega) (by omega)
                        (by omega)
          · have hEscape :
                t &&& numberMask =
                  highTagNumberEscape := by
              unfold LowTag at hTag
              tauto
            rw [if_pos hEscape] at hRead
            simp at hRead

end Reader

end Ber

end Snmpio
