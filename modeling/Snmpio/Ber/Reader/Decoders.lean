import Snmpio.Ber.Reader.Elements

/-
  Decoders that return early, composed from reads.

  `Takes G decode` is `Reads` for a decoder that stops at
  its first fault, and `Sticky decode` says that a recorded
  error stops it.  The grammar of a sequence of statements
  is built statement by statement.

  Key definitions include:
    * `Ber.Reader.Takes`
    * `Ber.Reader.Sticky`
    * `Ber.Reader.Then`

  Key theorems include:
    * `Ber.Reader.Takes.bind`
    * `Ber.Reader.inElement_takes`
    * `Ber.Reader.wholeElement_iff`
-/

------------------------------------------------------------
-- Sequences of Statements
------------------------------------------------------------

namespace Snmpio

namespace Ber

namespace Reader

variable {α β : Type}

/- `decode` takes exactly the prefixes `G` allows. -/
structure Takes
    (G : Nat → Octets → α → Prop)
    (decode : Reader → Except Fault (α × Reader)) :
    Prop where
  sound :
    ∀ {r r' : Reader} {w : Octets} {x : α},
      View r w → decode r = .ok (x, r') →
        ∃ b w', w = b ++ w' ∧ G r.pos b x ∧
          r' = r.advance b.length
  complete :
    ∀ {r : Reader} {b w : Octets} {x : α},
      View r (b ++ w) → G r.pos b x →
        decode r = .ok (x, r.advance b.length)
  fails :
    ∀ {r : Reader} {w : Octets} {ec : Fault},
      View r w → decode r = .error ec → ec.isSome

/- A recorded error stops the decoder, with an error. -/
def Sticky
    (decode : Reader → Except Fault (α × Reader)) : Prop :=
  ∀ r : Reader, r.ec.isSome →
    ∃ e, decode r = .error (some e)

/- One part, then a part that may depend on its value. -/
def Then
    (G : Nat → Octets → α → Prop)
    (H : α → Nat → Octets → β → Prop)
    (p : Nat)
    (d : Octets)
    (y : β) : Prop :=
  ∃ d₁ d₂ x, d = d₁ ++ d₂ ∧ G p d₁ x ∧
    H x (p + d₁.length) d₂ y

/- A view that is all of one part is taken whole. -/
theorem Takes.complete_all
    {G : Nat → Octets → α → Prop}
    {decode : Reader → Except Fault (α × Reader)}
    (hTakes : Takes G decode)
    {r : Reader}
    {w : Octets}
    {x : α}
    (hView : View r w)
    (hG : G r.pos w x) :
    decode r = .ok (x, r.advance w.length) := by
  have hView' : View r (w ++ []) := by
    simpa using hView
  exact hTakes.complete hView' hG

theorem ReadsAt.takes
    {G : Nat → Octets → α → Prop}
    {read : Reader → Option α × Reader}
    (hReads : ReadsAt G read) :
    Takes G (fun r => orError (read r)) where
  sound := by
    intro r r' w x hView hDecode
    rcases hReads.cases hView with
      ⟨y, b, w', hw, hG, hRead⟩ | ⟨r₁, _, hRead⟩
    · simp only [hRead, orError, Except.ok.injEq,
        Prod.mk.injEq] at hDecode
      rcases hDecode with ⟨rfl, rfl⟩
      exact ⟨b, w', hw, hG, rfl⟩
    · simp [hRead, orError] at hDecode
  complete := by
    intro r b w x hView hG
    simp only [hReads.complete hView hG, orError]
  fails := by
    intro r w ec hView hDecode
    rcases hReads.cases hView with
      ⟨y, b, w', hw, hG, hRead⟩ | ⟨r₁, hEc, hRead⟩
    · simp [hRead, orError] at hDecode
    · simp only [hRead, orError, Except.error.injEq]
        at hDecode
      rw [← hDecode]
      exact hEc

theorem ReadsAt.sticky_orError
    {G : Nat → Octets → α → Prop}
    {read : Reader → Option α × Reader}
    (hReads : ReadsAt G read) :
    Sticky (fun r => orError (read r)) := by
  intro r hEc
  rcases Option.isSome_iff_exists.mp hEc with ⟨e, he⟩
  exact ⟨e, by simp [hReads.sticky hEc, orError, he]⟩

theorem Takes.pure
    (x : α) :
    Takes (fun _ d y => d = [] ∧ y = x)
      (fun r => .ok (x, r)) where
  sound := by
    intro r r' w y hView hDecode
    simp only [Except.ok.injEq, Prod.mk.injEq] at hDecode
    rcases hDecode with ⟨rfl, rfl⟩
    exact ⟨[], w, rfl, ⟨rfl, rfl⟩, rfl⟩
  complete := by
    rintro r b w y hView ⟨rfl, rfl⟩
    rfl
  fails := by
    intro r w ec hView hDecode
    simp at hDecode

/- Statements in a row take their parts in a row. -/
theorem Takes.bind
    {G : Nat → Octets → α → Prop}
    {H : α → Nat → Octets → β → Prop}
    {first : Reader → Except Fault (α × Reader)}
    {next : α → Reader → Except Fault (β × Reader)}
    (hFirst : Takes G first)
    (hNext : ∀ x, Takes (H x) (next x)) :
    Takes (Then G H)
      (fun r => first r >>= fun y => next y.1 y.2) where
  sound := by
    intro r r' w y hView hDecode
    cases hCase : first r with
    | error ec => simp [hCase, Bind.bind, Except.bind]
        at hDecode
    | ok p =>
        rcases hFirst.sound hView hCase with
          ⟨b₁, w₁, rfl, hG, hr₁⟩
        simp only [hCase, Bind.bind, Except.bind]
          at hDecode
        rw [hr₁] at hDecode
        rcases (hNext p.1).sound hView.advance hDecode with
          ⟨b₂, w₂, rfl, hH, rfl⟩
        refine ⟨b₁ ++ b₂, w₂, by simp,
          ⟨b₁, b₂, p.1, rfl, hG, hH⟩, ?_⟩
        rw [advance_advance, List.length_append]
  complete := by
    rintro r b w y hView ⟨d₁, d₂, x, rfl, hG, hH⟩
    have hView₁ : View r (d₁ ++ (d₂ ++ w)) := by
      simpa using hView
    have hFirst' := hFirst.complete hView₁ hG
    have hNext' := (hNext x).complete hView₁.advance hH
    simp only [hFirst', Bind.bind, Except.bind, hNext',
      advance_advance, List.length_append]
  fails := by
    intro r w ec hView hDecode
    cases hCase : first r with
    | error ec' =>
        simp only [hCase, Bind.bind, Except.bind,
          Except.error.injEq] at hDecode
        rw [← hDecode]
        exact hFirst.fails hView hCase
    | ok p =>
        rcases hFirst.sound hView hCase with
          ⟨b₁, w₁, rfl, _, hr₁⟩
        simp only [hCase, Bind.bind, Except.bind]
          at hDecode
        rw [hr₁] at hDecode
        exact (hNext p.1).fails hView.advance hDecode

/- A statement that does not touch the reader. -/
theorem Takes.lift
    {H : α → Nat → Octets → β → Prop}
    {result : Except Fault α}
    {next : α → Reader → Except Fault (β × Reader)}
    (hFails : ∀ ec, result = .error ec → ec.isSome)
    (hNext : ∀ x, Takes (H x) (next x)) :
    Takes (fun p d y => ∃ x, result = .ok x ∧ H x p d y)
      (fun r => result >>= fun x => next x r) := by
  cases result with
  | error ec =>
      exact
        { sound := by
            intro r r' w x hView hDecode
            simp [Bind.bind, Except.bind] at hDecode
          complete := by
            rintro r b w y hView ⟨x, hOk, _⟩
            cases hOk
          fails := by
            intro r w ec' hView hDecode
            simp only [Bind.bind, Except.bind,
              Except.error.injEq] at hDecode
            rw [← hDecode]
            exact hFails ec rfl }
  | ok x =>
      exact
        { sound := by
            intro r r' w y hView hDecode
            rcases (hNext x).sound hView hDecode with
              ⟨b, w', hw, hH, hr'⟩
            exact ⟨b, w', hw, ⟨x, rfl, hH⟩, hr'⟩
          complete := by
            rintro r b w y hView ⟨x', hOk, hH⟩
            cases hOk
            exact (hNext x).complete hView hH
          fails := by
            intro r w ec hView hDecode
            exact (hNext x).fails hView hDecode }

/- A block stops where its first statement does. -/
theorem Sticky.first
    {first : Reader → Except Fault (α × Reader)}
    {body : Reader → Except Fault (β × Reader)}
    (hFirst : Sticky first)
    (hBody : ∀ r ec, first r = .error ec → body r = .error ec) :
    Sticky body := by
  intro r hEc
  rcases hFirst r hEc with ⟨e, he⟩
  exact ⟨e, hBody r _ he⟩

/- A check between two statements. -/
theorem Takes.check
    {G : Nat → Octets → α → Prop}
    {decode : Reader → Except Fault (α × Reader)}
    {c : Prop}
    [Decidable c]
    {e : Errc}
    (hTakes : ¬ c → Takes G decode) :
    Takes (fun p d x => ¬ c ∧ G p d x)
      (fun r => if c then throw (some e) else decode r) := by
  by_cases hc : c
  · simp only [if_pos hc]
    exact
      { sound := by
          intro r r' w x hView hDecode
          exact absurd hDecode (by
            simp [throw, throwThe, MonadExceptOf.throw])
        complete := by
          rintro r b w x hView ⟨hNot, _⟩
          exact absurd hc hNot
        fails := by
          intro r w ec hView hDecode
          simp only [throw, throwThe, MonadExceptOf.throw,
            Except.error.injEq] at hDecode
          rw [← hDecode]
          rfl }
  · simp only [if_neg hc]
    exact
      { sound := by
          intro r r' w x hView hDecode
          rcases (hTakes hc).sound hView hDecode with
            ⟨b, w', hw, hG, hr'⟩
          exact ⟨b, w', hw, ⟨hc, hG⟩, hr'⟩
        complete := by
          rintro r b w x hView ⟨_, hG⟩
          exact (hTakes hc).complete hView hG
        fails := (hTakes hc).fails }

/- A grammar may be replaced by an equivalent one. -/
theorem Takes.congr
    {G H : Nat → Octets → α → Prop}
    {decode : Reader → Except Fault (α × Reader)}
    (hTakes : Takes G decode)
    (hIff : ∀ p d x, G p d x ↔ H p d x) :
    Takes H decode := by
  have hEq : G = H := by
    funext p d x
    exact propext (hIff p d x)
  rw [← hEq]
  exact hTakes

end Reader

end Ber

end Snmpio

------------------------------------------------------------
-- Blocks
------------------------------------------------------------

namespace Snmpio

namespace Ber

namespace Reader

variable {α : Type} {t : TagType}

theorem not_ok_of_error
    {r : Reader}
    (hEc : r.ec.isSome) :
    r.ok = false := by
  rw [ok]
  cases hCase : r.ec with
  | none => simp [hCase] at hEc
  | some e => rfl

/- What a block finds when it is entered, run and left. -/
theorem enter_body_cases
    {G : Nat → Octets → α → Prop}
    {body : Reader → Except Fault (α × Reader)}
    {r : Reader}
    {w : Octets}
    (hTakes : Takes G body)
    (hSticky : Sticky body)
    (hView : View r w) :
    (∃ ls content after x r',
        w = t :: (ls ++ (content ++ after)) ∧
          LengthForm content.length ls ∧
          G (r.pos + (1 + ls.length)) content x ∧
          body (r.enter t).2 = .ok (x, r') ∧
          (r.enter t).1.close r' =
            r.advance (1 + ls.length + content.length)) ∨
      (∃ x r', body (r.enter t).2 = .ok (x, r') ∧
        ((r.enter t).1.close r').ec.isSome) ∨
      ∃ e, body (r.enter t).2 = .error (some e) := by
  rcases enter_cases (t := t) hView with
    ⟨ls, content, after, rfl, hLength, hEnter⟩ | hEc
  · have hInside := hView.within_element
    cases hBody :
        body (r.within (1 + ls.length) content.length) with
    | error ec =>
        right; right
        rcases Option.isSome_iff_exists.mp
          (hTakes.fails hInside hBody) with ⟨e, rfl⟩
        exact ⟨e, by rw [hEnter]; exact hBody⟩
    | ok p =>
        rcases p with ⟨x, r'⟩
        rcases hTakes.sound hInside hBody with
          ⟨b, rest, hContent, hG, rfl⟩
        rw [hEnter]
        by_cases hRest : rest = []
        · left
          have hAll : b = content := by
            simp [hContent, hRest]
          subst hAll
          exact ⟨ls, b, after, x, _, rfl, hLength, hG,
            hBody, close_all r _ _⟩
        · right; left
          have hPos := List.length_pos_of_ne_nil hRest
          have hEarly : b.length ≠ content.length := by
            rw [hContent, List.length_append]
            omega
          exact ⟨x, _, hBody, close_early hView hEarly⟩
  · right; right
    exact hSticky _ hEc

/- A block takes an element filled by its body's grammar. -/
theorem inElement_takes
    {G : Nat → Octets → α → Prop}
    {body : Reader → Except Fault (α × Reader)}
    (hTag : ConstructedTag t)
    (hTakes : Takes G body)
    (hSticky : Sticky body) :
    Takes (ElementAt t G) (inElement t body) where
  sound := by
    intro r r' w x hView hDecode
    unfold inElement at hDecode
    rcases enter_body_cases (t := t) hTakes hSticky hView
      with ⟨ls, content, after, y, r₁, rfl, hLength, hG,
          hBody, hClose⟩ | ⟨y, r₁, hBody, hEc⟩ | ⟨e, hBody⟩
    · have hOk :
          (r.advance
            (1 + ls.length + content.length)).ok = true :=
        hView.ok_eq
      simp only [hBody, Bind.bind, Except.bind, hClose, hOk,
        not_true_eq_false, if_false] at hDecode
      simp only [Pure.pure, Except.pure, Except.ok.injEq,
        Prod.mk.injEq] at hDecode
      rcases hDecode with ⟨rfl, rfl⟩
      refine ⟨t :: (ls ++ content), after, by simp,
        ⟨ls, content, rfl, hLength, hG⟩, ?_⟩
      rw [element_length]
    · simp [hBody, Bind.bind, Except.bind,
        not_ok_of_error hEc, throw, throwThe,
        MonadExceptOf.throw] at hDecode
    · simp [hBody, Bind.bind, Except.bind] at hDecode
  complete := by
    rintro r b w x hView ⟨ls, content, rfl, hLength, hG⟩
    have hView' : View r (t :: (ls ++ (content ++ w))) := by
      simpa using hView
    have hBody :
        body (r.within (1 + ls.length) content.length) =
          .ok (x, (r.within (1 + ls.length)
            content.length).advance content.length) :=
      hTakes.complete_all hView'.within_element hG
    have hOk :
        (r.advance
          (1 + ls.length + content.length)).ok = true :=
      hView.ok_eq
    simp only [inElement, enter_complete hView' hTag hLength,
      hBody, Bind.bind, Except.bind, close_all, hOk,
      not_true_eq_false, if_false, element_length]
    rfl
  fails := by
    intro r w ec hView hDecode
    unfold inElement at hDecode
    rcases enter_body_cases (t := t) hTakes hSticky hView
      with ⟨ls, content, after, y, r₁, rfl, hLength, hG,
          hBody, hClose⟩ | ⟨y, r₁, hBody, hEc⟩ | ⟨e, hBody⟩
    · have hOk :
          (r.advance
            (1 + ls.length + content.length)).ok = true :=
        hView.ok_eq
      simp [hBody, Bind.bind, Except.bind, hClose, hOk,
        Pure.pure, Except.pure] at hDecode
    · simp only [hBody, Bind.bind, Except.bind,
        not_ok_of_error hEc, throw, throwThe,
        MonadExceptOf.throw, Bool.false_eq_true,
        not_false_eq_true, if_true, Except.error.injEq]
        at hDecode
      rw [← hDecode]
      exact hEc
    · simp only [hBody, Bind.bind, Except.bind,
        Except.error.injEq] at hDecode
      rw [← hDecode]
      rfl

/- The outermost block accepts an input that is one element. -/
theorem wholeElement_iff
    {G : Nat → Octets → α → Prop}
    {body : Reader → Except Fault (α × Reader)}
    (hTag : ConstructedTag t)
    (hTakes : Takes G body)
    (hSticky : Sticky body)
    (input : Octets)
    (x : α) :
    wholeElement t body input = .ok x ↔
      ElementAt t G 0 input x := by
  have hView := View.ofInput input
  constructor
  · intro hDecode
    unfold wholeElement at hDecode
    rcases enter_body_cases (t := t) hTakes hSticky hView
      with ⟨ls, content, after, y, r₁, hInput, hLength, hG,
          hBody, hClose⟩ | ⟨y, r₁, hBody, hEc⟩ | ⟨e, hBody⟩
    · have hAfter :
          View ((Reader.ofInput input).advance
            (1 + ls.length + content.length)) after := by
        have hSplit :
            View (Reader.ofInput input)
              (t :: (ls ++ content) ++ after) := by
          simpa [← hInput] using hView
        simpa only [element_length] using hSplit.advance
      simp only [hBody, Bind.bind, Except.bind, hClose,
        hAfter.finish_eq] at hDecode
      by_cases hNil : after = []
      · subst hNil
        simp only [if_true, Pure.pure, Except.pure,
          Except.ok.injEq] at hDecode
        subst hDecode
        exact ⟨ls, content, by simpa using hInput, hLength,
          hG⟩
      · simp [hNil, throw, throwThe, MonadExceptOf.throw]
          at hDecode
    · simp [hBody, Bind.bind, Except.bind, finish, hEc,
        throw, throwThe, MonadExceptOf.throw] at hDecode
    · simp [hBody, Bind.bind, Except.bind] at hDecode
  · rintro ⟨ls, content, hInput, hLength, hG⟩
    have hView' :
        View (Reader.ofInput input)
          (t :: (ls ++ (content ++ []))) := by
      simpa [← hInput] using hView
    have hBody :
        body ((Reader.ofInput input).within (1 + ls.length)
          content.length) =
          .ok (x, ((Reader.ofInput input).within
            (1 + ls.length) content.length).advance
              content.length) :=
      hTakes.complete_all hView'.within_element hG
    have hAfter :
        View ((Reader.ofInput input).advance
          (1 + ls.length + content.length)) [] := by
      have hSplit :
          View (Reader.ofInput input)
            (t :: (ls ++ content) ++ []) := by
        simpa using hView'
      simpa only [element_length] using hSplit.advance
    simp only [wholeElement,
      enter_complete hView' hTag hLength, hBody, Bind.bind,
      Except.bind, close_all, hAfter.finish_eq, if_true]
    rfl

/- A decoder succeeds with an error code that is clear. -/
theorem resultAndError_eq_iff
    (result : Except Fault α)
    (x : α) :
    resultAndError result = (some x, none) ↔
      result = .ok x := by
  cases result with
  | error ec => simp [resultAndError]
  | ok y => simp [resultAndError]

/- A refused input leaves an error behind. -/
theorem wholeElement_error
    {G : Nat → Octets → α → Prop}
    {body : Reader → Except Fault (α × Reader)}
    {input : Octets}
    {ec : Fault}
    (hTakes : Takes G body)
    (hSticky : Sticky body)
    (hDecode : wholeElement t body input = .error ec) :
    ec.isSome := by
  have hView := View.ofInput input
  unfold wholeElement at hDecode
  rcases enter_body_cases (t := t) hTakes hSticky hView
    with ⟨ls, content, after, y, r₁, hInput, hLength, hG,
        hBody, hClose⟩ | ⟨y, r₁, hBody, hEc⟩ | ⟨e, hBody⟩
  · have hAfter :
        View ((Reader.ofInput input).advance
          (1 + ls.length + content.length)) after := by
      have hSplit :
          View (Reader.ofInput input)
            (t :: (ls ++ content) ++ after) := by
        simpa [← hInput] using hView
      simpa only [element_length] using hSplit.advance
    simp only [hBody, Bind.bind, Except.bind, hClose,
      hAfter.finish_eq] at hDecode
    by_cases hNil : after = []
    · simp [hNil, Pure.pure, Except.pure] at hDecode
    · simp only [hNil, if_false, throw, throwThe,
        MonadExceptOf.throw, Except.error.injEq] at hDecode
      rw [← hDecode]
      rfl
  · simp only [hBody, Bind.bind, Except.bind, finish, hEc,
      if_true, throw, throwThe, MonadExceptOf.throw,
      Except.error.injEq] at hDecode
    rw [← hDecode]
    exact hEc
  · simp only [hBody, Bind.bind, Except.bind,
      Except.error.injEq] at hDecode
    rw [← hDecode]
    rfl

end Reader

end Ber

end Snmpio
