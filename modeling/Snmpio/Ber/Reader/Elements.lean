import Snmpio.Ber.Reader.View

/-
  Whole elements: a primitive element is read into its
  content, a constructed one through a scope.

  Key definitions include:
    * `Ber.Reader.contentRead`
    * `Ber.Reader.within`

  Key theorems include:
    * `Ber.Reader.primitiveContent_sound`
    * `Ber.Reader.primitiveContent_complete`
    * `Ber.Reader.contentRead_reads`
    * `Ber.Reader.enter_cases`
    * `Ber.Reader.inScope_reads`
-/

------------------------------------------------------------
-- Primitive Elements
------------------------------------------------------------

namespace Snmpio

namespace Ber

namespace Reader

variable {r : Reader} {w : Octets} {t : TagType}

/- A tag `primitiveContent` can be asked for. -/
def PrimitiveTag
    (t : TagType) : Prop :=
  LowTag t ∧ isConstructed t = false

instance
    (t : TagType) :
    Decidable (PrimitiveTag t) :=
  inferInstanceAs (Decidable (_ ∧ _))

theorem View.subspan_eq
    {b : Octets}
    (hView : View r (b ++ w)) :
    r.subspan b.length = ⟨r.pos, b⟩ := by
  have hOctets := hView.subspan_octets
  unfold Reader.subspan at hOctets ⊢
  rw [show List.take b.length (List.drop r.pos r.buf) = b
    from hOctets]

theorem element_length
    (t : TagType)
    (ls content : Octets) :
    (t :: (ls ++ content)).length =
      1 + ls.length + content.length := by
  simp only [List.length_cons, List.length_append]
  omega

/- An element is longer than the octets it carries. -/
theorem element_content_le
    {d v : Octets}
    (hElement : Element t OctetsContent d v) :
    v.length ≤ d.length := by
  rcases hElement with ⟨ls, content, rfl, _, rfl⟩
  rw [element_length]
  omega

theorem primitiveContent_complete
    {ls content : Octets}
    (hView : View r (t :: (ls ++ (content ++ w))))
    (hTag : PrimitiveTag t)
    (hLength : LengthForm content.length ls) :
    r.primitiveContent t =
      (some ⟨r.pos + (1 + ls.length), content⟩,
        r.advance (1 + ls.length + content.length)) := by
  have hHeader :=
    readHeader_complete hView hTag.1 hLength (by simp)
  have hInside :
      View (r.advance (1 + ls.length)) (content ++ w) := by
    have hSplit : View r ((t :: ls) ++ (content ++ w)) := by
      simpa using hView
    simpa [Nat.add_comm] using hSplit.advance
  rw [primitiveContent, if_neg (by simp [hView.isSome_eq]),
    hView.peekTag_cons]
  simp only
  rw [if_neg (by simp), if_neg (by simp [hTag.2]), hHeader]
  simp only [hInside.subspan_eq, advance_advance]
  rfl

theorem primitiveContent_fails
    {r' : Reader}
    (hView : View r w)
    (hRead : r.primitiveContent t = (none, r')) :
    r'.ec.isSome := by
  rw [primitiveContent, if_neg (by simp [hView.isSome_eq])]
    at hRead
  split at hRead
  · simp only [Prod.mk.injEq] at hRead
    simp [← hRead.2]
  · split at hRead
    · simp only [Prod.mk.injEq] at hRead
      simp [← hRead.2]
    · split at hRead
      · simp only [Prod.mk.injEq] at hRead
        simp [← hRead.2]
      · split at hRead
        · next hHeader =>
          simp only [Prod.mk.injEq] at hRead
          rw [← hRead.2]
          exact readHeader_fails hView hHeader
        · simp at hRead

/- The content of an accepted header, cut from the view. -/
theorem primitiveContent_split
    {ls rest : Octets}
    {n : Nat}
    (hView : View r (t :: (ls ++ rest)))
    (hLength : LengthForm n ls)
    (hFits : n ≤ rest.length) :
    ∃ ls' content w',
      t :: (ls ++ rest) = t :: (ls' ++ (content ++ w')) ∧
        LengthForm content.length ls' ∧
        (r.advance (1 + ls.length)).subspan n =
          ⟨r.pos + (1 + ls'.length), content⟩ ∧
        (r.advance (1 + ls.length)).advance n =
          r.advance (1 + ls'.length + content.length) := by
  obtain ⟨content, w', rfl, rfl⟩ :
      ∃ content w', rest = content ++ w' ∧
        content.length = n :=
    ⟨rest.take n, rest.drop n, by simp,
      by simpa using hFits⟩
  have hInside :
      View (r.advance (1 + ls.length)) (content ++ w') := by
    have hSplit : View r ((t :: ls) ++ (content ++ w')) := by
      simpa using hView
    simpa [Nat.add_comm] using hSplit.advance
  exact ⟨ls, content, w', rfl, hLength,
    hInside.subspan_eq, advance_advance _ _ _⟩

theorem primitiveContent_sound
    {r' : Reader}
    {s : Span}
    (hView : View r w)
    (hRead : r.primitiveContent t = (some s, r')) :
    ∃ ls content w',
      w = t :: (ls ++ (content ++ w')) ∧
        LengthForm content.length ls ∧
        s = ⟨r.pos + (1 + ls.length), content⟩ ∧
        r' = r.advance
          (1 + ls.length + content.length) := by
  have hEc := hView.isSome_eq
  cases w with
  | nil =>
      simp [primitiveContent, hEc, hView.peekTag_nil]
        at hRead
  | cons b rest =>
      rw [primitiveContent, if_neg (by simp [hEc]),
        hView.peekTag_cons] at hRead
      simp only at hRead
      split at hRead
      · simp at hRead
      · next hTag =>
        split at hRead
        · simp at hRead
        · next hPrimitive =>
          rcases hHeader : r.readHeader with ⟨result, r₁⟩
          cases result with
          | none => simp [hHeader] at hRead
          | some h =>
              rcases readHeader_sound hView hHeader with
                ⟨ls, rest', hw, hLow, hLength, hFits, rfl⟩
              simp only [hHeader, Prod.mk.injEq,
                Option.some.injEq] at hRead
              rcases hRead with ⟨rfl, rfl⟩
              simp only [List.cons.injEq] at hw
              rcases hw with ⟨rfl, rfl⟩
              have hExpected : h.tag = t := by
                simpa using hTag
              subst hExpected
              exact primitiveContent_split hView hLength
                hFits

/- A borrowed content knows where it starts. -/
theorem octetStringView_readsAt
    (hTag : PrimitiveTag t) :
    ReadsAt
      (ElementAt t (fun p content s => s = ⟨p, content⟩))
      (fun r => r.octetStringView t) where
  sound := by
    intro r r' w s hView hRead
    rcases primitiveContent_sound hView hRead with
      ⟨ls, content, w', hw, hLength, hs, hr'⟩
    refine ⟨t :: (ls ++ content), w', by simp [hw],
      ⟨ls, content, rfl, hLength, hs⟩, ?_⟩
    rw [hr', element_length]
  complete := by
    rintro r b w s hView ⟨ls, content, rfl, hLength, rfl⟩
    rw [element_length]
    apply primitiveContent_complete _ hTag hLength
    · exact w
    · simpa using hView
  fails := primitiveContent_fails
  sticky := by
    intro r hEc
    simp [octetStringView, primitiveContent, hEc]

/- A read of a primitive element that decodes its content. -/
def contentRead
    {α : Type}
    (t : TagType)
    (decode : Octets → Except Errc α)
    (r : Reader) : Option α × Reader :=
  match r.primitiveContent t with
  | (none, r) => (none, r)
  | (some content, r) =>
      match decode content.octets with
      | .error e => (none, r.fail e)
      | .ok x => (some x, r)

/-
  Reading a primitive element follows the grammar of its
  content as soon as the content decoder does.
-/
theorem contentRead_reads
    {α : Type}
    {decode : Octets → Except Errc α}
    {G : Octets → α → Prop}
    (hTag : PrimitiveTag t)
    (hDecode : ∀ c x, decode c = .ok x ↔ G c x) :
    Reads (Element t G) (contentRead t decode) where
  sound := by
    intro r r' w x hView hRead
    rcases hContent : r.primitiveContent t with ⟨result, r₁⟩
    cases result with
    | none => simp [contentRead, hContent] at hRead
    | some s =>
        rcases primitiveContent_sound hView hContent with
          ⟨ls, content, w', hw, hLength, rfl, rfl⟩
        simp only [contentRead, hContent] at hRead
        split at hRead
        · simp at hRead
        · next y hOk =>
          simp only [Prod.mk.injEq, Option.some.injEq]
            at hRead
          rcases hRead with ⟨rfl, rfl⟩
          refine ⟨t :: (ls ++ content), w', by simp [hw],
            ⟨ls, content, rfl, hLength,
              (hDecode _ _).mp hOk⟩, ?_⟩
          rw [element_length]
  complete := by
    intro r b w x hView hG
    rcases hG with ⟨ls, content, rfl, hLength, hContent⟩
    have hRead :=
      primitiveContent_complete (w := w)
        (by simpa using hView) hTag hLength
    rw [contentRead, hRead]
    simp only [(hDecode _ _).mpr hContent, element_length]
  fails := by
    intro r r' w hView hRead
    rcases hContent : r.primitiveContent t with ⟨result, r₁⟩
    cases result with
    | none =>
        simp only [contentRead, hContent, Prod.mk.injEq]
          at hRead
        rw [← hRead.2]
        exact primitiveContent_fails hView hContent
    | some s =>
        simp only [contentRead, hContent] at hRead
        split at hRead
        · simp only [Prod.mk.injEq] at hRead
          simp [← hRead.2]
        · simp at hRead
  sticky := by
    intro r hEc
    simp [contentRead, primitiveContent, hEc]

end Reader

end Ber

end Snmpio

------------------------------------------------------------
-- Constructed Elements
------------------------------------------------------------

namespace Snmpio

namespace Ber

namespace Reader

variable {α : Type} {r : Reader} {content w : Octets}
variable {t : TagType}

/- A tag `enter` can be asked for. -/
def ConstructedTag
    (t : TagType) : Prop :=
  LowTag t ∧ isConstructed t = true

instance
    (t : TagType) :
    Decidable (ConstructedTag t) :=
  inferInstanceAs (Decidable (_ ∧ _))

/-
  The reader inside an element whose header takes `k` octets
  and whose content takes `n`.
-/
def within
    (r : Reader)
    (k n : Nat) : Reader :=
  { r.advance k with endPos := r.pos + k + n }

theorem View.within
    {header : Octets}
    (hView : View r (header ++ (content ++ w))) :
    View (r.within header.length content.length)
      content := by
  rcases hView with ⟨hEc, before, after, hBuf, hPos, hEnd⟩
  refine ⟨hEc, before ++ header, w ++ after, ?_, ?_, ?_⟩
  · simpa [Reader.within, Reader.advance] using hBuf
  · simp [Reader.within, Reader.advance, hPos]
  · simp [Reader.within, hPos]

theorem View.within_element
    {ls : Octets}
    (hView : View r (t :: (ls ++ (content ++ w)))) :
    View (r.within (1 + ls.length) content.length)
      content := by
  have hSplit : View r ((t :: ls) ++ (content ++ w)) := by
    simpa using hView
  simpa [Nat.add_comm] using hSplit.within

/- The guard for the element `within` is inside of. -/
def guardOf
    (r : Reader)
    (k n : Nat) : Scope :=
  ⟨r.endPos, r.pos + k + n⟩

theorem enter_complete
    {ls : Octets}
    (hView : View r (t :: (ls ++ (content ++ w))))
    (hTag : ConstructedTag t)
    (hLength : LengthForm content.length ls) :
    r.enter t =
      (r.guardOf (1 + ls.length) content.length,
        r.within (1 + ls.length) content.length) := by
  have hHeader :=
    readHeader_complete hView hTag.1 hLength (by simp)
  rw [enter, if_neg (by simp [hView.isSome_eq]),
    if_neg (by simp [hTag.2]),
    if_neg (by simp [hView.peekTag_cons]), hHeader]
  rfl

/- Entering finds an element of that tag, or fails. -/
theorem enter_cases
    (hView : View r w) :
    (∃ ls content w',
        w = t :: (ls ++ (content ++ w')) ∧
          LengthForm content.length ls ∧
          r.enter t =
            (r.guardOf (1 + ls.length) content.length,
              r.within (1 + ls.length) content.length)) ∨
      (r.enter t).2.ec.isSome := by
  by_cases hConstructed : isConstructed t = true
  · cases w with
    | nil =>
        right
        rw [enter, if_neg (by simp [hView.isSome_eq]),
          if_neg (by simp [hConstructed]),
          if_pos (by simp [hView.peekTag_nil])]
        rfl
    | cons b rest =>
        by_cases hTag : b = t
        · subst hTag
          rcases hHeader : r.readHeader with ⟨result, r₁⟩
          cases result with
          | none =>
              right
              rw [enter, if_neg (by simp [hView.isSome_eq]),
                if_neg (by simp [hConstructed]),
                if_neg (by simp [hView.peekTag_cons]),
                hHeader]
              exact readHeader_fails hView hHeader
          | some h =>
              rcases readHeader_sound hView hHeader with
                ⟨ls, rest', hw, hLow, hLength, hFits, rfl⟩
              simp only [List.cons.injEq] at hw
              rcases hw with ⟨rfl, rfl⟩
              obtain ⟨content, w', rfl, hContent⟩ :
                  ∃ content w', rest' = content ++ w' ∧
                    content.length = h.length :=
                ⟨rest'.take h.length, rest'.drop h.length,
                  by simp, by simpa using hFits⟩
              left
              rw [← hContent] at hLength
              exact ⟨ls, content, w', rfl, hLength,
                enter_complete hView ⟨hLow, hConstructed⟩
                  hLength⟩
        · right
          rw [enter, if_neg (by simp [hView.isSome_eq]),
            if_neg (by simp [hConstructed]),
            if_pos (by simpa [hView.peekTag_cons])]
          rfl
  · right
    rw [enter, if_neg (by simp [hView.isSome_eq]),
      if_pos hConstructed]
    rfl

/- Leaving keeps an error. -/
theorem close_of_error
    {s : Scope}
    (hEc : r.ec.isSome) :
    (s.close r).ec = r.ec := by
  have hNotOk : r.ok = false := by
    rw [ok]
    cases hCase : r.ec with
    | none => simp [hCase] at hEc
    | some e => rfl
  simp [Scope.close, hNotOk]

/- Leaving with everything taken moves past the element. -/
theorem close_all
    (r : Reader)
    (k n : Nat) :
    (r.guardOf k n).close ((r.within k n).advance n) =
      r.advance (k + n) := by
  have hPos :
      ((r.within k n).advance n).pos =
        (r.guardOf k n).contentEnd := rfl
  rw [Scope.close]
  simp only [hPos, ne_eq, not_true_eq_false, and_false,
    if_false]
  simp [within, guardOf, Reader.advance, Nat.add_assoc]

/- Leaving with something left over is an error. -/
theorem close_early
    {k n m : Nat}
    (hView : View r w)
    (hm : m ≠ n) :
    ((r.guardOf k n).close
      ((r.within k n).advance m)).ec.isSome := by
  have hOk : ((r.within k n).advance m).ok = true :=
    hView.ok_eq
  have hPos :
      ((r.within k n).advance m).pos ≠
        (r.guardOf k n).contentEnd := by
    simp only [within, guardOf, Reader.advance]
    omega
  rw [Scope.close]
  simp only [hOk, hPos, ne_eq, not_false_eq_true, and_self,
    if_true]
  rfl

/-
  A block inside a constructed element reads that element as
  soon as its body reads what fills it.
-/
theorem inScope_reads
    {G : Octets → α → Prop}
    {body : Reader → Option α × Reader}
    (hTag : ConstructedTag t)
    (hFills : Fills G body) :
    Reads (Element t G) (fun r => r.inScope t body) where
  sound := by
    intro r r' w x hView hRead
    rcases enter_cases (t := t) hView with
      ⟨ls, content, w', rfl, hLength, hEnter⟩ | hEc
    · have hInside := hView.within_element
      rcases hBody :
          body (r.within (1 + ls.length) content.length)
        with ⟨result, r₁⟩
      cases result with
      | none => simp [inScope, hEnter, hBody] at hRead
      | some y =>
          rcases hFills.sound hInside hBody with
            ⟨k, hk, rfl, hG⟩
          simp only [inScope, hEnter, hBody] at hRead
          by_cases hAll : k = content.length
          · subst hAll
            rw [close_all,
              if_neg (by simp [hView.isSome_eq])] at hRead
            simp only [Prod.mk.injEq, Option.some.injEq]
              at hRead
            rcases hRead with ⟨rfl, rfl⟩
            refine ⟨t :: (ls ++ content), w', by simp,
              ⟨ls, content, rfl, hLength, hG rfl⟩, ?_⟩
            rw [element_length]
          · rw [if_pos (close_early hView hAll)] at hRead
            simp at hRead
    · rcases hEnter : r.enter t with ⟨s, r₁⟩
      rw [hEnter] at hEc
      have hStop := hFills.sticky hEc
      rcases hBody : body r₁ with ⟨result, r₂⟩
      rw [hBody] at hStop
      subst hStop
      cases result with
      | none => simp [inScope, hEnter, hBody] at hRead
      | some y =>
          simp only [inScope, hEnter, hBody] at hRead
          rw [if_pos (by rw [close_of_error hEc]; exact hEc)]
            at hRead
          simp at hRead
  complete := by
    intro r b w x hView hG
    rcases hG with ⟨ls, content, rfl, hLength, hContent⟩
    have hView' : View r (t :: (ls ++ (content ++ w))) := by
      simpa using hView
    have hBody :=
      hFills.complete hView'.within_element hContent
    simp only [inScope, enter_complete hView' hTag hLength,
      hBody, close_all]
    rw [if_neg (by simp [hView.isSome_eq]), element_length]
  fails := by
    intro r r' w hView hRead
    rcases enter_cases (t := t) hView with
      ⟨ls, content, w', rfl, hLength, hEnter⟩ | hEc
    · have hInside := hView.within_element
      rcases hBody :
          body (r.within (1 + ls.length) content.length)
        with ⟨result, r₁⟩
      cases result with
      | none =>
          have hEc := hFills.fails hInside hBody
          simp only [inScope, hEnter, hBody,
            Prod.mk.injEq] at hRead
          rw [← hRead.2, close_of_error hEc]
          exact hEc
      | some y =>
          simp only [inScope, hEnter, hBody] at hRead
          split at hRead
          · next hClosed =>
            simp only [Prod.mk.injEq] at hRead
            rw [← hRead.2]
            exact hClosed
          · simp at hRead
    · rcases hEnter : r.enter t with ⟨s, r₁⟩
      rw [hEnter] at hEc
      have hStop := hFills.sticky hEc
      rcases hBody : body r₁ with ⟨result, r₂⟩
      rw [hBody] at hStop
      subst hStop
      have hClosed : (s.close r₂).ec.isSome := by
        rw [close_of_error hEc]
        exact hEc
      cases result with
      | none =>
          simp only [inScope, hEnter, hBody,
            Prod.mk.injEq] at hRead
          rw [← hRead.2]
          exact hClosed
      | some y =>
          simp only [inScope, hEnter, hBody] at hRead
          rw [if_pos hClosed] at hRead
          simp only [Prod.mk.injEq] at hRead
          rw [← hRead.2]
          exact hClosed
  sticky := by
    intro r hEc
    have hEnter : r.enter t = (⟨r.endPos, r.pos⟩, r) := by
      simp [enter, hEc]
    have hStop := hFills.sticky hEc
    have hClosed :
        (⟨r.endPos, r.pos⟩ : Scope).close r = r := by
      simp [Scope.close]
    rcases hBody : body r with ⟨result, r₁⟩
    rw [hBody] at hStop
    subst hStop
    cases result with
    | none => simp [inScope, hEnter, hBody, hClosed]
    | some y =>
        simp [inScope, hEnter, hBody, hClosed, hEc]

end Reader

end Ber

end Snmpio
