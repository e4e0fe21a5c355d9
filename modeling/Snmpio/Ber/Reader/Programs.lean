import Snmpio.Ber.Reader.Values
import Snmpio.Lib.Runs

/-
  Programs of reads.

  A program enters constructed elements, reads, and leaves
  them in the reverse order.  What it does may depend on
  what it has read, and it may go on after a failure or
  abandon what it was in, so it is taken as the list of its
  actions up to some point: a `Nest` is the reader then,
  with the scopes still open.

  The end of an open scope is the bound that is in force
  inside it.  A scope that could not be entered leaves the
  bound of the one around it.

  Key definitions include:
    * `Ber.Reader.Operation`
    * `Ber.Reader.Nest.step`
    * `Ber.Reader.Nest.ends`
    * `Ber.Reader.Nest.Confined`
    * `Ber.Reader.Nest.Contents`
    * `Ber.Reader.Keeps`

  Key theorems include:
    * `Ber.Reader.perform_keeps`
    * `Ber.Reader.perform_contents`
    * `Ber.Reader.reader_confined`
-/

------------------------------------------------------------
-- Operations and Programs
------------------------------------------------------------

namespace Snmpio

namespace Ber

namespace Reader

/- The members that return a value, or none. -/
inductive Operation where
  | readHeader
  | skipElement
  | integer (expected : TagType)
  | unsigned32 (expected : TagType)
  | unsigned64 (expected : TagType)
  | octetString (expected : TagType)
  | octetStringView (expected : TagType)
  | nullValue
  | objectIdentifier
  | anyValue
  | readVarbind
  | varbindList
  | finish

/- Whatever a call may return. -/
inductive Returned where
  | header (h : Header)
  | span (s : Span)
  | int32 (v : Int32)
  | uint32 (v : UInt32)
  | uint64 (v : UInt64)
  | octets (os : Octets)
  | oid (o : Oid)
  | value (v : Value)
  | varbind (vb : Varbind)
  | varbinds (vbs : List Varbind)
  | yes

/- `nullValue` and `finish` return `false` for no value. -/
def ifTrue :
    Bool × Reader → Option Returned × Reader
| (false, r) => (none, r)
| (true, r) => (some .yes, r)

/- One call of the Reader. -/
def perform
    (o : Operation)
    (r : Reader) : Option Returned × Reader :=
  match o with
  | .readHeader => mapRead .header r.readHeader
  | .skipElement => mapRead .span r.skipElement
  | .integer t => mapRead .int32 (r.integer t)
  | .unsigned32 t => mapRead .uint32 (r.unsigned32 t)
  | .unsigned64 t => mapRead .uint64 (r.unsigned64 t)
  | .octetString t => mapRead .octets (r.octetString t)
  | .octetStringView t =>
      mapRead .span (r.octetStringView t)
  | .nullValue => ifTrue r.nullValue
  | .objectIdentifier => mapRead .oid r.objectIdentifier
  | .anyValue => mapRead .value r.anyValue
  | .readVarbind => mapRead .varbind r.readVarbind
  | .varbindList => mapRead .varbinds r.varbindList
  | .finish => ifTrue r.finish

/- Calls, and the scopes around them. -/
inductive Action where
  | read (o : Operation)
  | fail (e : Errc)
  | enter (expected : TagType)
  | leave

/- A reader and the scopes open on it, innermost first. -/
structure Nest where
  reader : Reader
  scopes : List Scope

namespace Nest

def ofInput
    (input : Octets) : Nest :=
  ⟨Reader.ofInput input, []⟩

/- Only an open scope can be left, and the innermost first. -/
def step
    (s : Nest) :
    Action → Option Nest
| .read o =>
    some { s with reader := (perform o s.reader).2 }
| .fail e =>
    some { s with reader := s.reader.fail e }
| .enter t =>
    let (scope, r) := s.reader.enter t
    some ⟨r, scope :: s.scopes⟩
| .leave =>
    match s.scopes with
    | [] => none
    | scope :: scopes =>
        some ⟨scope.close s.reader, scopes⟩

/-
  The end of the innermost open scope, then those of the
  scopes around it, the input as the last.
-/
def ends
    (s : Nest) : List Nat :=
  s.reader.endPos :: s.scopes.map Scope.savedEnd

/- Each scope ends inside the one around it. -/
structure Confined
    (s : Nest) : Prop where
  position : s.reader.pos ≤ s.reader.endPos
  nested : s.ends.Pairwise (· ≤ ·)
  inside : ∀ e ∈ s.ends, e ≤ s.reader.buf.length
  contents :
    ∀ scope ∈ s.scopes, scope.contentEnd ≤ scope.savedEnd

end Nest

/-
  `os` is a part of the buffer between the cursor of `r` and
  its bound, and `r'` stands right behind it.
-/
def Holds
    (r r' : Reader)
    (os : Octets) : Prop :=
  ∃ start,
    r.pos ≤ start ∧ start + os.length = r'.pos ∧
      r'.pos ≤ r.endPos ∧
      os = (r.buf.drop start).take os.length

/- The content octets a Value is a copy of. -/
def copiedContent :
    Value → Option Octets
| .octetString os => some os
| .opaqueOctets os => some os
| .ipAddress a => some a.toList
| _ => none

/- `v`, read by `anyValue` here, copies from inside. -/
def Nest.Copies
    (s : Nest)
    (v : Value) : Prop :=
  ∀ os ∈ copiedContent v,
    Holds s.reader s.reader.anyValue.2 os

/-
  Where what an operation returns was taken from.  A Varbind
  is read with its own scope open, by the actions listed;
  what is decoded to a number borrows and copies nothing.
-/
def Nest.Contents
    (s : Nest)
    (r' : Reader) :
    Returned → Prop
| .span part =>
    s.reader.pos ≤ part.start ∧
      part.start + part.octets.length = r'.pos ∧
      r'.pos ≤ s.reader.endPos ∧
      part.octets =
        (s.reader.buf.drop part.start).take
          part.octets.length
| .octets os => Holds s.reader r' os
| .value v => s.Copies v
| .varbind vb =>
    ∃ s₁,
      Machine.run Nest.step s
          [.enter Tag.sequence, .read .objectIdentifier] =
        some s₁ ∧ s₁.Copies vb.val
| .varbinds vbs =>
    ∀ vb ∈ vbs, ∃ n s₁,
      Machine.run Nest.step s
          (.enter Tag.sequence ::
            (List.replicate n (.read .readVarbind) ++
              [.enter Tag.sequence,
                .read .objectIdentifier])) =
        some s₁ ∧ s₁.Copies vb.val
| _ => True

end Reader

end Ber

end Snmpio

------------------------------------------------------------
-- What One Read Keeps
------------------------------------------------------------

namespace Snmpio

namespace Ber

namespace Reader

variable {α β γ : Type}

/-
  A read keeps the buffer and the bound, moves forward
  inside the bound, records an error when it has no value,
  and keeps a recorded error.
-/
structure Kept
    (r : Reader)
    (result : Option α × Reader) : Prop where
  buf : result.2.buf = r.buf
  endPos : result.2.endPos = r.endPos
  forward : r.pos ≤ result.2.pos
  position : result.2.pos ≤ r.endPos
  fails : result.1 = none → result.2.ec.isSome
  sticky : r.ec.isSome → result.2.ec = r.ec

/- The position stays inside the scope. -/
def Keeps
    (read : Reader → Option α × Reader) : Prop :=
  ∀ r, r.pos ≤ r.endPos → Kept r (read r)

@[simp] theorem fail_ec_of_isSome
    {r : Reader}
    {e : Errc}
    (hEc : r.ec.isSome) :
    (r.fail e).ec = r.ec := by
  cases hCase : r.ec with
  | none => simp [hCase] at hEc
  | some e' => simp [fail, hCase]

section

variable {r r₁ : Reader}

/- A read that leaves the reader as it is. -/
theorem Kept.same
    {result : Option α}
    (hPos : r.pos ≤ r.endPos)
    (hFails : result = none → r.ec.isSome) :
    Kept r (result, r) :=
  ⟨rfl, rfl, le_rfl, hPos, hFails, fun _ => rfl⟩

/- The result may be another, if it is none for none. -/
theorem Kept.relabel
    {a : Option α}
    {b : Option β}
    (hKept : Kept r (a, r₁))
    (hNone : b = none → a = none) :
    Kept r (b, r₁) :=
  ⟨hKept.buf, hKept.endPos, hKept.forward, hKept.position,
    fun h => hKept.fails (hNone h), hKept.sticky⟩

theorem Kept.inside
    {a : Option α}
    (hKept : Kept r (a, r₁)) :
    r₁.pos ≤ r₁.endPos :=
  hKept.position.trans hKept.endPos.ge

/- One read after another. -/
theorem Kept.trans
    {a : Option α}
    {result : Option β × Reader}
    (hFirst : Kept r (a, r₁))
    (hSecond : Kept r₁ result) :
    Kept r result where
  buf := hSecond.buf.trans hFirst.buf
  endPos := hSecond.endPos.trans hFirst.endPos
  forward := hFirst.forward.trans hSecond.forward
  position := hSecond.position.trans hFirst.endPos.le
  fails := hSecond.fails
  sticky := by
    intro hEc
    have hFirstEc : r₁.ec = r.ec := hFirst.sticky hEc
    have hStill : r₁.ec.isSome := by
      rw [hFirstEc]
      exact hEc
    exact (hSecond.sticky hStill).trans hFirstEc

theorem Kept.mapRead
    {f : α → β}
    {result : Option α × Reader}
    (hKept : Kept r result) :
    Kept r (Reader.mapRead f result) :=
  hKept.relabel Option.map_eq_none_iff.mp

end

/-
  What a read of one element can do: nothing, fail on the
  way, or take `k` octets of the scope for a value.
-/
inductive Outcome
    (r : Reader)
    (fits : α → Nat → Prop) :
    Option α × Reader → Prop where
  | stuck
      (hEc : r.ec.isSome) :
      Outcome r fits (none, r)
  | failed
      (k : Nat)
      (e : Errc)
      (hEc : r.ec.isSome = false) :
      Outcome r fits (none, (r.advance k).fail e)
  | took
      (x : α)
      (k : Nat)
      (hEc : r.ec.isSome = false)
      (hRoom : k ≤ r.endPos - r.pos)
      (hFits : fits x k) :
      Outcome r fits (some x, r.advance k)

section

variable {r : Reader} {fits : α → Nat → Prop}
variable {result : Option α × Reader}

/- What was read was there to be read. -/
theorem Outcome.kept
    (hOutcome : Outcome r fits result)
    (hPos : r.pos ≤ r.endPos) :
    Kept r result where
  buf := by
    cases hOutcome <;> rfl
  endPos := by
    cases hOutcome <;> rfl
  forward := by
    cases hOutcome with
    | stuck _ => exact le_rfl
    | failed _ _ _ => exact hPos
    | took _ k _ _ _ => exact Nat.le_add_right r.pos k
  position := by
    cases hOutcome with
    | stuck _ => exact hPos
    | failed _ _ _ => exact le_rfl
    | took _ k _ hRoom _ =>
        change r.pos + k ≤ r.endPos
        omega
  fails := by
    intro hNone
    cases hOutcome with
    | stuck hEc => exact hEc
    | failed _ _ _ => rfl
    | took _ _ _ _ _ => cases hNone
  sticky := by
    intro hEc
    cases hOutcome with
    | stuck _ => rfl
    | failed _ _ hNot => simp [hNot] at hEc
    | took _ _ hNot _ _ => simp [hNot] at hEc

end

/- What the header announces still fits the scope. -/
theorem headerOf_outcome
    {r : Reader}
    {t : TagType}
    {k n : Nat}
    (hEc : r.ec.isSome = false)
    (hRoom : k ≤ r.endPos - r.pos) :
    Outcome r (fun h k => k + h.length ≤ r.endPos - r.pos)
      ((r.advance k).headerOf t n) := by
  unfold headerOf
  split_ifs with hLong
  · exact .failed k _ hEc
  · have hFits : n ≤ r.endPos - (r.pos + k) :=
      Nat.le_of_not_lt hLong
    refine .took (Header.mk t n) k hEc hRoom ?_
    simp only
    omega

/- The length never goes past the scope. -/
theorem readHeader_outcome
    (r : Reader) :
    Outcome r (fun h k => k + h.length ≤ r.endPos - r.pos)
      r.readHeader := by
  unfold readHeader
  split_ifs with hEc hShort
  · exact .stuck hEc
  · exact .failed 0 _ (by simpa using hEc)
  · have hHealthy : r.ec.isSome = false := by
      simpa using hEc
    have hTwo : 2 ≤ r.endPos - r.pos :=
      Nat.le_of_not_lt hShort
    simp only [advance_advance]
    split_ifs with hHigh hForm hIndefinite hReserved hCount
      hRoom
    · exact .failed 1 _ hHealthy
    · exact headerOf_outcome hHealthy hTwo
    · exact .failed 2 _ hHealthy
    · exact .failed 2 _ hHealthy
    · exact .failed 2 _ hHealthy
    · exact .failed 2 _ hHealthy
    · have hLength :
          (r.advance 1).current.toNat &&& 0x7F ≤
            r.endPos - (r.pos + 2) :=
        Nat.le_of_not_lt hRoom
      exact headerOf_outcome hHealthy (by omega)

/-
  The octets of a part of the buffer that ends `k` octets
  behind the cursor.
-/
def Part
    (r : Reader)
    (s : Span)
    (k : Nat) : Prop :=
  ∃ n, r.pos ≤ s.start ∧ s.start + n = r.pos + k ∧
    s.octets = (r.buf.drop s.start).take n

theorem primitiveContent_outcome
    (t : TagType)
    (r : Reader) :
    Outcome r (Part r) (r.primitiveContent t) := by
  unfold primitiveContent
  by_cases hEc : r.ec.isSome = true
  · rw [if_pos hEc]
    exact .stuck hEc
  · rw [if_neg hEc]
    have hHealthy : r.ec.isSome = false := by
      simpa using hEc
    rcases r.peekTag with _ | tagHere
    · exact .failed 0 _ hHealthy
    · simp only
      split_ifs with hTag hConstructed
      · exact .failed 0 _ hHealthy
      · exact .failed 0 _ hHealthy
      · have hHeader := readHeader_outcome r
        generalize r.readHeader = result at hHeader ⊢
        cases hHeader with
        | stuck hEc' => exact .stuck hEc'
        | failed k e _ => exact .failed k e hHealthy
        | took h k _ _ hFits =>
            simp only [advance_advance]
            refine .took _ (k + h.length) hHealthy hFits
              ⟨h.length, ?_, ?_, rfl⟩
            · exact Nat.le_add_right r.pos k
            · exact Nat.add_assoc r.pos k h.length

/- An element of any tag is passed as a whole. -/
theorem skipElement_outcome
    (r : Reader) :
    Outcome r (Part r) r.skipElement := by
  unfold skipElement
  split_ifs with hEc
  · exact .stuck hEc
  · have hHealthy : r.ec.isSome = false := by
      simpa using hEc
    have hHeader := readHeader_outcome r
    generalize r.readHeader = result at hHeader ⊢
    cases hHeader with
    | stuck hEc' => exact .stuck hEc'
    | failed k e _ => exact .failed k e hHealthy
    | took h k _ _ hFits =>
        simp only [advance_advance]
        refine .took _ (k + h.length) hHealthy hFits
          ⟨k + h.length, le_rfl, rfl, ?_⟩
        simp [Reader.advance]

/- The content is decoded where it is. -/
theorem contentRead_outcome
    (t : TagType)
    (decode : Octets → Except Errc α)
    (r : Reader) :
    Outcome r
      (fun x k => ∃ s, Part r s k ∧ decode s.octets = .ok x)
      (contentRead t decode r) := by
  unfold contentRead
  have hContent := primitiveContent_outcome t r
  generalize r.primitiveContent t = result at hContent ⊢
  cases hContent with
  | stuck hEc => exact .stuck hEc
  | failed k e hEc => exact .failed k e hEc
  | took s k hEc hRoom hPart =>
      simp only
      cases hDecode : decode s.octets with
      | error e => exact .failed k e hEc
      | ok x => exact .took x k hEc hRoom ⟨s, hPart, hDecode⟩

/- The tag chooses the decoder. -/
theorem anyValue_outcome
    (r : Reader) :
    Outcome r
      (fun v k => ∃ t decode s, valueDecoder t = some decode ∧
        Part r s k ∧ decode s.octets = .ok v)
      r.anyValue := by
  cases hEc : r.ec.isSome with
  | true =>
      rw [anyValue, if_pos hEc]
      exact .stuck hEc
  | false =>
      cases hPeek : r.peekTag with
      | none =>
          rw [anyValue, if_neg (by simp [hEc]), hPeek]
          exact .failed 0 _ hEc
      | some t =>
          rw [anyValue_eq hEc hPeek]
          cases hDecoder : valueDecoder t with
          | none => exact .failed 0 _ hEc
          | some decode =>
              have hContent := contentRead_outcome t decode r
              simp only
              generalize contentRead t decode r = result
                at hContent ⊢
              cases hContent with
              | stuck hEc' => exact .stuck hEc'
              | failed k e _ => exact .failed k e hEc
              | took v k _ hRoom hFits =>
                  rcases hFits with ⟨s, hPart, hDecode⟩
                  exact .took v k hEc hRoom
                    ⟨t, decode, s, hDecoder, hPart, hDecode⟩

end Reader

end Ber

end Snmpio

------------------------------------------------------------
-- Scopes
------------------------------------------------------------

namespace Snmpio

namespace Ber

namespace Reader

variable {α β γ : Type}

/- What `enter` returns, entered or not. -/
structure Enters
    (r : Reader)
    (s : Scope)
    (r' : Reader) : Prop where
  buf : r'.buf = r.buf
  savedEnd : s.savedEnd = r.endPos
  inner : r'.endPos ≤ r.endPos
  position : r'.pos ≤ r'.endPos
  contentFrom : r.pos ≤ s.contentEnd
  contentEnd : s.contentEnd ≤ r'.endPos
  sticky : r.ec.isSome → r'.ec = r.ec

theorem Enters.unmoved
    {r r' : Reader}
    (hBuf : r'.buf = r.buf)
    (hEnd : r'.endPos = r.endPos)
    (hForward : r.pos ≤ r'.pos)
    (hInside : r'.pos ≤ r.endPos)
    (hSticky : r.ec.isSome → r'.ec = r.ec) :
    Enters r ⟨r.endPos, r'.pos⟩ r' where
  buf := hBuf
  savedEnd := rfl
  inner := hEnd.le
  position := hInside.trans hEnd.ge
  contentFrom := hForward
  contentEnd := hInside.trans hEnd.ge
  sticky := hSticky

/- A scope is clamped to the one around it. -/
theorem enter_enters
    {r : Reader}
    {t : TagType}
    (hPos : r.pos ≤ r.endPos) :
    Enters r (r.enter t).1 (r.enter t).2 := by
  have hFailed (e : Errc) :
      Enters r ⟨r.endPos, (r.fail e).pos⟩ (r.fail e) :=
    .unmoved rfl rfl hPos le_rfl fail_ec_of_isSome
  unfold enter
  by_cases hEc : r.ec.isSome = true
  · simp only [if_pos hEc]
    exact .unmoved rfl rfl le_rfl hPos (fun _ => rfl)
  simp only [if_neg hEc]
  by_cases hConstructed : isConstructed t = true
  · by_cases hPeek : r.peekTag = some t
    · simp only [hConstructed, hPeek, ne_eq,
        not_true_eq_false, if_false]
      have hHeader := readHeader_outcome r
      generalize r.readHeader = result at hHeader ⊢
      cases hHeader with
      | stuck hEc' => exact absurd hEc' hEc
      | failed k e _ =>
          exact .unmoved rfl rfl hPos le_rfl
            (fun hSome => absurd hSome hEc)
      | took h k _ hRoom hFits =>
          exact {
            buf := rfl
            savedEnd := rfl
            inner := by
              change r.pos + k + h.length ≤ r.endPos
              omega
            position := Nat.le_add_right (r.pos + k) h.length
            contentFrom := by
              change r.pos ≤ r.pos + k + h.length
              omega
            contentEnd := le_rfl
            sticky := fun hSome => absurd hSome hEc }
    · simp only [hConstructed, ne_eq, hPeek,
        not_true_eq_false, not_false_eq_true, if_false,
        if_true]
      exact hFailed .unexpectedTag
  · simp only [hConstructed]
    exact hFailed .unexpectedTag

@[simp] theorem close_buf
    (s : Scope)
    (r : Reader) :
    (s.close r).buf = r.buf := by
  unfold Scope.close
  split_ifs <;> rfl

section

variable {t : TagType} {body : Reader → Option α × Reader}

/-
  A block closes its scope on every way out, and has no
  value if an error is recorded then.
-/
theorem inScope_eq
    (r : Reader) :
    r.inScope t body =
      let closed :=
        (r.enter t).1.close (body (r.enter t).2).2
      (if closed.ec.isSome then none
        else (body (r.enter t).2).1, closed) := by
  unfold inScope
  rcases r.enter t with ⟨s, r₁⟩
  simp only
  rcases body r₁ with ⟨result, r₂⟩
  cases result with
  | none => simp
  | some x =>
      simp only
      split_ifs <;> rfl

/- Leaving sets the end back. -/
theorem inScope_keeps
    (hBody : Keeps body) :
    Keeps (fun r => r.inScope t body) := by
  intro r hPos
  have hEnters : Enters r (r.enter t).1 (r.enter t).2 :=
    enter_enters hPos
  have hInner := hBody (r.enter t).2 hEnters.position
  have hClosed (hEc : (body (r.enter t).2).2.ec.isSome) :=
    close_of_error (s := (r.enter t).1) hEc
  simp only [inScope_eq]
  exact {
    buf := by
      simp only [close_buf]
      exact hInner.buf.trans hEnters.buf
    endPos := hEnters.savedEnd
    forward := hEnters.contentFrom
    position := hEnters.contentEnd.trans hEnters.inner
    fails := by
      intro hNone
      simp only at hNone ⊢
      split_ifs at hNone with hEc
      · exact hEc
      · rw [hClosed (hInner.fails hNone)]
        exact hInner.fails hNone
    sticky := by
      intro hEc
      have hEntered := hEnters.sticky hEc
      have hRead :
          (body (r.enter t).2).2.ec = r.ec := by
        rw [hInner.sticky (by rw [hEntered]; exact hEc),
          hEntered]
      simp only
      rw [hClosed (by rw [hRead]; exact hEc), hRead] }

end

/- Two reads in a row. -/
theorem andThen_keeps
    {first : Reader → Option α × Reader}
    {second : Reader → Option β × Reader}
    {make : α → β → γ}
    (hFirst : Keeps first)
    (hSecond : Keeps second) :
    Keeps (andThen first second make) := by
  intro r hPos
  have hA := hFirst r hPos
  unfold andThen
  generalize first r = firstRead at hA ⊢
  rcases firstRead with ⟨a, r₁⟩
  cases a with
  | none => exact hA.relabel (fun _ => rfl)
  | some a =>
      have hB := hSecond r₁ hA.inside
      simp only
      generalize second r₁ = secondRead at hB ⊢
      rcases secondRead with ⟨b, r₂⟩
      cases b with
      | none =>
          exact hA.trans (hB.relabel (fun _ => rfl))
      | some b =>
          exact hA.trans
            (hB.relabel (fun hNone => nomatch hNone))

theorem objectIdentifier_keeps :
    Keeps objectIdentifier := by
  intro r hPos
  rw [objectIdentifier_eq_contentRead]
  exact (contentRead_outcome _ _ r).kept hPos

theorem anyValue_keeps :
    Keeps anyValue :=
  fun r hPos => (anyValue_outcome r).kept hPos

/- A leading error check keeps what a read keeps. -/
theorem Keeps.guarded
    {read : Reader → Option α × Reader}
    (hKeeps : Keeps read) :
    Keeps (fun r =>
      if r.ec.isSome then (none, r) else read r) := by
  intro r hPos
  simp only
  split_ifs with hEc
  · exact .same hPos (fun _ => hEc)
  · exact hKeeps r hPos

theorem readVarbind_keeps :
    Keeps readVarbind :=
  (inScope_keeps
    (andThen_keeps objectIdentifier_keeps
      anyValue_keeps)).guarded

/- As many as the content holds. -/
theorem varbindLoop_keeps
    (fuel : Nat)
    (out : List Varbind) :
    Keeps (varbindLoop fuel out) := by
  induction fuel generalizing out with
  | zero =>
      intro r hPos
      exact .same hPos (fun hNone => nomatch hNone)
  | succ fuel ih =>
      intro r hPos
      rw [varbindLoop]
      split_ifs with hMore
      · have hRead := readVarbind_keeps r hPos
        generalize r.readVarbind = read at hRead ⊢
        rcases read with ⟨result, r₁⟩
        cases result with
        | none => exact hRead.relabel (fun _ => rfl)
        | some vb =>
            exact hRead.trans
              (ih (out ++ [vb]) r₁ hRead.inside)
      · exact .same hPos (fun hNone => nomatch hNone)

theorem varbindList_keeps :
    Keeps varbindList :=
  (inScope_keeps
    (fun r => varbindLoop_keeps r.remaining [] r)).guarded

end Reader

end Ber

end Snmpio

------------------------------------------------------------
-- Operations
------------------------------------------------------------

namespace Snmpio

namespace Ber

namespace Reader

variable {α : Type}

theorem contentRead_keeps
    (t : TagType)
    (decode : Octets → Except Errc α) :
    Keeps (contentRead t decode) :=
  fun r hPos => (contentRead_outcome t decode r).kept hPos

theorem nullValue_outcome
    (r : Reader) :
    Outcome r (fun _ _ => True) (ifTrue r.nullValue) := by
  unfold nullValue
  have hContent := primitiveContent_outcome Tag.null r
  generalize r.primitiveContent Tag.null = result
    at hContent ⊢
  cases hContent with
  | stuck hEc => exact .stuck hEc
  | failed k e hEc => exact .failed k e hEc
  | took s k hEc hRoom _ =>
      simp only
      split_ifs with hEmpty
      · exact .took _ k hEc hRoom trivial
      · exact .failed k _ hEc

/- Trailing octets are an error of their own. -/
theorem finish_kept
    {r : Reader}
    (hPos : r.pos ≤ r.endPos) :
    Kept r (ifTrue r.finish) := by
  unfold finish
  split_ifs with hEc hLeft
  · exact .same hPos (fun _ => hEc)
  · exact ⟨rfl, rfl, hPos, le_rfl, fun _ => rfl,
      fail_ec_of_isSome⟩
  · exact .same hPos (fun hNone => nomatch hNone)

/- Every call keeps it. -/
theorem perform_keeps
    (o : Operation) :
    Keeps (perform o) := by
  intro r hPos
  cases o with
  | readHeader =>
      exact ((readHeader_outcome r).kept hPos).mapRead
  | skipElement =>
      exact ((skipElement_outcome r).kept hPos).mapRead
  | integer t =>
      have hKept := contentRead_keeps t integerOf r hPos
      rw [← integer_eq_contentRead t] at hKept
      exact hKept.mapRead
  | unsigned32 t =>
      have hKept := contentRead_keeps t
        (fun c => (unsignedOf 4 c).map UInt64.toUInt32) r hPos
      rw [← unsigned32_eq_contentRead t] at hKept
      exact hKept.mapRead
  | unsigned64 t =>
      have hKept := contentRead_keeps t (unsignedOf 8) r hPos
      rw [← unsigned64_eq_contentRead t] at hKept
      exact hKept.mapRead
  | octetString t =>
      have hKept := contentRead_keeps t Except.ok r hPos
      rw [← octetString_eq_contentRead t] at hKept
      exact hKept.mapRead
  | octetStringView t =>
      exact ((primitiveContent_outcome t r).kept hPos).mapRead
  | nullValue => exact (nullValue_outcome r).kept hPos
  | objectIdentifier =>
      exact (objectIdentifier_keeps r hPos).mapRead
  | anyValue => exact (anyValue_keeps r hPos).mapRead
  | readVarbind => exact (readVarbind_keeps r hPos).mapRead
  | varbindList => exact (varbindList_keeps r hPos).mapRead
  | finish => exact finish_kept hPos

/- Once an error is recorded, no operation has a value. -/
theorem perform_quiet
    {r : Reader}
    (hEc : r.ec.isSome)
    (o : Operation) :
    (perform o r).1 = none := by
  cases o with
  | readHeader => simp [perform, mapRead, readHeader, hEc]
  | skipElement => simp [perform, mapRead, skipElement, hEc]
  | integer t =>
      simp [perform, mapRead, integer, primitiveContent, hEc]
  | unsigned32 t =>
      simp [perform, mapRead, unsigned32, unsignedContent,
        primitiveContent, hEc]
  | unsigned64 t =>
      simp [perform, mapRead, unsigned64, unsignedContent,
        primitiveContent, hEc]
  | octetString t =>
      simp [perform, mapRead, octetString, primitiveContent,
        hEc]
  | octetStringView t =>
      simp [perform, mapRead, octetStringView,
        primitiveContent, hEc]
  | nullValue =>
      simp [perform, ifTrue, nullValue, primitiveContent, hEc]
  | objectIdentifier =>
      simp [perform, mapRead, objectIdentifier,
        primitiveContent, hEc]
  | anyValue => simp [perform, mapRead, anyValue, hEc]
  | readVarbind => simp [perform, mapRead, readVarbind, hEc]
  | varbindList => simp [perform, mapRead, varbindList, hEc]
  | finish => simp [perform, ifTrue, finish, hEc]

end Reader

end Ber

end Snmpio

------------------------------------------------------------
-- Contents
------------------------------------------------------------

namespace Snmpio

namespace Ber

namespace Reader

variable {vb : Varbind}

/- The part has the size the cursor moved by. -/
theorem Part.length_eq
    {r : Reader}
    {s : Span}
    {k : Nat}
    (hPart : Part r s k)
    (hRoom : r.pos + k ≤ r.buf.length) :
    s.start + s.octets.length = r.pos + k ∧
      s.octets =
        (r.buf.drop s.start).take s.octets.length := by
  rcases hPart with ⟨n, _, hEnd, hOctets⟩
  have hLength : s.octets.length = n := by
    rw [hOctets, List.length_take, List.length_drop]
    omega
  rw [hLength]
  exact ⟨hEnd, hOctets⟩

/- What was cut out are octets of the input. -/
theorem Part.holds
    {r : Reader}
    {s : Span}
    {k : Nat}
    (hPart : Part r s k)
    (hPos : r.pos ≤ r.endPos)
    (hEnd : r.endPos ≤ r.buf.length)
    (hRoom : k ≤ r.endPos - r.pos) :
    Holds r (r.advance k) s.octets := by
  rcases hPart.length_eq (by omega) with
    ⟨hLength, hOctets⟩
  rcases hPart with ⟨_, hStart, _⟩
  refine ⟨s.start, hStart, hLength, ?_, hOctets⟩
  change r.pos + k ≤ r.endPos
  omega

/- Only a copy of the content decodes to a copied content. -/
theorem copiedContent_decoded
    {t : TagType}
    {decode : Octets → Except Errc Value}
    {content os : Octets}
    {v : Value}
    (hDecoder : valueDecoder t = some decode)
    (hDecode : decode content = .ok v)
    (hCopied : copiedContent v = some os) :
    os = content := by
  have hContent :=
    ((valueDecoder_iff hDecoder content v).mp hDecode).2
  cases v with
  | octetString c =>
      cases hCopied
      exact hContent.symm
  | opaqueOctets c =>
      cases hCopied
      exact hContent.symm
  | ipAddress a =>
      cases hCopied
      exact hContent.symm
  | _ => cases hCopied

section

variable {s : Nest} (hPos : s.reader.pos ≤ s.reader.endPos)
variable (hEnd : s.reader.endPos ≤ s.reader.buf.length)

include hPos hEnd

/- A value's octets are a copy from the input. -/
theorem Nest.copies_anyValue
    {v : Value}
    (hRead : s.reader.anyValue.1 = some v) :
    s.Copies v := by
  intro os hCopied
  have hOutcome := anyValue_outcome s.reader
  generalize s.reader.anyValue = result at hRead hOutcome ⊢
  cases hOutcome with
  | stuck _ => cases hRead
  | failed _ _ _ => cases hRead
  | took x k _ hRoom hFits =>
      cases hRead
      rcases hFits with
        ⟨t, decode, part, hDecoder, hPart, hDecode⟩
      rw [copiedContent_decoded hDecoder hDecode hCopied]
      exact hPart.holds hPos hEnd hRoom

/- A Varbind's Value is read with its scope open. -/
theorem Nest.contents_readVarbind
    (hRead : s.reader.readVarbind.1 = some vb) :
    ∃ s₁,
      Machine.run Nest.step s
          [.enter Tag.sequence, .read .objectIdentifier] =
        some s₁ ∧ s₁.Copies vb.val := by
  unfold readVarbind at hRead
  split_ifs at hRead with hEc
  rw [inScope_eq] at hRead
  simp only at hRead
  split_ifs at hRead with hClosed
  have hEnters :
      Enters s.reader (s.reader.enter Tag.sequence).1
        (s.reader.enter Tag.sequence).2 :=
    enter_enters hPos
  generalize hInner : s.reader.enter Tag.sequence = inner
    at hRead hEnters
  rcases inner with ⟨scope, r₁⟩
  have hName := objectIdentifier_keeps r₁ hEnters.position
  refine ⟨⟨r₁.objectIdentifier.2, scope :: s.scopes⟩, ?_, ?_⟩
  · simp [Machine.run, Nest.step, hInner, perform, mapRead]
  · unfold varbindBody andThen at hRead
    generalize r₁.objectIdentifier = nameRead at hRead hName ⊢
    rcases nameRead with ⟨name, r₂⟩
    cases name with
    | none => cases hRead
    | some name =>
        have hInside : r₂.endPos ≤ r₂.buf.length := by
          rw [hName.endPos, hName.buf, hEnters.buf]
          exact hEnters.inner.trans hEnd
        simp only at hRead
        have hCopies {v : Value} :=
          Nest.copies_anyValue (s := ⟨r₂, scope :: s.scopes⟩)
            hName.inside hInside (v := v)
        simp only at hCopies
        generalize hVal : r₂.anyValue = valRead
          at hRead hCopies
        rcases valRead with ⟨val, r₃⟩
        cases val with
        | none => cases hRead
        | some val =>
            cases hRead
            exact hCopies rfl

/-
  What the loop adds was read after some number of Varbinds.
  The induction is on the fuel, for every nest the loop gets
  to.
-/
theorem Nest.contents_varbindLoop
    {fuel : Nat}
    {out vbs : List Varbind}
    (hLoop :
      (varbindLoop fuel out s.reader).1 = some vbs)
    (hMem : vb ∈ vbs) :
    vb ∈ out ∨ ∃ n s₁,
      Machine.run Nest.step s
          (List.replicate n (.read .readVarbind) ++
            [.enter Tag.sequence,
              .read .objectIdentifier]) =
        some s₁ ∧ s₁.Copies vb.val := by
  induction fuel generalizing out s with
  | zero =>
      cases hLoop
      exact Or.inl hMem
  | succ fuel ih =>
      rw [varbindLoop] at hLoop
      split_ifs at hLoop with hMore
      · have hKept := readVarbind_keeps s.reader hPos
        have hHere {vb' : Varbind}
            (hRead : s.reader.readVarbind.1 = some vb') :=
          Nest.contents_readVarbind hPos hEnd hRead
        have hStep :
            Nest.step s (.read .readVarbind) =
              some { s with reader := s.reader.readVarbind.2 } :=
          rfl
        generalize s.reader.readVarbind = read
          at hLoop hKept hHere hStep
        rcases read with ⟨result, r₁⟩
        cases result with
        | none => cases hLoop
        | some vb' =>
            have hInside : r₁.endPos ≤ r₁.buf.length := by
              rw [hKept.endPos, hKept.buf]
              exact hEnd
            rcases ih (s := { s with reader := r₁ })
                hKept.inside hInside hLoop with
              hOut | ⟨n, s₁, hRun, hCopies⟩
            · rcases List.mem_append.mp hOut with
                hOld | hNew
              · exact Or.inl hOld
              · cases List.mem_singleton.mp hNew
                rcases hHere rfl with ⟨s₁, hRun, hCopies⟩
                exact Or.inr ⟨0, s₁, hRun, hCopies⟩
            · refine Or.inr ⟨n + 1, s₁, ?_, hCopies⟩
              rw [List.replicate_succ, List.cons_append]
              exact Machine.run_cons.mpr
                ⟨{ s with reader := r₁ }, hStep, hRun⟩
      · cases hLoop
        exact Or.inl hMem

/- So are those of each value in a list. -/
theorem Nest.contents_varbindList
    {vbs : List Varbind}
    (hRead : s.reader.varbindList.1 = some vbs)
    (hMem : vb ∈ vbs) :
    ∃ n s₁,
      Machine.run Nest.step s
          (.enter Tag.sequence ::
            (List.replicate n (.read .readVarbind) ++
              [.enter Tag.sequence,
                .read .objectIdentifier])) =
        some s₁ ∧ s₁.Copies vb.val := by
  unfold varbindList at hRead
  split_ifs at hRead with hEc
  rw [inScope_eq] at hRead
  simp only at hRead
  split_ifs at hRead with hClosed
  have hEnters :
      Enters s.reader (s.reader.enter Tag.sequence).1
        (s.reader.enter Tag.sequence).2 :=
    enter_enters hPos
  let entered : Nest :=
    ⟨(s.reader.enter Tag.sequence).2,
      (s.reader.enter Tag.sequence).1 :: s.scopes⟩
  have hInside :
      entered.reader.endPos ≤ entered.reader.buf.length := by
    rw [hEnters.buf]
    exact hEnters.inner.trans hEnd
  rcases Nest.contents_varbindLoop (s := entered)
      hEnters.position hInside hRead hMem with
    hNone | ⟨n, s₁, hRun, hCopies⟩
  · cases hNone
  · exact ⟨n, s₁,
      Machine.run_cons.mpr ⟨entered, rfl, hRun⟩, hCopies⟩

theorem Nest.contents_span
    {result : Option Span × Reader}
    (hOutcome : Outcome s.reader (Part s.reader) result)
    {part : Span}
    (hRead : result.1 = some part) :
    s.Contents result.2 (.span part) := by
  cases hOutcome with
  | stuck _ => cases hRead
  | failed _ _ _ => cases hRead
  | took x k _ hRoom hPart =>
      cases hRead
      rcases hPart.length_eq (by omega) with
        ⟨hLength, hOctets⟩
      rcases hPart with ⟨_, hStart, _⟩
      refine ⟨hStart, hLength, ?_, hOctets⟩
      change s.reader.pos + k ≤ s.reader.endPos
      omega

theorem Nest.contents_octetString
    {t : TagType}
    {os : Octets}
    (hRead : (s.reader.octetString t).1 = some os) :
    Holds s.reader (s.reader.octetString t).2 os := by
  have hOutcome := contentRead_outcome t Except.ok s.reader
  rw [← octetString_eq_contentRead t] at hOutcome
  simp only at hOutcome
  generalize s.reader.octetString t = result
    at hRead hOutcome ⊢
  cases hOutcome with
  | stuck _ => cases hRead
  | failed _ _ _ => cases hRead
  | took x k _ hRoom hFits =>
      cases hRead
      rcases hFits with ⟨part, hPart, hOk⟩
      cases hOk
      exact hPart.holds hPos hEnd hRoom

/- Nothing that is returned was made up. -/
theorem perform_contents
    {o : Operation}
    {x : Returned}
    (hRead : (perform o s.reader).1 = some x) :
    s.Contents (perform o s.reader).2 x := by
  cases o with
  | skipElement =>
      rcases Option.map_eq_some_iff.mp hRead with
        ⟨part, hPart, rfl⟩
      exact Nest.contents_span hPos hEnd
        (skipElement_outcome s.reader) hPart
  | octetStringView t =>
      rcases Option.map_eq_some_iff.mp hRead with
        ⟨part, hPart, rfl⟩
      exact Nest.contents_span hPos hEnd
        (primitiveContent_outcome t s.reader) hPart
  | octetString t =>
      rcases Option.map_eq_some_iff.mp hRead with
        ⟨os, hOs, rfl⟩
      exact Nest.contents_octetString hPos hEnd hOs
  | anyValue =>
      rcases Option.map_eq_some_iff.mp hRead with
        ⟨v, hV, rfl⟩
      exact Nest.copies_anyValue hPos hEnd hV
  | readVarbind =>
      rcases Option.map_eq_some_iff.mp hRead with
        ⟨vb, hVb, rfl⟩
      exact Nest.contents_readVarbind hPos hEnd hVb
  | varbindList =>
      rcases Option.map_eq_some_iff.mp hRead with
        ⟨vbs, hVbs, rfl⟩
      intro vb hMem
      exact Nest.contents_varbindList hPos hEnd hVbs hMem
  | nullValue =>
      simp only [perform] at hRead ⊢
      generalize s.reader.nullValue = read at hRead ⊢
      rcases read with ⟨result, r'⟩
      cases result with
      | false => cases hRead
      | true =>
          cases hRead
          trivial
  | finish =>
      simp only [perform] at hRead ⊢
      generalize s.reader.finish = read at hRead ⊢
      rcases read with ⟨result, r'⟩
      cases result with
      | false => cases hRead
      | true =>
          cases hRead
          trivial
  | readHeader | integer t | unsigned32 t | unsigned64 t
  | objectIdentifier =>
      -- Nothing of the buffer is handed out here.
      rcases Option.map_eq_some_iff.mp hRead with
        ⟨_, _, rfl⟩
      trivial

end

end Reader

end Ber

end Snmpio

------------------------------------------------------------
-- Confinement
------------------------------------------------------------

namespace Snmpio

namespace Ber

namespace Reader

variable {r : Reader}

theorem Nest.confined_ofInput
    (input : Octets) :
    (Nest.ofInput input).Confined where
  position := Nat.zero_le _
  nested := List.pairwise_singleton _ _
  inside := by
    intro e hMem
    cases List.mem_singleton.mp hMem
    exact le_rfl
  contents := by
    intro scope hMem
    cases hMem

section

variable {s s' : Nest}

/- Another reader of the same bound, inside it. -/
theorem Nest.Confined.move
    (hConfined : s.Confined)
    (hBuf : r.buf = s.reader.buf)
    (hEnd : r.endPos = s.reader.endPos)
    (hPos : r.pos ≤ s.reader.endPos) :
    ({ s with reader := r } : Nest).Confined where
  position := hPos.trans hEnd.ge
  nested := by
    rw [Nest.ends, hEnd]
    exact hConfined.nested
  inside := by
    rw [Nest.ends, hEnd, hBuf]
    exact hConfined.inside
  contents := hConfined.contents

theorem Nest.Confined.endPos_le
    (hConfined : s.Confined) :
    s.reader.endPos ≤ s.reader.buf.length :=
  hConfined.inside _ List.mem_cons_self

/- A new scope is inside the last. -/
theorem Nest.Confined.enter
    (hConfined : s.Confined)
    {scope : Scope}
    (hEnters : Enters s.reader scope r) :
    (Nest.mk r (scope :: s.scopes)).Confined where
  position := hEnters.position
  nested := by
    have hOuter := hConfined.nested
    rw [Nest.ends, ← hEnters.savedEnd] at hOuter
    refine List.pairwise_cons.mpr ⟨?_, hOuter⟩
    intro e hMem
    have hFirst : scope.savedEnd ≤ e := by
      rcases List.mem_cons.mp hMem with rfl | hRest
      · exact le_rfl
      · exact (List.pairwise_cons.mp hOuter).1 e hRest
    exact (hEnters.inner.trans hEnters.savedEnd.ge).trans
      hFirst
  inside := by
    intro e hMem
    rw [hEnters.buf]
    rcases List.mem_cons.mp hMem with rfl | hRest
    · exact hEnters.inner.trans hConfined.endPos_le
    · rw [List.map_cons, hEnters.savedEnd] at hRest
      exact hConfined.inside e hRest
  contents := by
    intro scope' hMem
    rcases List.mem_cons.mp hMem with rfl | hRest
    · rw [hEnters.savedEnd]
      exact hEnters.contentEnd.trans hEnters.inner
    · exact hConfined.contents scope' hRest

/- The one before it is entered again. -/
theorem Nest.Confined.leave
    {scope : Scope}
    {scopes : List Scope}
    (hConfined : (Nest.mk r (scope :: scopes)).Confined) :
    (Nest.mk (scope.close r) scopes).Confined where
  position := hConfined.contents scope List.mem_cons_self
  nested := (List.pairwise_cons.mp hConfined.nested).2
  inside := by
    intro e hMem
    simp only [close_buf]
    exact hConfined.inside e (List.mem_cons_of_mem _ hMem)
  contents := by
    intro scope' hMem
    exact hConfined.contents scope'
      (List.mem_cons_of_mem _ hMem)

/-
  A step of a confined program: it stays confined, the
  buffer stays, and so does a recorded error.
-/
theorem Nest.Confined.step
    (hConfined : s.Confined)
    {a : Action}
    (hStep : s.step a = some s') :
    s'.Confined ∧ s'.reader.buf = s.reader.buf ∧
      (s.reader.ec.isSome →
        s'.reader.ec = s.reader.ec) := by
  cases a with
  | read o =>
      cases hStep
      have hKept :=
        perform_keeps o s.reader hConfined.position
      exact ⟨hConfined.move hKept.buf hKept.endPos
        hKept.position, hKept.buf, hKept.sticky⟩
  | fail e =>
      cases hStep
      exact ⟨hConfined.move rfl rfl le_rfl, rfl,
        fail_ec_of_isSome⟩
  | enter t =>
      cases hStep
      have hEnters :
          Enters s.reader (s.reader.enter t).1
            (s.reader.enter t).2 :=
        enter_enters hConfined.position
      exact ⟨hConfined.enter hEnters, hEnters.buf,
        hEnters.sticky⟩
  | leave =>
      rcases s with ⟨r, scopes⟩
      cases scopes with
      | nil => cases hStep
      | cons scope scopes =>
          cases hStep
          exact ⟨hConfined.leave, close_buf scope r,
            close_of_error⟩

/- So it is in every program of calls. -/
theorem Nest.confined_of_run
    {input : Octets}
    {actions : List Action}
    (hRun :
      Machine.run Nest.step (Nest.ofInput input) actions =
        some s) :
    s.Confined ∧ s.reader.buf = input := by
  refine Machine.run_invariant
    (P := fun _ s => s.Confined ∧ s.reader.buf = input)
    ⟨Nest.confined_ofInput input, rfl⟩ ?_ hRun
  intro _ m a m' _ hBefore hStep
  rcases hBefore.1.step hStep with ⟨hConfined, hBuf, _⟩
  exact ⟨hConfined, hBuf.trans hBefore.2⟩

/- The first error recorded is the one that is kept. -/
theorem Nest.Confined.sticky_of_run
    (hConfined : s.Confined)
    {e : Errc}
    (hEc : s.reader.ec = some e)
    {more : List Action}
    (hRun : Machine.run Nest.step s more = some s') :
    s'.reader.ec = some e := by
  have hBoth : s'.Confined ∧ s'.reader.ec = some e := by
    refine Machine.run_invariant
      (P := fun _ s => s.Confined ∧ s.reader.ec = some e)
      ⟨hConfined, hEc⟩ ?_ hRun
    intro _ m a m' _ hBefore hStep
    rcases hBefore.1.step hStep with ⟨hKept, _, hSticky⟩
    have hSome : m.reader.ec.isSome := by
      rw [hBefore.2]
      rfl
    exact ⟨hKept, (hSticky hSome).trans hBefore.2⟩
  exact hBoth.2

end

/-
  At every point of every program: the cursor is inside the
  innermost open scope and every scope is inside the one
  around it and inside the buffer; whatever is handed out
  was taken from between the cursor and the innermost end;
  no value means that an error is recorded; and a recorded
  error stays, and nothing is read after it.
-/
theorem reader_confined
    {input : Octets}
    {actions : List Action}
    {s : Nest}
    (hRun :
      Machine.run Nest.step (Nest.ofInput input) actions =
        some s) :
    s.Confined ∧ s.reader.buf = input ∧
      (∀ o x, (perform o s.reader).1 = some x →
        s.Contents (perform o s.reader).2 x) ∧
      (∀ o, (perform o s.reader).1 = none →
        (perform o s.reader).2.ec.isSome) ∧
      ∀ e more s', s.reader.ec = some e →
        Machine.run Nest.step s more = some s' →
          s'.reader.ec = some e ∧
            ∀ o, (perform o s'.reader).1 = none := by
  rcases Nest.confined_of_run hRun with ⟨hConfined, hBuf⟩
  refine ⟨hConfined, hBuf, ?_, ?_, ?_⟩
  · intro o x hRead
    exact perform_contents hConfined.position
      hConfined.endPos_le hRead
  · intro o
    exact (perform_keeps o s.reader hConfined.position).fails
  · intro e more s' hEc hMore
    have hKept := hConfined.sticky_of_run hEc hMore
    refine ⟨hKept, perform_quiet ?_⟩
    rw [hKept]
    rfl

/- An element with another one after it. -/
def clampedInput : Octets :=
  [0x30, 0x03, 0x02, 0x01, 0x07, 0x05, 0x00]

/- Inside the first element, all of it read. -/
def clampedNest : Nest :=
  { reader :=
      { buf := clampedInput
        pos := 5
        endPos := 5
        ec := none }
    scopes := [⟨7, 5⟩] }

/- An INTEGER that ends after its SEQUENCE. -/
theorem reader_confined_clamped :
    Machine.run Nest.step (Nest.ofInput clampedInput)
        [.enter Tag.sequence,
          .read (.integer Tag.integer)] =
      some clampedNest ∧
      clampedNest.Confined ∧
      (perform .nullValue clampedNest.reader).2.ec.isSome :=
  have hRun :
      Machine.run Nest.step (Nest.ofInput clampedInput)
          [.enter Tag.sequence,
            .read (.integer Tag.integer)] =
        some clampedNest := rfl
  ⟨hRun, (reader_confined hRun).1,
    (reader_confined hRun).2.2.2.1 .nullValue rfl⟩

end Reader

end Ber

end Snmpio
