import Snmpio.Ber.Tag
import Snmpio.Core.Error
import Snmpio.Core.Value

/-
  The BER reader: a cursor over a buffer, clamped to the
  innermost open constructed element, with a sticky error.

  A read takes the reader and returns its result with the
  reader after it.  `std::nullopt` is `none`.

  Key definitions include:
    * `Ber.Reader`
    * `Ber.Reader.readHeader`
    * `Ber.Reader.enter`
    * `Ber.Reader.Scope.close`
    * `Ber.Reader.integer`
    * `Ber.decodeOidContent`
    * `Ber.Reader.anyValue`
    * `Ber.Reader.varbindList`
    * `Ber.Reader.orError`
    * `Ber.Reader.inElement`
    * `Ber.Reader.wholeElement`
-/

------------------------------------------------------------
-- The Cursor
------------------------------------------------------------

namespace Snmpio

namespace Ber

/- `m_buf`, `m_pos`, `m_end` and `m_ec`. -/
structure Reader where
  buf : Octets
  pos : Nat
  endPos : Nat
  ec : Option Errc

/- A part of the buffer, and where it starts in it. -/
structure Span where
  start : Nat
  octets : Octets

namespace Reader

/- `Reader(input)`. -/
def ofInput
    (input : Octets) : Reader :=
  { buf := input
    pos := 0
    endPos := input.length
    ec := none }

def ok
    (r : Reader) : Bool :=
  r.ec.isNone

/- The first fault is kept; the cursor is clamped. -/
def fail
    (r : Reader)
    (e : Errc) : Reader :=
  { r with
    ec := some (r.ec.getD e)
    pos := r.endPos }

def remaining
    (r : Reader) : Nat :=
  r.endPos - r.pos

def atEnd
    (r : Reader) : Bool :=
  decide (r.pos ≥ r.endPos)

/- `m_buf[m_pos]`. -/
def current
    (r : Reader) : UInt8 :=
  r.buf.getD r.pos 0

def advance
    (r : Reader)
    (n : Nat) : Reader :=
  { r with pos := r.pos + n }

/- `m_buf.subspan(m_pos, length)`. -/
def subspan
    (r : Reader)
    (length : Nat) : Span :=
  { start := r.pos
    octets := (r.buf.drop r.pos).take length }

def peekTag
    (r : Reader) : Option TagType :=
  if r.ec.isSome ∨ r.pos ≥ r.endPos then none
  else some r.current

/- Asserts that the whole input was consumed. -/
def finish
    (r : Reader) : Bool × Reader :=
  if r.ec.isSome then (false, r)
  else if r.pos ≠ r.endPos then
    (false, r.fail .trailingData)
  else (true, r)

end Reader

end Ber

end Snmpio

------------------------------------------------------------
-- Headers and Scopes
------------------------------------------------------------

namespace Snmpio

namespace Ber

namespace Reader

structure Header where
  tag : TagType
  length : Nat

/- The last check of `readHeader`. -/
def headerOf
    (r : Reader)
    (t : TagType)
    (length : Nat) : Option Header × Reader :=
  if length > r.remaining then
    (none, r.fail .truncated)
  else
    (some ⟨t, length⟩, r)

def readHeader
    (r : Reader) : Option Header × Reader :=
  if r.ec.isSome then (none, r)
  else if r.remaining < 2 then
    (none, r.fail .truncated)
  else
    let t := r.current
    let r := r.advance 1
    if t &&& numberMask = highTagNumberEscape then
      (none, r.fail .highTagNumber)
    else
      let first := r.current.toNat
      let r := r.advance 1
      if first < 0x80 then r.headerOf t first
      else if first = 0x80 then
        (none, r.fail .indefiniteLength)
      else if first = 0xFF then
        (none, r.fail .reservedLength)
      else
        let count := first &&& 0x7F
        if count > 4 then (none, r.fail .lengthTooLarge)
        else if r.remaining < count then
          (none, r.fail .truncated)
        else
          let length :=
            (r.subspan count).octets.foldl
              (fun n b => (n <<< 8) ||| b.toNat) 0
          (r.advance count).headerOf t length

/- The guard `enter` returns. -/
structure Scope where
  savedEnd : Nat
  contentEnd : Nat

/- The destructor restores the outer bound. -/
def Scope.close
    (s : Scope)
    (r : Reader) : Reader :=
  let r :=
    if r.ok ∧ r.pos ≠ s.contentEnd then
      r.fail .trailingData
    else r
  { r with
    endPos := s.savedEnd
    pos := s.contentEnd }

/- Enters a constructed element of the given tag. -/
def enter
    (r : Reader)
    (expected : TagType) : Scope × Reader :=
  let savedEnd := r.endPos
  if r.ec.isSome then (⟨savedEnd, r.pos⟩, r)
  else if ¬ isConstructed expected then
    let r := r.fail .unexpectedTag
    (⟨savedEnd, r.pos⟩, r)
  else if r.peekTag ≠ some expected then
    let r := r.fail .unexpectedTag
    (⟨savedEnd, r.pos⟩, r)
  else
    match r.readHeader with
    | (none, r) => (⟨savedEnd, r.pos⟩, r)
    | (some h, r) =>
        let contentEnd := r.pos + h.length
        (⟨savedEnd, contentEnd⟩,
          { r with endPos := contentEnd })

def primitiveContent
    (r : Reader)
    (expected : TagType) : Option Span × Reader :=
  if r.ec.isSome then (none, r)
  else
    match r.peekTag with
    | none => (none, r.fail .truncated)
    | some tagHere =>
        if tagHere ≠ expected then
          (none, r.fail .unexpectedTag)
        else if isConstructed expected then
          (none, r.fail .unexpectedTag)
        else
          match r.readHeader with
          | (none, r) => (none, r)
          | (some h, r) =>
              (some (r.subspan h.length),
                r.advance h.length)

/- Consumes the next element, whatever it is. -/
def skipElement
    (r : Reader) : Option Span × Reader :=
  if r.ec.isSome then (none, r)
  else
    let start := r.pos
    match r.readHeader with
    | (none, r) => (none, r)
    | (some h, r) =>
        let r := r.advance h.length
        (some
          { start := start
            octets :=
              (r.buf.drop start).take (r.pos - start) },
          r)

end Reader

end Ber

end Snmpio

------------------------------------------------------------
-- Read Patterns
------------------------------------------------------------

namespace Snmpio

namespace Ber

namespace Reader

variable {α β γ : Type}

/-
  A block that enters a constructed element, runs `body` and
  leaves it.  The guard may flag trailing data on the way
  out, so the error is asked for once more after it.
-/
def inScope
    (r : Reader)
    (t : TagType)
    (body : Reader → Option α × Reader) :
    Option α × Reader :=
  let (s, r) := r.enter t
  match body r with
  | (none, r) => (none, s.close r)
  | (some x, r) =>
      let r := s.close r
      if r.ec.isSome then (none, r)
      else (some x, r)

/-
  Two reads in a row, asked for success only after both:
  `if (!a || !b) return std::nullopt`.
-/
def both
    (first : Reader → Option α × Reader)
    (second : Reader → Option β × Reader)
    (r : Reader) : Option (α × β) × Reader :=
  let (a, r) := first r
  let (b, r) := second r
  match a, b with
  | some a, some b => (some (a, b), r)
  | _, _ => (none, r)

/-
  Two reads, each asked for success at once:
  `if (!a) return std::nullopt` before the second.
-/
def andThen
    (first : Reader → Option α × Reader)
    (second : Reader → Option β × Reader)
    (make : α → β → γ)
    (r : Reader) : Option γ × Reader :=
  match first r with
  | (none, r) => (none, r)
  | (some a, r) =>
      match second r with
      | (none, r) => (none, r)
      | (some b, r) => (some (make a b), r)

/- A read, and the position just past what it took. -/
def positioned
    (read : Reader → Option α × Reader)
    (r : Reader) : Option (α × Nat) × Reader :=
  let (x, r) := read r
  (x.map (fun x => (x, r.pos)), r)

/- Applies a constructor to the result of a read. -/
def mapRead
    (f : α → β)
    (read : Option α × Reader) : Option β × Reader :=
  (read.1.map f, read.2)

end Reader

end Ber

end Snmpio

------------------------------------------------------------
-- Object Identifier Content
------------------------------------------------------------

namespace Snmpio

namespace Ber

/-
  The inner loop of `decodeOidContent`: one base-128
  sub-identifier, and the octets after it.
-/
def readSubid :
    (subid : Nat) → Octets → Except Errc (Nat × Octets)
| _, [] => .error .oidTruncatedSubid
| subid, b :: rest =>
    let subid := (subid <<< 7) ||| (b.toNat &&& 0x7F)
    if subid > 2 ^ 32 - 1 then
      .error .oidSubidOverflow
    else if b.toNat &&& 0x80 = 0 then
      .ok (subid, rest)
    else
      readSubid subid rest

/- X.690 8.19.4, in reverse. -/
def unpackFirst
    (subid : Nat) : List UInt32 :=
  if subid < 40 then
    [0, UInt32.ofNat subid]
  else if subid < 80 then
    [1, UInt32.ofNat (subid - 40)]
  else
    [2, UInt32.ofNat (subid - 80)]

/-
  The outer loop of `decodeOidContent`.  Every round takes
  at least one octet, so the content's size is enough fuel.
-/
def decodeSubids :
    (fuel : Nat) → (firstSubid : Bool) →
      (result : List UInt32) → Octets →
      Except Errc (List UInt32)
| _, _, result, [] => .ok result
| 0, _, result, _ :: _ => .ok result
| fuel + 1, firstSubid, result, b :: rest =>
    if b.toNat &&& 0x7F = 0 ∧ b.toNat &&& 0x80 ≠ 0 then
      .error .oidNonMinimal
    else
      match readSubid 0 (b :: rest) with
      | .error e => .error e
      | .ok (subid, rest) =>
          let result := result ++
            (if firstSubid then unpackFirst subid
              else [UInt32.ofNat subid])
          if result.length > Oid.maxSubids then
            .error .oidTooLong
          else
            decodeSubids fuel false result rest

def decodeOidContent
    (content : Octets) : Except Errc Oid :=
  if content.isEmpty then .error .oidEmpty
  else
    match decodeSubids content.length true [] content with
    | .error e => .error e
    | .ok subids => .ok ⟨subids⟩

end Ber

end Snmpio

------------------------------------------------------------
-- Primitive Reads
------------------------------------------------------------

namespace Snmpio

namespace Ber

namespace Reader

open Octets

def integer
    (r : Reader)
    (expected : TagType := Tag.integer) :
    Option Int32 × Reader :=
  match r.primitiveContent expected with
  | (none, r) => (none, r)
  | (some content, r) =>
      if content.octets.isEmpty then
        (none, r.fail .emptyContent)
      else
        let negative := isNegative content.octets
        let significant :=
          stripPadding negative content.octets
        if significant.length > 4 then
          (none, r.fail .integerTooLarge)
        else
          let magnitude : UInt32 :=
            significant.foldl
              (fun m b => (m <<< 8) ||| b.toUInt32)
              (if negative then 0xFFFFFFFF else 0)
          (some magnitude.toInt32, r)

def unsignedContent
    (r : Reader)
    (expected : TagType)
    (maxSignificant : Nat) : Option UInt64 × Reader :=
  match r.primitiveContent expected with
  | (none, r) => (none, r)
  | (some content, r) =>
      if content.octets.isEmpty then
        (none, r.fail .emptyContent)
      else
        let significant :=
          content.octets.dropWhile (· == 0)
        if significant.length > maxSignificant then
          (none, r.fail .integerTooLarge)
        else
          let v : UInt64 :=
            significant.foldl
              (fun v b => (v <<< 8) ||| b.toUInt64) 0
          (some v, r)

def unsigned32
    (r : Reader)
    (expected : TagType) : Option UInt32 × Reader :=
  match r.unsignedContent expected 4 with
  | (none, r) => (none, r)
  | (some v, r) => (some v.toUInt32, r)

def unsigned64
    (r : Reader)
    (expected : TagType) : Option UInt64 × Reader :=
  r.unsignedContent expected 8

def octetStringView
    (r : Reader)
    (expected : TagType := Tag.octetString) :
    Option Span × Reader :=
  r.primitiveContent expected

def octetString
    (r : Reader)
    (expected : TagType := Tag.octetString) :
    Option Octets × Reader :=
  match r.primitiveContent expected with
  | (none, r) => (none, r)
  | (some content, r) => (some content.octets, r)

def nullValue
    (r : Reader) : Bool × Reader :=
  match r.primitiveContent Tag.null with
  | (none, r) => (false, r)
  | (some content, r) =>
      if ¬ content.octets.isEmpty then
        (false, r.fail .badNull)
      else (true, r)

def objectIdentifier
    (r : Reader) : Option Oid × Reader :=
  match r.primitiveContent Tag.objectIdentifier with
  | (none, r) => (none, r)
  | (some content, r) =>
      match decodeOidContent content.octets with
      | .error e => (none, r.fail e)
      | .ok o => (some o, r)

end Reader

end Ber

end Snmpio

------------------------------------------------------------
-- Values and Varbinds
------------------------------------------------------------

namespace Snmpio

namespace Ber

namespace Reader

def ipAddress
    (r : Reader) : Option Value × Reader :=
  match r.primitiveContent Tag.ipAddress with
  | (none, r) => (none, r)
  | (some content, r) =>
      if h : content.octets.length = 4 then
        (some (.ipAddress ⟨content.octets.toArray, by
          simpa using h⟩), r)
      else (none, r.fail .badIpAddress)

/- The three markers share one branch of the switch. -/
def exceptionMarker
    (r : Reader)
    (t : TagType)
    (e : ValueException) : Option Value × Reader :=
  match r.primitiveContent t with
  | (none, r) => (none, r)
  | (some content, r) =>
      if ¬ content.octets.isEmpty then
        (none, r.fail .trailingData)
      else (some (.exception e), r)

/- Any Value, dispatched on the tag. -/
def anyValue
    (r : Reader) : Option Value × Reader :=
  if r.ec.isSome then (none, r)
  else
    match r.peekTag with
    | none => (none, r.fail .truncated)
    | some t =>
        if t = Tag.null then
          match r.nullValue with
          | (false, r) => (none, r)
          | (true, r) => (some .null, r)
        else if t = Tag.integer then
          mapRead .integer r.integer
        else if t = Tag.octetString then
          mapRead .octetString r.octetString
        else if t = Tag.objectIdentifier then
          mapRead .oid r.objectIdentifier
        else if t = Tag.ipAddress then
          r.ipAddress
        else if t = Tag.counter32 then
          mapRead .counter32 (r.unsigned32 Tag.counter32)
        else if t = Tag.gauge32 then
          mapRead .gauge32 (r.unsigned32 Tag.gauge32)
        else if t = Tag.timeticks then
          mapRead .timeTicks (r.unsigned32 Tag.timeticks)
        else if t = Tag.counter64 then
          mapRead .counter64 (r.unsigned64 Tag.counter64)
        else if t = Tag.opaqueOctets then
          mapRead .opaqueOctets
            (r.octetString Tag.opaqueOctets)
        else if t = Tag.noSuchObject then
          r.exceptionMarker t .noSuchObject
        else if t = Tag.noSuchInstance then
          r.exceptionMarker t .noSuchInstance
        else if t = Tag.endOfMibView then
          r.exceptionMarker t .endOfMibView
        else (none, r.fail .unknownValueTag)

/- The statements between `enter` and the closing brace. -/
def varbindBody :
    Reader → Option Varbind × Reader :=
  andThen objectIdentifier anyValue Varbind.mk

def readVarbind
    (r : Reader) : Option Varbind × Reader :=
  if r.ec.isSome then (none, r)
  else r.inScope Tag.sequence varbindBody

/-
  The loop of `varbindList`.  Every Varbind takes at least
  one octet, so the octets remaining are enough fuel.
-/
def varbindLoop :
    (fuel : Nat) → (out : List Varbind) → Reader →
      Option (List Varbind) × Reader
| 0, out, r => (some out, r)
| fuel + 1, out, r =>
    if r.ok ∧ ¬ r.atEnd then
      match r.readVarbind with
      | (none, r) => (none, r)
      | (some vb, r) => varbindLoop fuel (out ++ [vb]) r
    else (some out, r)

def varbindList
    (r : Reader) : Option (List Varbind) × Reader :=
  if r.ec.isSome then (none, r)
  else
    r.inScope Tag.sequence
      (fun r => varbindLoop r.remaining [] r)

end Reader

end Ber

end Snmpio

------------------------------------------------------------
-- Decoders With Early Returns
------------------------------------------------------------

namespace Snmpio

namespace Ber

namespace Reader

variable {α : Type}

/- The `ec` a decoder leaves behind, where it is not empty. -/
abbrev Fault := Option Errc

/- `if (!x) { ec = r.error(); return std::nullopt; }`. -/
def orError :
    Option α × Reader → Except Fault (α × Reader)
| (none, r) => .error r.ec
| (some x, r) => .ok (x, r)

/-
  A block inside a constructed element that may return
  early.  On the way out the guard may flag trailing data,
  which is asked for after it.
-/
def inElement
    (t : TagType)
    (body : Reader → Except Fault (α × Reader))
    (r : Reader) : Except Fault (α × Reader) := do
  let (s, r) := r.enter t
  let (x, r) ← body r
  let r := s.close r
  if ¬ r.ok then throw r.ec
  return (x, r)

/- The same at the outermost level of an input. -/
def wholeElement
    (t : TagType)
    (body : Reader → Except Fault (α × Reader))
    (input : Octets) : Except Fault α := do
  let (s, r) := (Reader.ofInput input).enter t
  let (x, r) ← body r
  let r := s.close r
  match r.finish with
  | (false, r) => throw r.ec
  | (true, _) => return x

end Reader

/- A decoder's result beside the `ec` it leaves. -/
def resultAndError
    {α : Type} :
    Except Reader.Fault α → Option α × Option Errc
| .error ec => (none, ec)
| .ok x => (some x, none)

end Ber

end Snmpio
