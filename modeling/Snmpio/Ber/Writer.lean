import Snmpio.Ber.Tag
import Snmpio.Core.Error
import Snmpio.Core.Value

/-
  The BER writer.

  A constructed element is written with a one-octet length
  placeholder, which `Scope.close` patches and widens in
  place once the content is there.  Errors are sticky.

  Key definitions include:
    * `Ber.lengthOctets`
    * `Ber.putLength`
    * `Ber.Writer`
    * `Ber.Writer.beginConstructed`
    * `Ber.Writer.Scope.close`
    * `Ber.Writer.write`
    * `Ber.Writer.varbindList`
-/

------------------------------------------------------------
-- Lengths and Sub-Identifiers
------------------------------------------------------------

namespace Snmpio

namespace Ber

open Octets

/-
  The loop of `lengthOctets`: how often `v` shifts right by
  one octet before it is zero.  The fuel is never short when
  it starts at `v`.
-/
def significantOctets :
    (fuel v : Nat) → Nat
| 0, _ => 0
| fuel + 1, v =>
    if v = 0 then 0
    else significantOctets fuel (v >>> 8) + 1

/- Octets needed for a definite length. -/
def lengthOctets
    (n : Nat) : Nat :=
  if n < 0x80 then 1
  else 1 + significantOctets n n

/- What `putLength` appends for the length `n`. -/
def lengthBytes
    (n : Nat) : Octets :=
  if n < 0x80 then
    [UInt8.ofNat n]
  else
    let significant := lengthOctets n - 1
    UInt8.ofNat (0x80 ||| significant) ::
      bigEndian significant n

/- The loop of `subidOctets`. -/
def subidOctetsFrom :
    (fuel v : Nat) → Nat
| 0, _ => 1
| fuel + 1, v =>
    if v ≥ 0x80 then subidOctetsFrom fuel (v >>> 7) + 1
    else 1

/- Base-128 octets of a sub-identifier. -/
def subidOctets
    (v : Nat) : Nat :=
  subidOctetsFrom v v

/-
  The loop of `emit`: the `k` low base-128 groups of `v`,
  the continuation bit on all but the last.
-/
def emitGroups :
    (k v : Nat) → Octets
| 0, _ => []
| k + 1, v =>
    let group := (v >>> (k * 7)) &&& 0x7F
    UInt8.ofNat (if k = 0 then group else group ||| 0x80) ::
      emitGroups k v

/- The octets of one sub-identifier. -/
def emit
    (v : Nat) : Octets :=
  emitGroups (subidOctets v) v

/-
  The sub-identifiers as they travel: the first two arcs
  packed into one, the others as they are.
-/
def packedSubids
    (o : Oid) : List Nat :=
  match o.subids with
  | first :: second :: rest =>
      (first.toNat * 40 + second.toNat) ::
        rest.map UInt32.toNat
  | _ => []

/- The length is written before the content. -/
def encodedOidContentSize
    (o : Oid) : Nat :=
  ((packedSubids o).map subidOctets).sum

/- Octets `objectIdentifier` emits, or 0. -/
def encodedOidSize
    (o : Oid) : Nat :=
  if ¬ o.isEncodable then 0
  else
    let content := encodedOidContentSize o
    1 + lengthOctets content + content

end Ber

end Snmpio

------------------------------------------------------------
-- The Writer
------------------------------------------------------------

namespace Snmpio

namespace Ber

open Octets

/- `m_buf` and the sticky `m_ec`. -/
structure Writer where
  buf : Octets := []
  ec : Option Errc := none

namespace Writer

def size
    (w : Writer) : Nat :=
  w.buf.length

/- Only the first fault is recorded. -/
def fail
    (w : Writer)
    (e : Errc) : Writer :=
  match w.ec with
  | none => { w with ec := some e }
  | some _ => w

/- `m_buf.insert(m_buf.end(), ...)`. -/
def append
    (w : Writer)
    (bytes : Octets) : Writer :=
  { w with buf := w.buf ++ bytes }

def putTag
    (w : Writer)
    (t : TagType) : Writer :=
  w.append [t]

def putLength
    (w : Writer)
    (n : Nat) : Writer :=
  w.append (lengthBytes n)

/- The guard `beginConstructed` returns. -/
structure Scope where
  lengthPos : Nat

/-
  The destructor: patches the placeholder, after widening it
  in place when the content needs a long-form length.
-/
def Scope.close
    (s : Scope)
    (w : Writer) : Writer :=
  let contentStart := s.lengthPos + 1
  let contentLen := w.buf.length - contentStart
  let needed := lengthOctets contentLen
  if needed > 1 then
    let widened :=
      w.buf.take contentStart ++
        List.replicate (needed - 1) 0 ++
        w.buf.drop contentStart
    let counted :=
      widened.set s.lengthPos
        (UInt8.ofNat (0x80 ||| (needed - 1)))
    { w with
      buf :=
        (List.range (needed - 1)).foldl
          (fun buf i =>
            buf.set (s.lengthPos + 1 + i)
              (octetAt contentLen (needed - 2 - i)))
          counted }
  else
    { w with
      buf := w.buf.set s.lengthPos
        (UInt8.ofNat contentLen) }

/- A length of one octet, until the scope closes. -/
def beginConstructed
    (w : Writer)
    (t : TagType) : Scope × Writer :=
  let w := if isConstructed t then w
    else w.fail .unexpectedTag
  let w := w.putTag t
  (⟨w.buf.length⟩, w.append [0])

def beginSequence
    (w : Writer) : Scope × Writer :=
  w.beginConstructed Tag.sequence

/- A header, and content that is ready. -/
def tlv
    (w : Writer)
    (t : TagType)
    (content : Octets) : Writer :=
  if w.ec.isSome then w
  else ((w.putTag t).putLength content.length).append content

/- Octets that are encoded already. -/
def raw
    (w : Writer)
    (bytes : Octets) : Writer :=
  if w.ec.isSome then w
  else w.append bytes

/- Two's complement in as few octets as will do. -/
def integer
    (w : Writer)
    (v : Int32)
    (t : TagType := Tag.integer) : Writer :=
  if w.ec.isSome then w
  else
    let encoded := bigEndian 4 v.toUInt32.toNat
    let content := stripPadding (decide (v < 0)) encoded
    ((w.putTag t).putLength content.length).append content

def unsigned64
    (w : Writer)
    (v : UInt64)
    (t : TagType) : Writer :=
  if w.ec.isSome then w
  else
    -- One leading octet is room for the sign bit.
    let encoded := 0 :: bigEndian 8 v.toNat
    let content := stripPadding false encoded
    ((w.putTag t).putLength content.length).append content

def unsigned32
    (w : Writer)
    (v : UInt32)
    (t : TagType) : Writer :=
  w.unsigned64 v.toUInt64 t

def octetString
    (w : Writer)
    (v : Octets)
    (t : TagType := Tag.octetString) : Writer :=
  if w.ec.isSome then w
  else ((w.putTag t).putLength v.length).append v

def nullValue
    (w : Writer) : Writer :=
  if w.ec.isSome then w
  else (w.putTag Tag.null).putLength 0

/- Nothing is written of a name that is refused. -/
def objectIdentifier
    (w : Writer)
    (o : Oid) : Writer :=
  if w.ec.isSome then w
  else if ¬ o.isEncodable then w.fail .oidNotEncodable
  else
    ((w.putTag Tag.objectIdentifier).putLength
      (encodedOidContentSize o)).append
        ((packedSubids o).flatMap emit)

/- `write(const Value&)`. -/
def write
    (w : Writer)
    (v : Value) : Writer :=
  if w.ec.isSome then w
  else
    match v with
    | .null => w.nullValue
    | .integer v => w.integer v
    | .octetString v => w.octetString v
    | .oid o => w.objectIdentifier o
    | .ipAddress v => w.octetString v.toList Tag.ipAddress
    | .counter32 v => w.unsigned32 v Tag.counter32
    | .gauge32 v => w.unsigned32 v Tag.gauge32
    | .timeTicks v => w.unsigned32 v Tag.timeticks
    | .counter64 v => w.unsigned64 v Tag.counter64
    | .opaqueOctets v => w.octetString v Tag.opaqueOctets
    | .exception .noSuchObject => w.tlv Tag.noSuchObject []
    | .exception .noSuchInstance =>
        w.tlv Tag.noSuchInstance []
    | .exception .endOfMibView => w.tlv Tag.endOfMibView []

/- `write(const Varbind&)`. -/
def writeVarbind
    (w : Writer)
    (vb : Varbind) : Writer :=
  let (s, w) := w.beginSequence
  let w := w.objectIdentifier vb.name
  let w := w.write vb.val
  s.close w

/- A scope of scopes. -/
def varbindList
    (w : Writer)
    (vbs : List Varbind) : Writer :=
  let (s, w) := w.beginSequence
  let w := vbs.foldl writeVarbind w
  s.close w

end Writer

end Ber

end Snmpio
