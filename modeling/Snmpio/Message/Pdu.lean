import Snmpio.Ber.Reader
import Snmpio.Ber.Writer

/-
  Protocol Data Units and SNMPv2c messages.

  The out-parameter `ec` of the source is returned beside
  the result.

  Key definitions include:
    * `PduType`
    * `Pdu`
    * `encodePdu`
    * `decodePdu`
    * `messageVersion`
    * `encodeV2cMessage`
    * `decodeV2cMessage`
-/

------------------------------------------------------------
-- Protocol Data Units
------------------------------------------------------------

namespace Snmpio

open Ber

/- The PDU types, in the source's order. -/
inductive PduType where
  | get
  | getNext
  | getBulk
  | set
  | response
  | report
  deriving DecidableEq, Repr

namespace PduType

/- The enumeration is valued as its identifier octets. -/
def tag :
    PduType → TagType
| .get => Tag.getRequest
| .getNext => Tag.getNextRequest
| .getBulk => Tag.getBulkRequest
| .set => Tag.setRequest
| .response => Tag.response
| .report => Tag.report

/-
  `isPduTag` and, for a tag it accepts, the cast to
  `PduType`.
-/
def ofTag?
    (t : TagType) : Option PduType :=
  if t = Tag.getRequest then some .get
  else if t = Tag.getNextRequest then some .getNext
  else if t = Tag.getBulkRequest then some .getBulk
  else if t = Tag.setRequest then some .set
  else if t = Tag.response then some .response
  else if t = Tag.report then some .report
  else none

end PduType

/-
  GETBULK reuses the error slots as non-repeaters and
  max-repetitions.
-/
structure Pdu where
  type : PduType := .get
  requestId : Int32 := 0
  errorStatus : Int32 := 0
  errorIndex : Int32 := 0
  varbinds : List Varbind := []
  deriving DecidableEq

namespace Pdu

def setBulkParams
    (p : Pdu)
    (nonRepeaters maxRepetitions : Int32) : Pdu :=
  { p with
    errorStatus := nonRepeaters
    errorIndex := maxRepetitions }

/- Every name and every OID Value can be written. -/
def isEncodable
    (p : Pdu) : Bool :=
  p.varbinds.all Varbind.isEncodable

end Pdu

def encodePdu
    (w : Writer)
    (p : Pdu) : Writer :=
  let (s, w) := w.beginConstructed p.type.tag
  let w := w.integer p.requestId
  let w := w.integer p.errorStatus
  let w := w.integer p.errorIndex
  let w := w.varbindList p.varbinds
  s.close w

/- The four reads inside a PDU, checked after the last. -/
def pduFields :
    Reader →
      Option (Int32 × Int32 × Int32 × List Varbind) × Reader :=
  Reader.both Reader.integer
    (Reader.both Reader.integer
      (Reader.both Reader.integer Reader.varbindList))

def decodePdu
    (r : Reader) : Option Pdu × Reader :=
  if ¬ r.ok then (none, r)
  else
    match r.peekTag with
    | none => (none, r.fail .truncated)
    | some t =>
        match PduType.ofTag? t with
        | none => (none, r.fail .unexpectedPduType)
        | some type =>
            Reader.mapRead
              (fun fields =>
                { type := type
                  requestId := fields.1
                  errorStatus := fields.2.1
                  errorIndex := fields.2.2.1
                  varbinds := fields.2.2.2 })
              (r.inScope t pduFields)

end Snmpio

------------------------------------------------------------
-- SNMPv2c Messages
------------------------------------------------------------

namespace Snmpio

open Ber

/- SNMPv2c is version 1 on the wire. -/
def versionV2c : Int32 := 1

structure V2cMessage where
  community : Octets
  pdu : Pdu
  deriving DecidableEq

/- The version field, without decoding the rest. -/
def messageVersion
    (datagram : Octets) : Option Int32 :=
  let (_, r) := (Reader.ofInput datagram).enter Tag.sequence
  r.integer.1

/- The writer's statements, up to `ec = w.error()`. -/
def writeV2cMessage
    (community : Octets)
    (pdu : Pdu) : Writer :=
  let (s, w) := ({} : Writer).beginSequence
  let w := w.integer versionV2c
  let w := w.octetString community
  let w := encodePdu w pdu
  s.close w

def encodeV2cMessage
    (community : Octets)
    (pdu : Pdu) : Octets × Option Errc :=
  let w := writeV2cMessage community pdu
  match w.ec with
  | some e => ([], some e)
  | none => (w.buf, none)

/- The statements inside the message's scope. -/
def v2cBody
    (r : Reader) :
    Except Reader.Fault (V2cMessage × Reader) := do
  let ((version, community), r) ←
    Reader.orError
      (Reader.both Reader.integer Reader.octetString r)
  if version ≠ versionV2c then throw (some .badVersion)
  let (pdu, r) ← Reader.orError (decodePdu r)
  return (⟨community, pdu⟩, r)

def decodeV2cMessage
    (datagram : Octets) :
    Option V2cMessage × Option Errc :=
  resultAndError
    (Reader.wholeElement Tag.sequence v2cBody datagram)

end Snmpio
