import Snmpio.Ber.Grammar
import Snmpio.Message.V3Message

/-
  The octet strings that are PDUs, SNMPv2c messages and
  SNMPv3 messages, as relations that mention neither decoder
  nor encoder.

  Key definitions include:
    * `PduForm`
    * `V2cForm`
    * `ScopedPduForm`
    * `V3Form`
-/

------------------------------------------------------------
-- Message Grammars
------------------------------------------------------------

namespace Snmpio

open Ber

/- The tags of the six PDU types. -/
def pduTag :
    PduType → TagType
| .get => 0xA0
| .getNext => 0xA1
| .response => 0xA2
| .set => 0xA3
| .getBulk => 0xA5
| .report => 0xA8

/- Three INTEGERs and a Varbind list. -/
def PduContent
    (content : Octets)
    (p : Pdu) : Prop :=
  Seq (Element 0x02 IntegerContent)
    (Seq (Element 0x02 IntegerContent)
      (Seq (Element 0x02 IntegerContent) VarbindListForm))
    content
    (p.requestId, p.errorStatus, p.errorIndex, p.varbinds)

def PduForm
    (d : Octets)
    (p : Pdu) : Prop :=
  Element (pduTag p.type) PduContent d p

/- The version 1, the Community and one PDU. -/
def V2cContent
    (content : Octets)
    (m : V2cMessage) : Prop :=
  ∃ version community pdu,
    content = version ++ community ++ pdu ∧
      Element 0x02 IntegerContent version 1 ∧
      Element 0x04 OctetsContent community m.community ∧
      PduForm pdu m.pdu

def V2cForm
    (d : Octets)
    (m : V2cMessage) : Prop :=
  Element 0x30 V2cContent d m

end Snmpio

------------------------------------------------------------
-- SNMPv3 Grammar
------------------------------------------------------------

namespace Snmpio

open Ber

/- The context's two names and one PDU. -/
def ScopedPduContent
    (content : Octets)
    (s : ScopedPdu) : Prop :=
  Seq
    (Seq (Element 0x04 OctetsContent)
      (Element 0x04 OctetsContent))
    PduForm content
    ((s.contextEngineId, s.contextName), s.pdu)

def ScopedPduForm
    (d : Octets)
    (s : ScopedPdu) : Prop :=
  Element 0x30 ScopedPduContent d s

/-
  The flags are one octet: the level in its two low bits,
  the reportable flag above them, the others ignored.
-/
def V3HeaderContent
    (content : Octets)
    (h : V3Header) : Prop :=
  ∃ flags : UInt8,
    Seq (Element 0x02 IntegerContent)
        (Seq (Element 0x02 IntegerContent)
          (Seq (Element 0x04 OctetsContent)
            (Element 0x02 IntegerContent)))
        content
        (h.msgId, h.maxSize, [flags], h.securityModel) ∧
      flags &&& 0x03 = h.level.flags ∧
      (h.reportable = true ↔ flags &&& 0x04 ≠ 0)

/-
  The six fields, and where the content of the digest's
  field starts when the first one starts at `p`.
-/
def UsmContent
    (p : Nat)
    (content : Octets)
    (x : UsmParameters × Nat) : Prop :=
  ∃ before digest after,
    content = before ++ digest ++ after ∧
      Seq (Element 0x04 OctetsContent)
        (Seq (Element 0x02 IntegerContent)
          (Seq (Element 0x02 IntegerContent)
            (Element 0x04 OctetsContent)))
        before
        (x.1.engineId, x.1.boots, x.1.time, x.1.userName) ∧
      Element 0x04 OctetsContent digest x.1.authParams ∧
      Element 0x04 OctetsContent after x.1.privParams ∧
      p + (before.length + digest.length) =
        x.2 + x.1.authParams.length

/- A ScopedPDU, or its ciphertext at authPriv. -/
def MsgDataForm
    (level : SecurityLevel)
    (d : Octets)
    (x : ScopedPdu × Octets) : Prop :=
  if level.isEncrypted then
    Element 0x04 OctetsContent d x.2 ∧ x.1 = {}
  else
    ScopedPduForm d x.1 ∧ x.2 = []

/-
  The version 3, msgGlobalData for the User-based Security
  Model, its parameters inside an OCTET STRING, and msgData.
-/
def V3Content
    (p : Nat)
    (content : Octets)
    (m : V3Message) : Prop :=
  ∃ version header params data,
    content = version ++ header ++ params ++ data ∧
      Element 0x02 IntegerContent version 3 ∧
      Element 0x30 V3HeaderContent header m.header ∧
      m.header.securityModel = 3 ∧
      ElementAt 0x04 (ElementAt 0x30 UsmContent)
        (p + version.length + header.length) params
        (m.security, m.authParamsOffset) ∧
      MsgDataForm m.header.level data
        (m.scopedPdu, m.encryptedPdu)

def V3Form
    (d : Octets)
    (m : V3Message) : Prop :=
  ElementAt 0x30 V3Content 0 d m

end Snmpio
