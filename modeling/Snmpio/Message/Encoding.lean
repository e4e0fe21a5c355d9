import Snmpio.Ber.Writer.Canonical
import Snmpio.Message.Decoding

/-
  What the PDU and SNMPv2c encoders emit, and that the
  decoders read it back.

  Key definitions include:
    * `pduBytes`
    * `v2cBytes`

  Key theorems include:
    * `encodePdu_emits`
    * `encodeV2cMessage_eq`
    * `decodeV2cMessage_v2cBytes`
    * `encodeV2cMessage_roundTrip`
-/

------------------------------------------------------------
-- Protocol Data Units
------------------------------------------------------------

namespace Snmpio

open Ber Writer

def pduContentBytes
    (p : Pdu) : Octets :=
  elementBytes Tag.integer (integerContent p.requestId) ++
    (elementBytes Tag.integer (integerContent p.errorStatus) ++
      (elementBytes Tag.integer
          (integerContent p.errorIndex) ++
        varbindListBytes p.varbinds))

/- A PDU's tag is that of its type. -/
def pduBytes
    (p : Pdu) : Octets :=
  elementBytes (pduTag p.type) (pduContentBytes p)

theorem encodePdu_emits
    (p : Pdu) :
    Emits p.isEncodable (pduBytes p)
      (fun w => encodePdu w p) := by
  have hFields :
      Emits p.isEncodable (pduContentBytes p)
        (fun w =>
          (((w.integer p.requestId).integer
            p.errorStatus).integer p.errorIndex).varbindList
              p.varbinds) :=
    (integer_emits p.requestId).comp
      ((integer_emits p.errorStatus).comp
        ((integer_emits p.errorIndex).comp
          (varbindList_emits p.varbinds)))
  have hScope :=
    constructed_emits (pduTag_constructed p.type).2 hFields
  simp only [← PduType.tag_eq] at hScope
  unfold pduBytes
  rw [← PduType.tag_eq]
  exact hScope

/- What is written is a PDU. -/
theorem pduBytes_form
    {p : Pdu}
    (hGood : p.isEncodable = true)
    (hLength : (pduBytes p).length < 2 ^ 32) :
    PduForm (pduBytes p) p := by
  have hContent := content_lt_of_elementBytes_lt hLength
  have hParts := hContent
  simp only [pduContentBytes, List.length_append] at hParts
  refine elementBytes_form hContent ⟨_, _, rfl, ?_, _, _,
    rfl, ?_, _, _, rfl, ?_, ?_⟩
  · exact integerElement_form p.requestId
  · exact integerElement_form p.errorStatus
  · exact integerElement_form p.errorIndex
  · exact varbindListBytes_form hGood (by omega)

/- An accepted PDU can be written again. -/
theorem PduForm.isEncodable
    {d : Octets}
    {p : Pdu}
    (hForm : PduForm d p) :
    p.isEncodable = true := by
  rcases hForm with ⟨_, _, _, _, _, _, _, _, _, _, _, _, _,
    _, _, _, hList⟩
  exact VarbindListForm.isEncodable hList

end Snmpio

------------------------------------------------------------
-- SNMPv2c Messages
------------------------------------------------------------

namespace Snmpio

open Ber Writer

def v2cContentBytes
    (m : V2cMessage) : Octets :=
  elementBytes Tag.integer (integerContent versionV2c) ++
    (elementBytes Tag.octetString m.community ++
      pduBytes m.pdu)

def v2cBytes
    (m : V2cMessage) : Octets :=
  elementBytes Tag.sequence (v2cContentBytes m)

/- The encoder either emits the message or refuses it. -/
theorem encodeV2cMessage_eq
    (community : Octets)
    (pdu : Pdu) :
    encodeV2cMessage community pdu =
      if pdu.isEncodable then (v2cBytes ⟨community, pdu⟩, none)
      else ([], some .oidNotEncodable) := by
  have hParts :
      Emits pdu.isEncodable (v2cContentBytes ⟨community, pdu⟩)
        (fun w =>
          encodePdu ((w.integer versionV2c).octetString
            community) pdu) :=
    (integer_emits versionV2c).comp
      ((octetString_emits community Tag.octetString).comp
        (encodePdu_emits pdu))
  have hMessage := constructed_emits (t := Tag.sequence)
    (by decide) hParts
  have hWriter :
      writeV2cMessage community pdu =
        (({} : Writer).beginConstructed Tag.sequence).1.close
          (encodePdu
            (((({} : Writer).beginConstructed
              Tag.sequence).2.integer
                versionV2c).octetString community) pdu) :=
    rfl
  unfold encodeV2cMessage
  rw [hWriter]
  cases hGood : pdu.isEncodable with
  | true =>
      simp only [hMessage.writes hGood {} rfl]
      rfl
  | false =>
      simp only [hMessage.refuses hGood {} rfl]
      rfl

/- What is written is a message. -/
theorem v2cBytes_form
    {m : V2cMessage}
    (hGood : m.pdu.isEncodable = true)
    (hLength : (v2cBytes m).length < 2 ^ 32) :
    V2cForm (v2cBytes m) m := by
  have hContent := content_lt_of_elementBytes_lt hLength
  have hParts := hContent
  simp only [v2cContentBytes, List.length_append] at hParts
  have hCommunity :
      m.community.length < 2 ^ 32 :=
    content_lt_of_elementBytes_lt
      (t := Tag.octetString) (by omega)
  refine elementBytes_form hContent ⟨_, _, _,
    by rw [v2cContentBytes, List.append_assoc], ?_, ?_, ?_⟩
  · exact integerElement_form versionV2c
  · exact elementBytes_form hCommunity rfl
  · exact pduBytes_form hGood (by omega)

/- What the encoder emits is read back, if it is short. -/
theorem decodeV2cMessage_v2cBytes
    {m : V2cMessage}
    (hGood : m.pdu.isEncodable = true)
    (hLength : (v2cBytes m).length < 2 ^ 32) :
    decodeV2cMessage (v2cBytes m) = (some m, none) :=
  (v2cBytes_form hGood hLength).decode_eq

/- A PDU is refused for a name or an OID Value of it. -/
theorem Pdu.not_isEncodable_iff
    (p : Pdu) :
    p.isEncodable = false ↔
      ∃ vb ∈ p.varbinds,
        vb.name.isEncodable = false ∨
          ∃ o, vb.val = .oid o ∧ o.isEncodable = false := by
  unfold Pdu.isEncodable
  rw [List.all_eq_false]
  apply exists_congr
  intro vb
  apply and_congr_right
  intro _
  rw [Varbind.isEncodable, Bool.not_eq_true,
    Bool.and_eq_false_iff]
  apply or_congr_right
  cases vb.val <;> simp [Value.isEncodable]

/-
  The encoder refuses a message, with an error and without
  octets, exactly when one of its OIDs cannot be packed;
  what it emits otherwise decodes to the same message.
-/
theorem encodeV2cMessage_roundTrip
    (community : Octets)
    (pdu : Pdu)
    (hShort :
      (encodeV2cMessage community pdu).1.length < 2 ^ 32) :
    ((encodeV2cMessage community pdu).2.isSome ↔
        ∃ vb ∈ pdu.varbinds,
          vb.name.isEncodable = false ∨
            ∃ o, vb.val = .oid o ∧ o.isEncodable = false) ∧
      ((encodeV2cMessage community pdu).2.isSome →
        encodeV2cMessage community pdu =
          ([], some .oidNotEncodable)) ∧
      ((encodeV2cMessage community pdu).2 = none →
        decodeV2cMessage (encodeV2cMessage community pdu).1 =
          (some ⟨community, pdu⟩, none)) := by
  rw [← Pdu.not_isEncodable_iff]
  rw [encodeV2cMessage_eq] at hShort ⊢
  cases hGood : pdu.isEncodable with
  | true =>
      rw [hGood, if_pos rfl] at hShort
      simp [decodeV2cMessage_v2cBytes hGood hShort]
  | false => simp

/- A GET whose name is the shortest there is. -/
theorem encodeV2cMessage_roundTrip_get :
    decodeV2cMessage
        (encodeV2cMessage [0x70]
          { requestId := 7
            varbinds := [⟨⟨[1, 3]⟩, .null⟩] }).1 =
      (some ⟨[0x70],
        { requestId := 7
          varbinds := [⟨⟨[1, 3]⟩, .null⟩] }⟩, none) :=
  (encodeV2cMessage_roundTrip [0x70]
    { requestId := 7
      varbinds := [⟨⟨[1, 3]⟩, .null⟩] }
    (by decide)).2.2 (by decide)

end Snmpio
