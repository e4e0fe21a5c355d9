import Snmpio.Message.Encoding
import Snmpio.Message.Privacy
import Snmpio.Message.V3Decoding

/-
  What the SNMPv3 encoder emits, with the digest's field as
  a parameter: the octets around it depend only on its
  width, which is why it can be blanked and filled in.

  Key definitions include:
    * `scopedPduBytes`
    * `v3Bytes`
    * `digestFront`

  Key theorems include:
    * `encodeScopedPdu_emits`
    * `sealV3Message_eq`
    * `v3Bytes_split`
    * `v3Bytes_form`
-/

------------------------------------------------------------
-- Scoped PDUs
------------------------------------------------------------

namespace Snmpio

open Ber Writer

def scopedPduBytes
    (s : ScopedPdu) : Octets :=
  elementBytes Tag.sequence
    (elementBytes Tag.octetString s.contextEngineId ++
      (elementBytes Tag.octetString s.contextName ++
        pduBytes s.pdu))

theorem encodeScopedPdu_emits
    (s : ScopedPdu) :
    Emits s.pdu.isEncodable (scopedPduBytes s)
      (fun w => encodeScopedPdu w s) := by
  have hParts :=
    (octetString_emits s.contextEngineId
      Tag.octetString).comp
      ((octetString_emits s.contextName Tag.octetString).comp
        (encodePdu_emits s.pdu))
  apply sequence_emits hParts
  intro w
  rfl

theorem octetsElement_form
    {v : Octets}
    (hLength :
      (elementBytes Tag.octetString v).length < 2 ^ 32) :
    Element 0x04 OctetsContent
      (elementBytes Tag.octetString v) v :=
  elementBytes_form (content_lt_of_elementBytes_lt hLength)
    rfl

/- What is written is a ScopedPDU. -/
theorem scopedPduBytes_form
    {s : ScopedPdu}
    (hGood : s.pdu.isEncodable = true)
    (hLength : (scopedPduBytes s).length < 2 ^ 32) :
    ScopedPduForm (scopedPduBytes s) s := by
  have hContent := content_lt_of_elementBytes_lt hLength
  have hParts := hContent
  simp only [List.length_append] at hParts
  have hEngine :=
    octetsElement_form (v := s.contextEngineId) (by omega)
  have hName :=
    octetsElement_form (v := s.contextName) (by omega)
  have hPdu := pduBytes_form hGood (by omega)
  exact elementBytes_form hContent ⟨_, _,
    (List.append_assoc _ _ _).symm,
    ⟨_, _, rfl, hEngine, hName⟩, hPdu⟩

/- What was read can be written. -/
theorem ScopedPduForm.isEncodable
    {d : Octets}
    {s : ScopedPdu}
    (hForm : ScopedPduForm d s) :
    s.pdu.isEncodable = true := by
  rcases hForm with ⟨_, _, _, _, _, _, _, _, hPdu⟩
  exact PduForm.isEncodable hPdu

end Snmpio

------------------------------------------------------------
-- Framing
------------------------------------------------------------

namespace Snmpio

open Ber Writer

/- The four fields of msgGlobalData. -/
def v3HeaderBytes
    (h : V3Header) : Octets :=
  elementBytes Tag.sequence
    (elementBytes Tag.integer (integerContent h.msgId) ++
      (elementBytes Tag.integer (integerContent h.maxSize) ++
        (elementBytes Tag.octetString [encodeFlags h] ++
          elementBytes Tag.integer
            (integerContent h.securityModel))))

/- The four fields before the digest's. -/
def usmBefore
    (usm : UsmParameters) : Octets :=
  elementBytes Tag.octetString usm.engineId ++
    (elementBytes Tag.integer (integerContent usm.boots) ++
      (elementBytes Tag.integer (integerContent usm.time) ++
        elementBytes Tag.octetString usm.userName))

/- The digest comes last but one. -/
def usmBytes
    (usm : UsmParameters)
    (digest privParams : Octets) : Octets :=
  usmBefore usm ++
    (elementBytes Tag.octetString digest ++
      elementBytes Tag.octetString privParams)

def usmParamsBytes
    (usm : UsmParameters)
    (digest privParams : Octets) : Octets :=
  elementBytes Tag.sequence (usmBytes usm digest privParams)

/- Everything before the security parameters. -/
def v3Front
    (header : V3Header) : Octets :=
  elementBytes Tag.integer (integerContent versionV3) ++
    v3HeaderBytes header

/- Everything before msgData. -/
def v3BodyBytes
    (header : V3Header)
    (usm : UsmParameters)
    (digest privParams : Octets) : Octets :=
  v3Front header ++
    elementBytes Tag.octetString
      (usmParamsBytes usm digest privParams)

/- The datagram with `digest` in its field. -/
def v3Bytes
    (header : V3Header)
    (usm : UsmParameters)
    (digest privParams data : Octets) : Octets :=
  elementBytes Tag.sequence
    (v3BodyBytes header usm digest privParams ++ data)

/- A datagram of parts that are not too long is not either. -/
theorem v3Bytes_length_lt
    {usm : UsmParameters}
    {digest privParams data : Octets}
    (header : V3Header)
    (hEngineId : usm.engineId.length < 2 ^ 24)
    (hUserName : usm.userName.length < 2 ^ 24)
    (hDigest : digest.length < 2 ^ 24)
    (hParams : privParams.length < 2 ^ 24)
    (hData : data.length < 2 ^ 25) :
    (v3Bytes header usm digest privParams data).length <
      2 ^ 32 := by
  have hString {v : Octets} (hShort : v.length < 2 ^ 32) :
      (elementBytes Tag.octetString v).length ≤
        v.length + 6 :=
    elementBytes_length_le Tag.octetString hShort
  have hFlags :
      (elementBytes Tag.octetString
        [encodeFlags header]).length ≤ 7 :=
    hString (by simp)
  have hMsgId := integerElement_length_le header.msgId
  have hMaxSize := integerElement_length_le header.maxSize
  have hModel := integerElement_length_le header.securityModel
  have hVersion := integerElement_length_le versionV3
  have hBoots := integerElement_length_le usm.boots
  have hTime := integerElement_length_le usm.time
  have hHeader : (v3HeaderBytes header).length ≤ 100 := by
    refine (elementBytes_length_le Tag.sequence ?_).trans ?_
    · simp only [List.length_append]
      omega
    · simp only [List.length_append]
      omega
  have hUsm :
      (usmBytes usm digest privParams).length < 2 ^ 26 + 100 := by
    have hId := hString (hEngineId.trans (by decide))
    have hName := hString (hUserName.trans (by decide))
    have hAuth := hString (hDigest.trans (by decide))
    have hPriv := hString (hParams.trans (by decide))
    simp only [usmBytes, usmBefore, List.length_append]
    omega
  have hSequence :
      (usmParamsBytes usm digest privParams).length ≤
        (usmBytes usm digest privParams).length + 6 :=
    elementBytes_length_le Tag.sequence (by omega)
  have hWrapped :
      (elementBytes Tag.octetString
        (usmParamsBytes usm digest privParams)).length ≤
        (usmParamsBytes usm digest privParams).length + 6 :=
    hString (by omega)
  have hBody :
      (v3BodyBytes header usm digest privParams ++
        data).length < 2 ^ 27 + 2 ^ 10 := by
    simp only [v3BodyBytes, v3Front, List.length_append]
    omega
  have hAll :
      (v3Bytes header usm digest privParams data).length ≤
        (v3BodyBytes header usm digest privParams ++
          data).length + 6 :=
    elementBytes_length_le Tag.sequence (by omega)
  omega

/- The flags' octet says the level and the report flag. -/
theorem encodeFlags_level
    (h : V3Header) :
    encodeFlags h &&& 0x03 = h.level.flags := by
  unfold encodeFlags
  cases h.level <;> cases h.reportable <;> decide

theorem encodeFlags_reportable
    (h : V3Header) :
    h.reportable = true ↔ encodeFlags h &&& 0x04 ≠ 0 := by
  unfold encodeFlags
  cases h.level <;> cases h.reportable <;> decide

theorem v3HeaderBytes_form
    (h : V3Header) :
    Element 0x30 V3HeaderContent (v3HeaderBytes h) h := by
  have hMsgId := integerElement_length_le h.msgId
  have hMaxSize := integerElement_length_le h.maxSize
  have hModel := integerElement_length_le h.securityModel
  have hFlags :
      (elementBytes Tag.octetString
        [encodeFlags h]).length = 3 := rfl
  refine elementBytes_form ?_ ⟨encodeFlags h,
    ⟨_, _, rfl, integerElement_form h.msgId, _, _, rfl,
      integerElement_form h.maxSize, _, _, rfl,
      octetsElement_form (by rw [hFlags]; decide),
      integerElement_form h.securityModel⟩,
    encodeFlags_level h, encodeFlags_reportable h⟩
  simp only [List.length_append]
  omega

theorem writeV3Header_emits
    (h : V3Header) :
    Emits true (v3HeaderBytes h)
      (fun w => writeV3Header w h) := by
  have hParts :=
    (integer_emits h.msgId).comp
      ((integer_emits h.maxSize).comp
        ((octetString_emits [encodeFlags h]
          Tag.octetString).comp
          (integer_emits h.securityModel)))
  apply sequence_emits hParts
  intro w
  rfl

/- The offset is that of the digest's content. -/
theorem encodeUsmContent_eq
    (usm : UsmParameters)
    (authWidth : Nat)
    (privParams : Octets) :
    encodeUsmContent {} usm authWidth privParams =
      ((usmBefore usm).length + 2,
        { buf := usmBytes usm (List.replicate authWidth 0)
            privParams
          ec := none }) := by
  have hBefore :
      Emits true (usmBefore usm)
        (fun w =>
          (((w.octetString usm.engineId).integer
            usm.boots).integer usm.time).octetString
              usm.userName) :=
    (octetString_emits usm.engineId Tag.octetString).comp
      ((integer_emits usm.boots).comp
        ((integer_emits usm.time).comp
          (octetString_emits usm.userName Tag.octetString)))
  have hAll :=
    hBefore.comp
      ((octetString_emits (List.replicate authWidth 0)
        Tag.octetString).comp
        (octetString_emits privParams Tag.octetString))
  have hPair :
      encodeUsmContent {} usm authWidth privParams =
        (((((({} : Writer).octetString usm.engineId).integer
            usm.boots).integer usm.time).octetString
              usm.userName).size + 2,
          ((((((({} : Writer).octetString
            usm.engineId).integer usm.boots).integer
              usm.time).octetString usm.userName).octetString
                (List.replicate authWidth 0)).octetString
                  privParams)) := rfl
  rw [hPair, hAll.fresh, hBefore.fresh]
  rfl

/- What the privacy parameters' field carries. -/
def sentPrivParams
    (header : V3Header)
    (usm : UsmParameters)
    (privParams : Octets) : Octets :=
  if header.level.isEncrypted then privParams
  else usm.privParams

/- What msgData is, from the two forms it may have. -/
def sentData
    (header : V3Header)
    (plain ciphertext : Octets) : Octets :=
  if header.level.isEncrypted then
    elementBytes Tag.octetString ciphertext
  else plain

/- The width of the digest's field. -/
def authWidth
    (header : V3Header)
    (auth : AuthProtocol) : Nat :=
  if header.level.isAuthenticated then authParamsSize auth
  else 0

/- Where the encoder expects the digest's field. -/
def digestOffset
    (header : V3Header)
    (usm : UsmParameters)
    (digest privParams data : Octets) : Nat :=
  (usmBefore usm).length + 2 +
    ((usmParamsBytes usm digest privParams).length -
      (usmBytes usm digest privParams).length) +
    ((v3BodyBytes header usm digest privParams).length -
      (usmParamsBytes usm digest privParams).length) +
    ((v3Bytes header usm digest privParams data).length -
      (v3BodyBytes header usm digest privParams ++
        data).length)

theorem writeBody_eq
    (header : V3Header)
    (usm : UsmParameters)
    (digest privParams : Octets) :
    (writeV3Header (({} : Writer).integer versionV3)
        header).octetString
          (usmParamsBytes usm digest privParams) =
      { buf := v3BodyBytes header usm digest privParams
        ec := none } := by
  have hParts :=
    ((integer_emits versionV3).comp
      (writeV3Header_emits header)).comp
      (octetString_emits (usmParamsBytes usm digest privParams)
        Tag.octetString)
  exact hParts.fresh

/- msgData goes after the body in either form. -/
theorem writeData_eq
    (header : V3Header)
    (body plain ciphertext : Octets) :
    (if header.level.isEncrypted = true then
        ({ buf := body, ec := none } : Writer).octetString
          ciphertext
      else ({ buf := body, ec := none } : Writer).raw plain) =
      { buf := body ++ sentData header plain ciphertext
        ec := none } := by
  unfold sentData
  split
  · exact (octetString_emits ciphertext
      Tag.octetString).writes rfl { buf := body, ec := none }
        rfl
  · rfl

/- The layers, once the ScopedPDU has been written. -/
theorem sealV3Message_eq
    (ssl : OpenSsl)
    (header : V3Header)
    (usm : UsmParameters)
    (auth : AuthProtocol)
    (localizedKey plain ciphertext privParams : Octets) :
    sealV3Message ssl header usm auth localizedKey
        { buf := plain, ec := none } ciphertext privParams =
      let params := sentPrivParams header usm privParams
      let data := sentData header plain ciphertext
      let blank := List.replicate (authWidth header auth) 0
      let out := v3Bytes header usm blank params data
      if ¬ header.level.isAuthenticated then .ok out
      else
        (authDigest ssl auth localizedKey out).map
          (copyAt out
            (digestOffset header usm blank params data)) := by
  have hTlv :
      ∀ content,
        ({} : Writer).tlv Tag.sequence content =
          { buf := elementBytes Tag.sequence content
            ec := none } :=
    fun content => (tlv_emits Tag.sequence content).fresh
  unfold sealV3Message
  simp only [encodeUsmContent_eq, hTlv]
  have hBody :=
    writeBody_eq header usm
      (List.replicate (authWidth header auth) 0)
      (sentPrivParams header usm privParams)
  unfold usmParamsBytes authWidth sentPrivParams at hBody
  simp only [hBody, writeData_eq]
  rfl

end Snmpio

------------------------------------------------------------
-- The Digest's Field
------------------------------------------------------------

namespace Snmpio

open Ber Writer

/- The octets of an element before its content. -/
def elementFront
    (t : TagType)
    (n : Nat) : Octets :=
  t :: lengthBytes n

theorem elementBytes_eq_front
    (t : TagType)
    (content : Octets) :
    elementBytes t content =
      elementFront t content.length ++ content := rfl

theorem elementFront_length_of_lt
    {t : TagType}
    {n : Nat}
    (hn : n < 0x80) :
    (elementFront t n).length = 2 := by
  simp [elementFront, lengthBytes, hn]

/- The lengths of the layers, for a digest of `w` octets. -/
def usmLength
    (usm : UsmParameters)
    (w : Nat)
    (privParams : Octets) : Nat :=
  (usmBefore usm).length +
    ((elementFront Tag.octetString w).length + w +
      (elementBytes Tag.octetString privParams).length)

/- Lengths depend on the digest's width alone. -/
def usmParamsLength
    (usm : UsmParameters)
    (w : Nat)
    (privParams : Octets) : Nat :=
  (elementFront Tag.sequence
      (usmLength usm w privParams)).length +
    usmLength usm w privParams

def v3BodyLength
    (header : V3Header)
    (usm : UsmParameters)
    (w : Nat)
    (privParams : Octets) : Nat :=
  (v3Front header).length +
    ((elementFront Tag.octetString
        (usmParamsLength usm w privParams)).length +
      usmParamsLength usm w privParams)

/- The octets before a digest of `w` octets. -/
def digestFront
    (header : V3Header)
    (usm : UsmParameters)
    (w : Nat)
    (privParams data : Octets) : Octets :=
  elementFront Tag.sequence
      (v3BodyLength header usm w privParams + data.length) ++
    (v3Front header ++
      (elementFront Tag.octetString
          (usmParamsLength usm w privParams) ++
        (elementFront Tag.sequence
            (usmLength usm w privParams) ++
          (usmBefore usm ++
            elementFront Tag.octetString w))))

/- Copying over a field of the same width replaces it. -/
theorem copyAt_append
    {front old back bytes : Octets}
    (hWidth : old.length = bytes.length) :
    copyAt (front ++ old ++ back) front.length bytes =
      front ++ bytes ++ back := by
  rw [copyAt, List.append_assoc front old, List.take_left,
    ← List.drop_drop, List.drop_left, ← hWidth,
    List.drop_left]

section

variable (header : V3Header) (usm : UsmParameters)
variable (digest privParams data : Octets)

theorem usmBytes_length :
    (usmBytes usm digest privParams).length =
      usmLength usm digest.length privParams := by
  simp only [usmBytes, usmLength, List.length_append,
    elementBytes_eq_front Tag.octetString digest]

theorem usmParamsBytes_length :
    (usmParamsBytes usm digest privParams).length =
      usmParamsLength usm digest.length privParams := by
  rw [usmParamsBytes, elementBytes_eq_front,
    List.length_append, usmBytes_length, usmParamsLength]

theorem v3BodyBytes_length :
    (v3BodyBytes header usm digest privParams).length =
      v3BodyLength header usm digest.length privParams := by
  rw [v3BodyBytes, List.length_append,
    elementBytes_eq_front, List.length_append,
    usmParamsBytes_length, v3BodyLength]

/- Around the digest nothing depends on its octets. -/
theorem v3Bytes_split :
    v3Bytes header usm digest privParams data =
      digestFront header usm digest.length privParams data ++
        digest ++
        (elementBytes Tag.octetString privParams ++ data) := by
  rw [v3Bytes, elementBytes_eq_front, List.length_append,
    v3BodyBytes_length, v3BodyBytes, elementBytes_eq_front,
    usmParamsBytes_length, usmParamsBytes,
    elementBytes_eq_front, usmBytes_length, usmBytes,
    elementBytes_eq_front Tag.octetString digest,
    digestFront]
  simp only [List.append_assoc]

/- The encoder's sum of header sizes is where the field is. -/
theorem digestOffset_eq
    (hShort : digest.length < 0x80) :
    digestOffset header usm digest privParams data =
      (digestFront header usm digest.length privParams
        data).length := by
  have hFront :
      (elementFront Tag.octetString digest.length).length =
        2 :=
    elementFront_length_of_lt hShort
  rw [digestOffset, v3Bytes, elementBytes_eq_front,
    List.length_append, List.length_append,
    v3BodyBytes_length, usmParamsBytes_length,
    usmBytes_length, digestFront]
  simp only [List.length_append, hFront, v3BodyLength,
    usmParamsLength]
  omega

/- Filling the blank field gives the message with it. -/
theorem copyAt_v3Bytes
    (blank : Octets)
    (hWidth : blank.length = digest.length) :
    copyAt (v3Bytes header usm blank privParams data)
        (digestFront header usm digest.length privParams
          data).length digest =
      v3Bytes header usm digest privParams data := by
  rw [v3Bytes_split, v3Bytes_split, hWidth,
    copyAt_append hWidth]

/-
  The message is in the grammar, with the digest's field
  where the encoder put it.
-/
theorem v3Bytes_form
    {s : ScopedPdu}
    {encrypted : Octets}
    (hModel : header.securityModel = 3)
    (hData : MsgDataForm header.level data (s, encrypted))
    (hLength :
      (v3Bytes header usm digest privParams data).length <
        2 ^ 32) :
    V3Form (v3Bytes header usm digest privParams data)
      { header := header
        security :=
          { usm with
            authParams := digest
            privParams := privParams }
        scopedPdu := s
        encryptedPdu := encrypted
        authParamsOffset :=
          (digestFront header usm digest.length privParams
            data).length } := by
  have hContent := content_lt_of_elementBytes_lt hLength
  have hParams :
      (elementBytes Tag.octetString
        (usmParamsBytes usm digest privParams)).length <
        2 ^ 32 := by
    simp only [v3BodyBytes, List.length_append] at hContent
    omega
  have hSequence := content_lt_of_elementBytes_lt hParams
  have hUsm : (usmBytes usm digest privParams).length <
      2 ^ 32 := by
    unfold usmParamsBytes at hSequence
    exact content_lt_of_elementBytes_lt hSequence
  have hFields := hUsm
  simp only [usmBytes, usmBefore, List.length_append]
    at hFields
  have hEngine :=
    octetsElement_form (v := usm.engineId) (by omega)
  have hUser :=
    octetsElement_form (v := usm.userName) (by omega)
  have hDigest := octetsElement_form (v := digest) (by omega)
  have hPriv :=
    octetsElement_form (v := privParams) (by omega)
  refine ⟨_, _, rfl, lengthBytes_form hContent, _, _, _, _,
    ?_, integerElement_form versionV3,
    v3HeaderBytes_form header, hModel,
    ⟨_, _, rfl, lengthBytes_form hSequence,
      ⟨_, _, rfl, lengthBytes_form hUsm,
        usmBefore usm, _, _, ?_, ?_, hDigest, hPriv, ?_⟩⟩,
    hData⟩
  · rfl
  · rw [usmBytes, List.append_assoc]
  · exact ⟨_, _, rfl, hEngine, _, _, rfl,
      integerElement_form usm.boots, _, _, rfl,
      integerElement_form usm.time, hUser⟩
  · -- Both sides add up the same headers.
    simp only [digestFront, v3Front, elementFront,
      elementBytes, List.length_append, List.length_cons,
      v3BodyBytes_length, usmParamsBytes_length,
      usmBytes_length]
    omega

end

end Snmpio
