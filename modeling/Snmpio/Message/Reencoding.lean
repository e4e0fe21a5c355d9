import Snmpio.Message.V3RoundTrip

/-
  Encoding again what a decoder accepted.

  The decoders are more liberal than the encoders, so the
  new encoding may be longer than the old one.  It reads
  back as long as its length can be written in the four
  octets a decoder takes.

  Key theorems include:
    * `accepted_reencodes`
    * `V2cForm.length_lt`
    * `leanMessage_form`
    * `reencoding_not_accepted`
-/

------------------------------------------------------------
-- Accepted Messages
------------------------------------------------------------

namespace Snmpio

open Ber

variable {d : Octets}

/- What was decoded can be encoded again. -/
theorem V2cForm.isEncodable
    {m : V2cMessage}
    (hForm : V2cForm d m) :
    m.pdu.isEncodable = true := by
  rcases hForm with ⟨_, _, _, _, _, _, _, _, _, _, hPdu⟩
  exact PduForm.isEncodable hPdu

/- So can what was not encrypted. -/
theorem V3Form.isEncodable
    {m : V3Message}
    (hForm : V3Form d m)
    (hLevel : m.header.level.isEncrypted = false) :
    m.scopedPdu.pdu.isEncodable = true := by
  rcases hForm with
    ⟨_, _, _, _, _, _, _, _, _, _, _, _, _, hData⟩
  rw [MsgDataForm, hLevel, if_neg (by decide)] at hData
  exact hData.1.isEncodable

/- Only USM is decoded. -/
theorem V3Form.securityModel
    {m : V3Message}
    (hForm : V3Form d m) :
    m.header.securityModel = 3 := by
  rcases hForm with
    ⟨_, _, _, _, _, _, _, _, _, _, _, hModel, _⟩
  exact hModel

/- Without a digest the octets are all fixed. -/
theorem decodeV3Message_noAuthNoPriv
    {header : V3Header}
    {usm : UsmParameters}
    {s : ScopedPdu}
    (hLevel : header.level = .noAuthNoPriv)
    (hModel : header.securityModel = 3)
    (hGood : s.pdu.isEncodable = true)
    (hShort :
      (v3Bytes header usm [] usm.privParams
        (scopedPduBytes s)).length < 2 ^ 32) :
    decodeV3Message
        (v3Bytes header usm [] usm.privParams
          (scopedPduBytes s)) =
      (some
        { header := header
          security := { usm with authParams := [] }
          scopedPdu := s
          encryptedPdu := []
          authParamsOffset :=
            (digestFront header usm 0 usm.privParams
              (scopedPduBytes s)).length }, none) := by
  have hData :
      MsgDataForm header.level (scopedPduBytes s) (s, []) := by
    have hParts := hShort
    rw [v3Bytes_split] at hParts
    simp only [List.length_append] at hParts
    rw [hLevel]
    exact ⟨scopedPduBytes_form hGood (by omega), rfl⟩
  exact (v3Bytes_form header usm [] usm.privParams
    (scopedPduBytes s) hModel hData hShort).decode_eq

/-
  Whatever a decoder accepts the encoder can express, and it
  reads back identically if the new encoding is shorter than
  `2 ^ 32` octets.
-/
theorem accepted_reencodes
    (ssl : OpenSsl) :
    (∀ d m, decodeV2cMessage d = (some m, none) →
      ∃ e, encodeV2cMessage m.community m.pdu = (e, none) ∧
        (e.length < 2 ^ 32 →
          decodeV2cMessage e = (some m, none))) ∧
      ∀ d m, decodeV3Message d = (some m, none) →
        m.header.level.isEncrypted = false →
        ∀ auth localizedKey priv privKey counter,
          ∃ e,
            (encodeV3Message ssl
                { m.header with level := .noAuthNoPriv }
                m.security m.scopedPdu auth localizedKey
                priv privKey counter).1 = .ok e ∧
              (e.length < 2 ^ 32 →
                ∃ m', decodeV3Message e = (some m', none) ∧
                  m'.header =
                    { m.header with
                      level := .noAuthNoPriv } ∧
                  m'.security =
                    { m.security with authParams := [] } ∧
                  m'.scopedPdu = m.scopedPdu) := by
  constructor
  · intro d m hDecode
    have hGood := (V2cForm.of_decode hDecode).isEncodable
    refine ⟨v2cBytes m, ?_, decodeV2cMessage_v2cBytes hGood⟩
    rw [encodeV2cMessage_eq, if_pos hGood]
  · intro d m hDecode hLevel auth localizedKey priv privKey
      counter
    have hForm := V3Form.of_decode hDecode
    have hGood := hForm.isEncodable hLevel
    let header : V3Header :=
      { m.header with level := .noAuthNoPriv }
    refine ⟨v3Bytes header m.security [] m.security.privParams
      (scopedPduBytes m.scopedPdu), ?_, ?_⟩
    · exact encodeV3Message_noAuthNoPriv ssl rfl hGood
        m.security auth localizedKey priv privKey counter
    · intro hShort
      exact ⟨_, decodeV3Message_noAuthNoPriv rfl
        hForm.securityModel hGood hShort, rfl, rfl, rfl⟩

/-
  A padded length and a padded request-id, and for SNMPv3 a
  reserved flag, are gone after encoding again.
-/
theorem accepted_reencodes_padded :
    (∃ e,
      encodeV2cMessage []
          { type := .response, requestId := 7 } = (e, none) ∧
        decodeV2cMessage e =
          (some ⟨[], { type := .response, requestId := 7 }⟩,
            none)) ∧
      ∃ e m',
        (encodeV3Message OpenSsl.copying
            { msgId := 5, maxSize := 1500 } {}
            { pdu := { type := .response, requestId := 7 } }
            .none [] .none [] 0).1 = .ok e ∧
          decodeV3Message e = (some m', none) ∧
          m'.scopedPdu.pdu =
            { type := .response, requestId := 7 } := by
  constructor
  · rcases (accepted_reencodes OpenSsl.copying).1
      [0x30, 0x81, 0x13, 0x02, 0x01, 0x01, 0x04, 0x00, 0xA2,
        0x0C, 0x02, 0x02, 0x00, 0x07, 0x02, 0x01, 0x00, 0x02,
        0x01, 0x00, 0x30, 0x00]
      ⟨[], { type := .response, requestId := 7 }⟩
      (by decide) with ⟨e, hEncode, hRead⟩
    have hShort :
        (encodeV2cMessage []
          { type := .response, requestId := 7 }).1.length <
          2 ^ 32 := by decide
    rw [hEncode] at hShort
    exact ⟨e, hEncode, hRead hShort⟩
  · rcases (accepted_reencodes OpenSsl.copying).2
      [0x30, 0x81, 0x37, 0x02, 0x01, 0x03, 0x30, 0x0D, 0x02,
        0x01, 0x05, 0x02, 0x02, 0x05, 0xDC, 0x04, 0x01, 0x0C,
        0x02, 0x01, 0x03, 0x04, 0x10, 0x30, 0x0E, 0x04, 0x00,
        0x02, 0x01, 0x00, 0x02, 0x01, 0x00, 0x04, 0x00, 0x04,
        0x00, 0x04, 0x00, 0x30, 0x11, 0x04, 0x00, 0x04, 0x00,
        0xA2, 0x0B, 0x02, 0x01, 0x07, 0x02, 0x01, 0x00, 0x02,
        0x01, 0x00, 0x30, 0x00]
      { header := { msgId := 5, maxSize := 1500 }
        scopedPdu :=
          { pdu := { type := .response, requestId := 7 } }
        authParamsOffset := 37 }
      (by decide) rfl .none [] .none [] 0 with
      ⟨e, hEncode, hRead⟩
    have hShort :
        ((encodeV3Message OpenSsl.copying
            { msgId := 5, maxSize := 1500 } {}
            { pdu := { type := .response, requestId := 7 } }
            .none [] .none [] 0).1.toOption.all
          (fun e => e.length < 2 ^ 32)) = true := by
      decide
    rw [hEncode] at hShort
    rcases hRead (by simpa [Except.toOption] using hShort)
      with ⟨m', hDecode, _, _, hScoped⟩
    exact ⟨e, m', hEncode, hDecode, by rw [hScoped]⟩

end Snmpio

------------------------------------------------------------
-- Messages That Grow
------------------------------------------------------------

namespace Snmpio

open Ber

/- No accepted message is much longer than a length says. -/
theorem V2cForm.length_lt
    {d : Octets}
    {m : V2cMessage}
    (hForm : V2cForm d m) :
    d.length < 2 ^ 32 + 6 := by
  rcases hForm with ⟨ls, content, rfl, hLength, _⟩
  have hFive := hLength.length_le
  have hContent := hLength.lt
  simp only [List.length_cons, List.length_append]
  omega

/- The Counter32 is written without its leading zero. -/
def leanVarbindOctets : Octets :=
  [0x30, 0x09, 0x06, 0x01, 0x00,
    0x41, 0x04, 0xFF, 0xFF, 0xFF, 0xFF]

/- A value that takes more octets when written again. -/
def leanVarbind : Varbind :=
  ⟨⟨[0, 0]⟩, .counter32 0xFFFFFFFF⟩

theorem leanVarbind_form :
    VarbindForm leanVarbindOctets leanVarbind := by
  have hOid : OidContent [0x00] ⟨[0, 0]⟩ := by
    have hZero : Subid [0x00] 0 :=
      ⟨[], 0, rfl, by simp, by decide, by simp, by decide,
        by decide⟩
    exact ⟨[0], by simp, Star.cons hZero Star.nil,
      by decide, by decide⟩
  have hCounter :
      UnsignedContent [0xFF, 0xFF, 0xFF, 0xFF]
        (0xFFFFFFFF : UInt32).toNat :=
    ⟨by simp, by decide⟩
  exact ⟨[0x09], _, rfl, Or.inl ⟨9, by decide, rfl, rfl⟩,
    [0x06, 0x01, 0x00], _, rfl,
    ⟨[0x01], [0x00], rfl,
      Or.inl ⟨1, by decide, rfl, rfl⟩, hOid⟩,
    ⟨[0x04], _, rfl, Or.inl ⟨4, by decide, rfl, rfl⟩,
      hCounter⟩⟩

/- A Response of `n` such Varbinds, as it may arrive. -/
def leanMessage
    (n : Nat) : V2cMessage :=
  { community := []
    pdu :=
      { type := .response
        varbinds := List.replicate n leanVarbind } }

def leanListOctets
    (n : Nat) : Octets :=
  (List.replicate n leanVarbindOctets).flatten

/- Many of these, in one Response. -/
def leanMessageOctets
    (n : Nat) : Octets :=
  elementBytes Tag.sequence
    (elementBytes Tag.integer (integerContent versionV2c) ++
      (elementBytes Tag.octetString [] ++
        elementBytes Tag.response
          (elementBytes Tag.integer (integerContent 0) ++
            (elementBytes Tag.integer (integerContent 0) ++
              (elementBytes Tag.integer (integerContent 0) ++
                elementBytes Tag.sequence
                  (leanListOctets n))))))

theorem leanListOctets_length
    (n : Nat) :
    (leanListOctets n).length = 11 * n := by
  simp [leanListOctets, leanVarbindOctets, Nat.mul_comm]

theorem leanList_form
    (n : Nat) :
    Star VarbindForm (leanListOctets n)
      (List.replicate n leanVarbind) := by
  induction n with
  | zero => exact Star.nil
  | succ n ih => exact Star.cons leanVarbind_form ih

/- It is well formed, short of the limit. -/
theorem leanMessage_form
    {n : Nat}
    (hn : 11 * n + 64 < 2 ^ 32) :
    V2cForm (leanMessageOctets n) (leanMessage n) := by
  have hList := leanListOctets_length n
  have hInteger :
      (elementBytes Tag.integer (integerContent 0)).length =
        3 := by decide
  have hVersion :
      (elementBytes Tag.integer
        (integerContent versionV2c)).length = 3 := by decide
  have hCommunity :
      (elementBytes Tag.octetString []).length = 2 := rfl
  have hListLe :=
    elementBytes_length_le Tag.sequence
      (show (leanListOctets n).length < 2 ^ 32 by omega)
  have hPdu :
      (elementBytes Tag.integer (integerContent 0) ++
        (elementBytes Tag.integer (integerContent 0) ++
          (elementBytes Tag.integer (integerContent 0) ++
            elementBytes Tag.sequence
              (leanListOctets n)))).length < 2 ^ 32 - 16 := by
    simp only [List.length_append, hInteger]
    omega
  have hPduLe :=
    elementBytes_length_le Tag.response
      (hPdu.trans (by norm_num))
  refine elementBytes_form ?_ ⟨_, _, _,
    (List.append_assoc _ _ _).symm,
    integerElement_form versionV2c,
    elementBytes_form (by simp) rfl,
    elementBytes_form (by omega) ⟨_, _, rfl,
      integerElement_form 0, _, _, rfl,
      integerElement_form 0, _, _, rfl,
      integerElement_form 0,
      elementBytes_form (by omega) (leanList_form n)⟩⟩
  rw [List.length_append, List.length_append, hVersion,
    hCommunity]
  omega

/- A message is longer than its Varbinds. -/
theorem varbinds_length_le_v2cBytes
    (m : V2cMessage) :
    (m.pdu.varbinds.flatMap varbindBytes).length ≤
      (v2cBytes m).length := by
  have hList :
      (m.pdu.varbinds.flatMap varbindBytes).length <
        (varbindListBytes m.pdu.varbinds).length :=
    length_lt_elementBytes _ _
  have hPdu :
      (pduContentBytes m.pdu).length <
        (pduBytes m.pdu).length :=
    length_lt_elementBytes _ _
  have hMessage :
      (v2cContentBytes m).length < (v2cBytes m).length :=
    length_lt_elementBytes _ _
  simp only [pduContentBytes, v2cContentBytes,
    List.length_append] at hPdu hMessage
  omega

/- The encoder writes the leading zero. -/
theorem le_v2cBytes_leanMessage_length
    (n : Nat) :
    12 * n ≤ (v2cBytes (leanMessage n)).length := by
  have hVarbind : (varbindBytes leanVarbind).length = 12 := by
    decide
  have hLe := varbinds_length_le_v2cBytes (leanMessage n)
  simpa [leanMessage, List.length_flatMap, hVarbind,
    Nat.mul_comm] using hLe

/-
  A Response of 390 million Varbinds, a little under `2 ^ 32`
  octets, is accepted and encoded again; the new encoding is
  longer than any length a decoder takes.
-/
theorem reencoding_not_accepted :
    ∃ d m,
      decodeV2cMessage d = (some m, none) ∧
        (encodeV2cMessage m.community m.pdu).2 = none ∧
        ∀ m',
          decodeV2cMessage
              (encodeV2cMessage m.community m.pdu).1 ≠
            (some m', none) := by
  have hForm :=
    leanMessage_form (n := 390000000) (by norm_num)
  refine ⟨_, _, hForm.decode_eq, ?_⟩
  rw [encodeV2cMessage_eq, if_pos hForm.isEncodable]
  refine ⟨rfl, ?_⟩
  intro m' hDecode
  have hLt := (V2cForm.of_decode hDecode).length_lt
  have hLe := le_v2cBytes_leanMessage_length 390000000
  exact absurd (hLe.trans_lt hLt) (by norm_num)

end Snmpio
