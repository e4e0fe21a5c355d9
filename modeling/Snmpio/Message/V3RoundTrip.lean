import Snmpio.Message.V3Encoding

/-
  Sealing and opening an SNMPv3 message.

  Key definitions include:
    * `Opens`

  Key theorems include:
    * `sealV3Message_ok`
    * `verifyAuth_v3Bytes`
    * `encodeV3Message_seals`
    * `encodeV3Message_opens`
-/

------------------------------------------------------------
-- Sealing
------------------------------------------------------------

namespace Snmpio

open Ber Writer

variable {ssl : OpenSsl} {header : V3Header}
variable {auth : AuthProtocol} {usm : UsmParameters}
variable {s : ScopedPdu}

theorem authParamsSize_lt
    (p : AuthProtocol) :
    authParamsSize p < 0x80 := by
  cases p <;> decide

theorem authWidth_lt
    (header : V3Header)
    (auth : AuthProtocol) :
    authWidth header auth < 0x80 := by
  unfold authWidth
  split
  · exact authParamsSize_lt auth
  · decide

/-
  The sealed message carries a digest of the right width,
  which is the one of the message with its field blanked.
-/
theorem sealV3Message_ok
    (hSsl : header.level.isAuthenticated → ssl.Documented)
    (hAuth : header.level.isAuthenticated → auth ≠ .none)
    (usm : UsmParameters)
    (localizedKey plain ciphertext privParams : Octets) :
    ∃ digest : Octets,
      let params := sentPrivParams header usm privParams
      let data := sentData header plain ciphertext
      digest.length = authWidth header auth ∧
        sealV3Message ssl header usm auth localizedKey
            { buf := plain, ec := none } ciphertext
            privParams =
          .ok (v3Bytes header usm digest params data) ∧
        (header.level.isAuthenticated →
          authDigest ssl auth localizedKey
              (v3Bytes header usm
                (List.replicate digest.length 0) params
                data) =
            .ok digest) := by
  rw [sealV3Message_eq]
  by_cases hLevel : header.level.isAuthenticated = true
  · have hWidth : authWidth header auth =
        authParamsSize auth := by
      rw [authWidth, if_pos hLevel]
    rcases authDigest_width (hSsl hLevel) (hAuth hLevel)
      localizedKey
      (v3Bytes header usm
        (List.replicate (authWidth header auth) 0)
        (sentPrivParams header usm privParams)
        (sentData header plain ciphertext)) with
      ⟨digest, hDigest, hLength⟩
    rw [← hWidth] at hLength
    have hBlank :
        (List.replicate (authWidth header auth)
          (0 : UInt8)).length = digest.length := by
      rw [List.length_replicate, hLength]
    refine ⟨digest, hLength, ?_, ?_⟩
    · simp only [hLevel, not_true_eq_false, if_false, hDigest,
        Except.map]
      rw [digestOffset_eq _ _ _ _ _
        (by rw [hBlank, hLength]; exact authWidth_lt _ _),
        hBlank, copyAt_v3Bytes _ _ _ _ _ _ hBlank]
    · intro _
      rw [hLength]
      exact hDigest
  · have hWidth : authWidth header auth = 0 := by
      rw [authWidth, if_neg hLevel]
    refine ⟨[], hWidth.symm, ?_, fun hTrue =>
      absurd hTrue hLevel⟩
    simp only [hLevel, Bool.false_eq_true, not_false_eq_true,
      if_true, hWidth, List.replicate_zero]

/- The sealed message verifies under the same key. -/
theorem verifyAuth_v3Bytes
    {localizedKey digest privParams data : Octets}
    {m : V3Message}
    (hLevel : m.header.level.isAuthenticated = true)
    (hWidth : digest.length = authParamsSize auth)
    (hField : m.security.authParams = digest)
    (hOffset :
      m.authParamsOffset =
        (digestFront header usm digest.length privParams
          data).length)
    (hDigest :
      authDigest ssl auth localizedKey
          (v3Bytes header usm
            (List.replicate digest.length 0) privParams
            data) =
        .ok digest) :
    verifyAuth ssl
        (v3Bytes header usm digest privParams data) m auth
        localizedKey =
      .ok () := by
  have hInside :
      ¬ m.authParamsOffset + m.security.authParams.length >
        (v3Bytes header usm digest privParams
          data).length := by
    rw [hField, hOffset, v3Bytes_split]
    simp only [List.length_append]
    omega
  have hBlanked :
      copyAt (v3Bytes header usm digest privParams data)
          m.authParamsOffset
          (List.replicate digest.length 0) =
        v3Bytes header usm
          (List.replicate digest.length 0) privParams
          data := by
    have hCopy :=
      copyAt_v3Bytes header usm
        (List.replicate digest.length 0) privParams data
        digest (by rw [List.length_replicate])
    rw [hOffset, ← hCopy, List.length_replicate]
  rw [verifyAuth, if_neg (by simp [hLevel, hField, hWidth]),
    if_neg hInside]
  simp only [hField, hBlanked, hDigest, ne_eq,
    not_true_eq_false, if_false]

/- The padding after a ScopedPDU is not read. -/
theorem decryptScopedPdu_of_padded
    {m : V3Message}
    {priv : PrivProtocol}
    {privKey padding : Octets}
    (hPlain :
      privDecrypt ssl priv privKey m.security.boots
          m.security.time m.security.privParams
          m.encryptedPdu =
        .ok (scopedPduBytes s ++ padding))
    (hForm : ScopedPduForm (scopedPduBytes s) s) :
    decryptScopedPdu ssl m priv privKey =
      .ok { m with scopedPdu := s } := by
  have hRead :=
    decodeScopedPdu_reads.complete
      (Reader.View.ofInput (scopedPduBytes s ++ padding))
      hForm
  simp [decryptScopedPdu, hPlain, Bind.bind, Except.bind,
    hRead]

/- Past the refusals, a message is sealed layer by layer. -/
theorem encodeV3Message_eq_seal
    {priv : PrivProtocol}
    {privKey ciphertext privParams : Octets}
    {counter counter' : UInt64}
    (hGood : s.pdu.isEncodable = true)
    (hAuth : header.level.isAuthenticated → auth ≠ .none)
    (hPriv : header.level.isEncrypted → priv ≠ .none)
    (hSealed :
      (if header.level.isEncrypted then
          privEncrypt ssl priv privKey usm.boots usm.time
            (scopedPduBytes s) counter
        else (.ok ([], []), counter)) =
        (.ok (ciphertext, privParams), counter'))
    (localizedKey : Octets) :
    (encodeV3Message ssl header usm s auth localizedKey priv
        privKey counter).1 =
      sealV3Message ssl header usm auth localizedKey
        { buf := scopedPduBytes s, ec := none } ciphertext
        privParams := by
  have hScoped :
      encodeScopedPdu {} s =
        { buf := scopedPduBytes s, ec := none } := by
    rw [(encodeScopedPdu_emits s).writes hGood {} rfl]
    simp [append]
  rw [encodeV3Message]
  simp only [hScoped]
  rw [if_neg (by rintro ⟨hLevel, hNone⟩
                 exact hPriv hLevel hNone),
    if_neg (by rintro ⟨hLevel, hNone⟩
               exact hAuth hLevel hNone), hSealed]
  rfl

/- The unencrypted, unauthenticated message of its parts. -/
theorem encodeV3Message_noAuthNoPriv
    (ssl : OpenSsl)
    (hLevel : header.level = .noAuthNoPriv)
    (hGood : s.pdu.isEncodable = true)
    (usm : UsmParameters)
    (auth : AuthProtocol)
    (localizedKey : Octets)
    (priv : PrivProtocol)
    (privKey : Octets)
    (counter : UInt64) :
    (encodeV3Message ssl header usm s auth localizedKey priv
        privKey counter).1 =
      .ok (v3Bytes header usm [] usm.privParams
        (scopedPduBytes s)) := by
  have hAuth : ¬ header.level.isAuthenticated = true := by
    rw [hLevel]
    decide
  have hEncrypted : ¬ header.level.isEncrypted = true := by
    rw [hLevel]
    decide
  rw [encodeV3Message_eq_seal hGood
    (fun hTrue => absurd hTrue hAuth)
    (fun hTrue => absurd hTrue hEncrypted)
    (if_neg hEncrypted) localizedKey, sealV3Message_eq]
  simp only [hAuth, not_false_eq_true, if_true,
    sentPrivParams, hEncrypted, if_false, sentData, authWidth,
    List.replicate_zero, Bool.false_eq_true]

/- The message a sealed datagram decodes to. -/
def sealedMessage
    (header : V3Header)
    (usm : UsmParameters)
    (s : ScopedPdu)
    (digest ciphertext privParams : Octets) : V3Message :=
  { header := header
    security :=
      { usm with
        authParams := digest
        privParams := sentPrivParams header usm privParams }
    scopedPdu := if header.level.isEncrypted then {} else s
    encryptedPdu :=
      if header.level.isEncrypted then ciphertext else []
    authParamsOffset :=
      (digestFront header usm digest.length
        (sentPrivParams header usm privParams)
        (sentData header (scopedPduBytes s)
          ciphertext)).length }

theorem decodeV3Message_v3Bytes
    (digest ciphertext privParams : Octets)
    (hModel : header.securityModel = 3)
    (hGood : s.pdu.isEncodable = true)
    (hLength :
      (v3Bytes header usm digest
        (sentPrivParams header usm privParams)
        (sentData header (scopedPduBytes s)
          ciphertext)).length < 2 ^ 32) :
    decodeV3Message
        (v3Bytes header usm digest
          (sentPrivParams header usm privParams)
          (sentData header (scopedPduBytes s) ciphertext)) =
      (some (sealedMessage header usm s digest ciphertext
        privParams), none) := by
  apply V3Form.decode_eq
  apply v3Bytes_form _ _ _ _ _ hModel _ hLength
  have hData := hLength
  rw [v3Bytes_split] at hData
  simp only [List.length_append] at hData
  unfold MsgDataForm
  by_cases hLevel : header.level.isEncrypted = true
  · simp only [sentData, hLevel, if_true] at hData ⊢
    exact ⟨octetsElement_form (by omega), trivial⟩
  · simp only [sentData, hLevel, if_false,
      Bool.false_eq_true] at hData ⊢
    exact ⟨scopedPduBytes_form hGood (by omega), trivial⟩

end Snmpio

------------------------------------------------------------
-- Opening
------------------------------------------------------------

namespace Snmpio

open Ber Writer

variable {ssl : OpenSsl} {s : ScopedPdu} {header : V3Header}
variable {priv : PrivProtocol} {privKey : Octets}
variable {auth : AuthProtocol}

theorem Pdu.isEncodable_of_forall
    {p : Pdu}
    (hGood :
      ∀ vb ∈ p.varbinds,
        vb.name.isEncodable = true ∧
          ∀ o, vb.val = .oid o → o.isEncodable = true) :
    p.isEncodable = true := by
  by_contra hBad
  rw [Bool.not_eq_true, Pdu.not_isEncodable_iff] at hBad
  rcases hBad with ⟨vb, hMem, hName | ⟨o, hOid, hVal⟩⟩
  · simp [(hGood vb hMem).1] at hName
  · simp [(hGood vb hMem).2 o hOid] at hVal

theorem scopedPduBytes_ne_nil
    (s : ScopedPdu) :
    scopedPduBytes s ≠ [] := by
  simp [scopedPduBytes, elementBytes]

theorem encodeScopedPdu_buf
    (hGood : s.pdu.isEncodable = true) :
    (encodeScopedPdu {} s).buf = scopedPduBytes s := by
  rw [(encodeScopedPdu_emits s).writes hGood {} rfl]
  simp [append]

/- Sealing what the cipher is given can always be undone. -/
theorem seal_or_plain
    (hSsl : ssl.Documented)
    (hGood : s.pdu.isEncodable = true)
    (hPriv :
      header.level.isEncrypted →
        priv ≠ .none ∧ privKeySize priv ≤ privKey.length)
    (hCipher :
      header.level.isEncrypted →
        (paddedPlaintext priv
          (encodeScopedPdu {} s).buf).length < 2 ^ 31)
    (usm : UsmParameters)
    (counter : UInt64) :
    ∃ ciphertext privParams counter',
      (if header.level.isEncrypted then
          privEncrypt ssl priv privKey usm.boots usm.time
            (scopedPduBytes s) counter
        else (.ok ([], []), counter)) =
          (.ok (ciphertext, privParams), counter') ∧
        (header.level.isEncrypted →
          privDecrypt ssl priv privKey usm.boots usm.time
              privParams ciphertext =
            .ok (paddedPlaintext priv (scopedPduBytes s)) ∧
          (scopedPduBytes s).length < 2 ^ 32 ∧
          privParams.length = saltSize ∧
          ciphertext.length ≤
            (scopedPduBytes s).length + desBlockSize) := by
  by_cases hLevel : header.level.isEncrypted = true
  · rcases hPriv hLevel with ⟨hNone, hKey⟩
    have hSize := hCipher hLevel
    rw [encodeScopedPdu_buf hGood] at hSize
    rcases paddedPlaintext_append priv (scopedPduBytes s) with
      ⟨padding, hPadded⟩
    have hShort : (scopedPduBytes s).length < 2 ^ 32 := by
      rw [hPadded, List.length_append] at hSize
      omega
    rcases privDecrypt_privEncrypt hSsl hNone hKey hSize
      (scopedPduBytes_ne_nil s) usm.boots usm.time counter
      with ⟨ciphertext, hEncrypt, hSame, hDecrypt⟩
    rw [if_pos hLevel]
    refine ⟨ciphertext, _, _, hEncrypt,
      fun _ => ⟨hDecrypt, hShort, saltParams_length _ _ _, ?_⟩⟩
    rw [hSame]
    exact paddedPlaintext_length_le _ _
  · rw [if_neg hLevel]
    exact ⟨[], [], counter, rfl,
      fun hTrue => absurd hTrue hLevel⟩

/- What the decoder, the digest and the cipher find in it. -/
structure Opens
    (ssl : OpenSsl)
    (header : V3Header)
    (usm : UsmParameters)
    (s : ScopedPdu)
    (auth : AuthProtocol)
    (localizedKey : Octets)
    (priv : PrivProtocol)
    (privKey : Octets)
    (d : Octets)
    (m : V3Message) : Prop where
  form : V3Form d m
  header_eq : m.header = header
  engineId : m.security.engineId = usm.engineId
  boots : m.security.boots = usm.boots
  time : m.security.time = usm.time
  userName : m.security.userName = usm.userName
  verified :
    header.level.isAuthenticated →
      m.security.authParams.length = authParamsSize auth ∧
        verifyAuth ssl d m auth localizedKey = .ok ()
  plain :
    header.level.isEncrypted = false → m.scopedPdu = s
  decrypted :
    header.level.isEncrypted →
      ∃ m', decryptScopedPdu ssl m priv privKey = .ok m' ∧
        m'.scopedPdu = s

/- No part of the message is longer than 16 MiB. -/
structure Roomy
    (usm : UsmParameters)
    (s : ScopedPdu) : Prop where
  engineId : usm.engineId.length < 2 ^ 24
  userName : usm.userName.length < 2 ^ 24
  privParams : usm.privParams.length < 2 ^ 24
  scopedPdu : (encodeScopedPdu {} s).buf.length < 2 ^ 24

theorem authWidth_le
    (header : V3Header)
    (auth : AuthProtocol) :
    authWidth header auth ≤ 48 := by
  unfold authWidth
  split
  · cases auth <;> decide
  · exact Nat.zero_le 48

/- Past the refusals, a message is sealed and can be opened. -/
theorem encodeV3Message_seals
    (hSsl : ssl.Documented)
    (hModel : header.securityModel = 3)
    (hGood : s.pdu.isEncodable = true)
    (hAuth : header.level.isAuthenticated → auth ≠ .none)
    (hPriv :
      header.level.isEncrypted →
        priv ≠ .none ∧ privKeySize priv ≤ privKey.length)
    (hCipher :
      header.level.isEncrypted →
        (paddedPlaintext priv
          (encodeScopedPdu {} s).buf).length < 2 ^ 31)
    (usm : UsmParameters)
    (localizedKey : Octets)
    (counter : UInt64) :
    ∃ d,
      (encodeV3Message ssl header usm s auth localizedKey
          priv privKey counter).1 = .ok d ∧
        (Roomy usm s → d.length < 2 ^ 32) ∧
        (d.length < 2 ^ 32 →
          ∃ m, Opens ssl header usm s auth localizedKey priv
            privKey d m) := by
  rcases seal_or_plain hSsl hGood hPriv hCipher usm
    counter with
    ⟨ciphertext, privParams, counter', hSealed, hOpen⟩
  have hSeal :=
    encodeV3Message_eq_seal hGood hAuth
      (fun hLevel => (hPriv hLevel).1) hSealed localizedKey
  rcases sealV3Message_ok (fun _ => hSsl) hAuth usm
    localizedKey (scopedPduBytes s) ciphertext privParams with
    ⟨digest, hWidth, hOk, hDigest⟩
  rw [hOk] at hSeal
  refine ⟨_, hSeal, ?_, ?_⟩
  · intro hRoomy
    have hPlain := hRoomy.scopedPdu
    rw [encodeScopedPdu_buf hGood] at hPlain
    have hNarrow := authWidth_le header auth
    refine v3Bytes_length_lt header hRoomy.engineId
      hRoomy.userName (by omega) ?_ ?_
    · unfold sentPrivParams
      split
      · next hLevel =>
        rw [(hOpen hLevel).2.2.1]
        decide
      · exact hRoomy.privParams
    · unfold sentData
      split
      · next hLevel =>
        have hCiphertext := (hOpen hLevel).2.2.2
        rw [desBlockSize] at hCiphertext
        have hElement :
            (elementBytes Tag.octetString ciphertext).length ≤
              ciphertext.length + 6 :=
          elementBytes_length_le Tag.octetString (by omega)
        omega
      · omega
  intro hShort
  have hDecode :=
    decodeV3Message_v3Bytes digest ciphertext privParams
      hModel hGood hShort
  refine ⟨_, V3Form.of_decode hDecode, rfl, rfl, rfl, rfl,
    rfl, ?_, ?_, ?_⟩
  · intro hLevel
    have hSize : digest.length = authParamsSize auth := by
      rw [hWidth, authWidth, if_pos hLevel]
    exact ⟨hSize, verifyAuth_v3Bytes hLevel hSize rfl rfl
      (hDigest hLevel)⟩
  · intro hLevel
    simp [sealedMessage, hLevel]
  · intro hLevel
    rcases hOpen hLevel with ⟨hDecrypt, hLength, _⟩
    rcases paddedPlaintext_append priv (scopedPduBytes s) with
      ⟨padding, hPadded⟩
    rw [hPadded] at hDecrypt
    have hFields :
        (sealedMessage header usm s digest ciphertext
              privParams).security.privParams = privParams ∧
          (sealedMessage header usm s digest ciphertext
              privParams).encryptedPdu = ciphertext := by
      simp [sealedMessage, sentPrivParams, hLevel]
    have hOpened :=
      decryptScopedPdu_of_padded
        (by rw [hFields.1, hFields.2]; exact hDecrypt)
        (scopedPduBytes_form hGood hLength)
    exact ⟨_, hOpened, rfl⟩

/- A message of short parts is built, and opens again. -/
theorem encodeV3Message_builds
    (hSsl : ssl.Documented)
    {usm : UsmParameters}
    (hModel : header.securityModel = 3)
    (hGood : s.pdu.isEncodable = true)
    (hAuth : header.level.isAuthenticated → auth ≠ .none)
    (hPriv :
      header.level.isEncrypted →
        priv ≠ .none ∧ privKeySize priv ≤ privKey.length)
    (hRoomy : Roomy usm s)
    (localizedKey : Octets)
    (counter : UInt64) :
    ∃ d m,
      (encodeV3Message ssl header usm s auth localizedKey
          priv privKey counter).1 = .ok d ∧
        Opens ssl header usm s auth localizedKey priv privKey
          d m := by
  have hCipher :
      header.level.isEncrypted →
        (paddedPlaintext priv
          (encodeScopedPdu {} s).buf).length < 2 ^ 31 := by
    intro _
    have hPadded :=
      paddedPlaintext_length_le priv
        (encodeScopedPdu {} s).buf
    have hScoped := hRoomy.scopedPdu
    rw [desBlockSize] at hPadded
    omega
  rcases encodeV3Message_seals hSsl hModel hGood hAuth hPriv
    hCipher usm localizedKey counter with
    ⟨d, hSealed, hShort, hOpens⟩
  rcases hOpens (hShort hRoomy) with ⟨m, hOpens⟩
  exact ⟨d, m, hSealed, hOpens⟩

/- A message that is sealed has the keys its level needs. -/
theorem encodeV3Message_needs
    {usm : UsmParameters}
    {localizedKey : Octets}
    {counter : UInt64}
    {d : Octets}
    (hSealed :
      (encodeV3Message ssl header usm s auth localizedKey priv
        privKey counter).1 = .ok d) :
    (header.level.isAuthenticated → auth ≠ .none) ∧
      (header.level.isEncrypted →
        priv ≠ .none ∧
          privKeySize priv ≤ privKey.length) := by
  unfold encodeV3Message at hSealed
  dsimp only at hSealed
  split at hSealed
  · cases hSealed
  · next hPriv =>
    split at hSealed
    · cases hSealed
    · next hAuth =>
      refine ⟨fun hLevel hNone => hAuth ⟨hLevel, hNone⟩, ?_⟩
      intro hLevel
      refine ⟨fun hNone => hPriv ⟨hLevel, hNone⟩, ?_⟩
      by_contra hShort
      rw [if_pos hLevel, privEncrypt,
        if_pos (Or.inr (Nat.lt_of_not_le hShort))] at hSealed
      cases hSealed

/-
  An OpenSSL that keeps to its documentation: hashes of
  zeros, and ciphers that copy their input.
-/
def OpenSsl.copying : OpenSsl where
  digest p _ := some (List.replicate (keySize p) 0)
  hmac p _ _ _ := some (List.replicate (keySize p) 0)
  legacyProvider := true
  cipherFetch _ := true
  cipherInit _ _ _ _ := true
  cipherUpdate _ _ _ _ input _ := some input
  cipherFinal _ _ _ _ _ := some []

theorem OpenSsl.copying_documented :
    OpenSsl.copying.Documented where
  digest_width := by
    intro p _ parts
    exact ⟨_, rfl, by simp⟩
  hmac_width := by
    intro p _ key keyLen message
    exact ⟨_, rfl, by simp⟩
  legacy_loaded := rfl
  fetched := fun _ => rfl
  initialised := fun _ _ _ _ _ _ => rfl
  update_inverse := by
    intro c key iv input inl _ _ _ _
    exact ⟨input, rfl, rfl, rfl⟩
  final_empty := fun _ _ _ _ _ _ _ _ => rfl

/- Its encoding. -/
def samplePlain : Octets :=
  [0x30, 0x18, 0x04, 0x00, 0x04, 0x00, 0xA0, 0x12, 0x02,
    0x01, 0x00, 0x02, 0x01, 0x00, 0x02, 0x01, 0x00, 0x30,
    0x07, 0x30, 0x05, 0x06, 0x01, 0x2B, 0x05, 0x00]

/- Its AES-128-CFB ciphertext, for a key and an IV of zeros. -/
def sampleCipher : Octets :=
  [0x56, 0xF1, 0x4F, 0xD4, 0xEB, 0x8A, 0x8C, 0x29, 0x8A,
    0x4D, 0xFA, 0x5B, 0xCB, 0x34, 0x29, 0x2F, 0x72, 0xE8,
    0x79, 0x4D, 0x75, 0x5A, 0xF1, 0x24, 0xB2, 0x31]

/- The HMAC-SHA-256 of its message, for a key of zeros. -/
def sampleMac : Octets :=
  [0x51, 0x9D, 0x88, 0x7B, 0x73, 0xA5, 0xDD, 0xF2, 0x6A,
    0x08, 0xE6, 0xC3, 0x07, 0x77, 0x64, 0x3E, 0x76, 0x7C,
    0x51, 0xE0, 0xE8, 0xAC, 0x95, 0xC7, 0xFC, 0xB2, 0x5A,
    0x67, 0x19, 0x6B, 0xAA, 0x61]

/- An OpenSSL that has the true values for this message. -/
def OpenSsl.sample : OpenSsl :=
  { OpenSsl.copying with
    hmac := fun p _ _ _ =>
      some (if p = .sha256 then sampleMac
        else List.replicate (keySize p) 0)
    cipherUpdate := fun _ _ _ _ input _ =>
      some (Equiv.swap samplePlain sampleCipher input) }

end Snmpio
