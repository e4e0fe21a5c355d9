import Snmpio.Message.Pdu
import Snmpio.Message.Usm

/-
  SNMPv3 messages: encoding and sealing, decoding, opening
  and verifying.

  Key definitions include:
    * `V3Message`
    * `encodeV3Message`
    * `decodeV3Message`
    * `decryptScopedPdu`
    * `verifyAuth`
-/

------------------------------------------------------------
-- Messages
------------------------------------------------------------

namespace Snmpio

def versionV3 : Int32 := 3

def securityModelUsm : Int32 := 3

def defaultMaxMessageSize : Int32 := 65507

structure V3Header where
  msgId : Int32 := 0
  maxSize : Int32 := defaultMaxMessageSize
  level : SecurityLevel := .noAuthNoPriv
  reportable : Bool := true
  securityModel : Int32 := securityModelUsm
  deriving DecidableEq

structure UsmParameters where
  engineId : Octets := []
  boots : Int32 := 0
  time : Int32 := 0
  userName : Octets := []
  authParams : Octets := []
  privParams : Octets := []
  deriving DecidableEq

structure ScopedPdu where
  contextEngineId : Octets := []
  contextName : Octets := []
  pdu : Pdu := {}
  deriving DecidableEq

/-
  `scopedPdu`, the source's `scoped`, is empty until an
  encrypted message is opened, and `encryptedPdu` is empty
  unless it is encrypted.
-/
structure V3Message where
  header : V3Header := {}
  security : UsmParameters := {}
  scopedPdu : ScopedPdu := {}
  encryptedPdu : Octets := []
  authParamsOffset : Nat := 0
  deriving DecidableEq

def reportableFlag : UInt8 := 0x04

def securityLevelMask : UInt8 := 0x03

def privWithoutAuth : UInt8 := 0x02

def encodeFlags
    (h : V3Header) : UInt8 :=
  if h.reportable then h.level.flags ||| reportableFlag
  else h.level.flags

/-
  The cast of the masked flags to `SecurityLevel`, once
  `privWithoutAuth` has been refused.
-/
def SecurityLevel.ofFlags
    (flags : UInt8) : SecurityLevel :=
  if flags &&& securityLevelMask = 0x03 then .authPriv
  else if flags &&& securityLevelMask = 0x01 then .authNoPriv
  else .noAuthNoPriv

end Snmpio

------------------------------------------------------------
-- Encoding
------------------------------------------------------------

namespace Snmpio

open Ber

variable (ssl : OpenSsl)

def encodeScopedPdu
    (w : Writer)
    (s : ScopedPdu) : Writer :=
  let (scope, w) := w.beginSequence
  let w := w.octetString s.contextEngineId
  let w := w.octetString s.contextName
  let w := encodePdu w s.pdu
  scope.close w

/- Also where the blank digest was written. -/
def encodeUsmContent
    (w : Writer)
    (usm : UsmParameters)
    (authWidth : Nat)
    (privParams : Octets) : Nat × Writer :=
  let w := w.octetString usm.engineId
  let w := w.integer usm.boots
  let w := w.integer usm.time
  let w := w.octetString usm.userName
  let blank := List.replicate authWidth 0
  let authOffset := w.size + 2
  let w := w.octetString blank
  let w := w.octetString privParams
  (authOffset, w)

/- The block that writes msgGlobalData. -/
def writeV3Header
    (body : Writer)
    (header : V3Header) : Writer :=
  let (scope, body) := body.beginSequence
  let body := body.integer header.msgId
  let body := body.integer header.maxSize
  let body := body.octetString [encodeFlags header]
  let body := body.integer header.securityModel
  scope.close body

/- `std::ranges::copy(bytes, out.begin() + offset)`. -/
def copyAt
    (out : Octets)
    (offset : Nat)
    (bytes : Octets) : Octets :=
  out.take offset ++ bytes ++
    out.drop (offset + bytes.length)

/-
  From the ScopedPDU's buffer to the finished datagram: each
  layer is built into its own buffer and then wrapped, and
  the digest's offset is carried outwards.
-/
def sealV3Message
    (header : V3Header)
    (usm : UsmParameters)
    (auth : AuthProtocol)
    (localizedKey : Octets)
    (scopedContent : Writer)
    (ciphertext privParams : Octets) : Except Errc Octets :=
  let encrypt := header.level.isEncrypted
  let authenticate := header.level.isAuthenticated
  let authWidth :=
    if authenticate then authParamsSize auth else 0
  let (authOffset, usmContent) :=
    encodeUsmContent {} usm authWidth
      (if encrypt then privParams else usm.privParams)
  let usmParams :=
    ({} : Writer).tlv Tag.sequence usmContent.buf
  let authOffset :=
    authOffset + (usmParams.size - usmContent.size)
  let body := ({} : Writer).integer versionV3
  let body := writeV3Header body header
  let body := body.octetString usmParams.buf
  let authOffset := authOffset + (body.size - usmParams.size)
  let body :=
    if encrypt then body.octetString ciphertext
    else body.raw scopedContent.buf
  let w := ({} : Writer).tlv Tag.sequence body.buf
  let authOffset := authOffset + (w.size - body.size)
  match
      [scopedContent.ec, usmContent.ec, usmParams.ec,
        body.ec, w.ec].findSome? id with
  | some e => .error e
  | none =>
      if ¬ authenticate then .ok w.buf
      else
        (authDigest ssl auth localizedKey w.buf).map
          (copyAt w.buf authOffset)

/-
  The result, and the salt counter as it is left.  Every
  early return is of no octets.
-/
def encodeV3Message
    (header : V3Header)
    (usm : UsmParameters)
    (scopedPdu : ScopedPdu)
    (auth : AuthProtocol)
    (localizedKey : Octets)
    (priv : PrivProtocol)
    (privKey : Octets)
    (counter : UInt64) : Except Errc Octets × UInt64 :=
  let encrypt := header.level.isEncrypted
  if encrypt ∧ priv = .none then
    (.error .unsupportedPrivProtocol, counter)
  else if header.level.isAuthenticated ∧ auth = .none then
    (.error .unsupportedAuthProtocol, counter)
  else
    let scopedContent := encodeScopedPdu {} scopedPdu
    let (sealed, counter) :=
      if encrypt then
        privEncrypt ssl priv privKey usm.boots usm.time
          scopedContent.buf counter
      else (.ok ([], []), counter)
    (sealed.bind (fun (ciphertext, privParams) =>
      sealV3Message ssl header usm auth localizedKey
        scopedContent ciphertext privParams), counter)

end Snmpio

------------------------------------------------------------
-- Decoding
------------------------------------------------------------

namespace Snmpio

open Ber Reader

/- The statements inside the ScopedPDU's scope. -/
def scopedPduBody :
    Reader → Option ScopedPdu × Reader :=
  andThen (both Reader.octetString Reader.octetString)
    decodePdu (fun contexts pdu =>
      ⟨contexts.1, contexts.2, pdu⟩)

def decodeScopedPdu
    (r : Reader) : Option ScopedPdu × Reader :=
  r.inScope Tag.sequence scopedPduBody

def v3HeaderFields :
    Reader →
      Option (Int32 × Int32 × Octets × Int32) × Reader :=
  both Reader.integer
    (both Reader.integer
      (both Reader.octetString Reader.integer))

/- The statements inside msgGlobalData's scope. -/
def v3HeaderBody
    (r : Reader) : Except Fault (V3Header × Reader) := do
  let ((msgId, maxSize, flags, model), r) ←
    orError (v3HeaderFields r)
  if flags.length ≠ 1 ∨
      flags.headD 0 &&& securityLevelMask =
        privWithoutAuth then
    throw (some .badMessageFlags)
  return ({
    msgId := msgId
    maxSize := maxSize
    level := SecurityLevel.ofFlags (flags.headD 0)
    reportable := flags.headD 0 &&& reportableFlag ≠ 0
    securityModel := model }, r)

/- The digest's position is asked for right after it. -/
def usmFields :
    Reader →
      Option (Octets × Int32 × Int32 × Octets ×
        (Octets × Nat) × Octets) × Reader :=
  both Reader.octetString
    (both Reader.integer
      (both Reader.integer
        (both Reader.octetString
          (both (positioned Reader.octetString)
            Reader.octetString))))

/- The statements inside the security parameters' scope. -/
def usmBody
    (paramsBase : Nat)
    (r : Reader) :
    Except Fault ((UsmParameters × Nat) × Reader) := do
  let ((engineId, boots, time, userName,
      (authParams, afterAuthParams), privParams), r) ←
    orError (usmFields r)
  return (({
    engineId := engineId
    boots := boots
    time := time
    userName := userName
    authParams := authParams
    privParams := privParams },
    paramsBase + afterAuthParams - authParams.length), r)

/- msgData, as msgFlags said it is. -/
def v3MsgData
    (level : SecurityLevel)
    (r : Reader) :
    Except Fault ((ScopedPdu × Octets) × Reader) :=
  if level.isEncrypted then do
    let (encrypted, r) ← orError r.octetString
    return (({}, encrypted), r)
  else do
    let (scopedPdu, r) ← orError (decodeScopedPdu r)
    return ((scopedPdu, []), r)

/- The statements inside the message's scope. -/
def v3Body
    (r : Reader) : Except Fault (V3Message × Reader) := do
  let (version, r) ← orError r.integer
  if version ≠ versionV3 then throw (some .badVersion)
  let (header, r) ← inElement Tag.sequence v3HeaderBody r
  if header.securityModel ≠ securityModelUsm then
    throw (some .unsupportedSecurityModel)
  let (params, r) ← orError r.octetStringView
  let (security, authParamsOffset) ←
    wholeElement Tag.sequence (usmBody params.start)
      params.octets
  let ((scopedPdu, encryptedPdu), r) ←
    v3MsgData header.level r
  return ({
    header := header
    security := security
    scopedPdu := scopedPdu
    encryptedPdu := encryptedPdu
    authParamsOffset := authParamsOffset }, r)

def decodeV3Message
    (datagram : Octets) :
    Option V3Message × Option Errc :=
  resultAndError
    (wholeElement Tag.sequence v3Body datagram)

end Snmpio

------------------------------------------------------------
-- Opening and Verifying
------------------------------------------------------------

namespace Snmpio

open Ber

variable (ssl : OpenSsl)

/- The message with `scopedPdu` filled in. -/
def decryptScopedPdu
    (msg : V3Message)
    (priv : PrivProtocol)
    (privKey : Octets) : Except Errc V3Message := do
  let plain ←
    privDecrypt ssl priv privKey msg.security.boots
      msg.security.time msg.security.privParams
      msg.encryptedPdu
  -- No `finish`: the padding of DES may follow.
  match (decodeScopedPdu (Reader.ofInput plain)).1 with
  | none => .error .decryptionFailed
  | some scopedPdu => .ok { msg with scopedPdu := scopedPdu }

/- `true` with a clear `ec` is `.ok ()`. -/
def verifyAuth
    (datagram : Octets)
    (msg : V3Message)
    (auth : AuthProtocol)
    (localizedKey : Octets) : Except Errc Unit :=
  if ¬ msg.header.level.isAuthenticated ∨
      msg.security.authParams.length ≠
        authParamsSize auth then
    .error .authFailed
  else if msg.authParamsOffset +
      msg.security.authParams.length > datagram.length then
    .error .authFailed
  else
    let blanked :=
      copyAt datagram msg.authParamsOffset
        (List.replicate msg.security.authParams.length 0)
    match authDigest ssl auth localizedKey blanked with
    | .error e => .error e
    | .ok expected =>
        -- `CRYPTO_memcmp` after the sizes compare equal.
        if expected ≠ msg.security.authParams then
          .error .authFailed
        else .ok ()

end Snmpio
