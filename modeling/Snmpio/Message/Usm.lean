import Snmpio.Core.Error
import Snmpio.Core.Octets
import Mathlib.Data.List.Basic

/-
  The User-based Security Model: keys, digests and privacy.

  OpenSSL is not part of the source, so its calls are the
  fields of `OpenSsl`, a parameter of every function that
  makes one.  A function whose `ec` is cleared whenever it
  returns a value is an `Except`.

  Key definitions include:
    * `OpenSsl`
    * `OpenSsl.Documented`
    * `localizedAuthKey`
    * `localizedPrivKey`
    * `privEncrypt`
    * `privDecrypt`
    * `authDigest`
-/

------------------------------------------------------------
-- Protocols and Levels
------------------------------------------------------------

namespace Snmpio

inductive AuthProtocol where
  | none
  | md5
  | sha1
  | sha224
  | sha256
  | sha384
  | sha512
  deriving DecidableEq, Repr

inductive PrivProtocol where
  | none
  | des
  | aes128
  | aes192
  | aes256
  | aes192C
  | aes256C
  deriving DecidableEq, Repr

inductive SecurityLevel where
  | noAuthNoPriv
  | authNoPriv
  | authPriv
  deriving DecidableEq, Repr

namespace SecurityLevel

/- The enumeration is valued as its bits of msgFlags. -/
def flags :
    SecurityLevel → UInt8
| noAuthNoPriv => 0x00
| authNoPriv => 0x01
| authPriv => 0x03

def isAuthenticated
    (l : SecurityLevel) : Bool :=
  l ≠ noAuthNoPriv

def isEncrypted
    (l : SecurityLevel) : Bool :=
  l = authPriv

end SecurityLevel

/- The digest sizes OpenSSL documents for `EVP_MD`s. -/
def keySize :
    AuthProtocol → Nat
| .none => 0
| .md5 => 16
| .sha1 => 20
| .sha224 => 28
| .sha256 => 32
| .sha384 => 48
| .sha512 => 64

def privKeySize :
    PrivProtocol → Nat
| .none => 0
| .des => 16
| .aes128 => 16
| .aes192 => 24
| .aes192C => 24
| .aes256 => 32
| .aes256C => 32

def authParamsSize :
    AuthProtocol → Nat
| .none => 0
| .md5 => 12
| .sha1 => 12
| .sha224 => 16
| .sha256 => 24
| .sha384 => 32
| .sha512 => 48

structure Credentials where
  userName : Octets := []
  level : SecurityLevel := .noAuthNoPriv
  authProtocol : AuthProtocol := .none
  authPassword : Octets := []
  privProtocol : PrivProtocol := .none
  privPassword : Octets := []
  deriving DecidableEq

end Snmpio

------------------------------------------------------------
-- OpenSSL
------------------------------------------------------------

namespace Snmpio

/- The ciphers the source names to `EVP_CIPHER_fetch`. -/
inductive CipherName where
  | desCbc
  | aes128Cfb
  | aes192Cfb
  | aes256Cfb
  deriving DecidableEq, Repr

namespace CipherName

/- Octets of key the cipher reads. -/
def keyOctets :
    CipherName → Nat
| desCbc => 8
| aes128Cfb => 16
| aes192Cfb => 24
| aes256Cfb => 32

/- Octets of IV the cipher reads. -/
def ivOctets :
    CipherName → Nat
| desCbc => 8
| _ => 16

/- Lengths the cipher takes without padding of its own. -/
def blockOctets :
    CipherName → Nat
| desCbc => 8
| _ => 1

end CipherName

/-
  The calls made into OpenSSL.  `none` and `false` are its
  refusals.  A length argument is passed as the `int` the
  source casts it to.
-/
structure OpenSsl where
  -- One context: every update in order, then the final.
  digest : AuthProtocol → List Octets → Option Octets
  hmac :
    AuthProtocol → (key : Octets) → (keyLen : Int32) →
      (message : Octets) → Option Octets
  legacyProvider : Bool
  cipherFetch : CipherName → Bool
  cipherInit :
    CipherName → (key iv : Octets) → (encrypt : Bool) → Bool
  -- What the update writes for `inl` octets of input.
  cipherUpdate :
    CipherName → (key iv : Octets) → (encrypt : Bool) →
      (input : Octets) → (inl : Int32) → Option Octets
  -- What the final adds after that one update.
  cipherFinal :
    CipherName → (key iv : Octets) → (encrypt : Bool) →
      (input : Octets) → Option Octets

namespace OpenSsl

/-
  What OpenSSL documents: hashes and HMACs have their
  protocol's width, the ciphers are available, and a cipher
  given its input's own size, in whole blocks, keeps that
  size and is undone by the other direction.
-/
structure Documented
    (ssl : OpenSsl) : Prop where
  digest_width :
    ∀ p ≠ .none, ∀ parts, ∃ d,
      ssl.digest p parts = some d ∧ d.length = keySize p
  hmac_width :
    ∀ p ≠ .none, ∀ key keyLen message, ∃ mac,
      ssl.hmac p key keyLen message = some mac ∧
        mac.length = keySize p
  legacy_loaded : ssl.legacyProvider = true
  fetched : ∀ c, ssl.cipherFetch c = true
  initialised :
    ∀ c key iv encrypt,
      c.keyOctets ≤ key.length → iv.length = c.ivOctets →
        ssl.cipherInit c key iv encrypt = true
  update_inverse :
    ∀ c key iv input (inl : Int32),
      c.keyOctets ≤ key.length → iv.length = c.ivOctets →
        c.blockOctets ∣ input.length →
        inl.toInt = input.length →
          ∃ output,
            ssl.cipherUpdate c key iv true input inl =
                some output ∧
              output.length = input.length ∧
              ssl.cipherUpdate c key iv false output inl =
                some input
  final_empty :
    ∀ c key iv encrypt input,
      c.keyOctets ≤ key.length → iv.length = c.ivOctets →
        c.blockOctets ∣ input.length →
          ssl.cipherFinal c key iv encrypt input = some []

/- The part of it that keys rest on: hashes have a width. -/
def Hashes
    (ssl : OpenSsl) : Prop :=
  ∀ p ≠ .none, ∀ parts, ∃ d,
    ssl.digest p parts = some d ∧ d.length = keySize p

end OpenSsl

end Snmpio

------------------------------------------------------------
-- Keys
------------------------------------------------------------

namespace Snmpio

variable (ssl : OpenSsl)

/-
  One digest context.  `AuthProtocol::None` has no `EVP_MD`
  to open one with.
-/
def digestOf
    (p : AuthProtocol)
    (parts : List Octets) : Except Errc Octets :=
  match ssl.digest p parts with
  | none => .error .cryptoFailure
  | some d => .ok d

def hashOf
    (p : AuthProtocol)
    (input : Octets) : Except Errc Octets :=
  if p = .none then .error .unsupportedAuthProtocol
  else digestOf ssl p [input]

def expandedPasswordSize : Nat := 1048576

def chunkSize : Nat := 64

/- `count` octets of the repeated password from `index`. -/
def passwordChunk
    (password : Octets)
    (index count : Nat) : Octets :=
  (List.range count).map
    (fun i => password.getD ((index + i) % password.length) 0)

/- The megabyte, chunk by chunk. -/
def passwordChunks
    (password : Octets) : List Octets :=
  (List.range (expandedPasswordSize / chunkSize)).map
    (fun i => passwordChunk password (i * chunkSize) chunkSize)

def passwordToKey
    (p : AuthProtocol)
    (password : Octets) : Except Errc Octets :=
  if p = .none then .error .unsupportedAuthProtocol
  else if password.isEmpty then .error .emptyPassword
  else digestOf ssl p (passwordChunks password)

def localizeKey
    (p : AuthProtocol)
    (masterKey engineId : Octets) : Except Errc Octets :=
  if p = .none then .error .unsupportedAuthProtocol
  else digestOf ssl p [masterKey, engineId, masterKey]

def localizedAuthKey
    (creds : Credentials)
    (engineId : Octets) : Except Errc Octets := do
  let master ←
    passwordToKey ssl creds.authProtocol creds.authPassword
  localizeKey ssl creds.authProtocol master engineId

/- One round of the Reeder or the Blumenthal extension. -/
def moreKey
    (creds : Credentials)
    (engineId key : Octets) : Except Errc Octets :=
  if creds.privProtocol = .aes192C ∨
      creds.privProtocol = .aes256C then do
    let next ← passwordToKey ssl creds.authProtocol key
    localizeKey ssl creds.authProtocol next engineId
  else
    hashOf ssl creds.authProtocol key

/- The loop that extends the key to `want` octets. -/
def extendKey
    (creds : Credentials)
    (engineId : Octets)
    (want : Nat)
    (key : Octets) : Except Errc Octets :=
  if _hShort : key.length < want then
    match moreKey ssl creds engineId key with
    | .error e => .error e
    | .ok [] => .error .cryptoFailure
    | .ok (b :: more) =>
        extendKey creds engineId want (key ++ b :: more)
  else
    .ok key
termination_by want - key.length
decreasing_by
  simp only [List.length_append, List.length_cons]
  omega

def localizedPrivKey
    (creds : Credentials)
    (engineId : Octets) : Except Errc Octets := do
  let want := privKeySize creds.privProtocol
  if want = 0 then throw .unsupportedPrivProtocol
  let master ←
    passwordToKey ssl creds.authProtocol creds.privPassword
  let key ←
    localizeKey ssl creds.authProtocol master engineId
  let key ← extendKey ssl creds engineId want key
  return key.take want

end Snmpio

------------------------------------------------------------
-- Privacy
------------------------------------------------------------

namespace Snmpio

open Octets

variable (ssl : OpenSsl)

/- `PrivProtocol::None` names no cipher. -/
def cipherName :
    PrivProtocol → Option CipherName
| .none => none
| .des => some .desCbc
| .aes128 => some .aes128Cfb
| .aes192 => some .aes192Cfb
| .aes192C => some .aes192Cfb
| .aes256 => some .aes256Cfb
| .aes256C => some .aes256Cfb

def desKeySize : Nat := 8

def desBlockSize : Nat := 8

def saltSize : Nat := 8

def putBigEndian32
    (v : UInt32) : Octets :=
  bigEndian 4 v.toNat

/- The IV either side derives from what travels. -/
def makeIv
    (p : PrivProtocol)
    (privKey : Octets)
    (boots time : Int32)
    (privParams : Octets) : Octets :=
  if p = .des then
    (List.range desBlockSize).map
      (fun i =>
        privKey.getD (desKeySize + i) 0 ^^^
          privParams.getD i 0)
  else
    putBigEndian32 boots.toUInt32 ++
      putBigEndian32 time.toUInt32 ++ privParams

/- One EVP pass, whichever direction. -/
def crypt
    (p : PrivProtocol)
    (privKey iv input : Octets)
    (encrypt : Bool) : Except Errc Octets :=
  if p = .des ∧ ¬ ssl.legacyProvider then
    .error .legacyProviderUnavailable
  else
    match (cipherName p).filter ssl.cipherFetch with
    | none =>
        .error (if p = .des then .legacyProviderUnavailable
          else .cryptoFailure)
    | some c =>
        if ¬ ssl.cipherInit c privKey iv encrypt then
          .error .cryptoFailure
        else
          -- `static_cast<int>(in.size())` wraps.
          let written :=
            if input.isEmpty then some []
            else ssl.cipherUpdate c privKey iv encrypt input
              (Int32.ofNat input.length)
          match written,
              ssl.cipherFinal c privKey iv encrypt input with
          | some out, some tail => .ok (out ++ tail)
          | _, _ => .error .cryptoFailure

/- msgPrivacyParameters for a salt. -/
def saltParams
    (p : PrivProtocol)
    (boots : Int32)
    (salt : UInt64) : Octets :=
  if p = .des then
    putBigEndian32 boots.toUInt32 ++
      putBigEndian32 salt.toUInt32
  else
    putBigEndian32 (salt >>> 32).toUInt32 ++
      putBigEndian32 salt.toUInt32

/- DES is fed whole blocks. -/
def paddedPlaintext
    (p : PrivProtocol)
    (plaintext : Octets) : Octets :=
  if p = .des then
    plaintext ++
      List.replicate
        ((desBlockSize - plaintext.length % desBlockSize) %
          desBlockSize) 0
  else
    plaintext

/-
  The ciphertext and the msgPrivacyParameters chosen for it.
  The process-wide salt counter is an argument, returned as
  it is left: a refused key draws no salt.
-/
def privEncrypt
    (p : PrivProtocol)
    (privKey : Octets)
    (boots time : Int32)
    (plaintext : Octets)
    (counter : UInt64) :
    Except Errc (Octets × Octets) × UInt64 :=
  if privKeySize p = 0 ∨ privKey.length < privKeySize p then
    (.error .unsupportedPrivProtocol, counter)
  else
    let privParams := saltParams p boots counter
    let iv := makeIv p privKey boots time privParams
    let ciphertext :=
      crypt ssl p privKey iv (paddedPlaintext p plaintext)
        true
    (ciphertext.map (fun c => (c, privParams)), counter + 1)

def privDecrypt
    (p : PrivProtocol)
    (privKey : Octets)
    (boots time : Int32)
    (privParams ciphertext : Octets) : Except Errc Octets :=
  if privKey.length < privKeySize p ∨ privKeySize p = 0 then
    .error .unsupportedPrivProtocol
  else if privParams.length ≠ saltSize then
    .error .decryptionFailed
  else if p = .des ∧
      (ciphertext.isEmpty ∨
        ciphertext.length % desBlockSize ≠ 0) then
    .error .decryptionFailed
  else
    let iv := makeIv p privKey boots time privParams
    crypt ssl p privKey iv ciphertext false

/- HMAC over a message, truncated to the protocol's width. -/
def authDigest
    (p : AuthProtocol)
    (localizedKey message : Octets) : Except Errc Octets :=
  if p = .none then .error .unsupportedAuthProtocol
  else
    match ssl.hmac p localizedKey
        (Int32.ofNat localizedKey.length) message with
    | none => .error .cryptoFailure
    | some mac =>
        if authParamsSize p > mac.length then
          .error .cryptoFailure
        else
          .ok (mac.take (authParamsSize p))

end Snmpio
