import Snmpio.Message.Usm

/-
  What the User-based Security Model's functions promise of
  an OpenSSL that keeps to its documentation.

  Key theorems include:
    * `crypt_inverse`
    * `privDecrypt_privEncrypt`
    * `authDigest_width`
    * `localizedAuthKey_ok`
    * `localizedPrivKey_ok`
-/

------------------------------------------------------------
-- Initialisation Vectors and Padding
------------------------------------------------------------

namespace Snmpio

open Octets

variable {p : PrivProtocol} {c : CipherName}

/- A cipher's key is cut from the localized one. -/
theorem cipherName_of_ne_none
    (hp : p ≠ .none) :
    ∃ c, cipherName p = some c ∧
      c.keyOctets ≤ privKeySize p := by
  cases p with
  | none => exact absurd rfl hp
  | des => exact ⟨.desCbc, rfl, by decide⟩
  | aes128 => exact ⟨.aes128Cfb, rfl, by decide⟩
  | aes192 => exact ⟨.aes192Cfb, rfl, by decide⟩
  | aes256 => exact ⟨.aes256Cfb, rfl, by decide⟩
  | aes192C => exact ⟨.aes192Cfb, rfl, by decide⟩
  | aes256C => exact ⟨.aes256Cfb, rfl, by decide⟩

/- Every privacy protocol has a key. -/
theorem privKeySize_ne_zero
    (hp : p ≠ .none) :
    privKeySize p ≠ 0 := by
  cases p <;> simp_all [privKeySize]

/- Only DES is used in CBC mode. -/
theorem cipherName_eq_desCbc_iff
    (hc : cipherName p = some c) :
    c = .desCbc ↔ p = .des := by
  cases p <;> simp_all [cipherName] <;> simp [← hc]

/- Only DES works in blocks of more than one octet. -/
theorem blockOctets_eq
    (c : CipherName) :
    c.blockOctets = if c = .desCbc then 8 else 1 := by
  cases c <;> rfl

/- The ciphers that are used have two widths of IV. -/
theorem ivOctets_eq
    (c : CipherName) :
    c.ivOctets = if c = .desCbc then 8 else 16 := by
  cases c <;> rfl

theorem putBigEndian32_length
    (v : UInt32) :
    (putBigEndian32 v).length = 4 := by
  rw [putBigEndian32, bigEndian_length]

/- The salt that is sent has eight octets. -/
theorem saltParams_length
    (p : PrivProtocol)
    (boots : Int32)
    (salt : UInt64) :
    (saltParams p boots salt).length = saltSize := by
  unfold saltParams
  split <;> simp [putBigEndian32_length, saltSize]

/- With such a salt the IV has the cipher's width. -/
theorem makeIv_length
    {privKey privParams : Octets}
    {boots time : Int32}
    (hc : cipherName p = some c)
    (hParams : privParams.length = saltSize) :
    (makeIv p privKey boots time privParams).length =
      c.ivOctets := by
  rw [ivOctets_eq, makeIv]
  simp only [cipherName_eq_desCbc_iff hc]
  split
  · simp [desBlockSize]
  · simp [putBigEndian32_length, hParams, saltSize]

/- Padding only appends, up to a whole block. -/
theorem paddedPlaintext_append
    (p : PrivProtocol)
    (plaintext : Octets) :
    ∃ padding,
      paddedPlaintext p plaintext = plaintext ++ padding := by
  unfold paddedPlaintext
  split
  · exact ⟨_, rfl⟩
  · exact ⟨[], by simp⟩

/- DES adds less than a block; AES adds nothing. -/
theorem paddedPlaintext_length_le
    (p : PrivProtocol)
    (plaintext : Octets) :
    (paddedPlaintext p plaintext).length ≤
      plaintext.length + desBlockSize := by
  unfold paddedPlaintext
  split
  · rw [List.length_append, List.length_replicate]
    have hRest :
        (desBlockSize - plaintext.length % desBlockSize) %
          desBlockSize < desBlockSize :=
      Nat.mod_lt _ (by decide)
    omega
  · omega

/- The cipher is given whole blocks. -/
theorem blockOctets_dvd_padded
    (hc : cipherName p = some c)
    (plaintext : Octets) :
    c.blockOctets ∣
      (paddedPlaintext p plaintext).length := by
  rw [blockOctets_eq, paddedPlaintext]
  simp only [cipherName_eq_desCbc_iff hc]
  split
  · simp only [List.length_append, List.length_replicate,
      desBlockSize]
    omega
  · exact Nat.one_dvd _

end Snmpio

------------------------------------------------------------
-- Encryption and Decryption
------------------------------------------------------------

namespace Snmpio

variable {ssl : OpenSsl} {p : PrivProtocol}
variable {privKey : Octets}

/- A pass through a cipher that is given a size it takes. -/
theorem crypt_eq
    {c : CipherName}
    {iv input : Octets}
    {encrypt : Bool}
    (hSsl : ssl.Documented)
    (hc : cipherName p = some c)
    (hKey : c.keyOctets ≤ privKey.length)
    (hIv : iv.length = c.ivOctets)
    (hBlocks : c.blockOctets ∣ input.length) :
    crypt ssl p privKey iv input encrypt =
      match
          if input.isEmpty then some []
          else ssl.cipherUpdate c privKey iv encrypt input
            (Int32.ofNat input.length) with
      | some output => .ok output
      | none => .error .cryptoFailure := by
  have hFinal :=
    hSsl.final_empty c privKey iv encrypt input hKey hIv
      hBlocks
  have hInit := hSsl.initialised c privKey iv encrypt hKey hIv
  rw [crypt, if_neg (by simp [hSsl.legacy_loaded]), hc,
    Option.filter_some, hSsl.fetched c]
  simp only [if_true, hInit, not_true_eq_false, if_false,
    hFinal]
  generalize
    (if input.isEmpty = true then some []
      else ssl.cipherUpdate c privKey iv encrypt input
        (Int32.ofNat input.length)) = written
  cases written with
  | none => rfl
  | some output => simp

/- The two directions undo each other. -/
theorem crypt_inverse
    {c : CipherName}
    {iv input : Octets}
    (hSsl : ssl.Documented)
    (hc : cipherName p = some c)
    (hKey : c.keyOctets ≤ privKey.length)
    (hIv : iv.length = c.ivOctets)
    (hBlocks : c.blockOctets ∣ input.length)
    (hSize : input.length < 2 ^ 31) :
    ∃ output,
      crypt ssl p privKey iv input true = .ok output ∧
        output.length = input.length ∧
        crypt ssl p privKey iv output false = .ok input := by
  by_cases hEmpty : input = []
  · subst hEmpty
    refine ⟨[], ?_, rfl, ?_⟩
    · rw [crypt_eq hSsl hc hKey hIv hBlocks]
      rfl
    · rw [crypt_eq hSsl hc hKey hIv hBlocks]
      rfl
  · rcases hSsl.update_inverse c privKey iv input
      (Int32.ofNat input.length) hKey hIv hBlocks
      (Int32.toInt_ofNat_of_lt hSize) with
      ⟨output, hEncrypt, hLength, hDecrypt⟩
    have hOutput : output ≠ [] := by
      rintro rfl
      exact hEmpty (List.length_eq_zero_iff.mp hLength.symm)
    refine ⟨output, ?_, hLength, ?_⟩
    · rw [crypt_eq hSsl hc hKey hIv hBlocks]
      simp [hEmpty, hEncrypt]
    · rw [crypt_eq hSsl hc hKey hIv (hLength ▸ hBlocks)]
      simp [hOutput, hLength, hDecrypt]

/-
  What `privEncrypt` produces, `privDecrypt` opens with the
  parameters that travelled, padding included.
-/
theorem privDecrypt_privEncrypt
    {plaintext : Octets}
    (hSsl : ssl.Documented)
    (hp : p ≠ .none)
    (hKey : privKeySize p ≤ privKey.length)
    (hSize : (paddedPlaintext p plaintext).length < 2 ^ 31)
    (hPlain : plaintext ≠ [])
    (boots time : Int32)
    (counter : UInt64) :
    ∃ ciphertext,
      privEncrypt ssl p privKey boots time plaintext counter =
          (.ok (ciphertext, saltParams p boots counter),
            counter + 1) ∧
        ciphertext.length =
          (paddedPlaintext p plaintext).length ∧
        privDecrypt ssl p privKey boots time
            (saltParams p boots counter) ciphertext =
          .ok (paddedPlaintext p plaintext) := by
  rcases cipherName_of_ne_none hp with ⟨c, hc, hKeyOctets⟩
  have hSalt := saltParams_length p boots counter
  have hIv :
      (makeIv p privKey boots time
        (saltParams p boots counter)).length =
        c.ivOctets :=
    makeIv_length hc hSalt
  have hNonzero := privKeySize_ne_zero hp
  rcases crypt_inverse hSsl hc (hKeyOctets.trans hKey) hIv
    (blockOctets_dvd_padded hc plaintext) hSize with
    ⟨ciphertext, hEncrypt, hLength, hDecrypt⟩
  refine ⟨ciphertext, ?_, hLength, ?_⟩
  · rw [privEncrypt, if_neg (by omega)]
    simp only [hEncrypt]
    rfl
  · have hBlock :
        ¬ (p = .des ∧ (ciphertext.isEmpty ∨
          ciphertext.length % desBlockSize ≠ 0)) := by
      rintro ⟨rfl, hBad⟩
      have hDvd := blockOctets_dvd_padded hc plaintext
      rw [← hLength, (cipherName_eq_desCbc_iff hc).mpr rfl]
        at hDvd
      rcases paddedPlaintext_append .des plaintext with
        ⟨padding, hPadded⟩
      have hPos := List.length_pos_of_ne_nil hPlain
      rw [hPadded, List.length_append] at hLength
      rcases hBad with hEmpty | hMod
      · rw [List.isEmpty_iff] at hEmpty
        rw [hEmpty, List.length_nil] at hLength
        omega
      · exact hMod (Nat.eq_zero_of_dvd_of_lt
          ((Nat.dvd_mod_iff (dvd_refl 8)).mpr hDvd)
          (Nat.mod_lt _ (by decide)))
    rw [privDecrypt, if_neg (by omega),
      if_neg (by simpa using hSalt), if_neg hBlock]
    exact hDecrypt

/- The digest that is sent is a part of the whole one. -/
theorem authParamsSize_le_keySize
    (p : AuthProtocol) :
    authParamsSize p ≤ keySize p := by
  cases p <;> decide

/- A digest has the protocol's width in the message. -/
theorem authDigest_width
    {p : AuthProtocol}
    (hSsl : ssl.Documented)
    (hp : p ≠ .none)
    (localizedKey message : Octets) :
    ∃ digest,
      authDigest ssl p localizedKey message = .ok digest ∧
        digest.length = authParamsSize p := by
  have hLe := authParamsSize_le_keySize p
  rcases hSsl.hmac_width p hp localizedKey
    (Int32.ofNat localizedKey.length) message with
    ⟨mac, hMac, hWidth⟩
  refine ⟨mac.take (authParamsSize p), ?_, ?_⟩
  · rw [authDigest, if_neg hp]
    simp only [hMac]
    rw [if_neg (by omega)]
  · rw [List.length_take]
    omega

end Snmpio

------------------------------------------------------------
-- Keys
------------------------------------------------------------

namespace Snmpio

variable {ssl : OpenSsl} {p : AuthProtocol}
variable {creds : Credentials}

theorem keySize_pos
    (hp : p ≠ .none) :
    0 < keySize p := by
  cases p with
  | none => exact absurd rfl hp
  | _ => decide

/- A digest is as wide as the protocol's key. -/
theorem digestOf_width
    (hHash : ssl.Hashes)
    (hp : p ≠ .none)
    (parts : List Octets) :
    ∃ d, digestOf ssl p parts = .ok d ∧
      d.length = keySize p := by
  rcases hHash p hp parts with ⟨d, hDigest, hWidth⟩
  exact ⟨d, by rw [digestOf, hDigest], hWidth⟩

/- So is the key of a password. -/
theorem passwordToKey_width
    (hHash : ssl.Hashes)
    (hp : p ≠ .none)
    {password : Octets}
    (hPassword : password ≠ []) :
    ∃ key, passwordToKey ssl p password = .ok key ∧
      key.length = keySize p := by
  rw [passwordToKey, if_neg hp, if_neg]
  · exact digestOf_width hHash hp _
  · rw [List.isEmpty_iff]
    exact hPassword

/- So is its localized form. -/
theorem localizeKey_width
    (hHash : ssl.Hashes)
    (hp : p ≠ .none)
    (master engineId : Octets) :
    ∃ key, localizeKey ssl p master engineId = .ok key ∧
      key.length = keySize p := by
  rw [localizeKey, if_neg hp]
  exact digestOf_width hHash hp _

/- With a password there is always a key. -/
theorem localizedAuthKey_ok
    (hHash : ssl.Hashes)
    (hAuth : creds.authProtocol ≠ .none)
    (hPassword : creds.authPassword ≠ [])
    (engineId : Octets) :
    ∃ key, localizedAuthKey ssl creds engineId = .ok key := by
  rcases passwordToKey_width hHash hAuth hPassword with
    ⟨master, hMaster, _⟩
  rcases localizeKey_width hHash hAuth master engineId with
    ⟨key, hKey, _⟩
  refine ⟨key, ?_⟩
  simp [localizedAuthKey, hMaster, hKey, bind, Except.bind]

/- What the key extension adds at each turn. -/
theorem moreKey_width
    (hHash : ssl.Hashes)
    (hAuth : creds.authProtocol ≠ .none)
    (engineId : Octets)
    {key : Octets}
    (hKey : key ≠ []) :
    ∃ more, moreKey ssl creds engineId key = .ok more ∧
      more.length = keySize creds.authProtocol := by
  unfold moreKey
  split
  · rcases passwordToKey_width hHash hAuth hKey with
      ⟨next, hNext, _⟩
    rcases localizeKey_width hHash hAuth next engineId with
      ⟨more, hMore, hWidth⟩
    exact ⟨more, by simp [hNext, hMore, bind, Except.bind],
      hWidth⟩
  · rw [hashOf, if_neg hAuth]
    exact digestOf_width hHash hAuth _

/- Of the Credentials only what a round reads matters. -/
theorem extendKey_congr
    {creds' : Credentials}
    {engineId : Octets}
    (hMore :
      ∀ key, moreKey ssl creds engineId key =
        moreKey ssl creds' engineId key)
    (want : Nat)
    (key : Octets) :
    extendKey ssl creds engineId want key =
      extendKey ssl creds' engineId want key := by
  fun_induction extendKey ssl creds engineId want key with
  | case1 key hShort e hMoreKey =>
      rw [extendKey, dif_pos hShort, ← hMore, hMoreKey]
  | case2 key hShort hMoreKey =>
      rw [extendKey, dif_pos hShort, ← hMore, hMoreKey]
  | case3 key hShort b more hMoreKey ih =>
      have hRest :
          extendKey ssl creds' engineId want key =
            extendKey ssl creds' engineId want
              (key ++ b :: more) := by
        conv_lhs =>
          rw [extendKey, dif_pos hShort, ← hMore, hMoreKey]
      exact ih.trans hRest.symm
  | case4 key hShort =>
      rw [extendKey, dif_neg hShort]

/- The loop ends with a key that is long enough. -/
theorem extendKey_ok
    (hHash : ssl.Hashes)
    (hAuth : creds.authProtocol ≠ .none)
    (engineId : Octets)
    (want : Nat)
    {key : Octets}
    (hKey : key ≠ []) :
    ∃ long, extendKey ssl creds engineId want key = .ok long ∧
      want ≤ long.length := by
  fun_induction extendKey ssl creds engineId want key with
  | case1 key hShort e hMore =>
      rcases moreKey_width hHash hAuth engineId hKey with
        ⟨more, hOk, _⟩
      rw [hMore] at hOk
      cases hOk
  | case2 key hShort hMore =>
      rcases moreKey_width hHash hAuth engineId hKey with
        ⟨more, hOk, hWidth⟩
      rw [hMore] at hOk
      cases hOk
      have hPos := keySize_pos hAuth
      rw [← hWidth] at hPos
      cases hPos
  | case3 key hShort b more hMore ih =>
      exact ih (by simp)
  | case4 key hLong =>
      exact ⟨key, rfl, Nat.le_of_not_lt hLong⟩

/- The extension makes the key as long as needed. -/
theorem localizedPrivKey_ok
    (hHash : ssl.Hashes)
    (hAuth : creds.authProtocol ≠ .none)
    (hPriv : creds.privProtocol ≠ .none)
    (hPassword : creds.privPassword ≠ [])
    (engineId : Octets) :
    ∃ key, localizedPrivKey ssl creds engineId = .ok key ∧
      privKeySize creds.privProtocol ≤ key.length := by
  rcases passwordToKey_width hHash hAuth hPassword with
    ⟨master, hMaster, _⟩
  rcases localizeKey_width hHash hAuth master engineId with
    ⟨key, hKey, hWidth⟩
  have hNonempty : key ≠ [] := by
    intro hNil
    have hPos := keySize_pos hAuth
    rw [← hWidth, hNil] at hPos
    cases hPos
  rcases extendKey_ok hHash hAuth engineId
    (privKeySize creds.privProtocol) hNonempty with
    ⟨long, hLong, hEnough⟩
  have hWant := privKeySize_ne_zero hPriv
  refine ⟨long.take (privKeySize creds.privProtocol), ?_, ?_⟩
  · simp [localizedPrivKey, hWant, hMaster, hKey, hLong, bind,
      Except.bind, pure, Except.pure]
  · rw [List.length_take]
    omega

end Snmpio
