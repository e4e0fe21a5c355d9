import Snmpio.Message.V3RoundTrip
import Mathlib.Data.List.GetD

/-
  Keys from passwords.

  The megabyte of a password is one run of it, although it
  is hashed chunk by chunk, and the key of a cipher is one
  run of hashes, cut to the cipher's width.

  Key definitions include:
    * `fillChunk`
    * `feedPassword`
    * `repeated`

  Key theorems include:
    * `feedPassword_eq`
    * `password_fed_unbroken`
    * `extendKey_extends`
    * `extendKey_resume`
    * `localizedPrivKey_laws`
-/

------------------------------------------------------------
-- The Megabyte of a Password
------------------------------------------------------------

namespace Snmpio

/- The loop over a chunk's octets.  `index` is carried on. -/
def fillChunk
    (password : Octets) :
    (count index : Nat) → Octets × Nat
| 0, index => ([], index)
| count + 1, index =>
    let octet := password.getD (index % password.length) 0
    let (octets, index) :=
      fillChunk password count (index + 1)
    (octet :: octets, index)

/- The loop of `passwordToKey`: what each update is given. -/
def feedPassword
    (password : Octets)
    (done index : Nat) : List Octets :=
  if done < expandedPasswordSize then
    let (chunk, index) := fillChunk password chunkSize index
    chunk :: feedPassword password (done + chunkSize) index
  else []
termination_by expandedPasswordSize - done
decreasing_by
  have hChunk : 0 < chunkSize := by decide
  omega

/- The password without end. -/
def repeated
    (password : Octets)
    (i : Nat) : UInt8 :=
  password.getD (i % password.length) 0

theorem passwordChunk_succ
    (password : Octets)
    (index count : Nat) :
    passwordChunk password index (count + 1) =
      password.getD (index % password.length) 0 ::
        passwordChunk password (index + 1) count := by
  unfold passwordChunk
  rw [List.range_succ_eq_map, List.map_cons, List.map_map,
    Nat.add_zero]
  congr 1
  apply List.map_congr_left
  intro i _
  rw [Function.comp_apply, Nat.succ_eq_add_one,
    Nat.add_assoc, Nat.add_comm 1 i]

/- A chunk goes on where the one before has stopped. -/
theorem fillChunk_eq
    (password : Octets)
    (count index : Nat) :
    fillChunk password count index =
      (passwordChunk password index count, index + count) := by
  induction count generalizing index with
  | zero => rfl
  | succ count ih =>
      rw [fillChunk, ih, passwordChunk_succ, Nat.add_assoc,
        Nat.add_comm 1 count]

/- From any chunk on, with as many as are left. -/
theorem feedPassword_from
    (password : Octets)
    (left k : Nat)
    (hLeft :
      (k + left) * chunkSize = expandedPasswordSize) :
    feedPassword password (k * chunkSize) (k * chunkSize) =
      (List.range' k left).map
        (fun i =>
          passwordChunk password (i * chunkSize)
            chunkSize) := by
  have hChunk : 0 < chunkSize := by decide
  induction left generalizing k with
  | zero =>
      rw [feedPassword, if_neg (by
        rw [← hLeft, Nat.add_zero]
        omega)]
      rfl
  | succ left ih =>
      have hMore :
          k * chunkSize < expandedPasswordSize := by
        rw [← hLeft, Nat.add_mul, Nat.succ_mul]
        omega
      have hNext :
          k * chunkSize + chunkSize = (k + 1) * chunkSize :=
        (Nat.succ_mul k chunkSize).symm
      rw [feedPassword, if_pos hMore]
      simp only [fillChunk_eq, hNext]
      rw [ih (k + 1) (by
        rw [← hLeft]
        congr 1
        omega), List.range'_succ, List.map_cons]

theorem feedPassword_eq
    (password : Octets) :
    feedPassword password 0 0 = passwordChunks password := by
  have hFrom :=
    feedPassword_from password
      (expandedPasswordSize / chunkSize) 0 (by decide)
  rw [Nat.zero_mul] at hFrom
  rw [hFrom, passwordChunks, List.range_eq_range']

/- Chunks in a row are one run of the password. -/
theorem flatten_chunks
    (password : Octets)
    (count : Nat) :
    ((List.range count).map
        (fun i =>
          passwordChunk password (i * chunkSize)
            chunkSize)).flatten =
      (List.range (count * chunkSize)).map
        (repeated password) := by
  induction count with
  | zero => simp
  | succ count ih =>
      rw [List.range_succ, List.map_append,
        List.flatten_append, ih, Nat.succ_mul,
        List.range_add, List.map_append, List.map_map]
      simp only [List.map_cons, List.map_nil,
        List.flatten_cons, List.flatten_nil,
        List.append_nil]
      rfl

theorem feedPassword_flatten
    (password : Octets) :
    (feedPassword password 0 0).flatten =
      (List.range expandedPasswordSize).map
        (repeated password) := by
  have hSize :
      expandedPasswordSize / chunkSize * chunkSize =
        expandedPasswordSize := by decide
  rw [feedPassword_eq, passwordChunks, flatten_chunks, hSize]

/- The key is the hash of what the loop feeds. -/
theorem passwordToKey_eq_feed
    (ssl : OpenSsl)
    (p : AuthProtocol)
    {password : Octets}
    (hPassword : password ≠ []) :
    passwordToKey ssl p password =
      if p = .none then .error .unsupportedAuthProtocol
      else digestOf ssl p (feedPassword password 0 0) := by
  rw [feedPassword_eq, passwordToKey]
  split
  · rfl
  · rw [if_neg (by simpa using hPassword)]

theorem passwordChunks_congr
    {password password' : Octets}
    (hSame :
      ∀ i, repeated password i = repeated password' i) :
    passwordChunks password = passwordChunks password' := by
  unfold passwordChunks passwordChunk
  apply List.map_congr_left
  intro i _
  apply List.map_congr_left
  intro j _
  exact hSame (i * chunkSize + j)

/-
  The hash is fed the password over and over, 1048576 octets
  of it without a break between the chunks of 64, so
  passwords that repeat to the same octets give one key.
-/
theorem password_fed_unbroken
    (ssl : OpenSsl)
    (p : AuthProtocol)
    (password : Octets)
    (hPassword : password ≠ []) :
    (passwordToKey ssl p password =
        if p = .none then .error .unsupportedAuthProtocol
        else digestOf ssl p (feedPassword password 0 0)) ∧
      (∀ chunk ∈ feedPassword password 0 0,
        chunk.length = 64) ∧
      (feedPassword password 0 0).flatten.length = 1048576 ∧
      (∀ i < 1048576,
        (feedPassword password 0 0).flatten[i]? =
          password[i % password.length]?) ∧
      ∀ password' : Octets, password' ≠ [] →
        (∀ i, password[i % password.length]? =
          password'[i % password'.length]?) →
        passwordToKey ssl p password =
          passwordToKey ssl p password' := by
  refine ⟨passwordToKey_eq_feed ssl p hPassword, ?_, ?_, ?_,
    ?_⟩
  · intro chunk hChunk
    rw [feedPassword_eq] at hChunk
    rcases List.mem_map.mp hChunk with ⟨i, _, rfl⟩
    rw [passwordChunk, List.length_map, List.length_range]
    rfl
  · rw [feedPassword_flatten, List.length_map,
      List.length_range]
    rfl
  · intro i hi
    have hPos := List.length_pos_iff.mpr hPassword
    have hMod := Nat.mod_lt i hPos
    have hRange : i < expandedPasswordSize := hi
    rw [feedPassword_flatten, List.getElem?_map,
      List.getElem?_range hRange, Option.map_some, repeated,
      List.getD_eq_getElem _ _ hMod,
      List.getElem?_eq_getElem hMod]
  · intro password' hPassword' hSame
    have hChunks :
        passwordChunks password =
          passwordChunks password' := by
      apply passwordChunks_congr
      intro i
      rw [repeated, repeated, List.getD_eq_getElem?_getD,
        hSame i, ← List.getD_eq_getElem?_getD]
    rw [passwordToKey_eq_feed ssl p hPassword,
      passwordToKey_eq_feed ssl p hPassword',
      feedPassword_eq, feedPassword_eq, hChunks]

/- The password of the RFC's examples, "maplesyrup". -/
def maplePassword : Octets :=
  [0x6D, 0x61, 0x70, 0x6C, 0x65, 0x73, 0x79, 0x72, 0x75,
    0x70]

/-
  An OpenSSL with the true MD5 hashes for that password and
  the Engine of the examples: of the megabyte, of what is
  localized, and of what either scheme hashes next.
-/
def OpenSsl.maple : OpenSsl :=
  { OpenSsl.copying with
    digest := fun p parts =>
      if p ≠ .md5 then some (List.replicate (keySize p) 0)
      else
        match parts with
        | [[0x9F, _, _, _, _, _, _, _, _, _, _, _, _, _, _,
            _], _, _] =>
            some [0x52, 0x6F, 0x5E, 0xED, 0x9F, 0xCC, 0xE2,
              0x6F, 0x89, 0x64, 0xC2, 0x93, 0x07, 0x87, 0xD8,
              0x2B]
        | [_, _, _] =>
            some [0x79, 0xEF, 0xF4, 0x4A, 0x90, 0x65, 0x0E,
              0xE0, 0xA3, 0xA4, 0x0A, 0xBF, 0xAC, 0x5A, 0xCC,
              0x12]
        | [_] =>
            some [0xFA, 0x24, 0xA9, 0x24, 0x67, 0x42, 0x6C,
              0x2F, 0x4B, 0x09, 0x19, 0x2B, 0xE1, 0x0D, 0xFA,
              0xEC]
        | (0x6D :: _) :: _ =>
            some [0x9F, 0xAF, 0x32, 0x83, 0x88, 0x4E, 0x92,
              0x83, 0x4E, 0xBC, 0x98, 0x47, 0xD8, 0xED, 0xD9,
              0x63]
        | _ =>
            some [0x39, 0xEC, 0x7B, 0x91, 0x56, 0x2C, 0xAF,
              0xB9, 0x04, 0x33, 0x8C, 0x44, 0x7D, 0xE6, 0x0C,
              0x80] }

/- The password and twice the password. -/
theorem password_fed_unbroken_maple :
    passwordToKey OpenSsl.maple .md5 maplePassword =
      passwordToKey OpenSsl.maple .md5
        (maplePassword ++ maplePassword) := by
  have hBoth :
      ∀ j < 20,
        maplePassword[j % 10]? =
          (maplePassword ++ maplePassword)[j]? := by
    decide
  refine (password_fed_unbroken OpenSsl.maple .md5
    maplePassword (by decide)).2.2.2.2
      (maplePassword ++ maplePassword) (by decide) ?_
  intro i
  have hSame := hBoth (i % 20) (Nat.mod_lt i (by decide))
  rwa [Nat.mod_mod_of_dvd i (by decide)] at hSame

end Snmpio

------------------------------------------------------------
-- Keys of the Ciphers
------------------------------------------------------------

namespace Snmpio

variable {ssl : OpenSsl} {creds : Credentials}
variable {engineId key : Octets} {want : Nat}

/- The loop only appends. -/
theorem extendKey_extends
    {long : Octets}
    (hExtend :
      extendKey ssl creds engineId want key = .ok long) :
    key <+: long := by
  fun_induction extendKey ssl creds engineId want key with
  | case1 key hShort e hMore => cases hExtend
  | case2 key hShort hMore => cases hExtend
  | case3 key hShort b more hMore ih =>
      exact (List.prefix_append key (b :: more)).trans
        (ih hExtend)
  | case4 key hLong =>
      cases hExtend
      exact List.prefix_rfl

/- A longer key is reached by way of the shorter one. -/
theorem extendKey_resume
    {want' : Nat}
    (hWant : want ≤ want')
    {long : Octets}
    (hExtend :
      extendKey ssl creds engineId want key = .ok long) :
    extendKey ssl creds engineId want' key =
      extendKey ssl creds engineId want' long := by
  fun_induction extendKey ssl creds engineId want key with
  | case1 key hShort e hMore => cases hExtend
  | case2 key hShort hMore => cases hExtend
  | case3 key hShort b more hMore ih =>
      have hShort' : key.length < want' := by omega
      have hRound :
          extendKey ssl creds engineId want' key =
            extendKey ssl creds engineId want'
              (key ++ b :: more) := by
        conv_lhs =>
          rw [extendKey, dif_pos hShort', hMore]
      exact hRound.trans (ih hExtend)
  | case4 key hLong =>
      cases hExtend
      rfl

/- A key that is long enough is left alone. -/
theorem extendKey_of_le
    (hLong : want ≤ key.length) :
    extendKey ssl creds engineId want key = .ok key := by
  rw [extendKey, dif_neg (by omega)]

/- The Credentials' Localized Key for privacy. -/
def privLocalizedKey
    (ssl : OpenSsl)
    (creds : Credentials)
    (engineId : Octets) : Except Errc Octets := do
  let master ←
    passwordToKey ssl creds.authProtocol creds.privPassword
  localizeKey ssl creds.authProtocol master engineId

theorem privLocalizedKey_width
    (hHash : ssl.Hashes)
    (hAuth : creds.authProtocol ≠ .none)
    (hPassword : creds.privPassword ≠ [])
    (engineId : Octets) :
    ∃ localized,
      privLocalizedKey ssl creds engineId = .ok localized ∧
        localized.length = keySize creds.authProtocol := by
  rcases passwordToKey_width hHash hAuth hPassword with
    ⟨master, hMaster, _⟩
  rcases localizeKey_width hHash hAuth master engineId with
    ⟨localized, hLocalized, hWidth⟩
  refine ⟨localized, ?_, hWidth⟩
  simp [privLocalizedKey, hMaster, hLocalized, bind,
    Except.bind]

theorem localizedPrivKey_eq
    (hPriv : creds.privProtocol ≠ .none)
    {localized : Octets}
    (hLocalized :
      privLocalizedKey ssl creds engineId = .ok localized) :
    localizedPrivKey ssl creds engineId =
      (extendKey ssl creds engineId
        (privKeySize creds.privProtocol) localized).map
          (List.take (privKeySize creds.privProtocol)) := by
  have hWant := privKeySize_ne_zero hPriv
  unfold privLocalizedKey at hLocalized
  simp only [localizedPrivKey, hWant, if_false]
  cases hMaster :
      passwordToKey ssl creds.authProtocol
        creds.privPassword with
  | error e =>
      simp [hMaster, bind, Except.bind] at hLocalized
  | ok master =>
      simp only [hMaster, bind, Except.bind] at hLocalized
      simp only [bind, Except.bind, hLocalized, pure,
        Except.pure]
      cases extendKey ssl creds engineId
        (privKeySize creds.privProtocol) localized with
      | error e => rfl
      | ok long => rfl

/- The key, cut from an extension of the Localized Key. -/
theorem localizedPrivKey_cut
    (creds : Credentials)
    (hHash : ssl.Hashes)
    (hAuth : creds.authProtocol ≠ .none)
    (hPriv : creds.privProtocol ≠ .none)
    {localized : Octets}
    (hLocalized :
      privLocalizedKey ssl creds engineId = .ok localized)
    (hWidth :
      localized.length = keySize creds.authProtocol) :
    ∃ long,
      extendKey ssl creds engineId
          (privKeySize creds.privProtocol) localized =
        .ok long ∧
      privKeySize creds.privProtocol ≤ long.length ∧
      localizedPrivKey ssl creds engineId =
        .ok (long.take (privKeySize creds.privProtocol)) := by
  have hNonempty : localized ≠ [] := by
    have hPos := keySize_pos hAuth
    rw [← hWidth] at hPos
    exact List.length_pos_iff.mp hPos
  rcases extendKey_ok hHash hAuth engineId
    (privKeySize creds.privProtocol) hNonempty with
    ⟨long, hLong, hEnough⟩
  refine ⟨long, hLong, hEnough, ?_⟩
  rw [localizedPrivKey_eq hPriv hLocalized, hLong]
  rfl

end Snmpio

------------------------------------------------------------
-- Widths and Schemes
------------------------------------------------------------

namespace Snmpio

variable {ssl : OpenSsl} {p : PrivProtocol}

/- Only the size of a key is refused in these words. -/
theorem crypt_ne_unsupported
    (ssl : OpenSsl)
    (p : PrivProtocol)
    (privKey iv input : Octets)
    (encrypt : Bool) :
    crypt ssl p privKey iv input encrypt ≠
      .error .unsupportedPrivProtocol := by
  unfold crypt
  split
  · simp
  · split
    · split
      · simp
      · simp
    · split
      · simp
      · dsimp only
        split
        · simp
        · simp

theorem privEncrypt_ne_unsupported
    {privKey : Octets}
    (hp : p ≠ .none)
    (hKey : privKeySize p ≤ privKey.length)
    (boots time : Int32)
    (plaintext : Octets)
    (counter : UInt64) :
    (privEncrypt ssl p privKey boots time plaintext
      counter).1 ≠ .error .unsupportedPrivProtocol := by
  have hSize := privKeySize_ne_zero hp
  unfold privEncrypt
  rw [if_neg (by omega)]
  dsimp only
  generalize makeIv p privKey boots time
    (saltParams p boots counter) = iv
  have hCrypt :=
    crypt_ne_unsupported ssl p privKey iv
      (paddedPlaintext p plaintext) true
  cases hResult :
      crypt ssl p privKey iv (paddedPlaintext p plaintext)
        true with
  | ok c => simp [Except.map]
  | error e =>
      rw [hResult] at hCrypt
      simpa [Except.map] using hCrypt

theorem privDecrypt_ne_unsupported
    {privKey : Octets}
    (hp : p ≠ .none)
    (hKey : privKeySize p ≤ privKey.length)
    (boots time : Int32)
    (privParams ciphertext : Octets) :
    privDecrypt ssl p privKey boots time privParams
      ciphertext ≠ .error .unsupportedPrivProtocol := by
  have hSize := privKeySize_ne_zero hp
  unfold privDecrypt
  rw [if_neg (by omega)]
  split
  · simp
  · split
    · simp
    · exact crypt_ne_unsupported ssl p privKey _ _ _

variable {creds : Credentials} {engineId : Octets}

/- One scheme makes the short key a part of the long one. -/
theorem localizedPrivKey_nested
    (hHash : ssl.Hashes)
    (hAuth : creds.authProtocol ≠ .none)
    (hPassword : creds.privPassword ≠ [])
    {p' : PrivProtocol}
    (hp : p ≠ .none)
    (hp' : p' ≠ .none)
    (hSize : privKeySize p ≤ privKeySize p')
    (hScheme :
      ∀ key,
        moreKey ssl { creds with privProtocol := p } engineId
            key =
          moreKey ssl { creds with privProtocol := p' }
            engineId key) :
    ∃ short long,
      localizedPrivKey ssl { creds with privProtocol := p }
          engineId = .ok short ∧
        localizedPrivKey ssl { creds with privProtocol := p' }
          engineId = .ok long ∧
        short <+: long := by
  rcases privLocalizedKey_width hHash hAuth hPassword engineId
    with ⟨localized, hLocalized, hWidth⟩
  rcases localizedPrivKey_cut { creds with privProtocol := p }
      hHash hAuth hp hLocalized hWidth with
    ⟨less, hLess, _, hShort⟩
  rcases localizedPrivKey_cut { creds with privProtocol := p' }
      hHash hAuth hp' hLocalized hWidth with
    ⟨more, hMore, _, hLong⟩
  dsimp only at hLess hShort hMore hLong
  have hGrown : less <+: more := by
    rw [extendKey_congr hScheme] at hLess
    rw [extendKey_resume hSize hLess] at hMore
    exact extendKey_extends hMore
  have hCut : less.take (privKeySize p) <+: less :=
    List.take_prefix _ _
  have hPart : less.take (privKeySize p) <+: more :=
    hCut.trans hGrown
  refine ⟨_, _, hShort, hLong, ?_⟩
  rw [List.prefix_take_iff]
  exact ⟨hPart, by
    rw [List.length_take]
    omega⟩

/- A hash that is wide enough leaves nothing to extend. -/
theorem localizedPrivKey_of_wide
    (hPriv : creds.privProtocol ≠ .none)
    {localized : Octets}
    (hLocalized :
      privLocalizedKey ssl creds engineId = .ok localized)
    (hWide :
      privKeySize creds.privProtocol ≤ localized.length) :
    localizedPrivKey ssl creds engineId =
      .ok (localized.take
        (privKeySize creds.privProtocol)) := by
  rw [localizedPrivKey_eq hPriv hLocalized,
    extendKey_of_le hWide]
  rfl

/- Then the scheme does not matter. -/
theorem localizedPrivKey_agree
    (hHash : ssl.Hashes)
    (hAuth : creds.authProtocol ≠ .none)
    (hPassword : creds.privPassword ≠ [])
    {p' : PrivProtocol}
    (hp : p ≠ .none)
    (hp' : p' ≠ .none)
    (hSize : privKeySize p = privKeySize p')
    (hWide : privKeySize p ≤ keySize creds.authProtocol) :
    localizedPrivKey ssl { creds with privProtocol := p }
        engineId =
      localizedPrivKey ssl { creds with privProtocol := p' }
        engineId := by
  rcases privLocalizedKey_width hHash hAuth hPassword engineId
    with ⟨localized, hLocalized, hWidth⟩
  rw [← hWidth] at hWide
  have hFirst :
      localizedPrivKey ssl { creds with privProtocol := p }
          engineId = .ok (localized.take (privKeySize p)) :=
    localizedPrivKey_of_wide hp hLocalized hWide
  have hSecond :
      localizedPrivKey ssl { creds with privProtocol := p' }
          engineId = .ok (localized.take (privKeySize p')) :=
    localizedPrivKey_of_wide hp' hLocalized (hSize ▸ hWide)
  rw [hFirst, hSecond, hSize]

/-
  The privacy key has the width its protocol asks for, so it
  is never refused for it, and begins with the Localized
  Key.  Within one scheme the 192-bit key begins the 256-bit
  one, and the two schemes agree while the hash is at least
  as wide as the cipher's key.
-/
theorem localizedPrivKey_laws
    (ssl : OpenSsl)
    (hHash : ssl.Hashes)
    (creds : Credentials)
    (hAuth : creds.authProtocol ≠ .none)
    (hPriv : creds.privProtocol ≠ .none)
    (hPassword : creds.privPassword ≠ [])
    (engineId : Octets) :
    (∃ localized key,
      privLocalizedKey ssl creds engineId = .ok localized ∧
        localizedPrivKey ssl creds engineId = .ok key ∧
        key.length = privKeySize creds.privProtocol ∧
        localized.take (privKeySize creds.privProtocol) <+:
          key ∧
        (∀ boots time plaintext counter,
          (privEncrypt ssl creds.privProtocol key boots time
            plaintext counter).1 ≠
              .error .unsupportedPrivProtocol) ∧
        ∀ boots time privParams ciphertext,
          privDecrypt ssl creds.privProtocol key boots time
              privParams ciphertext ≠
            .error .unsupportedPrivProtocol) ∧
      (∀ scheme ∈
          [(PrivProtocol.aes192, PrivProtocol.aes256),
            (PrivProtocol.aes192C, PrivProtocol.aes256C)],
        ∃ short long,
          localizedPrivKey ssl
              { creds with privProtocol := scheme.1 }
              engineId = .ok short ∧
            localizedPrivKey ssl
              { creds with privProtocol := scheme.2 }
              engineId = .ok long ∧
            short <+: long) ∧
      ∀ width ∈
          [(PrivProtocol.aes192, PrivProtocol.aes192C),
            (PrivProtocol.aes256, PrivProtocol.aes256C)],
        privKeySize width.1 ≤ keySize creds.authProtocol →
          localizedPrivKey ssl
              { creds with privProtocol := width.1 }
              engineId =
            localizedPrivKey ssl
              { creds with privProtocol := width.2 }
              engineId := by
  refine ⟨?_, ?_, ?_⟩
  · rcases privLocalizedKey_width hHash hAuth hPassword
      engineId with ⟨localized, hLocalized, hWidth⟩
    rcases localizedPrivKey_cut creds hHash hAuth hPriv
      hLocalized hWidth with ⟨long, hLong, hEnough, hKey⟩
    have hLength :
        (long.take (privKeySize creds.privProtocol)).length =
          privKeySize creds.privProtocol := by
      rw [List.length_take]
      omega
    have hLeading :
        localized.take (privKeySize creds.privProtocol) <+:
          long.take (privKeySize creds.privProtocol) := by
      rw [List.prefix_take_iff]
      have hCut :
          localized.take (privKeySize creds.privProtocol) <+:
            localized :=
        List.take_prefix _ _
      exact ⟨hCut.trans (extendKey_extends hLong),
        List.length_take_le _ _⟩
    exact ⟨localized, _, hLocalized, hKey, hLength, hLeading,
      privEncrypt_ne_unsupported hPriv hLength.ge,
      privDecrypt_ne_unsupported hPriv hLength.ge⟩
  · intro scheme hScheme
    simp only [List.mem_cons, List.not_mem_nil, or_false]
      at hScheme
    rcases hScheme with rfl | rfl
    · exact localizedPrivKey_nested hHash hAuth hPassword
        (by decide) (by decide) (by decide) (fun _ => rfl)
    · exact localizedPrivKey_nested hHash hAuth hPassword
        (by decide) (by decide) (by decide) (fun _ => rfl)
  · intro width hMem hWide
    simp only [List.mem_cons, List.not_mem_nil, or_false]
      at hMem
    rcases hMem with rfl | rfl
    · exact localizedPrivKey_agree hHash hAuth hPassword
        (by decide) (by decide) rfl hWide
    · exact localizedPrivKey_agree hHash hAuth hPassword
        (by decide) (by decide) rfl hWide

theorem OpenSsl.maple_hashes :
    OpenSsl.maple.Hashes := by
  intro p _ parts
  by_cases hMd5 : p = .md5
  · subst hMd5
    simp only [OpenSsl.maple, ne_eq, not_true_eq_false,
      if_false]
    split
    · exact ⟨_, rfl, rfl⟩
    · exact ⟨_, rfl, rfl⟩
    · exact ⟨_, rfl, rfl⟩
    · exact ⟨_, rfl, rfl⟩
    · exact ⟨_, rfl, rfl⟩
  · exact ⟨List.replicate (keySize p) 0, if_pos hMd5,
      List.length_replicate⟩

/- MD5 is too narrow for AES-192, so the key is extended. -/
theorem localizedPrivKey_laws_maple :
    ∃ localized key,
      privLocalizedKey OpenSsl.maple
          { level := .authPriv
            authProtocol := .md5
            authPassword := maplePassword
            privProtocol := .aes192
            privPassword := maplePassword }
          (List.replicate 11 0 ++ [2]) = .ok localized ∧
        localizedPrivKey OpenSsl.maple
          { level := .authPriv
            authProtocol := .md5
            authPassword := maplePassword
            privProtocol := .aes192
            privPassword := maplePassword }
          (List.replicate 11 0 ++ [2]) = .ok key ∧
        key.length = 24 ∧ localized.take 24 <+: key := by
  rcases (localizedPrivKey_laws OpenSsl.maple
    OpenSsl.maple_hashes
    { level := .authPriv
      authProtocol := .md5
      authPassword := maplePassword
      privProtocol := .aes192
      privPassword := maplePassword }
    (by decide) (by decide) (by decide)
    (List.replicate 11 0 ++ [2])).1 with
    ⟨localized, key, hLocalized, hKey, hLength, hLeading, _⟩
  exact ⟨localized, key, hLocalized, hKey, hLength, hLeading⟩

end Snmpio
