import Snmpio.Message.V3RoundTrip
import Mathlib.Data.List.GetD

/-
  Salts and initialisation vectors over a sequence of
  encryptions.

  `nextSalt` is one atomic counter for the process, so the
  calls of all Clients are taken in the order in which they
  draw from it.  A call that is refused draws nothing.

  Key definitions include:
    * `PrivCall`
    * `PrivCall.iv`
    * `saltAfter`
    * `saltsDrawn`

  Key theorems include:
    * `saltAfter_eq`
    * `PrivCall.salt_eq_of_aes_iv`
    * `PrivCall.salt_eq_of_des_iv`
    * `iv_never_repeats`
-/

------------------------------------------------------------
-- Calls
------------------------------------------------------------

namespace Snmpio

/- The arguments of one call of `privEncrypt`. -/
structure PrivCall where
  p : PrivProtocol
  privKey : Octets
  boots : Int32
  time : Int32
  plaintext : Octets

namespace PrivCall

/- The result, and the salt counter as it is left. -/
def run
    (ssl : OpenSsl)
    (c : PrivCall)
    (counter : UInt64) :
    Except Errc (Octets × Octets) × UInt64 :=
  privEncrypt ssl c.p c.privKey c.boots c.time c.plaintext
    counter

/- The key is long enough for the protocol. -/
def draws
    (c : PrivCall) : Bool :=
  ¬ (privKeySize c.p = 0 ∨
    c.privKey.length < privKeySize c.p)

/- The msgPrivacyParameters for a salt. -/
def privParams
    (c : PrivCall)
    (salt : UInt64) : Octets :=
  saltParams c.p c.boots salt

def iv
    (c : PrivCall)
    (salt : UInt64) : Octets :=
  makeIv c.p c.privKey c.boots c.time (c.privParams salt)

end PrivCall

/- The counter after a sequence of calls. -/
def saltAfter
    (ssl : OpenSsl)
    (calls : List PrivCall)
    (counter : UInt64) : UInt64 :=
  calls.foldl (fun counter c => (c.run ssl counter).2) counter

/- How many of the calls draw a salt. -/
def saltsDrawn
    (calls : List PrivCall) : Nat :=
  calls.countP PrivCall.draws

namespace PrivCall

/- A call that draws a salt encrypts under its IV. -/
theorem run_eq
    (ssl : OpenSsl)
    {c : PrivCall}
    (hDraws : c.draws = true)
    (salt : UInt64) :
    c.run ssl salt =
      ((crypt ssl c.p c.privKey (c.iv salt)
          (paddedPlaintext c.p c.plaintext) true).map
            (fun ciphertext =>
              (ciphertext, c.privParams salt)),
        salt + 1) := by
  have hKey :
      ¬ (privKeySize c.p = 0 ∨
        c.privKey.length < privKeySize c.p) := by
    simpa [draws] using hDraws
  unfold run privEncrypt
  rw [if_neg hKey]
  rfl

theorem run_counter
    (ssl : OpenSsl)
    (c : PrivCall)
    (counter : UInt64) :
    (c.run ssl counter).2 =
      if c.draws then counter + 1 else counter := by
  cases hDraws : c.draws with
  | true =>
      rw [run_eq ssl hDraws]
      rfl
  | false =>
      have hKey :
          privKeySize c.p = 0 ∨
            c.privKey.length < privKeySize c.p := by
        simpa [draws, Nat.pos_iff_ne_zero, or_iff_not_imp_left]
          using hDraws
      unfold run privEncrypt
      rw [if_pos hKey]
      rfl

/- The receiver makes the same IV of what it is sent. -/
theorem privDecrypt_eq
    (ssl : OpenSsl)
    {c : PrivCall}
    (hDraws : c.draws = true)
    (salt : UInt64)
    {ciphertext : Octets}
    (hBlocks :
      c.p = .des →
        ciphertext ≠ [] ∧
          ciphertext.length % desBlockSize = 0) :
    privDecrypt ssl c.p c.privKey c.boots c.time
        (c.privParams salt) ciphertext =
      crypt ssl c.p c.privKey (c.iv salt) ciphertext
        false := by
  have hKey :
      ¬ (c.privKey.length < privKeySize c.p ∨
        privKeySize c.p = 0) := by
    rw [or_comm]
    simpa [draws] using hDraws
  have hBad :
      ¬ (c.p = .des ∧
        (ciphertext.isEmpty ∨
          ciphertext.length % desBlockSize ≠ 0)) := by
    rintro ⟨hDes, hEmpty | hRest⟩
    · exact (hBlocks hDes).1 (List.isEmpty_iff.mp hEmpty)
    · exact hRest (hBlocks hDes).2
  unfold privDecrypt
  rw [if_neg hKey, if_neg (by
    simp [privParams, saltParams_length]), if_neg hBad]
  rfl

end PrivCall

/- The counter moves by one for each salt. -/
theorem saltAfter_eq
    (ssl : OpenSsl)
    (calls : List PrivCall)
    (counter : UInt64) :
    (saltAfter ssl calls counter).toNat =
      (counter.toNat + saltsDrawn calls) % 2 ^ 64 := by
  induction calls generalizing counter with
  | nil =>
      have hLt := counter.toNat_lt
      simp only [saltAfter, saltsDrawn, List.foldl_nil,
        List.countP_nil]
      omega
  | cons c calls ih =>
      have hCounter := c.run_counter ssl counter
      have hRest := ih (c.run ssl counter).2
      unfold saltAfter saltsDrawn at hRest ⊢
      rw [List.foldl_cons, hRest, hCounter, List.countP_cons]
      cases c.draws with
      | true =>
          simp only [if_true, UInt64.toNat_add,
            UInt64.reduceToNat]
          omega
      | false => simp

end Snmpio

------------------------------------------------------------
-- Layouts
------------------------------------------------------------

namespace Snmpio

open Octets

variable {s s' : UInt64}

theorem putBigEndian32_injective :
    Function.Injective putBigEndian32 := by
  intro a b hEq
  have hA := a.toNat_lt
  have hB := b.toNat_lt
  have hValue := congrArg unsignedValue hEq
  unfold putBigEndian32 at hValue
  rw [unsignedValue_bigEndian, unsignedValue_bigEndian]
    at hValue
  apply UInt32.toNat_inj.mp
  omega

/- Four octets and what follows them. -/
theorem putBigEndian32_append_inj
    {a b : UInt32}
    {rest rest' : Octets}
    (hEq :
      putBigEndian32 a ++ rest =
        putBigEndian32 b ++ rest') :
    a = b ∧ rest = rest' := by
  have hLength :
      (putBigEndian32 a).length =
        (putBigEndian32 b).length := by
    rw [putBigEndian32_length, putBigEndian32_length]
  rcases List.append_inj hEq hLength with ⟨hHead, hRest⟩
  exact ⟨putBigEndian32_injective hHead, hRest⟩

/- The two halves of a salt determine it. -/
theorem salt_eq_of_halves
    (hHigh : (s >>> 32).toUInt32 = (s' >>> 32).toUInt32)
    (hLow : s.toUInt32 = s'.toUInt32) :
    s = s' := by
  have hs := s.toNat_lt
  have hs' := s'.toNat_lt
  have hHighNat := congrArg UInt32.toNat hHigh
  have hLowNat := congrArg UInt32.toNat hLow
  simp only [UInt64.toNat_toUInt32, UInt64.toNat_shiftRight,
    UInt64.reduceToNat, Nat.reduceMod,
    Nat.shiftRight_eq_div_pow] at hHighNat hLowNat
  apply UInt64.toNat_inj.mp
  omega

namespace PrivCall

/- Under AES the IV holds the whole salt. -/
theorem salt_eq_of_aes_iv
    {c c' : PrivCall}
    (hAes : c.p ≠ .des)
    (hAes' : c'.p ≠ .des)
    (hIv : c.iv s = c'.iv s') :
    s = s' := by
  unfold iv makeIv privParams saltParams at hIv
  simp only [if_neg hAes, if_neg hAes', List.append_assoc]
    at hIv
  rcases putBigEndian32_append_inj hIv with ⟨_, hTime⟩
  rcases putBigEndian32_append_inj hTime with ⟨_, hSalt⟩
  rcases putBigEndian32_append_inj hSalt with ⟨hHigh, hLow⟩
  exact salt_eq_of_halves hHigh
    (putBigEndian32_injective hLow)

/- Under DES it holds the low half, whatever the key. -/
theorem salt_eq_of_des_iv
    {c c' : PrivCall}
    (hDes : c.p = .des)
    (hDes' : c'.p = .des)
    (hKey : c'.privKey = c.privKey)
    (hIv : c.iv s = c'.iv s') :
    s.toUInt32 = s'.toUInt32 := by
  have hLength : (c.privParams s).length = saltSize :=
    saltParams_length c.p c.boots s
  have hLength' : (c'.privParams s').length = saltSize :=
    saltParams_length c'.p c'.boots s'
  unfold iv makeIv at hIv
  simp only [if_pos hDes, if_pos hDes', hKey] at hIv
  rw [List.map_inj_left] at hIv
  -- The key's octets cancel, one by one.
  have hParams : c.privParams s = c'.privParams s' := by
    apply List.ext_getElem (hLength.trans hLength'.symm)
    intro i hi hi'
    have hRange : i < saltSize := by
      rw [← hLength]
      exact hi
    have hOctet := hIv i (List.mem_range.mpr hRange)
    rwa [UInt8.xor_right_inj, List.getD_eq_getElem _ _ hi,
      List.getD_eq_getElem _ _ hi'] at hOctet
  unfold privParams saltParams at hParams
  rw [if_pos hDes, if_pos hDes'] at hParams
  exact putBigEndian32_injective
    (putBigEndian32_append_inj hParams).2

end PrivCall

end Snmpio

------------------------------------------------------------
-- Repetition
------------------------------------------------------------

namespace Snmpio

/- What is drawn later is further, by the salts between. -/
theorem saltAfter_append
    (ssl : OpenSsl)
    (before more : List PrivCall)
    (counter : UInt64) :
    saltAfter ssl (before ++ more) counter =
      saltAfter ssl more (saltAfter ssl before counter) := by
  unfold saltAfter
  rw [List.foldl_append]

theorem saltsDrawn_append
    (before more : List PrivCall) :
    saltsDrawn (before ++ more) =
      saltsDrawn before + saltsDrawn more :=
  List.countP_append

theorem saltsDrawn_cons
    {c : PrivCall}
    (hDraws : c.draws = true)
    (calls : List PrivCall) :
    saltsDrawn (c :: calls) = saltsDrawn calls + 1 := by
  unfold saltsDrawn
  rw [List.countP_cons, if_pos hDraws]

/-
  In every sequence of encryptions, from any value of the
  counter: two under AES protocols and one key have
  different IVs while fewer than `2 ^ 64` salts have been
  drawn, and two under DES and one key while fewer than
  `2 ^ 32` have been drawn from the first to the second.
  Each encryption runs under its IV, and a decryption of
  what it sends runs under the same one.
-/
theorem iv_never_repeats
    (ssl : OpenSsl)
    (counter : UInt64)
    (before between : List PrivCall)
    (first second : PrivCall)
    (hFirst : first.draws = true)
    (hSecond : second.draws = true)
    (hKey : second.privKey = first.privKey) :
    let salt := saltAfter ssl before counter
    let salt' :=
      saltAfter ssl (before ++ first :: between) counter
    (first.p ≠ .des → second.p ≠ .des →
        saltsDrawn (before ++ first :: between ++ [second]) <
          2 ^ 64 →
        first.iv salt ≠ second.iv salt') ∧
      (first.p = .des → second.p = .des →
        saltsDrawn (first :: between ++ [second]) < 2 ^ 32 →
        first.iv salt ≠ second.iv salt') ∧
      ∀ c : PrivCall, c.draws = true → ∀ s : UInt64,
        c.run ssl s =
            ((crypt ssl c.p c.privKey (c.iv s)
                (paddedPlaintext c.p c.plaintext) true).map
                  (fun ciphertext =>
                    (ciphertext, c.privParams s)),
              s + 1) ∧
          ∀ ciphertext : Octets,
            (c.p = .des →
              ciphertext ≠ [] ∧
                ciphertext.length % desBlockSize = 0) →
            privDecrypt ssl c.p c.privKey c.boots c.time
                (c.privParams s) ciphertext =
              crypt ssl c.p c.privKey (c.iv s) ciphertext
                false := by
  intro salt salt'
  have hLt := salt.toNat_lt
  have hLater :
      salt'.toNat =
        (salt.toNat + saltsDrawn (first :: between)) %
          2 ^ 64 := by
    have hAppend :
        salt' = saltAfter ssl (first :: between) salt :=
      saltAfter_append ssl before (first :: between) counter
    rw [hAppend, saltAfter_eq]
  have hLast := saltsDrawn_cons hSecond []
  have hMore := saltsDrawn_cons hFirst between
  refine ⟨?_, ?_, ?_⟩
  · intro hAes hAes' hCount hIv
    have hSame :=
      congrArg UInt64.toNat
        (PrivCall.salt_eq_of_aes_iv hAes hAes' hIv)
    rw [saltsDrawn_append, saltsDrawn_append] at hCount
    omega
  · intro hDes hDes' hCount hIv
    have hSame :=
      congrArg UInt32.toNat
        (PrivCall.salt_eq_of_des_iv hDes hDes' hKey hIv)
    rw [UInt64.toNat_toUInt32, UInt64.toNat_toUInt32]
      at hSame
    rw [saltsDrawn_append] at hCount
    omega
  · intro c hDraws s
    exact ⟨PrivCall.run_eq ssl hDraws s,
      fun _ => PrivCall.privDecrypt_eq ssl hDraws s⟩

/- Twice the same request, as the counter wraps around. -/
theorem iv_never_repeats_wrapping :
    let aes : PrivCall :=
      ⟨.aes128, List.replicate 16 7, 1, 2, []⟩
    let des : PrivCall :=
      ⟨.des, List.replicate 16 7, 1, 2, []⟩
    aes.iv (saltAfter OpenSsl.sample [] (2 ^ 64 - 1)) ≠
        aes.iv (saltAfter OpenSsl.sample [aes] (2 ^ 64 - 1)) ∧
      des.iv (saltAfter OpenSsl.sample [] (2 ^ 32 - 1)) ≠
        des.iv (saltAfter OpenSsl.sample [des]
          (2 ^ 32 - 1)) := by
  intro aes des
  exact
    ⟨(iv_never_repeats OpenSsl.sample (2 ^ 64 - 1) [] [] aes
        aes rfl rfl rfl).1 (by decide) (by decide)
          (by decide),
      (iv_never_repeats OpenSsl.sample (2 ^ 32 - 1) [] [] des
        des rfl rfl rfl).2.1 rfl rfl (by decide)⟩

end Snmpio
