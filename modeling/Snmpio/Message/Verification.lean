import Snmpio.Message.V3RoundTrip

/-
  What the digest of a decoded message is checked against.

  The decoder reports where the digest's field starts.  That
  slice of the datagram is the digest, whatever forms the
  lengths before it have, and the datagram verifies exactly
  when the digest is that of the datagram with nothing but
  the slice blanked.

  Key definitions include:
    * `blanked`

  Key theorems include:
    * `V3Form.slice`
    * `verifyAuth_ok_iff`
    * `verifyAuth_decoded`
-/

------------------------------------------------------------
-- The Slice
------------------------------------------------------------

namespace Snmpio

open Ber

variable {d : Octets} {m : V3Message}

/- The octets, with those of a slice set to zero. -/
def blanked
    (d : Octets)
    (offset width : Nat) : Octets :=
  d.mapIdx (fun i b =>
    if offset ≤ i ∧ i < offset + width then 0 else b)

/- Only an octet of the slice is blanked. -/
theorem getElem?_blanked
    (d : Octets)
    (offset width i : Nat) :
    (blanked d offset width)[i]? =
      if offset ≤ i ∧ i < offset + width then
        d[i]?.map (fun _ => 0)
      else d[i]? := by
  rw [blanked, List.getElem?_mapIdx]
  split
  · rfl
  · cases d[i]? with
    | none => rfl
    | some b => rfl

/- `std::fill_n` over the slice. -/
theorem copyAt_zeros
    {offset width : Nat}
    (hInside : offset + width ≤ d.length) :
    copyAt d offset (List.replicate width 0) =
      blanked d offset width := by
  apply List.ext_getElem?
  intro i
  rw [getElem?_blanked, copyAt, List.length_replicate]
  rcases lt_or_ge i offset with hBefore | hAfter
  · rw [if_neg (by omega), List.append_assoc,
      List.getElem?_append_left (by simp; omega),
      List.getElem?_take_of_lt hBefore]
  · have hTake : (d.take offset).length = offset := by
      simp only [List.length_take]
      omega
    rw [List.append_assoc,
      List.getElem?_append_right (by omega), hTake]
    rcases lt_or_ge i (offset + width) with hIn | hOut
    · rw [if_pos ⟨hAfter, hIn⟩,
        List.getElem?_append_left (by simp; omega),
        List.getElem?_replicate, if_pos (by omega),
        List.getElem?_eq_getElem (by omega)]
      rfl
    · rw [if_neg (by omega),
        List.getElem?_append_right (by simp; omega),
        List.length_replicate, List.getElem?_drop]
      congr 1
      omega

/- The digest is a slice of the datagram. -/
theorem V3Form.slice
    (hForm : V3Form d m) :
    ∃ front back,
      d = front ++ m.security.authParams ++ back ∧
        front.length = m.authParamsOffset := by
  -- The message, its parameters, their SEQUENCE, the field.
  rcases hForm with
    ⟨ls, content, hd, _, version, header, params, data,
      hContent, _, _, _, hParams, _⟩
  rcases hParams with
    ⟨ls₁, _, hParams, _, ls₂, fields, hFields, _, before,
      digest, after, hSplit, _, hDigest, _, hOffset⟩
  rcases hDigest with ⟨ls₃, authParams, hField, _, hOctets⟩
  have hSame : authParams = m.security.authParams := hOctets
  subst hSame
  refine ⟨0x30 :: (ls ++ (version ++ (header ++
      0x04 :: (ls₁ ++ 0x30 :: (ls₂ ++ (before ++
        0x04 :: ls₃)))))), after ++ data, ?_, ?_⟩
  · rw [hd, hContent, hParams, hFields, hSplit, hField]
    simp
  · rw [hField] at hOffset
    simp only [List.length_cons, List.length_append] at hOffset ⊢
    omega

theorem V3Form.of_decoded
    (hDecode : (decodeV3Message d).1 = some m) :
    V3Form d m := by
  apply V3Form.of_decode
  unfold decodeV3Message at hDecode ⊢
  cases hResult :
      Reader.wholeElement Tag.sequence v3Body d with
  | error ec =>
      rw [hResult] at hDecode
      cases hDecode
  | ok found =>
      rw [hResult] at hDecode
      cases hDecode
      rfl

/- Its bounds check never fails on what was decoded. -/
theorem V3Form.inside
    (hForm : V3Form d m) :
    m.authParamsOffset + m.security.authParams.length ≤
        d.length ∧
      (d.drop m.authParamsOffset).take
          m.security.authParams.length =
        m.security.authParams := by
  rcases hForm.slice with ⟨front, back, rfl, hFront⟩
  rw [← hFront]
  constructor
  · simp only [List.length_append]
    omega
  · rw [List.append_assoc, List.drop_left, List.take_left]

theorem V3Form.getElem?_slice
    (hForm : V3Form d m)
    {j : Nat}
    (hj : j < m.security.authParams.length) :
    d[m.authParamsOffset + j]? =
      m.security.authParams[j]? := by
  rw [← List.getElem?_drop, ← List.getElem?_take_of_lt hj,
    hForm.inside.2]

end Snmpio

------------------------------------------------------------
-- Verifying
------------------------------------------------------------

namespace Snmpio

open Ber

variable {ssl : OpenSsl} {auth : AuthProtocol}
variable {key : Octets} {d d' : Octets} {m m' : V3Message}

theorem verifyAuth_ok_iff
    (hInside :
      m.authParamsOffset + m.security.authParams.length ≤
        d.length) :
    verifyAuth ssl d m auth key = .ok () ↔
      m.header.level.isAuthenticated = true ∧
        auth ≠ .none ∧
        m.security.authParams.length = authParamsSize auth ∧
        authDigest ssl auth key
            (blanked d m.authParamsOffset
              m.security.authParams.length) =
          .ok m.security.authParams := by
  unfold verifyAuth
  rw [copyAt_zeros hInside]
  constructor
  · intro hOk
    split_ifs at hOk with hLevel hBounds
    rw [not_or, not_not, not_not] at hLevel
    dsimp only at hOk
    split at hOk
    · cases hOk
    · next expected hDigest =>
      split_ifs at hOk with hOther
      rw [not_not] at hOther
      rw [hOther] at hDigest
      refine ⟨hLevel.1, ?_, hLevel.2, hDigest⟩
      intro hNone
      rw [authDigest, if_pos hNone] at hDigest
      cases hDigest
  · rintro ⟨hLevel, _, hWidth, hDigest⟩
    rw [if_neg (by simp [hLevel, hWidth]),
      if_neg (not_lt.mpr hInside)]
    simp only [hDigest, ne_eq, not_true_eq_false, if_false]

/- What verifies is told apart outside its digest. -/
theorem eq_of_verified
    (hForm : V3Form d m)
    (hForm' : V3Form d' m')
    (hVerified : verifyAuth ssl d m auth key = .ok ())
    (hVerified' : verifyAuth ssl d' m' auth key = .ok ())
    (hOffset : m'.authParamsOffset = m.authParamsOffset)
    (hOutside :
      ∀ i, i < m.authParamsOffset ∨
          m.authParamsOffset + m.security.authParams.length ≤
            i →
        d'[i]? = d[i]?) :
    d' = d := by
  rcases (verifyAuth_ok_iff hForm.inside.1).mp hVerified with
    ⟨_, _, hWidth, hDigest⟩
  rcases (verifyAuth_ok_iff hForm'.inside.1).mp hVerified'
    with ⟨_, _, hWidth', hDigest'⟩
  have hSame :
      m'.security.authParams.length =
        m.security.authParams.length := by
    rw [hWidth, hWidth']
  have hInside := hForm.inside.1
  have hInside' := hForm'.inside.1
  rw [hOffset, hSame] at hInside' hDigest'
  have hBlanked :
      blanked d' m.authParamsOffset
          m.security.authParams.length =
        blanked d m.authParamsOffset
          m.security.authParams.length := by
    apply List.ext_getElem?
    intro i
    rw [getElem?_blanked, getElem?_blanked]
    split
    · next hSlice =>
      rw [List.getElem?_eq_getElem (by omega),
        List.getElem?_eq_getElem (by omega)]
      rfl
    · next hOther => exact hOutside i (by omega)
  -- So the digests are of the same octets.
  rw [hBlanked, hDigest] at hDigest'
  have hField :
      m.security.authParams = m'.security.authParams :=
    Except.ok.inj hDigest'
  apply List.ext_getElem?
  intro i
  by_cases hSlice :
      i < m.authParamsOffset ∨
        m.authParamsOffset + m.security.authParams.length ≤ i
  · exact hOutside i hSlice
  · have hj :
        i - m.authParamsOffset <
          m.security.authParams.length := by
      omega
    have hi :
        i = m.authParamsOffset + (i - m.authParamsOffset) := by
      omega
    rw [hi, hForm.getElem?_slice hj, ← hOffset, hField]
    apply hForm'.getElem?_slice
    omega

/-
  The digest of a decoded datagram is the slice that was
  reported.  The datagram verifies exactly when its digest
  is that of all its other octets, and so two that verify
  and differ in their digests only do not differ.
-/
theorem verifyAuth_decoded
    (hDecode : (decodeV3Message d).1 = some m) :
    m.authParamsOffset + m.security.authParams.length ≤
        d.length ∧
      (d.drop m.authParamsOffset).take
          m.security.authParams.length =
        m.security.authParams ∧
      (∀ ssl auth key,
        verifyAuth ssl d m auth key = .ok () ↔
          m.header.level.isAuthenticated = true ∧
            auth ≠ .none ∧
            m.security.authParams.length =
              authParamsSize auth ∧
            authDigest ssl auth key
                (blanked d m.authParamsOffset
                  m.security.authParams.length) =
              .ok m.security.authParams) ∧
      ∀ ssl auth key d' m',
        (decodeV3Message d').1 = some m' →
        verifyAuth ssl d m auth key = .ok () →
        verifyAuth ssl d' m' auth key = .ok () →
        m'.authParamsOffset = m.authParamsOffset →
        (∀ i, i < m.authParamsOffset ∨
            m.authParamsOffset +
              m.security.authParams.length ≤ i →
          d'[i]? = d[i]?) →
          d' = d := by
  have hForm := V3Form.of_decoded hDecode
  refine ⟨hForm.inside.1, hForm.inside.2, ?_, ?_⟩
  · intro ssl auth key
    exact verifyAuth_ok_iff hForm.inside.1
  · intro ssl auth key d' m' hDecode' hVerified hVerified'
      hOffset hOutside
    exact eq_of_verified hForm (V3Form.of_decoded hDecode')
      hVerified hVerified' hOffset hOutside

/- A message whose digest an OpenSSL has made. -/
def signedSample
    (ssl : OpenSsl) : Octets :=
  ((encodeV3Message ssl { msgId := 1, level := .authNoPriv }
    { engineId := [0x80], userName := [0x6F] } {} .md5 [0x01]
    .none [] 0).1.toOption).getD []

/- Another digest, by somebody without the key. -/
def forgedSample : Octets :=
  signedSample
    { OpenSsl.copying with
      hmac := fun _ _ _ _ => some (List.replicate 16 1) }

theorem signedSample_decoded :
    (decodeV3Message (signedSample OpenSsl.copying)).1.bind
        (fun m => (decodeV3Message forgedSample).1.map
          (fun m' =>
            (m.authParamsOffset, m'.authParamsOffset,
              m.security.authParams.length,
              decide (verifyAuth OpenSsl.copying
                (signedSample OpenSsl.copying) m .md5 [0x01] =
                  .ok ())))) =
      some (39, 39, 12, true) := by
  decide +kernel

theorem forgedSample_outside
    (i : Nat)
    (hOutside : i < 39 ∨ 39 + 12 ≤ i) :
    forgedSample[i]? =
      (signedSample OpenSsl.copying)[i]? := by
  have hBefore :
      forgedSample.take 39 =
        (signedSample OpenSsl.copying).take 39 := by
    decide +kernel
  have hAfter :
      forgedSample.drop 51 =
        (signedSample OpenSsl.copying).drop 51 := by
    decide +kernel
  rcases hOutside with hLess | hMore
  · rw [← List.getElem?_take_of_lt hLess, hBefore,
      List.getElem?_take_of_lt hLess]
  · have hi : i = 51 + (i - 51) := by omega
    rw [hi, ← List.getElem?_drop, hAfter, List.getElem?_drop]

/-
  The sample's digest stands where it is reported and is that
  of the sample.  With another digest in its place, the
  sample does not verify.
-/
theorem verifyAuth_decoded_sample :
    let d := signedSample OpenSsl.copying
    ∃ m m',
      (decodeV3Message d).1 = some m ∧
        (decodeV3Message forgedSample).1 = some m' ∧
        m.authParamsOffset + 12 ≤ d.length ∧
        (d.drop m.authParamsOffset).take 12 =
          m.security.authParams ∧
        authDigest OpenSsl.copying .md5 [0x01]
            (blanked d m.authParamsOffset 12) =
          .ok m.security.authParams ∧
        verifyAuth OpenSsl.copying forgedSample m' .md5
            [0x01] ≠ .ok () := by
  rcases Option.bind_eq_some_iff.mp signedSample_decoded with
    ⟨m, hDecode, hRest⟩
  rcases Option.map_eq_some_iff.mp hRest with
    ⟨m', hDecode', hFound⟩
  simp only [Prod.mk.injEq, decide_eq_true_eq] at hFound
  rcases hFound with ⟨hOffset, hOffset', hWidth, hVerified⟩
  rcases verifyAuth_decoded hDecode with
    ⟨hInside, hSlice, hVerifies, hSame⟩
  have hDigest := ((hVerifies _ _ _).mp hVerified).2.2.2
  rw [hWidth] at hInside hSlice hDigest
  refine ⟨m, m', hDecode, hDecode', hInside, hSlice, hDigest,
    ?_⟩
  intro hForged
  have hEq := hSame _ _ _ _ _ hDecode' hVerified hForged
    (hOffset'.trans hOffset.symm) (by
      rw [hOffset, hWidth]
      exact forgedSample_outside)
  revert hEq
  decide +kernel

end Snmpio
