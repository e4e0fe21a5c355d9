import Snmpio.Message.Decoding

/-
  The SNMPv3 decoder accepts exactly its grammar, and finds
  the digest where the grammar has it.

  Key theorems include:
    * `decodeScopedPdu_reads`
    * `v3Body_takes`
    * `V3Form.of_decode`
    * `V3Form.decode_eq`
    * `decodeV3Message_iff_grammar`
-/

------------------------------------------------------------
-- Scoped PDUs
------------------------------------------------------------

namespace Snmpio

open Ber Reader

theorem octetString_element :
    Reads (Element Tag.octetString OctetsContent)
      (fun r => r.octetString) :=
  octetString_reads (by decide)

theorem integer_element :
    Reads (Element Tag.integer IntegerContent)
      (fun r => r.integer) :=
  integer_reads (by decide)

/- The context's engine and name, then the PDU. -/
theorem scopedPduBody_reads :
    Reads ScopedPduContent scopedPduBody := by
  apply andThen_reads
    (both_reads octetString_element octetString_element)
    decodePdu_reads
  intro d s
  constructor
  · rintro ⟨contexts, pdu, rfl, hSeq⟩
    exact hSeq
  · intro hForm
    exact ⟨(s.contextEngineId, s.contextName), s.pdu, rfl,
      hForm⟩

/- A ScopedPDU is a SEQUENCE of these. -/
theorem decodeScopedPdu_reads :
    Reads ScopedPduForm decodeScopedPdu :=
  inScope_reads (by decide) scopedPduBody_reads.fills

end Snmpio

------------------------------------------------------------
-- Headers
------------------------------------------------------------

namespace Snmpio

open Ber Reader

/- The two low bits, one value at a time. -/
theorem levelBits_cases
    (f : UInt8) :
    f &&& 0x03 = 0 ∨ f &&& 0x03 = 1 ∨ f &&& 0x03 = 2 ∨
      f &&& 0x03 = 3 := by
  have hLe : (f &&& 0x03).toNat ≤ 3 := by
    rw [UInt8.toNat_and]
    exact Nat.and_le_right
  have hEq :
      (f &&& 0x03).toNat = 0 ∨ (f &&& 0x03).toNat = 1 ∨
        (f &&& 0x03).toNat = 2 ∨ (f &&& 0x03).toNat = 3 := by
    omega
  simp only [← UInt8.toNat_inj]
  exact hEq

/- The one combination of bits that is no level is 2. -/
theorem SecurityLevel.ofFlags_eq_iff
    (f : UInt8)
    (level : SecurityLevel) :
    (f &&& securityLevelMask ≠ privWithoutAuth ∧
        SecurityLevel.ofFlags f = level) ↔
      f &&& 0x03 = level.flags := by
  unfold SecurityLevel.ofFlags securityLevelMask
    privWithoutAuth
  rcases levelBits_cases f with hBits | hBits | hBits | hBits
    <;> rw [hBits] <;> cases level <;> decide

/- Four fields, before their values are checked. -/
theorem v3HeaderFields_reads :
    Reads
      (Seq (Element Tag.integer IntegerContent)
        (Seq (Element Tag.integer IntegerContent)
          (Seq (Element Tag.octetString OctetsContent)
            (Element Tag.integer IntegerContent))))
      v3HeaderFields :=
  both_reads integer_element
    (both_reads integer_element
      (both_reads octetString_element integer_element))

/- The flags name a level, or the header is refused. -/
theorem v3HeaderBody_takes :
    Takes (fun _ => V3HeaderContent) v3HeaderBody := by
  have hBody :=
    v3HeaderFields_reads.takes.bind
      (fun x => Takes.check
        (c := x.2.2.1.length ≠ 1 ∨
          x.2.2.1.headD 0 &&& securityLevelMask =
            privWithoutAuth)
        (e := .badMessageFlags)
        (fun _ => Takes.pure
          { msgId := x.1
            maxSize := x.2.1
            level := SecurityLevel.ofFlags (x.2.2.1.headD 0)
            reportable :=
              x.2.2.1.headD 0 &&& reportableFlag ≠ 0
            securityModel := x.2.2.2 : V3Header }))
  change Takes _ v3HeaderBody at hBody
  refine hBody.congr ?_
  intro _ d h
  constructor
  · rintro ⟨d₁, d₂, ⟨msgId, maxSize, flags, model⟩, rfl,
      hFields, hFlags, rfl, rfl⟩
    rw [not_or, not_not] at hFlags
    rcases List.length_eq_one_iff.mp hFlags.1 with ⟨f, rfl⟩
    rw [List.append_nil]
    refine ⟨f, hFields, ?_, by simp [reportableFlag]⟩
    exact (SecurityLevel.ofFlags_eq_iff f _).mp
      ⟨hFlags.2, rfl⟩
  · rintro ⟨f, hFields, hLevel, hReportable⟩
    rcases (SecurityLevel.ofFlags_eq_iff f h.level).mpr
      hLevel with ⟨hPriv, hOf⟩
    refine ⟨d, [], (h.msgId, h.maxSize, [f],
      h.securityModel), by simp, hFields, ?_, rfl, ?_⟩
    · simpa using hPriv
    · cases h
      simp only [List.headD_cons, hOf, V3Header.mk.injEq,
        true_and, and_true]
      rw [Bool.eq_iff_iff, hReportable]
      exact decide_eq_true_iff.symm

/- It adds no field to a Reader that has failed. -/
theorem v3HeaderBody_sticky :
    Sticky v3HeaderBody := by
  apply v3HeaderFields_reads.sticky_orError.first
  intro r ec hFirst
  simp [v3HeaderBody, hFirst, Bind.bind, Except.bind]

end Snmpio

------------------------------------------------------------
-- Security Parameters
------------------------------------------------------------

namespace Snmpio

open Ber Reader

/- The position is asked for between the last two reads. -/
def UsmFields
    (p : Nat)
    (d : Octets)
    (x : Octets × Int32 × Int32 × Octets ×
      (Octets × Nat) × Octets) : Prop :=
  SeqAt (fun _ => Element Tag.octetString OctetsContent)
    (SeqAt (fun _ => Element Tag.integer IntegerContent)
      (SeqAt (fun _ => Element Tag.integer IntegerContent)
        (SeqAt
          (fun _ => Element Tag.octetString OctetsContent)
          (SeqAt
            (fun p d x =>
              Element Tag.octetString OctetsContent d x.1 ∧
                x.2 = p + d.length)
            (fun _ =>
              Element Tag.octetString OctetsContent)))))
    p d x

/- Six fields; the digest's place is kept. -/
theorem usmFields_reads :
    ReadsAt UsmFields usmFields :=
  both_readsAt octetString_element
    (both_readsAt integer_element
      (both_readsAt integer_element
        (both_readsAt octetString_element
          (both_readsAt
            (positioned_readsAt octetString_element)
            octetString_element))))

/- Its offset counts from the start of the datagram. -/
theorem usmBody_takes
    (paramsBase : Nat) :
    Takes (fun p => UsmContent (paramsBase + p))
      (usmBody paramsBase) := by
  have hBody :=
    usmFields_reads.takes.bind
      (fun x => Takes.pure
        (({ engineId := x.1
            boots := x.2.1
            time := x.2.2.1
            userName := x.2.2.2.1
            authParams := x.2.2.2.2.1.1
            privParams := x.2.2.2.2.2 : UsmParameters },
          paramsBase + x.2.2.2.2.1.2 -
            x.2.2.2.2.1.1.length)))
  change Takes _ (usmBody paramsBase) at hBody
  refine hBody.congr ?_
  intro p d x
  constructor
  · rintro ⟨d₁, d₂, ⟨engineId, boots, time, userName,
      ⟨authParams, after⟩, privParams⟩, rfl, hSeq, rfl, rfl⟩
    rcases hSeq with ⟨a, _, rfl, hEngine, b, _, rfl, hBoots,
      c, _, rfl, hTime, u, _, rfl, hUser, g, e, rfl,
      ⟨hDigest, hAfter⟩, hPriv⟩
    have hLe : authParams.length ≤ g.length :=
      element_content_le hDigest
    change after = _ at hAfter
    refine ⟨a ++ (b ++ (c ++ u)), g, e, by simp,
      ⟨a, _, rfl, hEngine, b, _, rfl, hBoots, c, _, rfl,
        hTime, hUser⟩, hDigest, hPriv, ?_⟩
    simp only [List.length_append] at hAfter ⊢
    omega
  · rcases x with ⟨usm, offset⟩
    rintro ⟨_, g, e, rfl, ⟨a, _, rfl, hEngine, b, _, rfl,
      hBoots, c, u, rfl, hTime, hUser⟩, hDigest, hPriv,
      hOffset⟩
    simp only [List.length_append] at hOffset
    refine ⟨a ++ (b ++ (c ++ (u ++ (g ++ e)))), [],
      (usm.engineId, usm.boots, usm.time, usm.userName,
        (usm.authParams,
          p + a.length + b.length + c.length + u.length +
            g.length), usm.privParams),
      by simp, ⟨a, _, rfl, hEngine, b, _, rfl, hBoots, c, _,
        rfl, hTime, u, _, rfl, hUser, g, e, rfl,
        ⟨hDigest, rfl⟩, hPriv⟩, rfl, ?_⟩
    simp only [Prod.mk.injEq, true_and]
    omega

/- Nothing is taken from a Reader that has failed. -/
theorem usmBody_sticky
    (paramsBase : Nat) :
    Sticky (usmBody paramsBase) := by
  apply usmFields_reads.sticky_orError.first
  intro r ec hFirst
  simp [usmBody, hFirst, Bind.bind, Except.bind]

end Snmpio

------------------------------------------------------------
-- Messages
------------------------------------------------------------

namespace Snmpio

open Ber Reader

variable {d : Octets} {m : V3Message}

/- Plain or encrypted, as the level says. -/
theorem v3MsgData_takes
    (level : SecurityLevel) :
    Takes (fun _ => MsgDataForm level) (v3MsgData level) := by
  unfold v3MsgData MsgDataForm
  by_cases hLevel : level.isEncrypted = true
  · simp only [hLevel, if_true]
    have hBody :=
      octetString_element.takes.bind
        (fun x => Takes.pure (({} : ScopedPdu), x))
    refine hBody.congr ?_
    rintro _ d ⟨s, encrypted⟩
    constructor
    · rintro ⟨d₁, d₂, x, rfl, hForm, rfl, hEq⟩
      cases hEq
      rw [List.append_nil]
      exact ⟨hForm, rfl⟩
    · rintro ⟨hForm, rfl⟩
      exact ⟨d, [], encrypted, by simp, hForm, rfl, rfl⟩
  · simp only [hLevel, if_false, Bool.false_eq_true]
    have hBody :=
      decodeScopedPdu_reads.takes.bind
        (fun x => Takes.pure (x, ([] : Octets)))
    refine hBody.congr ?_
    rintro _ d ⟨s, encrypted⟩
    constructor
    · rintro ⟨d₁, d₂, x, rfl, hForm, rfl, hEq⟩
      cases hEq
      rw [List.append_nil]
      exact ⟨hForm, rfl⟩
    · rintro ⟨hForm, rfl⟩
      exact ⟨d, [], s, by simp, hForm, rfl, rfl⟩

/- Positions inside the parameters, and in the datagram. -/
theorem usmElement_shift
    (base : Nat)
    (d : Octets)
    (x : UsmParameters × Nat) :
    ElementAt Tag.sequence (fun p => UsmContent (base + p)) 0
        d x ↔
      ElementAt Tag.sequence UsmContent base d x := by
  simp [ElementAt]

/- What is inside the OCTET STRING, read whole. -/
theorem usmParameters_iff
    (base : Nat)
    (d : Octets)
    (x : UsmParameters × Nat) :
    wholeElement Tag.sequence (usmBody base) d = .ok x ↔
      ElementAt Tag.sequence UsmContent base d x := by
  rw [← usmElement_shift]
  exact wholeElement_iff (by decide) (usmBody_takes base)
    (usmBody_sticky base) d x

/- The version, the header, the parameters, the data. -/
theorem v3Body_takes :
    Takes V3Content v3Body := by
  have hParams :
      ReadsAt (ElementAt Tag.octetString
          (fun p content s => s = ⟨p, content⟩))
        (fun r => r.octetStringView) :=
    octetStringView_readsAt (by decide)
  have hHeader :=
    inElement_takes (t := Tag.sequence) (by decide)
      v3HeaderBody_takes v3HeaderBody_sticky
  have hUsm :
      ∀ (params : Span) (ec : Fault),
        wholeElement Tag.sequence (usmBody params.start)
            params.octets = .error ec →
          ec.isSome := by
    intro params ec hError
    exact wholeElement_error (usmBody_takes params.start)
      (usmBody_sticky params.start) hError
  have hBody :=
    integer_element.takes.bind
      (fun version => Takes.check (c := version ≠ versionV3)
        (e := .badVersion) (fun _ =>
      hHeader.bind (fun header => Takes.check
        (c := header.securityModel ≠ securityModelUsm)
        (e := .unsupportedSecurityModel) (fun _ =>
      hParams.takes.bind (fun params =>
      Takes.lift (hUsm params) (fun security =>
      (v3MsgData_takes header.level).bind (fun data =>
      Takes.pure
        { header := header
          security := security.1
          scopedPdu := data.1
          encryptedPdu := data.2
          authParamsOffset := security.2 : V3Message })))))))
  change Takes _ v3Body at hBody
  refine hBody.congr ?_
  intro p d m
  constructor
  · rintro ⟨version, _, v, rfl, hVersion, hThree, header, _,
      h, rfl, hHeaderForm, hModel, params, data, span, rfl,
      ⟨ls, content, rfl, hLength, rfl⟩, ⟨security, offset⟩,
      hSecurity, e, _, ⟨s, encrypted⟩, rfl, hData, rfl, rfl⟩
    have hThree' : v = 3 := by
      simpa [versionV3] using hThree
    have hModel' : h.securityModel = 3 := by
      simpa [securityModelUsm] using hModel
    subst hThree'
    exact ⟨version, header, _, e, by
        simp only [List.append_nil, List.append_assoc]; rfl,
      hVersion, hHeaderForm, hModel', ⟨ls, content, rfl, hLength,
        (usmParameters_iff _ _ _).mp hSecurity⟩, hData⟩
  · rintro ⟨version, header, _, data, rfl, hVersion,
      hHeaderForm, hModel, ⟨ls, content, rfl, hLength,
      hSecurity⟩, hData⟩
    exact ⟨version, _, 3, by
        rw [List.append_assoc, List.append_assoc]; rfl,
      hVersion, by simp [versionV3],
      header, _, m.header, rfl, hHeaderForm,
      by simp [hModel, securityModelUsm], _, data, _, rfl,
      ⟨ls, content, rfl, hLength, rfl⟩,
      (m.security, m.authParamsOffset),
      (usmParameters_iff _ _ _).mpr hSecurity, data, [],
      (m.scopedPdu, m.encryptedPdu), by simp, hData, rfl,
      rfl⟩

/- The first failure is the one that is reported. -/
theorem v3Body_sticky :
    Sticky v3Body := by
  apply integer_element.sticky_orError.first
  intro r ec hFirst
  simp [v3Body, hFirst, Bind.bind, Except.bind]

/- What the decoder returns is in the octets. -/
theorem V3Form.of_decode
    (hDecode : decodeV3Message d = (some m, none)) :
    V3Form d m :=
  (wholeElement_iff (by decide) v3Body_takes
    v3Body_sticky d m).mp
      ((resultAndError_eq_iff _ m).mp hDecode)

/- What is in the octets is what the decoder returns. -/
theorem V3Form.decode_eq
    (hForm : V3Form d m) :
    decodeV3Message d = (some m, none) :=
  (resultAndError_eq_iff _ m).mpr
    ((wholeElement_iff (by decide) v3Body_takes
      v3Body_sticky d m).mpr hForm)

/-
  The decoder accepts exactly the grammar's octet strings,
  and returns what is in them.
-/
theorem decodeV3Message_iff_grammar
    (d : Octets)
    (m : V3Message) :
    decodeV3Message d = (some m, none) ↔ V3Form d m := by
  constructor
  · intro hDecode
    exact V3Form.of_decode hDecode
  · intro hForm
    exact hForm.decode_eq

/- The version alone is read for what it is. -/
theorem V3Form.messageVersion_eq
    (hForm : V3Form d m) :
    messageVersion d = some versionV3 := by
  rcases hForm with
    ⟨ls, content, hOctets, hLength, version, header, params,
      data, hContent, hVersion, _, _, _, _⟩
  rw [List.append_assoc, List.append_assoc] at hContent
  exact messageVersion_element hOctets hLength hContent
    hVersion

end Snmpio
