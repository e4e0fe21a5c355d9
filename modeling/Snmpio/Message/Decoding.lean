import Snmpio.Ber.Reader.Decoders
import Snmpio.Ber.Reader.Values
import Snmpio.Message.Grammar

/-
  The message decoders accept exactly their grammars.

  Key theorems include:
    * `decodePdu_reads`
    * `decodeV2cMessage_iff_grammar`
-/

------------------------------------------------------------
-- Protocol Data Units
------------------------------------------------------------

namespace Snmpio

open Ber Reader

theorem PduType.tag_eq
    (type : PduType) :
    type.tag = pduTag type := by
  cases type <;> rfl

/- Other tags are refused. -/
theorem PduType.ofTag?_eq_some_iff
    (t : TagType)
    (type : PduType) :
    PduType.ofTag? t = some type ↔ t = pduTag type := by
  constructor
  · intro hTag
    unfold PduType.ofTag? at hTag
    split_ifs at hTag with h₁ h₂ h₃ h₄ h₅ h₆ <;>
      simp only [Option.some.injEq] at hTag <;>
      subst hTag <;> assumption
  · rintro rfl
    cases type <;> rfl

theorem pduTag_constructed
    (type : PduType) :
    ConstructedTag (pduTag type) := by
  cases type <;> decide

/- Three numbers and a list, for every type. -/
theorem pduFields_reads :
    Reads
      (Seq (Element Tag.integer IntegerContent)
        (Seq (Element Tag.integer IntegerContent)
          (Seq (Element Tag.integer IntegerContent)
            VarbindListForm)))
      pduFields := by
  have hInteger : Reads (Element Tag.integer IntegerContent)
      (fun r => r.integer) :=
    integer_reads (by decide)
  exact both_reads hInteger
    (both_reads hInteger
      (both_reads hInteger varbindList_reads))

/- The PDU a list of fields is read into. -/
def pduOf
    (type : PduType)
    (fields : Int32 × Int32 × Int32 × List Varbind) :
    Pdu :=
  { type := type
    requestId := fields.1
    errorStatus := fields.2.1
    errorIndex := fields.2.2.1
    varbinds := fields.2.2.2 }

/- The branch of `decodePdu` once the tag is known. -/
theorem pduBranch_reads
    (type : PduType) :
    Reads
      (fun d p => p.type = type ∧ PduForm d p)
      (fun r =>
        mapRead (pduOf type)
          (r.inScope (pduTag type) pduFields)) := by
  have hScope :=
    inScope_reads (pduTag_constructed type)
      pduFields_reads.fills
  apply mapRead_reads hScope
  · rintro d fields ⟨ls, content, rfl, hLength, hFields⟩
    exact ⟨rfl, ls, content, rfl, hLength, hFields⟩
  · rintro d p ⟨rfl, ls, content, rfl, hLength, hFields⟩
    exact
      ⟨(p.requestId, p.errorStatus, p.errorIndex,
          p.varbinds), rfl, ls, content, rfl, hLength,
        hFields⟩

/- The tag decides the type, and no more. -/
theorem decodePdu_of_tag
    {r : Reader}
    {w : Octets}
    {type : PduType}
    (hView : View r (pduTag type :: w)) :
    decodePdu r =
      mapRead (pduOf type)
        (r.inScope (pduTag type) pduFields) := by
  have hType :=
    (PduType.ofTag?_eq_some_iff (pduTag type) type).mpr rfl
  rw [decodePdu, if_neg (by simp [hView.ok_eq]),
    hView.peekTag_cons]
  simp only [hType]
  rfl

/- `decodePdu` reads exactly the PDUs. -/
theorem decodePdu_reads :
    Reads PduForm decodePdu where
  sound := by
    intro r r' w p hView hRead
    cases w with
    | nil =>
        simp [decodePdu, hView.ok_eq, hView.peekTag_nil]
          at hRead
    | cons t rest =>
        cases hType : PduType.ofTag? t with
        | none =>
            simp [decodePdu, hView.ok_eq,
              hView.peekTag_cons, hType] at hRead
        | some type =>
            rw [PduType.ofTag?_eq_some_iff] at hType
            subst hType
            rw [decodePdu_of_tag hView] at hRead
            rcases (pduBranch_reads type).sound hView hRead
              with ⟨b, w', hw, ⟨_, hForm⟩, hr'⟩
            exact ⟨b, w', hw, hForm, hr'⟩
  complete := by
    intro r b w p hView hForm
    obtain ⟨ls, content, rfl, hLength, hContent⟩ := hForm
    have hView' := hView
    rw [List.cons_append] at hView'
    rw [decodePdu_of_tag hView']
    exact (pduBranch_reads p.type).complete hView
      ⟨rfl, ls, content, rfl, hLength, hContent⟩
  fails := by
    intro r r' w hView hRead
    cases w with
    | nil =>
        simp only [decodePdu, hView.ok_eq,
          hView.peekTag_nil, not_true_eq_false, if_false,
          Prod.mk.injEq] at hRead
        simp [← hRead.2]
    | cons t rest =>
        cases hType : PduType.ofTag? t with
        | none =>
            simp only [decodePdu, hView.ok_eq,
              hView.peekTag_cons, hType, not_true_eq_false,
              if_false, Prod.mk.injEq] at hRead
            simp [← hRead.2]
        | some type =>
            rw [PduType.ofTag?_eq_some_iff] at hType
            subst hType
            rw [decodePdu_of_tag hView] at hRead
            exact (pduBranch_reads type).fails hView hRead
  sticky := by
    intro r hEc
    simp [decodePdu, not_ok_of_error hEc]

end Snmpio

------------------------------------------------------------
-- SNMPv2c Messages
------------------------------------------------------------

namespace Snmpio

open Ber Reader

variable {d : Octets} {m : V2cMessage}

/- The version is read without what follows it. -/
theorem messageVersion_element
    {ls content version rest : Octets}
    {v : Int32}
    (hOctets : d = Tag.sequence :: (ls ++ content))
    (hLength : LengthForm content.length ls)
    (hContent : content = version ++ rest)
    (hVersion : Element Tag.integer IntegerContent version v) :
    messageVersion d = some v := by
  have hView :
      View (ofInput d)
        (Tag.sequence :: (ls ++ (content ++ []))) := by
    rw [List.append_nil, ← hOctets]
    exact View.ofInput d
  have hInside := hView.within_element
  rw [hContent] at hInside
  have hRead :=
    (integer_reads (by decide)).complete hInside hVersion
  rw [hContent] at hView hLength
  rw [messageVersion, enter_complete hView (by decide) hLength]
  exact congrArg Prod.fst hRead

theorem versionAndCommunity_reads :
    Reads
      (Seq (Element Tag.integer IntegerContent)
        (Element Tag.octetString OctetsContent))
      (both Reader.integer Reader.octetString) :=
  both_reads (integer_reads (by decide))
    (octetString_reads (by decide))

/- The Community is read before the version is checked. -/
theorem v2cBody_takes :
    Takes (fun _ => V2cContent) v2cBody := by
  have hBody :=
    versionAndCommunity_reads.takes.bind
      (fun x => Takes.check (c := x.1 ≠ versionV2c)
        (e := .badVersion)
        (fun _ => decodePdu_reads.takes.bind
          (fun p => Takes.pure (V2cMessage.mk x.2 p))))
  change Takes _ v2cBody at hBody
  refine hBody.congr ?_
  intro _ d m
  constructor
  · rintro ⟨d₁, d₂, x, rfl, ⟨e₁, e₂, rfl, hVersion,
      hCommunity⟩, hIsV2c, ⟨f₁, f₂, p, rfl, hPdu, rfl, rfl⟩⟩
    have hOne : x.1 = 1 := by
      simpa [versionV2c] using hIsV2c
    rw [hOne] at hVersion
    exact ⟨e₁, e₂, f₁, by simp, hVersion, hCommunity, hPdu⟩
  · rintro ⟨version, community, pdu, rfl, hVersion,
      hCommunity, hPdu⟩
    exact
      ⟨version ++ community, pdu, (1, m.community), rfl,
        ⟨version, community, rfl, hVersion, hCommunity⟩,
        by simp [versionV2c],
        pdu, [], m.pdu, by simp, hPdu, rfl, rfl⟩

/- The first failure is the one that is reported. -/
theorem v2cBody_sticky :
    Sticky v2cBody := by
  apply versionAndCommunity_reads.sticky_orError.first
  intro r ec hFirst
  simp [v2cBody, hFirst, Bind.bind, Except.bind]

/- What the decoder returns is in the octets. -/
theorem V2cForm.of_decode
    (hDecode : decodeV2cMessage d = (some m, none)) :
    V2cForm d m :=
  (wholeElement_iff (by decide) v2cBody_takes
    v2cBody_sticky d m).mp
      ((resultAndError_eq_iff _ m).mp hDecode)

/- What is in the octets is what the decoder returns. -/
theorem V2cForm.decode_eq
    (hForm : V2cForm d m) :
    decodeV2cMessage d = (some m, none) :=
  (resultAndError_eq_iff _ m).mpr
    ((wholeElement_iff (by decide) v2cBody_takes
      v2cBody_sticky d m).mpr hForm)

theorem V2cForm.messageVersion_eq
    (hForm : V2cForm d m) :
    messageVersion d = some versionV2c := by
  rcases hForm with
    ⟨ls, content, hOctets, hLength, version, community, pdu,
      hContent, hVersion, _, _⟩
  rw [List.append_assoc] at hContent
  exact messageVersion_element hOctets hLength hContent
    hVersion

/-
  The SNMPv2c decoder returns a message exactly for the
  octet strings that are one.
-/
theorem decodeV2cMessage_iff_grammar
    (d : Octets)
    (m : V2cMessage) :
    decodeV2cMessage d = (some m, none) ↔ V2cForm d m :=
  ⟨V2cForm.of_decode, V2cForm.decode_eq⟩

end Snmpio
