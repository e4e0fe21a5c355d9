import Snmpio.Ber.Reader.Elements
import Snmpio.Ber.Reader.Oids
import Snmpio.Core.Words

/-
  The reads of Values, Varbinds and Varbind lists follow
  their grammars.

  Key definitions include:
    * `Ber.Reader.integerOf`
    * `Ber.Reader.unsignedOf`
    * `Ber.Reader.valueDecoder`

  Key theorems include:
    * `Ber.Reader.integer_reads`
    * `Ber.Reader.octetString_reads`
    * `Ber.Reader.objectIdentifier_reads`
    * `Ber.Reader.anyValue_reads`
    * `Ber.Reader.readVarbind_reads`
    * `Ber.Reader.varbindList_reads`
-/

------------------------------------------------------------
-- Numbers
------------------------------------------------------------

namespace Snmpio

namespace Ber

namespace Reader

open Octets

/- What `integer` makes of a content. -/
def integerOf
    (content : Octets) : Except Errc Int32 :=
  if content.isEmpty then .error .emptyContent
  else
    let negative := isNegative content
    let significant := stripPadding negative content
    if significant.length > 4 then .error .integerTooLarge
    else
      .ok (significant.foldl
        (fun (m : UInt32) b => (m <<< 8) ||| b.toUInt32)
        (if negative then 0xFFFFFFFF else 0)).toInt32

theorem integer_eq_contentRead
    (t : TagType) :
    (fun r : Reader => r.integer t) =
      contentRead t integerOf := by
  funext r
  rw [integer, contentRead]
  rcases r.primitiveContent t with ⟨result, r₁⟩
  cases result with
  | none => rfl
  | some content =>
      simp only [integerOf]
      by_cases hEmpty : content.octets.isEmpty = true
      · simp [hEmpty]
      · rw [if_neg hEmpty, if_neg hEmpty]
        by_cases hLong :
            (stripPadding (isNegative content.octets)
              content.octets).length > 4
        · simp only [if_pos hLong]
        · simp only [if_neg hLong]

/-
  A stripped content of more than four octets denotes a
  number outside the 32-bit range.
-/
theorem stripPadding_short_of_range
    {content : Octets}
    (hLow : -2 ^ 31 ≤ signedValue content)
    (hHigh : signedValue content < 2 ^ 31) :
    (stripPadding (isNegative content) content).length ≤
      4 := by
  by_contra hLong
  rw [← signedValue_stripPadding (isNegative content)]
    at hLow hHigh
  have hSign := isNegative_stripPadding content
  cases hStrip :
      stripPadding (isNegative content) content with
  | nil => simp [hStrip] at hLong
  | cons b rest =>
      cases rest with
      | nil => simp [hStrip] at hLong
      | cons c rest =>
          have hMinimal := stripPadding_minimal hStrip
          rw [hStrip] at hSign hLow hHigh hLong
          rw [← hSign] at hMinimal
          have hLength : 3 ≤ rest.length := by
            simp only [List.length_cons] at hLong
            omega
          have hOut :=
            signedValue_out_of_range hMinimal hLength
          omega

/- Sign padding of any length is accepted. -/
theorem integerOf_iff
    (content : Octets)
    (v : Int32) :
    integerOf content = .ok v ↔
      IntegerContent content v := by
  unfold integerOf IntegerContent
  by_cases hEmpty : content = []
  · simp [hEmpty]
  · have hStripNe :=
      stripPadding_ne_nil (isNegative content) content
        hEmpty
    rw [if_neg (by simpa using hEmpty)]
    simp only
    constructor
    · intro hDecode
      split at hDecode
      · simp at hDecode
      · next hShort =>
        simp only [Except.ok.injEq] at hDecode
        have hValue :=
          Words.toInt_foldl_signed hStripNe (by omega)
        rw [isNegative_stripPadding,
          signedValue_stripPadding, hDecode] at hValue
        exact ⟨hEmpty, hValue.symm⟩
    · rintro ⟨_, hValue⟩
      have hShort :=
        stripPadding_short_of_range
          (by rw [hValue]; exact v.le_toInt)
          (by rw [hValue]; exact v.toInt_lt)
      rw [if_neg (by omega), Except.ok.injEq]
      apply Int32.toInt_inj.mp
      have hFold :=
        Words.toInt_foldl_signed hStripNe hShort
      rw [isNegative_stripPadding] at hFold
      rw [hFold, signedValue_stripPadding, hValue]

/- `integer` accepts one such element and nothing else. -/
theorem integer_reads
    {t : TagType}
    (hTag : PrimitiveTag t) :
    Reads (Element t IntegerContent)
      (fun r => r.integer t) := by
  rw [integer_eq_contentRead]
  exact contentRead_reads hTag integerOf_iff

/- What `unsignedContent` makes of a content. -/
def unsignedOf
    (maxSignificant : Nat)
    (content : Octets) : Except Errc UInt64 :=
  if content.isEmpty then .error .emptyContent
  else
    let significant := content.dropWhile (· == 0)
    if significant.length > maxSignificant then
      .error .integerTooLarge
    else
      .ok (significant.foldl
        (fun (v : UInt64) b => (v <<< 8) ||| b.toUInt64) 0)

theorem unsignedContent_eq_contentRead
    (t : TagType)
    (maxSignificant : Nat) :
    (fun r : Reader => r.unsignedContent t maxSignificant) =
      contentRead t (unsignedOf maxSignificant) := by
  funext r
  rw [unsignedContent, contentRead]
  rcases r.primitiveContent t with ⟨result, r₁⟩
  cases result with
  | none => rfl
  | some content =>
      simp only [unsignedOf]
      by_cases hEmpty : content.octets.isEmpty = true
      · simp [hEmpty]
      · rw [if_neg hEmpty, if_neg hEmpty]
        by_cases hLong :
            (content.octets.dropWhile (· == 0)).length >
              maxSignificant
        · simp only [if_pos hLong]
        · simp only [if_neg hLong]

/- Leading zeros are accepted, however many. -/
theorem unsignedOf_iff
    {maxSignificant : Nat}
    (hMax : maxSignificant ≤ 8)
    (content : Octets)
    (v : UInt64) :
    unsignedOf maxSignificant content = .ok v ↔
      UnsignedContent content v.toNat ∧
        v.toNat < 256 ^ maxSignificant := by
  unfold unsignedOf UnsignedContent
  by_cases hEmpty : content = []
  · simp [hEmpty]
  · have hPow : 256 ^ maxSignificant ≤ 256 ^ 8 :=
      Nat.pow_le_pow_right (by omega) hMax
    have hLengthIff :=
      length_dropWhile_le_iff content maxSignificant
    rw [if_neg (by simpa using hEmpty)]
    simp only
    by_cases hLong :
        (content.dropWhile (· == 0)).length >
          maxSignificant
    · rw [if_pos hLong]
      constructor
      · simp
      · rintro ⟨⟨_, hValue⟩, hLt⟩
        rw [← hValue] at hLt
        have := hLengthIff.mpr hLt
        omega
    · have hLt := hLengthIff.mp (by omega)
      have hFold :
          ((content.dropWhile (· == 0)).foldl
            (fun (v : UInt64) b =>
              (v <<< 8) ||| b.toUInt64) 0).toNat =
            unsignedValue content := by
        rw [Words.foldl_shift_or_uint64,
          unsignedValue_dropWhile]
        simp only [UInt64.toNat_zero, Nat.zero_mul,
          Nat.zero_add]
        exact Nat.mod_eq_of_lt (by omega)
      rw [if_neg hLong, Except.ok.injEq,
        ← UInt64.toNat_inj, hFold]
      constructor
      · intro hValue
        exact ⟨⟨hEmpty, hValue⟩, by omega⟩
      · rintro ⟨⟨_, hValue⟩, _⟩
        exact hValue

end Reader

end Ber

end Snmpio

------------------------------------------------------------
-- Strings and Object Identifiers
------------------------------------------------------------

namespace Snmpio

namespace Ber

namespace Reader

variable {α β : Type}

/- A conversion after the read is one of the content. -/
theorem mapRead_contentRead
    (t : TagType)
    (decode : Octets → Except Errc α)
    (f : α → β)
    (r : Reader) :
    mapRead f (contentRead t decode r) =
      contentRead t (fun c => (decode c).map f) r := by
  unfold contentRead mapRead
  rcases r.primitiveContent t with ⟨result, r₁⟩
  cases result with
  | none => rfl
  | some content =>
      simp only
      cases decode content.octets <;> rfl

theorem octetString_eq_contentRead
    (t : TagType) :
    (fun r : Reader => r.octetString t) =
      contentRead t Except.ok := by
  funext r
  unfold octetString contentRead
  rcases r.primitiveContent t with ⟨result, r₁⟩
  cases result <;> rfl

theorem objectIdentifier_eq_contentRead :
    objectIdentifier =
      contentRead Tag.objectIdentifier decodeOidContent := by
  funext r
  rw [objectIdentifier, contentRead]
  rcases r.primitiveContent Tag.objectIdentifier with
    ⟨result, r₁⟩
  cases result with
  | none => rfl
  | some content =>
      simp only
      cases decodeOidContent content.octets <;> rfl

/- Any content is an OCTET STRING. -/
theorem octetString_reads
    {t : TagType}
    (hTag : PrimitiveTag t) :
    Reads (Element t OctetsContent)
      (fun r => r.octetString t) := by
  rw [octetString_eq_contentRead]
  apply contentRead_reads hTag
  intro c x
  simp [OctetsContent]

/- Names of at most 128 sub-identifiers. -/
theorem objectIdentifier_reads :
    Reads (Element Tag.objectIdentifier OidContent)
      objectIdentifier := by
  rw [objectIdentifier_eq_contentRead]
  exact contentRead_reads (by decide) decodeOidContent_iff

theorem unsigned32_eq_contentRead
    (t : TagType) :
    (fun r : Reader => r.unsigned32 t) =
      contentRead t
        (fun c => (unsignedOf 4 c).map UInt64.toUInt32) := by
  funext r
  have hContent :=
    congrFun (unsignedContent_eq_contentRead t 4) r
  rw [← mapRead_contentRead, ← hContent, unsigned32,
    mapRead]
  rcases r.unsignedContent t 4 with ⟨result, r₁⟩
  cases result <;> rfl

theorem unsigned64_eq_contentRead
    (t : TagType) :
    (fun r : Reader => r.unsigned64 t) =
      contentRead t (unsignedOf 8) :=
  unsignedContent_eq_contentRead t 8

/- Four significant octets always fit the type. -/
theorem unsigned32Of_iff
    (content : Octets)
    (v : UInt32) :
    (unsignedOf 4 content).map UInt64.toUInt32 = .ok v ↔
      UnsignedContent content v.toNat := by
  have hIff := unsignedOf_iff (show 4 ≤ 8 by omega) content
  constructor
  · intro hDecode
    cases hCase : unsignedOf 4 content with
    | error e => simp [hCase, Except.map] at hDecode
    | ok w =>
        rcases (hIff w).mp hCase with ⟨hContent, hLt⟩
        simp only [hCase, Except.map, Except.ok.injEq]
          at hDecode
        rw [← hDecode, UInt64.toNat_toUInt32,
          Nat.mod_eq_of_lt (by omega)]
        exact hContent
  · intro hContent
    have hLt := v.toNat_lt
    have hDecode :=
      (hIff v.toUInt64).mpr
        ⟨by simpa using hContent, by simpa using hLt⟩
    rw [hDecode]
    simp [Except.map]

/- So do eight of a `Counter64`. -/
theorem unsigned64Of_iff
    (content : Octets)
    (v : UInt64) :
    unsignedOf 8 content = .ok v ↔
      UnsignedContent content v.toNat := by
  have hLt := v.toNat_lt
  rw [unsignedOf_iff le_rfl]
  constructor
  · exact And.left
  · intro hContent
    exact ⟨hContent, by omega⟩

end Reader

end Ber

end Snmpio

------------------------------------------------------------
-- Values
------------------------------------------------------------

namespace Snmpio

namespace Ber

namespace Reader

variable {β : Type}

/- The content of `NULL` and of the exception markers. -/
def emptyOf
    (e : Errc)
    (v : Value)
    (content : Octets) : Except Errc Value :=
  if ¬ content.isEmpty then .error e else .ok v

/- Exactly four octets, in network order. -/
def ipAddressOf
    (content : Octets) : Except Errc Value :=
  if h : content.length = 4 then
    .ok (.ipAddress ⟨content.toArray, by simpa using h⟩)
  else .error .badIpAddress

/- The content decoder behind each tag of the switch. -/
def valueDecoder
    (t : TagType) : Option (Octets → Except Errc Value) :=
  if t = Tag.null then
    some (emptyOf .badNull .null)
  else if t = Tag.integer then
    some (fun c => (integerOf c).map .integer)
  else if t = Tag.octetString then
    some (fun c => .ok (.octetString c))
  else if t = Tag.objectIdentifier then
    some (fun c => (decodeOidContent c).map .oid)
  else if t = Tag.ipAddress then
    some ipAddressOf
  else if t = Tag.counter32 then
    some (fun c =>
      ((unsignedOf 4 c).map UInt64.toUInt32).map .counter32)
  else if t = Tag.gauge32 then
    some (fun c =>
      ((unsignedOf 4 c).map UInt64.toUInt32).map .gauge32)
  else if t = Tag.timeticks then
    some (fun c =>
      ((unsignedOf 4 c).map UInt64.toUInt32).map .timeTicks)
  else if t = Tag.counter64 then
    some (fun c => (unsignedOf 8 c).map .counter64)
  else if t = Tag.opaqueOctets then
    some (fun c => .ok (.opaqueOctets c))
  else if t = Tag.noSuchObject then
    some (emptyOf .trailingData (.exception .noSuchObject))
  else if t = Tag.noSuchInstance then
    some (emptyOf .trailingData
      (.exception .noSuchInstance))
  else if t = Tag.endOfMibView then
    some (emptyOf .trailingData (.exception .endOfMibView))
  else none

/- `null` wants no content at all. -/
theorem nullValue_eq_contentRead
    (r : Reader) :
    (match r.nullValue with
      | (false, r) => (none, r)
      | (true, r) => (some Value.null, r)) =
      contentRead Tag.null (emptyOf .badNull .null) r := by
  rw [nullValue, contentRead]
  rcases r.primitiveContent Tag.null with ⟨result, r₁⟩
  cases result with
  | none => rfl
  | some content =>
      simp only [emptyOf]
      by_cases hEmpty : content.octets.isEmpty = true
      · simp [hEmpty]
      · simp [hEmpty]

/- So do the exception markers. -/
theorem exceptionMarker_eq_contentRead
    (r : Reader)
    (t : TagType)
    (e : ValueException) :
    r.exceptionMarker t e =
      contentRead t
        (emptyOf .trailingData (.exception e)) r := by
  rw [exceptionMarker, contentRead]
  rcases r.primitiveContent t with ⟨result, r₁⟩
  cases result with
  | none => rfl
  | some content =>
      simp only [emptyOf]
      by_cases hEmpty : content.octets.isEmpty = true
      · simp [hEmpty]
      · simp [hEmpty]

theorem ipAddress_eq_contentRead
    (r : Reader) :
    r.ipAddress = contentRead Tag.ipAddress ipAddressOf r := by
  rw [ipAddress, contentRead]
  rcases r.primitiveContent Tag.ipAddress with ⟨result, r₁⟩
  cases result with
  | none => rfl
  | some content =>
      simp only [ipAddressOf]
      by_cases hFour : content.octets.length = 4
      · simp [hFour]
      · simp [hFour]

theorem mapRead_integer
    (r : Reader)
    (f : Int32 → β) :
    mapRead f r.integer =
      contentRead Tag.integer
        (fun c => (integerOf c).map f) r := by
  rw [← mapRead_contentRead,
    ← congrFun (integer_eq_contentRead Tag.integer) r]

theorem mapRead_octetString
    (r : Reader)
    (t : TagType)
    (f : Octets → β) :
    mapRead f (r.octetString t) =
      contentRead t (fun c => .ok (f c)) r := by
  have hMap :=
    mapRead_contentRead t Except.ok f r
  rw [← congrFun (octetString_eq_contentRead t) r] at hMap
  exact hMap

theorem mapRead_objectIdentifier
    (r : Reader)
    (f : Oid → β) :
    mapRead f r.objectIdentifier =
      contentRead Tag.objectIdentifier
        (fun c => (decodeOidContent c).map f) r := by
  rw [← mapRead_contentRead,
    ← congrFun objectIdentifier_eq_contentRead r]

theorem mapRead_unsigned32
    (r : Reader)
    (t : TagType)
    (f : UInt32 → β) :
    mapRead f (r.unsigned32 t) =
      contentRead t
        (fun c =>
          ((unsignedOf 4 c).map UInt64.toUInt32).map f)
        r := by
  rw [← mapRead_contentRead t (fun c =>
      (unsignedOf 4 c).map UInt64.toUInt32),
    ← congrFun (unsigned32_eq_contentRead t) r]

theorem mapRead_unsigned64
    (r : Reader)
    (t : TagType)
    (f : UInt64 → β) :
    mapRead f (r.unsigned64 t) =
      contentRead t (fun c => (unsignedOf 8 c).map f) r := by
  rw [← mapRead_contentRead,
    ← congrFun (unsigned64_eq_contentRead t) r]

/- The switch reads a primitive element of the tag seen. -/
theorem anyValue_eq
    {r : Reader}
    {t : TagType}
    (hEc : r.ec.isSome = false)
    (hPeek : r.peekTag = some t) :
    r.anyValue =
      match valueDecoder t with
      | some decode => contentRead t decode r
      | none => (none, r.fail .unknownValueTag) := by
  rw [anyValue, if_neg (by simp [hEc]), hPeek]
  -- Once the tag is known, both sides compute.
  by_cases h₁ : t = Tag.null
  · subst h₁
    exact nullValue_eq_contentRead r
  by_cases h₂ : t = Tag.integer
  · subst h₂
    exact mapRead_integer r Value.integer
  by_cases h₃ : t = Tag.octetString
  · subst h₃
    exact mapRead_octetString r _ Value.octetString
  by_cases h₄ : t = Tag.objectIdentifier
  · subst h₄
    exact mapRead_objectIdentifier r Value.oid
  by_cases h₅ : t = Tag.ipAddress
  · subst h₅
    exact ipAddress_eq_contentRead r
  by_cases h₆ : t = Tag.counter32
  · subst h₆
    exact mapRead_unsigned32 r _ Value.counter32
  by_cases h₇ : t = Tag.gauge32
  · subst h₇
    exact mapRead_unsigned32 r _ Value.gauge32
  by_cases h₈ : t = Tag.timeticks
  · subst h₈
    exact mapRead_unsigned32 r _ Value.timeTicks
  by_cases h₉ : t = Tag.counter64
  · subst h₉
    exact mapRead_unsigned64 r _ Value.counter64
  by_cases h₁₀ : t = Tag.opaqueOctets
  · subst h₁₀
    exact mapRead_octetString r _ Value.opaqueOctets
  by_cases h₁₁ : t = Tag.noSuchObject
  · subst h₁₁
    exact exceptionMarker_eq_contentRead r _ _
  by_cases h₁₂ : t = Tag.noSuchInstance
  · subst h₁₂
    exact exceptionMarker_eq_contentRead r _ _
  by_cases h₁₃ : t = Tag.endOfMibView
  · subst h₁₃
    exact exceptionMarker_eq_contentRead r _ _
  simp only [valueDecoder, if_neg h₁, if_neg h₂, if_neg h₃,
    if_neg h₄, if_neg h₅, if_neg h₆, if_neg h₇, if_neg h₈,
    if_neg h₉, if_neg h₁₀, if_neg h₁₁, if_neg h₁₂,
    if_neg h₁₃]

end Reader

end Ber

end Snmpio

------------------------------------------------------------
-- The Grammar of Values
------------------------------------------------------------

namespace Snmpio

namespace Ber

namespace Reader

variable {t : TagType}

/- A conversion loses no decoding. -/
theorem map_ok_iff
    {α β : Type}
    {x : Except Errc α}
    {f : α → β}
    {y : β} :
    x.map f = .ok y ↔ ∃ v, x = .ok v ∧ y = f v := by
  cases x with
  | error e => simp [Except.map]
  | ok v => simp [Except.map, eq_comm]

/- What accepts no content accepts one value. -/
theorem emptyOf_iff
    {e : Errc}
    {v w : Value}
    (content : Octets) :
    emptyOf e v content = .ok w ↔ content = [] ∧ w = v := by
  unfold emptyOf
  by_cases hEmpty : content = []
  · simp [hEmpty, eq_comm]
  · simp [hEmpty]

/- The four octets are the address. -/
theorem ipAddressOf_iff
    (content : Octets)
    (v : Value) :
    ipAddressOf content = .ok v ↔
      ∃ a : Vector UInt8 4,
        content = a.toList ∧ v = .ipAddress a := by
  unfold ipAddressOf
  constructor
  · intro hDecode
    split at hDecode
    · next hFour =>
      simp only [Except.ok.injEq] at hDecode
      exact ⟨_, by simp [Vector.toList], hDecode.symm⟩
    · simp at hDecode
  · rintro ⟨a, rfl, rfl⟩
    rw [dif_pos (by simp)]
    congr

/-
  A tag with one constructor behind it: its decoder maps a
  content decoder that follows the constructor's grammar.
-/
theorem mapped_iff
    {α : Type}
    {decode : Octets → Except Errc α}
    {f : α → Value}
    {G : Octets → α → Prop}
    (hDecode : ∀ c x, decode c = .ok x ↔ G c x)
    (hTag : ∀ v, valueTag v = t ↔ ∃ x, v = f x)
    (hContent : ∀ c x, ValueContent c (f x) ↔ G c x)
    (content : Octets)
    (v : Value) :
    (decode content).map f = .ok v ↔
      valueTag v = t ∧ ValueContent content v := by
  rw [map_ok_iff]
  constructor
  · rintro ⟨x, hx, rfl⟩
    exact ⟨(hTag _).mpr ⟨x, rfl⟩,
      (hContent _ _).mpr ((hDecode _ _).mp hx)⟩
  · rintro ⟨hv, hForm⟩
    rcases (hTag v).mp hv with ⟨x, rfl⟩
    exact ⟨x,
      (hDecode _ _).mpr ((hContent _ _).mp hForm), rfl⟩

/- A tag whose Value has no content. -/
theorem emptyOf_valueContent_iff
    {e : Errc}
    {w : Value}
    (hTag : ∀ v, valueTag v = t ↔ v = w)
    (hContent : ∀ c, ValueContent c w ↔ c = [])
    (content : Octets)
    (v : Value) :
    emptyOf e w content = .ok v ↔
      valueTag v = t ∧ ValueContent content v := by
  rw [emptyOf_iff, hTag]
  constructor
  · rintro ⟨hNil, rfl⟩
    exact ⟨rfl, (hContent content).mpr hNil⟩
  · rintro ⟨rfl, hForm⟩
    exact ⟨(hContent content).mp hForm, rfl⟩

/- A decoder of the switch finds the Values of its tag. -/
theorem valueDecoder_iff
    {decode : Octets → Except Errc Value}
    (hDecoder : valueDecoder t = some decode)
    (content : Octets)
    (v : Value) :
    decode content = .ok v ↔
      valueTag v = t ∧ ValueContent content v := by
  have hOk :
      ∀ c x : Octets,
        (Except.ok c : Except Errc Octets) = .ok x ↔
          OctetsContent c x := by
    intro c x
    simp [OctetsContent]
  by_cases h₁ : t = Tag.null
  · subst h₁
    cases hDecoder
    refine emptyOf_valueContent_iff ?_
      (fun _ => Iff.rfl) _ _
    rintro (_ | _ | _ | _ | _ | _ | _ | _ | _ | _ |
        (_ | _ | _)) <;>
      simp [valueTag, Tag.null]
  by_cases h₂ : t = Tag.integer
  · subst h₂
    cases hDecoder
    refine mapped_iff integerOf_iff ?_
      (fun _ _ => Iff.rfl) _ _
    rintro (_ | _ | _ | _ | _ | _ | _ | _ | _ | _ |
        (_ | _ | _)) <;>
      simp [valueTag, Tag.integer]
  by_cases h₃ : t = Tag.octetString
  · subst h₃
    cases hDecoder
    refine mapped_iff hOk ?_
      (fun _ _ => Iff.rfl) _ _
    rintro (_ | _ | _ | _ | _ | _ | _ | _ | _ | _ |
        (_ | _ | _)) <;>
      simp [valueTag, Tag.octetString]
  by_cases h₄ : t = Tag.objectIdentifier
  · subst h₄
    cases hDecoder
    refine mapped_iff decodeOidContent_iff ?_
      (fun _ _ => Iff.rfl) _ _
    rintro (_ | _ | _ | _ | _ | _ | _ | _ | _ | _ |
        (_ | _ | _)) <;>
      simp [valueTag, Tag.objectIdentifier]
  by_cases h₅ : t = Tag.ipAddress
  · subst h₅
    cases hDecoder
    rw [ipAddressOf_iff]
    constructor
    · rintro ⟨a, ha, rfl⟩
      exact ⟨rfl, ha⟩
    · rintro ⟨hTag, hForm⟩
      rcases v with _ | _ | _ | _ | a | _ | _ | _ | _ | _ |
        (_ | _ | _) <;>
        simp [valueTag, Tag.ipAddress] at hTag
      exact ⟨a, hForm, rfl⟩
  by_cases h₆ : t = Tag.counter32
  · subst h₆
    cases hDecoder
    refine mapped_iff unsigned32Of_iff ?_
      (fun _ _ => Iff.rfl) _ _
    rintro (_ | _ | _ | _ | _ | _ | _ | _ | _ | _ |
        (_ | _ | _)) <;>
      simp [valueTag, Tag.counter32]
  by_cases h₇ : t = Tag.gauge32
  · subst h₇
    cases hDecoder
    refine mapped_iff unsigned32Of_iff ?_
      (fun _ _ => Iff.rfl) _ _
    rintro (_ | _ | _ | _ | _ | _ | _ | _ | _ | _ |
        (_ | _ | _)) <;>
      simp [valueTag, Tag.gauge32]
  by_cases h₈ : t = Tag.timeticks
  · subst h₈
    cases hDecoder
    refine mapped_iff unsigned32Of_iff ?_
      (fun _ _ => Iff.rfl) _ _
    rintro (_ | _ | _ | _ | _ | _ | _ | _ | _ | _ |
        (_ | _ | _)) <;>
      simp [valueTag, Tag.timeticks]
  by_cases h₉ : t = Tag.counter64
  · subst h₉
    cases hDecoder
    refine mapped_iff unsigned64Of_iff ?_
      (fun _ _ => Iff.rfl) _ _
    rintro (_ | _ | _ | _ | _ | _ | _ | _ | _ | _ |
        (_ | _ | _)) <;>
      simp [valueTag, Tag.counter64]
  by_cases h₁₀ : t = Tag.opaqueOctets
  · subst h₁₀
    cases hDecoder
    refine mapped_iff hOk ?_
      (fun _ _ => Iff.rfl) _ _
    rintro (_ | _ | _ | _ | _ | _ | _ | _ | _ | _ |
        (_ | _ | _)) <;>
      simp [valueTag, Tag.opaqueOctets]
  by_cases h₁₁ : t = Tag.noSuchObject
  · subst h₁₁
    cases hDecoder
    refine emptyOf_valueContent_iff ?_
      (fun _ => Iff.rfl) _ _
    rintro (_ | _ | _ | _ | _ | _ | _ | _ | _ | _ |
        (_ | _ | _)) <;>
      simp [valueTag, Tag.noSuchObject]
  by_cases h₁₂ : t = Tag.noSuchInstance
  · subst h₁₂
    cases hDecoder
    refine emptyOf_valueContent_iff ?_
      (fun _ => Iff.rfl) _ _
    rintro (_ | _ | _ | _ | _ | _ | _ | _ | _ | _ |
        (_ | _ | _)) <;>
      simp [valueTag, Tag.noSuchInstance]
  by_cases h₁₃ : t = Tag.endOfMibView
  · subst h₁₃
    cases hDecoder
    refine emptyOf_valueContent_iff ?_
      (fun _ => Iff.rfl) _ _
    rintro (_ | _ | _ | _ | _ | _ | _ | _ | _ | _ |
        (_ | _ | _)) <;>
      simp [valueTag, Tag.endOfMibView]
  simp only [valueDecoder, if_neg h₁, if_neg h₂, if_neg h₃,
    if_neg h₄, if_neg h₅, if_neg h₆, if_neg h₇, if_neg h₈,
    if_neg h₉, if_neg h₁₀, if_neg h₁₁, if_neg h₁₂,
    if_neg h₁₃, reduceCtorEq] at hDecoder

/- Every tag of the switch is primitive. -/
theorem valueDecoder_primitive
    {decode : Octets → Except Errc Value}
    (hDecoder : valueDecoder t = some decode) :
    PrimitiveTag t := by
  by_contra hTag
  have hNe :
      ∀ u : TagType, PrimitiveTag u → t ≠ u := by
    rintro u hu rfl
    exact hTag hu
  simp only [valueDecoder,
    if_neg (hNe Tag.null (by decide)),
    if_neg (hNe Tag.integer (by decide)),
    if_neg (hNe Tag.octetString (by decide)),
    if_neg (hNe Tag.objectIdentifier (by decide)),
    if_neg (hNe Tag.ipAddress (by decide)),
    if_neg (hNe Tag.counter32 (by decide)),
    if_neg (hNe Tag.gauge32 (by decide)),
    if_neg (hNe Tag.timeticks (by decide)),
    if_neg (hNe Tag.counter64 (by decide)),
    if_neg (hNe Tag.opaqueOctets (by decide)),
    if_neg (hNe Tag.noSuchObject (by decide)),
    if_neg (hNe Tag.noSuchInstance (by decide)),
    if_neg (hNe Tag.endOfMibView (by decide)),
    reduceCtorEq] at hDecoder

/- The tag of every Value has a decoder in the switch. -/
theorem valueDecoder_valueTag
    (v : Value) :
    ∃ decode, valueDecoder (valueTag v) = some decode := by
  rcases v with _ | _ | _ | _ | _ | _ | _ | _ | _ | _ |
    (_ | _ | _) <;> exact ⟨_, rfl⟩

/- `anyValue` reads exactly the Values. -/
theorem anyValue_reads :
    Reads ValueForm anyValue where
  sound := by
    intro r r' w v hView hRead
    have hEc := hView.isSome_eq
    cases w with
    | nil =>
        simp [anyValue, hEc, hView.peekTag_nil] at hRead
    | cons t rest =>
        rw [anyValue_eq hEc hView.peekTag_cons] at hRead
        cases hDecoder : valueDecoder t with
        | none => simp [hDecoder] at hRead
        | some decode =>
            have hReads :=
              contentRead_reads
                (valueDecoder_primitive hDecoder)
                (valueDecoder_iff hDecoder)
            simp only [hDecoder] at hRead
            rcases hReads.sound hView hRead with
              ⟨b, w', hw, ⟨ls, content, rfl, hLength, hTag,
                hForm⟩, hr'⟩
            refine ⟨_, w', hw, ?_, hr'⟩
            exact ⟨ls, content, by rw [hTag], hLength, hForm⟩
  complete := by
    intro r b w v hView hForm
    rcases hForm with ⟨ls, content, rfl, hLength, hForm⟩
    rcases valueDecoder_valueTag v with ⟨decode, hDecoder⟩
    have hReads :=
      contentRead_reads (valueDecoder_primitive hDecoder)
        (valueDecoder_iff hDecoder)
    rw [anyValue_eq hView.isSome_eq hView.peekTag_cons,
      hDecoder]
    exact hReads.complete hView
      ⟨ls, content, rfl, hLength, rfl, hForm⟩
  fails := by
    intro r r' w hView hRead
    have hEc := hView.isSome_eq
    cases w with
    | nil =>
        simp only [anyValue, hEc, hView.peekTag_nil,
          Bool.false_eq_true, if_false, Prod.mk.injEq]
          at hRead
        simp [← hRead.2]
    | cons t rest =>
        rw [anyValue_eq hEc hView.peekTag_cons] at hRead
        cases hDecoder : valueDecoder t with
        | none =>
            simp only [hDecoder, Prod.mk.injEq] at hRead
            simp [← hRead.2]
        | some decode =>
            have hReads :=
              contentRead_reads
                (valueDecoder_primitive hDecoder)
                (valueDecoder_iff hDecoder)
            simp only [hDecoder] at hRead
            exact hReads.fails hView hRead
  sticky := by
    intro r hEc
    simp [anyValue, hEc]

end Reader

end Ber

end Snmpio

------------------------------------------------------------
-- Varbinds
------------------------------------------------------------

namespace Snmpio

namespace Ber

namespace Reader

/- A name, then a value of any type. -/
theorem varbindBody_reads :
    Reads VarbindContent varbindBody := by
  apply andThen_reads objectIdentifier_reads anyValue_reads
  intro d vb
  constructor
  · rintro ⟨name, val, rfl, hForm⟩
    exact hForm
  · intro hForm
    exact ⟨vb.name, vb.val, rfl, hForm⟩

/- A leading error check does not change what is read. -/
theorem Reads.guarded
    {α : Type}
    {G : Octets → α → Prop}
    {read : Reader → Option α × Reader}
    (hReads : Reads G read) :
    Reads G (fun r =>
      if r.ec.isSome then (none, r) else read r) := by
  have hEq :
      (fun r : Reader =>
        if r.ec.isSome then (none, r) else read r) =
        read := by
    funext r
    by_cases hEc : r.ec.isSome = true
    · rw [if_pos hEc, hReads.sticky hEc]
    · rw [if_neg hEc]
  rw [hEq]
  exact hReads

/- A Varbind is its SEQUENCE. -/
theorem readVarbind_reads :
    Reads VarbindForm readVarbind :=
  (inScope_reads (by decide) varbindBody_reads.fills).guarded

end Reader

end Ber

end Snmpio

------------------------------------------------------------
-- Varbind Lists
------------------------------------------------------------

namespace Snmpio

namespace Ber

namespace Reader

variable {r : Reader} {w : Octets} {fuel : Nat}
variable {out : List Varbind}

/- The loop makes progress: an element has octets. -/
theorem element_ne_nil
    {α : Type}
    {t : TagType}
    {G : Octets → α → Prop}
    {d : Octets}
    {x : α}
    (hElement : Element t G d x) :
    d ≠ [] := by
  rcases hElement with ⟨ls, content, rfl, _⟩
  simp

/- The loop ends where the content does. -/
theorem View.atEnd_eq
    (hView : View r w) :
    r.atEnd = decide (w = []) := by
  have hEnd := hView.endPos_eq
  rw [atEnd]
  by_cases hw : w = []
  · subst hw
    simpa using hEnd.le
  · have hPos := List.length_pos_of_ne_nil hw
    simp only [hw, decide_false, decide_eq_false_iff_not]
    omega

/-
  The loop takes Varbinds until the scope is empty.  The
  induction is on the fuel, which bounds what is in view.
-/
theorem varbindLoop_sound
    {vbs : List Varbind}
    {r' : Reader}
    (hView : View r w)
    (hFuel : w.length ≤ fuel)
    (hLoop : varbindLoop fuel out r = (some vbs, r')) :
    ∃ new, Star VarbindForm w new ∧ vbs = out ++ new ∧
      r' = r.advance w.length := by
  induction fuel generalizing out r w with
  | zero =>
      have hNil : w = [] :=
        List.eq_nil_of_length_eq_zero (by omega)
      subst hNil
      simp only [varbindLoop, Prod.mk.injEq,
        Option.some.injEq] at hLoop
      exact ⟨[], Star.nil, by simp [hLoop.1],
        by simp [hLoop.2]⟩
  | succ fuel ih =>
      rw [varbindLoop, hView.ok_eq, hView.atEnd_eq] at hLoop
      by_cases hw : w = []
      · subst hw
        simp only [decide_true, not_true_eq_false, and_false,
          if_false, Prod.mk.injEq, Option.some.injEq]
          at hLoop
        exact ⟨[], Star.nil, by simp [hLoop.1],
          by simp [hLoop.2]⟩
      · rw [if_pos (by simp [hw])] at hLoop
        rcases readVarbind_reads.cases hView with
          ⟨vb, b, w', rfl, hForm, hRead⟩ | ⟨r₁, _, hRead⟩
        · rw [hRead] at hLoop
          have hPos :=
            List.length_pos_of_ne_nil (element_ne_nil hForm)
          rw [List.length_append] at hFuel
          rcases ih hView.advance (by omega) hLoop with
            ⟨new, hStar, rfl, rfl⟩
          refine ⟨vb :: new, Star.cons hForm hStar,
            by simp, ?_⟩
          rw [advance_advance, List.length_append]
        · simp [hRead] at hLoop

/- What is a list of Varbinds is read as one. -/
theorem varbindLoop_complete
    {new : List Varbind}
    (hView : View r w)
    (hFuel : w.length ≤ fuel)
    (hStar : Star VarbindForm w new) :
    varbindLoop fuel out r =
      (some (out ++ new), r.advance w.length) := by
  induction hStar generalizing fuel out r with
  | nil =>
      cases fuel with
      | zero => simp [varbindLoop]
      | succ fuel =>
          simp [varbindLoop, hView.atEnd_eq]
  | @cons d₁ d₂ vb vbs hForm hTail ih =>
      have hPos :=
        List.length_pos_of_ne_nil (element_ne_nil hForm)
      rw [List.length_append] at hFuel
      cases fuel with
      | zero => omega
      | succ fuel =>
          have hNe : d₁ ++ d₂ ≠ [] := by
            simp [element_ne_nil hForm]
          rw [varbindLoop, hView.ok_eq, hView.atEnd_eq,
            if_pos (by simp [hNe]),
            readVarbind_reads.complete hView hForm]
          simp only
          rw [ih hView.advance (by omega)]
          simp [List.length_append]

/- Where the loop gives up, the Reader says why. -/
theorem varbindLoop_fails
    {r' : Reader}
    (hView : View r w)
    (hLoop : varbindLoop fuel out r = (none, r')) :
    r'.ec.isSome := by
  induction fuel generalizing out r w with
  | zero => simp [varbindLoop] at hLoop
  | succ fuel ih =>
      rw [varbindLoop] at hLoop
      split at hLoop
      · rcases readVarbind_reads.cases hView with
          ⟨vb, b, w', rfl, hForm, hRead⟩ | ⟨r₁, hEc, hRead⟩
        · rw [hRead] at hLoop
          exact ih hView.advance hLoop
        · simp only [hRead, Prod.mk.injEq] at hLoop
          rw [← hLoop.2]
          exact hEc
      · simp at hLoop

/- A Reader that has failed reads no more of them. -/
theorem varbindLoop_sticky
    (hEc : r.ec.isSome) :
    varbindLoop fuel out r = (some out, r) := by
  have hNotOk : r.ok = false := by
    rw [ok]
    cases hCase : r.ec with
    | none => simp [hCase] at hEc
    | some e => rfl
  cases fuel with
  | zero => rfl
  | succ fuel => simp [varbindLoop, hNotOk]

/- The loop is a read of the whole content. -/
theorem varbindLoop_fills :
    Fills (Star VarbindForm)
      (fun r => varbindLoop r.remaining [] r) where
  sound := by
    intro r r' w vbs hView hLoop
    rcases varbindLoop_sound hView
        (by rw [hView.remaining_eq]) hLoop with
      ⟨new, hStar, rfl, rfl⟩
    exact ⟨w.length, le_rfl, rfl, fun _ => by simpa⟩
  complete := by
    intro r w vbs hView hStar
    have hFuel : w.length ≤ r.remaining := by
      rw [hView.remaining_eq]
    exact varbindLoop_complete hView hFuel hStar
  fails := by
    intro r r' w hView hLoop
    exact varbindLoop_fails hView hLoop
  sticky := by
    intro r hEc
    simp [varbindLoop_sticky hEc]

/- The list is read for what the grammar calls one. -/
theorem varbindList_reads :
    Reads VarbindListForm varbindList :=
  (inScope_reads (by decide) varbindLoop_fills).guarded

end Reader

end Ber

end Snmpio
