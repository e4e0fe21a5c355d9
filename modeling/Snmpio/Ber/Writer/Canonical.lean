import Snmpio.Ber.Reader.Oids
import Snmpio.Ber.Writer.Encoding
import Snmpio.Core.Words

/-
  The octets the writer chooses belong to the grammar, and
  every value of the grammar is one the writer can express.

  Key theorems include:
    * `Ber.integerContent_form`
    * `Ber.unsignedBytes_form`
    * `Ber.oidContent_form`
    * `Ber.OidContent.isEncodable`
    * `Ber.OidContent.unique`
    * `Ber.oid_content_bijective`
    * `Ber.varbindListBytes_form`
    * `Ber.VarbindListForm.isEncodable`
-/

------------------------------------------------------------
-- Numbers
------------------------------------------------------------

namespace Snmpio

namespace Ber

open Octets

/- What is written is read as the same number. -/
theorem integerContent_form
    (v : Int32) :
    IntegerContent (integerContent v) v := by
  unfold integerContent
  constructor
  · apply stripPadding_ne_nil
    simp [bigEndian]
  · rw [signedValue_stripPadding,
      Words.signedValue_bigEndian]

/- Never more octets than the type has. -/
theorem integerContent_length_le
    (v : Int32) :
    (integerContent v).length ≤ 4 := by
  have hStrip :=
    stripPadding_length_le (decide (v < 0))
      (bigEndian 4 v.toUInt32.toNat)
  rwa [bigEndian_length] at hStrip

theorem integerElement_length_le
    (v : Int32) :
    (elementBytes Tag.integer (integerContent v)).length ≤
      6 := by
  have hContent := integerContent_length_le v
  have hShort : (integerContent v).length < 0x80 := by omega
  simp only [elementBytes, lengthBytes, hShort, if_true,
    List.length_cons, List.length_append, List.length_nil]
  omega

/- An INTEGER is never too long for a definite length. -/
theorem integerElement_form
    (v : Int32) :
    Element Tag.integer IntegerContent
      (elementBytes Tag.integer (integerContent v)) v := by
  have hLength := integerContent_length_le v
  exact elementBytes_form (by omega) (integerContent_form v)

/- A zero is put before an upper bit that is set. -/
theorem unsignedBytes_form
    (v : UInt64) :
    UnsignedContent (unsignedBytes v) v.toNat := by
  have hLt := v.toNat_lt
  have hSign :
      isNegative (0 :: bigEndian 8 v.toNat) = false := rfl
  have hKept :=
    isNegative_stripPadding (0 :: bigEndian 8 v.toNat)
  have hValue :=
    signedValue_stripPadding false
      (0 :: bigEndian 8 v.toNat)
  rw [hSign] at hKept
  rw [signedValue, signedValue, hKept, hSign,
    unsignedValue_cons, unsignedValue_bigEndian] at hValue
  simp only [Bool.false_eq_true, if_false, UInt8.toNat_zero,
    Nat.zero_mul, Nat.zero_add, Nat.cast_inj] at hValue
  constructor
  · apply stripPadding_ne_nil
    simp
  · rw [unsignedBytes, hValue]
    omega

end Ber

end Snmpio

------------------------------------------------------------
-- Object Identifiers
------------------------------------------------------------

namespace Snmpio

namespace Ber

open Octets

/- The loop counts the groups the number needs. -/
theorem subidOctetsFrom_le_iff
    {fuel v : Nat}
    (hFuel : v ≤ fuel)
    (k : Nat) :
    subidOctetsFrom fuel v ≤ k + 1 ↔ v < 128 ^ (k + 1) := by
  induction fuel generalizing v k with
  | zero =>
      have hv : v = 0 := by omega
      subst hv
      simp [subidOctetsFrom]
  | succ fuel ih =>
      have hShift : v >>> 7 = v / 128 :=
        Nat.shiftRight_eq_div_pow v 7
      rw [subidOctetsFrom, hShift]
      by_cases hMore : v ≥ 0x80
      · rw [if_pos hMore]
        cases k with
        | zero =>
            have hPos : 1 ≤ subidOctetsFrom fuel (v / 128) := by
              cases fuel with
              | zero => simp [subidOctetsFrom]
              | succ fuel =>
                  rw [subidOctetsFrom]
                  split <;> omega
            constructor
            · intro hLe
              omega
            · intro hLt
              omega
        | succ k =>
            rw [Nat.add_le_add_iff_right, ih (by omega),
              pow_succ 128 (k + 1),
              Nat.div_lt_iff_lt_mul (by omega)]
      · rw [if_neg hMore]
        have hPow : 128 ≤ 128 ^ (k + 1) := by
          rw [pow_succ]
          have := Nat.one_le_pow k 128 (by omega)
          omega
        constructor
        · intro _
          omega
        · intro _
          omega

theorem subidOctets_pos
    (v : Nat) :
    1 ≤ subidOctets v := by
  unfold subidOctets
  cases v with
  | zero => simp [subidOctetsFrom]
  | succ v =>
      rw [subidOctetsFrom]
      split <;> omega

/- The low groups of a number, as the digits they carry. -/
theorem emitGroups_map_groupBits
    (k v : Nat) :
    (emitGroups k v).map groupBits =
      Positional.digits 128 k v := by
  induction k with
  | zero => rfl
  | succ k ih =>
      have hGroup :
          (v >>> (k * 7)) &&& 0x7F = v / 128 ^ k % 128 := by
        rw [Nat.shiftRight_eq_div_pow,
          show (0x7F : Nat) = 2 ^ 7 - 1 from rfl,
          Nat.and_two_pow_sub_one_eq_mod, Nat.mul_comm k 7,
          Nat.pow_mul]
      rw [emitGroups, Positional.digits, List.map_cons, ih,
        hGroup]
      congr 1
      have hLt : v / 128 ^ k % 128 < 128 :=
        Nat.mod_lt _ (by omega)
      split
      · rw [groupBits, toNat_ofNat_octet (by omega)]
        omega
      · rw [groupBits, Nat.or_comm, or_continuation hLt,
          toNat_ofNat_octet (by omega)]
        omega

/- All groups but the last carry the continuation bit. -/
theorem emitGroups_split
    (k v : Nat) :
    ∃ init last,
      emitGroups (k + 1) v = init ++ [last] ∧
        (∀ b ∈ init, 128 ≤ b.toNat) ∧ last.toNat < 128 := by
  have hMask :
      ∀ n : Nat, n &&& 0x7F < 128 := by
    intro n
    rw [show (0x7F : Nat) = 2 ^ 7 - 1 from rfl,
      Nat.and_two_pow_sub_one_eq_mod]
    exact Nat.mod_lt _ (by omega)
  induction k with
  | zero =>
      refine ⟨[], _, rfl, by simp, ?_⟩
      have hLt := hMask (v >>> (0 * 7))
      simp only [if_true]
      rw [toNat_ofNat_octet (by omega)]
      exact hLt
  | succ k ih =>
      rcases ih with ⟨init, last, hEq, hInit, hLast⟩
      refine ⟨UInt8.ofNat
          ((v >>> ((k + 1) * 7)) &&& 0x7F ||| 0x80) :: init,
        last, ?_, ?_, hLast⟩
      · rw [emitGroups, hEq]
        simp
      · intro b hb
        rcases List.mem_cons.mp hb with rfl | hb
        · have hLt := hMask (v >>> ((k + 1) * 7))
          rw [Nat.or_comm, or_continuation hLt,
            toNat_ofNat_octet (by omega)]
          omega
        · exact hInit b hb

/- What is emitted is a minimal sub-identifier. -/
theorem emit_form
    {v : Nat}
    (hv : v < 2 ^ 32) :
    Subid (emit v) v := by
  obtain ⟨k, hk⟩ :
      ∃ k, subidOctets v = k + 1 :=
    ⟨subidOctets v - 1, by have := subidOctets_pos v; omega⟩
  have hFits : v < 128 ^ (k + 1) := by
    rw [← subidOctetsFrom_le_iff (le_refl v)]
    exact hk.le
  have hDigits := emitGroups_map_groupBits (k + 1) v
  rcases emitGroups_split k v with
    ⟨init, last, hEq, hInit, hLast⟩
  rw [emit, hk]
  refine ⟨init, last, hEq, hInit, hLast, ?_, ?_, hv⟩
  · -- A leading pad group would make the number shorter.
    intro hPad
    cases init with
    | nil => simp at hPad
    | cons b rest =>
        simp only [List.head?_cons, Option.some.injEq] at hPad
        subst hPad
        rw [hEq, Positional.digits] at hDigits
        simp only [List.cons_append, List.map_cons,
          List.cons.injEq] at hDigits
        have hLead : v / 128 ^ k = 0 := by
          have hZero : groupBits 0x80 = 0 := rfl
          have hMod : 0 = v / 128 ^ k % 128 := by
            rw [← hZero]
            exact hDigits.1
          have hSmall : v / 128 ^ k < 128 := by
            rw [Nat.div_lt_iff_lt_mul (Nat.pow_pos (by omega)),
              Nat.mul_comm, ← pow_succ]
            exact hFits
          rw [Nat.mod_eq_of_lt hSmall] at hMod
          exact hMod.symm
        have hShort : v < 128 ^ k := by
          rcases Nat.div_eq_zero_iff.mp hLead with hZero | hLt
          · exact absurd hZero (by positivity)
          · exact hLt
        cases k with
        | zero =>
            have hLength := congrArg List.length hEq
            rw [emitGroups_length] at hLength
            simp at hLength
        | succ k =>
            have hLe :=
              (subidOctetsFrom_le_iff (le_refl v) k).mpr
                hShort
            unfold subidOctets at hk
            omega
  · rw [hDigits, Positional.value_digits,
      Nat.mod_eq_of_lt hFits]

/- Sub-identifiers one after the other. -/
theorem flatMap_emit_form
    {ns : List Nat}
    (hNs : ∀ n ∈ ns, n < 2 ^ 32) :
    Star Subid (ns.flatMap emit) ns := by
  induction ns with
  | nil => exact Star.nil
  | cons n ns ih =>
      rw [List.flatMap_cons]
      exact Star.cons (emit_form (hNs n List.mem_cons_self))
        (ih (fun m hm => hNs m (List.mem_cons_of_mem n hm)))

/- What `isEncodable` checks, as bounds on the arcs. -/
theorem isEncodable_iff
    (o : Oid) :
    o.isEncodable = true ↔
      ∃ first second rest,
        o.subids = first :: second :: rest ∧
          o.subids.length ≤ 128 ∧ first.toNat ≤ 2 ∧
          (first.toNat < 2 → second.toNat ≤ 39) ∧
          (first.toNat = 2 →
            second.toNat ≤ 2 ^ 32 - 1 - 80) := by
  rcases o with ⟨subids⟩
  rcases subids with _ | ⟨first, _ | ⟨second, rest⟩⟩
  · simp [Oid.isEncodable]
  · simp [Oid.isEncodable]
  · have hGt : first > 2 ↔ 2 < first.toNat :=
      UInt32.lt_iff_toNat_lt
    have hLt : first < 2 ↔ first.toNat < 2 :=
      UInt32.lt_iff_toNat_lt
    have hSecond : second > 39 ↔ 39 < second.toNat :=
      UInt32.lt_iff_toNat_lt
    have hEq : first = 2 ↔ first.toNat = 2 :=
      UInt32.toNat_inj.symm
    unfold Oid.isEncodable Oid.size Oid.maxSubids
    simp only [hGt, hLt, hSecond, hEq]
    constructor
    · intro hGood
      split_ifs at hGood
      exact ⟨first, second, rest, rfl, by omega, by omega,
        by omega, by omega⟩
    · rintro ⟨a, b, c, hSubids, hLength, hTwo, hOne, hBig⟩
      simp only [List.cons.injEq] at hSubids
      rcases hSubids with ⟨rfl, rfl, rfl⟩
      rw [if_neg (by omega), if_neg (by omega),
        if_neg (by omega), if_neg (by omega)]

/- The first two are written as one. -/
theorem oidContent_form
    {o : Oid}
    (hGood : o.isEncodable = true) :
    OidContent (oidContent o) o := by
  rcases (isEncodable_iff o).mp hGood with
    ⟨first, second, rest, hSubids, hLength, hTwo, hOne, hBig⟩
  have hPacked :
      packedSubids o =
        (first.toNat * 40 + second.toNat) ::
          rest.map UInt32.toNat := by
    rw [packedSubids, hSubids]
  refine ⟨packedSubids o, by simp [hPacked], ?_, ?_, hLength⟩
  · apply flatMap_emit_form
    intro n hn
    rw [hPacked] at hn
    rcases List.mem_cons.mp hn with rfl | hn
    · omega
    · rcases List.mem_map.mp hn with ⟨c, _, rfl⟩
      exact c.toNat_lt
  · have hArc :
        min ((first.toNat * 40 + second.toNat) / 40) 2 =
          first.toNat := by
      omega
    rw [hPacked, arcs, hArc, hSubids]
    simp only [List.map_cons, List.cons.injEq, true_and]
    constructor
    · omega
    · trivial

/- An accepted OBJECT IDENTIFIER can be written again. -/
theorem OidContent.isEncodable
    {content : Octets}
    {o : Oid}
    (hContent : OidContent content o) :
    o.isEncodable = true := by
  rcases hContent with ⟨ns, hNs, hStar, hArcs, hLength⟩
  have hBound := hStar.forall_lt
  cases ns with
  | nil => exact absurd rfl hNs
  | cons n ns =>
      have hn := hBound n List.mem_cons_self
      rw [arcs] at hArcs
      rcases hSubids : o.subids with
        _ | ⟨first, _ | ⟨second, rest⟩⟩
      · simp [hSubids] at hArcs
      · simp [hSubids] at hArcs
      · rw [hSubids] at hArcs
        simp only [List.map_cons, List.cons.injEq] at hArcs
        rw [isEncodable_iff]
        exact ⟨first, second, rest, hSubids, hLength,
          by omega, by omega, by omega⟩

end Ber

end Snmpio

------------------------------------------------------------
-- OBJECT IDENTIFIERs, Both Ways
------------------------------------------------------------

namespace Snmpio

namespace Ber

open Octets Writer

/- The digits in base 128. -/
theorem map_groupBits_lt
    (octets : Octets) :
    ∀ d ∈ octets.map groupBits, d < 128 := by
  intro d hd
  rcases List.mem_map.mp hd with ⟨b, _, rfl⟩
  exact Nat.mod_lt _ (by omega)

/- A minimal sub-identifier is as long as its value needs. -/
theorem Subid.bounds
    {octets : Octets}
    {n : Nat}
    (hSubid : Subid octets n) :
    n < 128 ^ octets.length ∧
      (1 < octets.length → 128 ^ (octets.length - 1) ≤ n) := by
  rcases hSubid with
    ⟨init, last, rfl, hInit, _, hPad, rfl, _⟩
  constructor
  · have hLt :=
      Positional.value_lt (by omega)
        (map_groupBits_lt (init ++ [last]))
    rwa [List.length_map] at hLt
  · intro hLong
    cases init with
    | nil => simp at hLong
    | cons b rest =>
        have hLead : 1 ≤ groupBits b := by
          have hHigh := hInit b List.mem_cons_self
          have hOther : b.toNat ≠ 128 := by
            intro hSame
            apply hPad
            have hByte : b = 0x80 := UInt8.toNat_inj.mp hSame
            rw [List.head?_cons, hByte]
          have hLt := b.toNat_lt
          unfold groupBits
          omega
        rw [List.cons_append, List.map_cons,
          Positional.value_cons, List.length_map,
          List.length_cons, Nat.add_sub_cancel]
        calc
          128 ^ (rest ++ [last]).length ≤
              groupBits b * 128 ^ (rest ++ [last]).length :=
            Nat.le_mul_of_pos_left _ hLead
          _ ≤ _ := Nat.le_add_right _ _

/- Its octets are its groups and where they end. -/
theorem eq_of_map_groupBits
    {init init' : Octets}
    {last last' : UInt8}
    (hInit : ∀ b ∈ init, 128 ≤ b.toNat)
    (hInit' : ∀ b ∈ init', 128 ≤ b.toNat)
    (hLast : last.toNat < 128)
    (hLast' : last'.toNat < 128)
    (hGroups :
      (init ++ [last]).map groupBits =
        (init' ++ [last']).map groupBits) :
    init ++ [last] = init' ++ [last'] := by
  induction init generalizing init' with
  | nil =>
      cases init' with
      | nil =>
          simp only [List.nil_append, List.map_cons,
            List.map_nil, List.cons.injEq, and_true,
            groupBits] at hGroups
          have hSame : last.toNat = last'.toNat := by omega
          rw [UInt8.toNat_inj.mp hSame]
      | cons b rest =>
          have hLength := congrArg List.length hGroups
          simp at hLength
  | cons b rest ih =>
      cases init' with
      | nil =>
          have hLength := congrArg List.length hGroups
          simp at hLength
      | cons b' rest' =>
          simp only [List.cons_append, List.map_cons,
            List.cons.injEq] at hGroups ⊢
          rcases hGroups with ⟨hHead, hRest⟩
          have hHigh := hInit b List.mem_cons_self
          have hHigh' := hInit' b' List.mem_cons_self
          have hLt := b.toNat_lt
          have hLt' := b'.toNat_lt
          constructor
          · unfold groupBits at hHead
            exact UInt8.toNat_inj.mp (by omega)
          · refine ih ?_ ?_ hRest
            · intro d hd
              exact hInit d (List.mem_cons_of_mem b hd)
            · intro d hd
              exact hInit' d (List.mem_cons_of_mem b' hd)

/- There is one minimal sub-identifier for each value. -/
theorem Subid.unique
    {octets octets' : Octets}
    {n : Nat}
    (hSubid : Subid octets n)
    (hSubid' : Subid octets' n) :
    octets = octets' := by
  have hLength : octets.length = octets'.length := by
    rcases hSubid.bounds with ⟨hLt, hLe⟩
    rcases hSubid'.bounds with ⟨hLt', hLe'⟩
    have hShort :
        ∀ {k m : Nat}, 0 < k → n < 128 ^ k →
          (1 < m → 128 ^ (m - 1) ≤ n) → ¬ k < m := by
      intro k m hPos hUnder hOver hLess
      have hPow : 128 ^ k ≤ 128 ^ (m - 1) :=
        Nat.pow_le_pow_right (by omega) (by omega)
      have hOver := hOver (by omega)
      omega
    have hPos : 0 < octets.length := by
      rcases hSubid with ⟨init, last, rfl, _⟩
      simp
    have hPos' : 0 < octets'.length := by
      rcases hSubid' with ⟨init, last, rfl, _⟩
      simp
    have hNot := hShort hPos hLt hLe'
    have hNot' := hShort hPos' hLt' hLe
    omega
  have hDigits :
      ∀ d : Octets,
        Positional.digits 128 d.length
            (Positional.value 128 (d.map groupBits)) =
          d.map groupBits := by
    intro d
    have hBack :=
      Positional.digits_value (by omega) (map_groupBits_lt d)
    rwa [List.length_map] at hBack
  rcases hSubid with
    ⟨init, last, hEq, hInit, hLast, _, hValue, _⟩
  rcases hSubid' with
    ⟨init', last', hEq', hInit', hLast', _, hValue', _⟩
  have hGroups :
      octets.map groupBits = octets'.map groupBits := by
    rw [← hDigits octets, ← hDigits octets', ← hValue,
      ← hValue', hLength]
  subst hEq hEq'
  exact eq_of_map_groupBits hInit hInit' hLast hLast' hGroups

/- Written without padding there is one way only. -/
theorem Star.unique
    {ns : List Nat}
    {content content' : Octets}
    (hStar : Star Subid content ns)
    (hStar' : Star Subid content' ns) :
    content = content' := by
  induction ns generalizing content content' with
  | nil =>
      cases hStar
      cases hStar'
      rfl
  | cons n ns ih =>
      cases hStar with
      | cons hHead hRest =>
          cases hStar' with
          | cons hHead' hRest' =>
              rw [hHead.unique hHead', ih hRest hRest']

/- The first sub-identifier can be told from its two arcs. -/
theorem arcs_injective :
    Function.Injective arcs := by
  intro ns ms hArcs
  cases ns with
  | nil =>
      cases ms with
      | nil => rfl
      | cons m ms => simp [arcs] at hArcs
  | cons n ns =>
      cases ms with
      | nil => simp [arcs] at hArcs
      | cons m ms =>
          simp only [arcs, List.cons.injEq] at hArcs
          rcases hArcs with ⟨hFirst, hSecond, hRest⟩
          rw [hRest]
          congr 1
          omega

/- There is one content for each OID. -/
theorem OidContent.unique
    {content content' : Octets}
    {o : Oid}
    (hContent : OidContent content o)
    (hContent' : OidContent content' o) :
    content = content' := by
  rcases hContent with ⟨ns, _, hStar, hArcs, _⟩
  rcases hContent' with ⟨ns', _, hStar', hArcs', _⟩
  have hSame : ns = ns' := by
    apply arcs_injective
    rw [← hArcs, ← hArcs']
  subst hSame
  exact hStar.unique hStar'

theorem lengthBytes_length
    (n : Nat) :
    (lengthBytes n).length = lengthOctets n := by
  unfold lengthBytes
  split
  · next hShort => rw [lengthOctets, if_pos hShort]; rfl
  · next hLong =>
    rw [List.length_cons, bigEndian_length, lengthOctets,
      if_neg hLong]
    omega

/-
  What is written for an OID that can be encoded is as long
  as announced and decodes to that OID, nothing is written
  for any other, and what decodes is what is written.
-/
theorem oid_content_bijective :
    (∀ o : Oid, o.isEncodable = true →
      ∃ content,
        (∀ w : Writer, w.ec = none →
          w.objectIdentifier o =
            w.append (elementBytes Tag.objectIdentifier
              content)) ∧
          (elementBytes Tag.objectIdentifier content).length =
            encodedOidSize o ∧
          decodeOidContent content = .ok o) ∧
      (∀ o : Oid, o.isEncodable = false →
        (∀ w : Writer, w.ec = none →
          w.objectIdentifier o =
            { w with ec := some .oidNotEncodable }) ∧
          encodedOidSize o = 0) ∧
      ∀ (content : Octets) (o : Oid),
        decodeOidContent content = .ok o →
          o.isEncodable = true ∧
            ∀ w : Writer, w.ec = none →
              w.objectIdentifier o =
                w.append (elementBytes Tag.objectIdentifier
                  content) := by
  refine ⟨?_, ?_, ?_⟩
  · intro o hGood
    refine ⟨oidContent o, ?_, ?_, ?_⟩
    · exact (objectIdentifier_emits o).writes hGood
    · rw [encodedOidSize, if_neg (not_not_intro hGood),
        encodedOidContentSize_eq]
      simp only [elementBytes, List.length_cons,
        List.length_append, lengthBytes_length]
      omega
    · exact (decodeOidContent_iff _ o).mpr
        (oidContent_form hGood)
  · intro o hBad
    constructor
    · intro w hEc
      simp [objectIdentifier, hEc, hBad, fail]
    · simp [encodedOidSize, hBad]
  · intro content o hDecode
    have hContent := (decodeOidContent_iff content o).mp hDecode
    have hGood := hContent.isEncodable
    refine ⟨hGood, ?_⟩
    rw [hContent.unique (oidContent_form hGood)]
    exact (objectIdentifier_emits o).writes hGood

/- The name 1.3.6.1. -/
theorem oid_content_bijective_internet :
    decodeOidContent [0x2B, 0x06, 0x01] =
        .ok ⟨[1, 3, 6, 1]⟩ ∧
      ({} : Writer).objectIdentifier ⟨[1, 3, 6, 1]⟩ =
        ({} : Writer).append
          (elementBytes Tag.objectIdentifier
            [0x2B, 0x06, 0x01]) :=
  ⟨rfl, (oid_content_bijective.2.2 _ _ rfl).2 {} rfl⟩

end Ber

end Snmpio

------------------------------------------------------------
-- Values and Varbinds
------------------------------------------------------------

namespace Snmpio

namespace Ber

variable {vbs : List Varbind}

/- Each type of value is written in its form. -/
theorem valueContentBytes_form
    {v : Value}
    (hGood : v.isEncodable = true) :
    ValueContent (valueContentBytes v) v := by
  have hWord :
      ∀ w : UInt32,
        UnsignedContent (unsignedBytes w.toUInt64)
          w.toNat := by
    intro w
    simpa using unsignedBytes_form w.toUInt64
  cases v with
  | null => rfl
  | integer v => exact integerContent_form v
  | octetString v => rfl
  | oid o => exact oidContent_form hGood
  | ipAddress v => rfl
  | counter32 v => exact hWord v
  | gauge32 v => exact hWord v
  | timeTicks v => exact hWord v
  | opaqueOctets v => rfl
  | counter64 v => exact unsignedBytes_form v
  | exception e => rfl

/- So is a Varbind that is not too long. -/
theorem varbindBytes_form
    {vb : Varbind}
    (hGood : vb.isEncodable = true)
    (hLength : (varbindBytes vb).length < 2 ^ 32) :
    VarbindForm (varbindBytes vb) vb := by
  rw [Varbind.isEncodable, Bool.and_eq_true] at hGood
  have hInner :=
    length_lt_elementBytes Tag.sequence
      (elementBytes Tag.objectIdentifier
        (oidContent vb.name) ++ valueBytes vb.val)
  have hOuter := hLength
  unfold varbindBytes at hOuter
  rw [List.length_append] at hInner
  have hName :=
    length_lt_elementBytes Tag.objectIdentifier
      (oidContent vb.name)
  have hVal :=
    length_lt_elementBytes (valueTag vb.val)
      (valueContentBytes vb.val)
  have hValLength :
      (valueBytes vb.val).length =
        (elementBytes (valueTag vb.val)
          (valueContentBytes vb.val)).length := rfl
  apply elementBytes_form
  · rw [List.length_append]
    omega
  · exact ⟨_, _, rfl,
      elementBytes_form (by omega)
        (oidContent_form hGood.1),
      elementBytes_form (by omega)
        (valueContentBytes_form hGood.2)⟩

theorem flatMap_varbindBytes_form
    (hGood : vbs.all Varbind.isEncodable = true)
    (hLength :
      (vbs.flatMap varbindBytes).length < 2 ^ 32) :
    Star VarbindForm (vbs.flatMap varbindBytes) vbs := by
  induction vbs with
  | nil => exact Star.nil
  | cons vb vbs ih =>
      rw [List.all_cons, Bool.and_eq_true] at hGood
      rw [List.flatMap_cons] at hLength ⊢
      rw [List.length_append] at hLength
      exact Star.cons
        (varbindBytes_form hGood.1 (by omega))
        (ih hGood.2 (by omega))

theorem varbindListBytes_form
    (hGood : vbs.all Varbind.isEncodable = true)
    (hLength : (varbindListBytes vbs).length < 2 ^ 32) :
    VarbindListForm (varbindListBytes vbs) vbs := by
  have hInner :=
    length_lt_elementBytes Tag.sequence
      (vbs.flatMap varbindBytes)
  have hOuter := hLength
  unfold varbindListBytes at hOuter
  exact elementBytes_form (by omega)
    (flatMap_varbindBytes_form hGood (by omega))

/- What can be read can be written. -/
theorem VarbindForm.isEncodable
    {d : Octets}
    {vb : Varbind}
    (hForm : VarbindForm d vb) :
    vb.isEncodable = true := by
  rcases hForm with
    ⟨_, _, _, _, _, _, _, hName, hVal⟩
  rcases hName with ⟨_, _, _, _, hOid⟩
  rcases hVal with ⟨_, _, _, _, hValue⟩
  rw [Varbind.isEncodable, Bool.and_eq_true]
  refine ⟨hOid.isEncodable, ?_⟩
  cases hCase : vb.val with
  | oid o =>
      simp only [hCase] at hValue
      exact OidContent.isEncodable hValue
  | _ => rfl

theorem VarbindListForm.isEncodable
    {d : Octets}
    (hForm : VarbindListForm d vbs) :
    vbs.all Varbind.isEncodable = true := by
  rcases hForm with ⟨_, content, _, _, hStar⟩
  clear * - hStar
  induction hStar with
  | nil => rfl
  | cons hHead _ ih =>
      rw [List.all_cons, hHead.isEncodable, ih,
        Bool.and_self]

end Ber

end Snmpio
