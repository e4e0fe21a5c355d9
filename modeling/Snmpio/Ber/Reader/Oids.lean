import Snmpio.Ber.Grammar
import Snmpio.Ber.Reader

/-
  The content of an OBJECT IDENTIFIER is decoded exactly
  when it is a run of minimal sub-identifiers naming at most
  128 arcs.

  Key theorems include:
    * `Ber.readSubid_sound`
    * `Ber.readSubid_complete`
    * `Ber.decodeSubids_sound`
    * `Ber.decodeSubids_complete`
    * `Ber.decodeOidContent_iff`
-/

------------------------------------------------------------
-- One Sub-Identifier
------------------------------------------------------------

namespace Snmpio

namespace Ber

open Octets

/- The lower seven bits of an octet. -/
theorem and_groupMask
    (b : UInt8) :
    b.toNat &&& 0x7F = groupBits b := by
  rw [groupBits, show (0x7F : Nat) = 2 ^ 7 - 1 from rfl,
    Nat.and_two_pow_sub_one_eq_mod]

/- The upper bit says that more follows. -/
theorem and_continuation_eq_zero_iff
    (b : UInt8) :
    b.toNat &&& 0x80 = 0 ↔ b.toNat < 128 := by
  have hHigh := highBit_eq_false_iff b
  rw [highBit, bne_eq_false_iff_eq] at hHigh
  exact hHigh

/- One turn of the loop, in base 128. -/
theorem shift_or_group
    (subid : Nat)
    (b : UInt8) :
    (subid <<< 7) ||| (b.toNat &&& 0x7F) =
      subid * 128 + groupBits b := by
  have hLt : groupBits b < 2 ^ 7 := by
    rw [groupBits]
    omega
  rw [and_groupMask, ← Nat.shiftLeft_add_eq_or_of_lt hLt,
    Nat.shiftLeft_eq]

/- What is read is a group of octets, up to 32 bits. -/
theorem readSubid_sound
    {subid n : Nat}
    {octets rest : Octets}
    (hRead : readSubid subid octets = .ok (n, rest)) :
    ∃ init last,
      octets = init ++ last :: rest ∧
        (∀ b ∈ init, 128 ≤ b.toNat) ∧ last.toNat < 128 ∧
        n = subid * 128 ^ (init.length + 1) +
          Positional.value 128
            ((init ++ [last]).map groupBits) ∧
        n < 2 ^ 32 := by
  induction octets generalizing subid with
  | nil => simp [readSubid] at hRead
  | cons b octets ih =>
      rw [readSubid, shift_or_group] at hRead
      split at hRead
      · simp at hRead
      · next hFits =>
        split at hRead
        · next hLast =>
          simp only [Except.ok.injEq, Prod.mk.injEq]
            at hRead
          rcases hRead with ⟨rfl, rfl⟩
          refine ⟨[], b, rfl, by simp,
            (and_continuation_eq_zero_iff b).mp hLast,
            by simp [Positional.value_singleton],
            by omega⟩
        · next hMore =>
          rcases ih hRead with
            ⟨init, last, rfl, hInit, hLast, hn, hLt⟩
          refine ⟨b :: init, last, rfl, ?_, hLast, ?_, hLt⟩
          · intro c hc
            rcases List.mem_cons.mp hc with rfl | hc
            · rw [and_continuation_eq_zero_iff] at hMore
              omega
            · exact hInit c hc
          · rw [hn]
            simp only [List.cons_append, List.map_cons,
              Positional.value_cons, List.length_map,
              List.length_append, List.length_cons,
              List.length_nil]
            ring

/- Leading zeros are accepted, as the code does. -/
theorem readSubid_complete
    {subid : Nat}
    {init rest : Octets}
    {last : UInt8}
    (hInit : ∀ b ∈ init, 128 ≤ b.toNat)
    (hLast : last.toNat < 128)
    (hLt :
      subid * 128 ^ (init.length + 1) +
        Positional.value 128
          ((init ++ [last]).map groupBits) < 2 ^ 32) :
    readSubid subid (init ++ last :: rest) =
      .ok (subid * 128 ^ (init.length + 1) +
        Positional.value 128
          ((init ++ [last]).map groupBits), rest) := by
  induction init generalizing subid with
  | nil =>
      simp only [List.nil_append, List.length_nil,
        List.map_cons, List.map_nil,
        Positional.value_singleton] at hLt ⊢
      rw [readSubid, shift_or_group, if_neg (by omega),
        if_pos ((and_continuation_eq_zero_iff last).mpr
          hLast)]
      simp
  | cons b init ih =>
      -- The bound on the whole covers every prefix of it.
      have hSplit :
          subid * 128 ^ ((b :: init).length + 1) +
            Positional.value 128
              ((b :: init ++ [last]).map groupBits) =
          (subid * 128 + groupBits b) *
              128 ^ (init.length + 1) +
            Positional.value 128
              ((init ++ [last]).map groupBits) := by
        simp only [List.cons_append, List.map_cons,
          Positional.value_cons, List.length_map,
          List.length_append, List.length_cons,
          List.length_nil]
        ring
      rw [hSplit] at hLt ⊢
      have hPow : 1 ≤ 128 ^ (init.length + 1) :=
        Nat.one_le_pow _ _ (by omega)
      have hPrefix : subid * 128 + groupBits b < 2 ^ 32 := by
        nlinarith
      have hMore : ¬ b.toNat &&& 0x80 = 0 := by
        rw [and_continuation_eq_zero_iff]
        have := hInit b List.mem_cons_self
        omega
      rw [List.cons_append, readSubid, shift_or_group,
        if_neg (by omega), if_neg hMore]
      apply ih
      · intro c hc
        exact hInit c (List.mem_cons_of_mem b hc)
      · exact hLt

end Ber

end Snmpio

------------------------------------------------------------
-- Runs of Sub-Identifiers
------------------------------------------------------------

namespace Snmpio

namespace Ber

variable {octets : Octets} {n : Nat}

/- The sub-identifiers the outer loop collects. -/
def collected
    (firstSubid : Bool) :
    List Nat → List UInt32
| [] => []
| n :: ns =>
    (if firstSubid then unpackFirst n
      else [UInt32.ofNat n]) ++ ns.map UInt32.ofNat

/- After the first, each is a sub-identifier itself. -/
theorem collected_false
    (ns : List Nat) :
    collected false ns = ns.map UInt32.ofNat := by
  cases ns <;> simp [collected]

/- A leading octet that pads is exactly `0x80`. -/
theorem isPadOctet_iff
    (b : UInt8) :
    (b.toNat &&& 0x7F = 0 ∧ b.toNat &&& 0x80 ≠ 0) ↔
      b = 0x80 := by
  rw [and_groupMask, Ne, and_continuation_eq_zero_iff,
    groupBits]
  have hLt := b.toNat_lt
  constructor
  · intro hPad
    apply UInt8.toNat_inj.mp
    rw [show (0x80 : UInt8).toNat = 128 from rfl]
    omega
  · rintro rfl
    decide

/- A sub-identifier starts with no padding. -/
theorem Subid.head_ne_pad
    {b : UInt8}
    {rest : Octets}
    (hSubid : Subid octets n)
    (hOctets : octets = b :: rest) :
    b ≠ 0x80 := by
  rcases hSubid with
    ⟨init, last, hEq, _, hLast, hHead, _, _⟩
  subst hOctets
  cases init with
  | nil =>
      simp only [List.nil_append, List.cons.injEq] at hEq
      rintro rfl
      rw [← hEq.1] at hLast
      exact absurd hLast (by decide)
  | cons c init =>
      simp only [List.cons_append, List.cons.injEq] at hEq
      rintro rfl
      simp [← hEq.1] at hHead

/- The loop makes progress. -/
theorem Subid.ne_nil
    (hSubid : Subid octets n) :
    octets ≠ [] := by
  rcases hSubid with ⟨init, last, rfl, _⟩
  simp

/- One round of the outer loop takes one sub-identifier. -/
theorem readSubid_zero_iff
    {rest : Octets}
    {b : UInt8}
    {tail : Octets}
    (hOctets : octets = b :: tail)
    (hHead : b ≠ 0x80) :
    readSubid 0 octets = .ok (n, rest) ↔
      ∃ d, octets = d ++ rest ∧ Subid d n := by
  constructor
  · intro hRead
    rcases readSubid_sound hRead with
      ⟨init, last, hEq, hInit, hLast, hn, hLt⟩
    refine ⟨init ++ [last], by simpa using hEq,
      init, last, rfl, hInit, hLast, ?_, by simpa using hn,
      hLt⟩
    cases init with
    | nil => simp
    | cons c init =>
        rw [hOctets] at hEq
        simp only [List.cons_append, List.cons.injEq] at hEq
        simpa [← hEq.1] using hHead
  · rintro ⟨d, rfl, init, last, rfl, hInit, hLast, _, hn,
      hLt⟩
    rw [hn] at hLt
    have hRead :
        readSubid 0 (init ++ last :: rest) = _ :=
      readSubid_complete hInit hLast (by simpa using hLt)
    rw [hn]
    simpa using hRead

/- The first number holds two sub-identifiers. -/
theorem collected_cons
    (firstSubid : Bool)
    (n : Nat)
    (ns : List Nat) :
    collected firstSubid (n :: ns) =
      (if firstSubid then unpackFirst n
        else [UInt32.ofNat n]) ++ collected false ns := by
  rw [collected_false, collected]

/- The limit of 128 is checked after each of them. -/
theorem decodeSubids_sound
    {fuel : Nat}
    {firstSubid : Bool}
    {result out : List UInt32}
    {content : Octets}
    (hFuel : content.length ≤ fuel)
    (hDecode :
      decodeSubids fuel firstSubid result content =
        .ok out) :
    ∃ ns, Star Subid content ns ∧
      out = result ++ collected firstSubid ns ∧
      (ns ≠ [] → out.length ≤ 128) := by
  induction fuel generalizing firstSubid result content with
  | zero =>
      have hNil : content = [] :=
        List.eq_nil_of_length_eq_zero (by omega)
      subst hNil
      simp only [decodeSubids, Except.ok.injEq] at hDecode
      exact ⟨[], Star.nil, by simp [collected, hDecode],
        by simp⟩
  | succ fuel ih =>
      cases content with
      | nil =>
          simp only [decodeSubids, Except.ok.injEq]
            at hDecode
          exact ⟨[], Star.nil, by simp [collected, hDecode],
            by simp⟩
      | cons b tail =>
          rw [decodeSubids] at hDecode
          split at hDecode
          · simp at hDecode
          · next hPad =>
            rw [isPadOctet_iff] at hPad
            split at hDecode
            · simp at hDecode
            · next n rest hRead =>
              rcases (readSubid_zero_iff rfl hPad).mp hRead
                with ⟨d, hEq, hSubid⟩
              simp only at hDecode
              by_cases hLong :
                  (result ++
                    (if firstSubid then unpackFirst n
                      else [UInt32.ofNat n])).length >
                    Oid.maxSubids
              · rw [if_pos hLong] at hDecode
                simp at hDecode
              · rw [if_neg hLong] at hDecode
                have hLength : rest.length ≤ fuel := by
                  have hPos :=
                    List.length_pos_of_ne_nil hSubid.ne_nil
                  have hSum := congrArg List.length hEq
                  rw [List.length_append] at hSum
                  omega
                rcases ih hLength hDecode with
                  ⟨ns, hStar, hOut, hBound⟩
                refine ⟨n :: ns, ?_, ?_, ?_⟩
                · rw [hEq]
                  exact Star.cons hSubid hStar
                · rw [hOut, collected_cons,
                    List.append_assoc]
                · intro _
                  cases ns with
                  | nil =>
                      rw [Oid.maxSubids] at hLong
                      simp only [hOut, collected,
                        List.append_nil]
                      omega
                  | cons m ns => exact hBound (by simp)

/- Within the limit every sequence is decoded. -/
theorem decodeSubids_complete
    {fuel : Nat}
    {firstSubid : Bool}
    {result : List UInt32}
    {content : Octets}
    {ns : List Nat}
    (hStar : Star Subid content ns)
    (hFuel : content.length ≤ fuel)
    (hLength :
      (result ++ collected firstSubid ns).length ≤ 128) :
    decodeSubids fuel firstSubid result content =
      .ok (result ++ collected firstSubid ns) := by
  induction hStar generalizing fuel firstSubid result with
  | nil => cases fuel <;> simp [decodeSubids, collected]
  | @cons d rest n ns hSubid hTail ih =>
      obtain ⟨b, tail, rfl⟩ :=
        List.exists_cons_of_ne_nil hSubid.ne_nil
      have hHead := hSubid.head_ne_pad rfl
      have hRead :
          readSubid 0 ((b :: tail) ++ rest) =
            .ok (n, rest) :=
        (readSubid_zero_iff rfl hHead).mpr
          ⟨b :: tail, rfl, hSubid⟩
      rw [collected_cons, ← List.append_assoc]
        at hLength ⊢
      cases fuel with
      | zero => simp at hFuel
      | succ fuel =>
          rw [List.cons_append] at hRead
          rw [List.cons_append, decodeSubids,
            if_neg (by rw [isPadOctet_iff]; exact hHead),
            hRead]
          simp only
          rw [if_neg]
          · apply ih
            · simp only [List.length_append,
                List.length_cons] at hFuel
              omega
            · exact hLength
          · rw [List.length_append] at hLength
            rw [Oid.maxSubids]
            omega

end Ber

end Snmpio

------------------------------------------------------------
-- Whole Contents
------------------------------------------------------------

namespace Snmpio

namespace Ber

/- No sub-identifier is above 32 bits. -/
theorem Star.forall_lt
    {content : Octets}
    {ns : List Nat}
    (hStar : Star Subid content ns) :
    ∀ n ∈ ns, n < 2 ^ 32 := by
  induction hStar with
  | nil => simp
  | cons hSubid _ ih =>
      intro n hn
      rcases List.mem_cons.mp hn with rfl | hn
      · rcases hSubid with ⟨_, _, _, _, _, _, _, hLt⟩
        exact hLt
      · exact ih n hn

/- Unpacking gives the arcs of the sub-identifiers. -/
theorem collected_map_toNat
    {ns : List Nat}
    (hLt : ∀ n ∈ ns, n < 2 ^ 32) :
    (collected true ns).map UInt32.toNat = arcs ns := by
  have hMap :
      ∀ ms : List Nat, (∀ n ∈ ms, n < 2 ^ 32) →
        (ms.map UInt32.ofNat).map UInt32.toNat = ms := by
    intro ms hms
    rw [List.map_map]
    refine (List.map_congr_left ?_).trans (List.map_id ms)
    intro n hn
    exact UInt32.toNat_ofNat_of_lt' (hms n hn)
  cases ns with
  | nil => rfl
  | cons n ns =>
      have hn : n < 2 ^ 32 := hLt n List.mem_cons_self
      rw [collected, List.map_append,
        hMap ns (fun m hm =>
          hLt m (List.mem_cons_of_mem n hm)), arcs]
      simp only [if_true, unpackFirst]
      split
      · next hFirst =>
        have hArc : min (n / 40) 2 = 0 := by omega
        rw [hArc]
        simp [UInt32.toNat_ofNat_of_lt' hn]
      · split
        · next hSecond =>
          have hArc : min (n / 40) 2 = 1 := by omega
          rw [hArc]
          simp [UInt32.toNat_ofNat_of_lt'
            (show n - 40 < 2 ^ 32 by omega)]
        · have hArc : min (n / 40) 2 = 2 := by omega
          rw [hArc]
          simp [UInt32.toNat_ofNat_of_lt'
            (show n - 80 < 2 ^ 32 by omega)]

/- The decoder accepts exactly the OID contents. -/
theorem decodeOidContent_iff
    (content : Octets)
    (o : Oid) :
    decodeOidContent content = .ok o ↔
      OidContent content o := by
  unfold decodeOidContent
  constructor
  · intro hDecode
    split at hDecode
    · simp at hDecode
    · next hNonempty =>
      split at hDecode
      · simp at hDecode
      · next subids hSubids =>
        simp only [Except.ok.injEq] at hDecode
        subst hDecode
        rcases decodeSubids_sound le_rfl hSubids with
          ⟨ns, hStar, hOut, hBound⟩
        have hNs : ns ≠ [] := by
          rintro rfl
          cases hStar
          simp at hNonempty
        refine ⟨ns, hNs, hStar, ?_, hBound hNs⟩
        simp only [hOut, List.nil_append]
        exact collected_map_toNat hStar.forall_lt
  · rintro ⟨ns, hNs, hStar, hArcs, hBound⟩
    have hSubids : o.subids = collected true ns := by
      apply List.map_injective_iff.mpr
        (fun a b => UInt32.toNat_inj.mp)
      rw [hArcs, collected_map_toNat hStar.forall_lt]
    have hContent : content ≠ [] := by
      rintro rfl
      cases hEq : ns with
      | nil => exact hNs hEq
      | cons n ns' =>
          rw [hEq] at hStar
          generalize hd : ([] : Octets) = d at hStar
          cases hStar with
          | cons hSubid hTail =>
              have := hSubid.ne_nil
              simp_all
    have hDecode :
        decodeSubids content.length true [] content = _ :=
      decodeSubids_complete hStar le_rfl
        (by simpa [← hSubids] using hBound)
    rw [if_neg (by simpa using hContent), hDecode]
    simp [← hSubids]

end Ber

end Snmpio
