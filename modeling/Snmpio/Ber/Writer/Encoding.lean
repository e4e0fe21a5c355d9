import Snmpio.Ber.Writer
import Snmpio.Ber.Grammar

/-
  What the writer emits, as octet strings built bottom up.

  A scope that patches its length in place emits the same
  octets as the element written after its content is known.
  `Emits good bytes op` describes a write: it appends
  `bytes`, or refuses when `good` fails, and an error
  recorded before it stays.

  Key definitions include:
    * `Ber.elementBytes`
    * `Ber.Writer.Emits`
    * `Ber.valueBytes`
    * `Ber.varbindBytes`
    * `Ber.varbindListBytes`

  Key theorems include:
    * `Ber.Writer.close_append`
    * `Ber.Writer.constructed_emits`
    * `Ber.Writer.write_emits`
    * `Ber.Writer.varbindList_emits`
-/

------------------------------------------------------------
-- Lengths
------------------------------------------------------------

namespace Snmpio

namespace Ber

open Octets

theorem or_continuation
    {k : Nat}
    (hk : k < 128) :
    0x80 ||| k = 128 + k := by
  have hOr := Nat.two_pow_add_eq_or_of_lt (i := 7) hk 1
  simpa using hOr.symm

/- The loop counts the octets the number needs. -/
theorem significantOctets_le_iff
    {fuel v : Nat}
    (hFuel : v ≤ fuel)
    (k : Nat) :
    significantOctets fuel v ≤ k ↔ v < 256 ^ k := by
  induction fuel generalizing v k with
  | zero =>
      have hv : v = 0 := by omega
      subst hv
      simp [significantOctets]
  | succ fuel ih =>
      rw [significantOctets]
      by_cases hv : v = 0
      · subst hv
        simp
      · have hShift : v >>> 8 = v / 256 :=
          Nat.shiftRight_eq_div_pow v 8
        rw [if_neg hv, hShift]
        cases k with
        | zero =>
            simp only [Nat.le_zero_eq, Nat.add_eq_zero_iff,
              one_ne_zero, and_false, pow_zero, false_iff]
            omega
        | succ k =>
            rw [Nat.add_le_add_iff_right,
              ih (by omega), pow_succ,
              Nat.div_lt_iff_lt_mul (by omega)]

theorem significantOctets_pos
    {n : Nat}
    (hn : 0 < n) :
    0 < significantOctets n n := by
  by_contra hZero
  have hLt :=
    (significantOctets_le_iff (le_refl n) 0).mp (by omega)
  simp at hLt
  omega

/- `putLength` writes a definite length. -/
theorem lengthBytes_form
    {n : Nat}
    (hn : n < 2 ^ 32) :
    LengthForm n (lengthBytes n) := by
  unfold lengthBytes
  by_cases hShort : n < 0x80
  · rw [if_pos hShort]
    have hByte : (UInt8.ofNat n).toNat = n :=
      toNat_ofNat_octet (by omega)
    exact Or.inl ⟨UInt8.ofNat n, by omega, rfl, hByte.symm⟩
  · rw [if_neg hShort]
    have hPos : 0 < significantOctets n n :=
      significantOctets_pos (by omega)
    have hFour : significantOctets n n ≤ 4 := by
      rw [significantOctets_le_iff le_rfl]
      omega
    have hValue : n < 256 ^ significantOctets n n :=
      (significantOctets_le_iff le_rfl _).mp le_rfl
    have hCount :
        lengthOctets n - 1 = significantOctets n n := by
      rw [lengthOctets, if_neg hShort]
      omega
    right
    refine ⟨_, _, rfl, ?_, ?_, ?_, ?_⟩
    · rw [hCount, or_continuation (by omega),
        toNat_ofNat_octet (by omega),
        bigEndian_length]
    · rw [hCount, bigEndian_length]
      omega
    · rw [hCount, bigEndian_length]
      exact hFour
    · rw [hCount, unsignedValue_bigEndian,
        Nat.mod_eq_of_lt hValue]

end Ber

end Snmpio

------------------------------------------------------------
-- Length Patching
------------------------------------------------------------

namespace Snmpio

namespace Ber

open Octets

variable {content : Octets} {n : Nat}

/- An element written once its content is known. -/
def elementBytes
    (t : TagType)
    (content : Octets) : Octets :=
  t :: (lengthBytes content.length ++ content)

theorem length_lt_elementBytes
    (t : TagType)
    (content : Octets) :
    content.length < (elementBytes t content).length := by
  simp only [elementBytes, List.length_cons,
    List.length_append]
  omega

/- A bound on an element bounds its content. -/
theorem content_lt_of_elementBytes_lt
    {t : TagType}
    (hLength : (elementBytes t content).length < n) :
    content.length < n := by
  have hLt := length_lt_elementBytes t content
  omega

/- What is written is an element. -/
theorem elementBytes_form
    {α : Type}
    {G : Octets → α → Prop}
    {t : TagType}
    {x : α}
    (hLength : content.length < 2 ^ 32)
    (hG : G content x) :
    Element t G (elementBytes t content) x :=
  ⟨lengthBytes content.length, content, rfl,
    lengthBytes_form hLength, hG⟩

/- A definite length takes at most five octets. -/
theorem LengthForm.length_le
    {ls : Octets}
    (hForm : LengthForm n ls) :
    ls.length ≤ 5 := by
  rcases hForm with ⟨b, _, rfl, _⟩ | ⟨b, os, rfl, _, _, hFour, _⟩
  · simp
  · rw [List.length_cons]
    omega

/- Four octets count to less than `2 ^ 32`. -/
theorem LengthForm.lt
    {ls : Octets}
    (hForm : LengthForm n ls) :
    n < 2 ^ 32 := by
  rcases hForm with ⟨b, hb, _, rfl⟩ |
    ⟨b, os, _, _, _, hFour, rfl⟩
  · omega
  · calc
      unsignedValue os < 256 ^ os.length :=
        unsignedValue_lt os
      _ ≤ 256 ^ 4 := Nat.pow_le_pow_right (by omega) hFour
      _ = 2 ^ 32 := by norm_num

/- A header has six octets at most. -/
theorem elementBytes_length_le
    (t : TagType)
    (hLength : content.length < 2 ^ 32) :
    (elementBytes t content).length ≤ content.length + 6 := by
  have hFive := (lengthBytes_form hLength).length_le
  simp only [elementBytes, List.length_cons,
    List.length_append]
  omega

/- The octets of a number, by index. -/
theorem bigEndian_eq_map
    (k n : Nat) :
    bigEndian k n =
      (List.range k).map
        (fun i => octetAt n (k - 1 - i)) := by
  induction k with
  | zero => rfl
  | succ k ih =>
      rw [bigEndian, ih, List.range_succ_eq_map]
      simp only [List.map_cons, List.map_map,
        Nat.add_sub_cancel, Nat.sub_zero]
      congr 1
      apply List.map_congr_left
      intro i hi
      simp only [Function.comp_apply]
      congr 1
      omega

/- Setting a run of positions one by one replaces the run. -/
theorem foldl_set_range
    {α : Type}
    (f : Nat → α)
    (before middle after : List α) :
    (List.range middle.length).foldl
        (fun l i => l.set (before.length + i) (f i))
        (before ++ middle ++ after) =
      before ++ (List.range middle.length).map f ++
        after := by
  -- From the right: the last position comes last.
  induction middle using List.reverseRecOn
    generalizing after with
  | nil => simp
  | append_singleton middle x ih =>
      have hSplit :
          before ++ (middle ++ [x]) ++ after =
            before ++ middle ++ (x :: after) := by
        simp
      rw [List.length_append, List.length_singleton,
        List.range_succ, List.foldl_append, hSplit, ih]
      simp

/- Closing a scope leaves the element written directly. -/
theorem Writer.close_append
    (before content : Octets)
    (t : TagType)
    (ec : Option Errc) :
    (⟨before.length + 1⟩ : Writer.Scope).close
        { buf := before ++ [t] ++ [0] ++ content
          ec := ec } =
      { buf := before ++ elementBytes t content
        ec := ec } := by
  have hLen :
      (before ++ [t] ++ [0] ++ content).length -
          (before.length + 1 + 1) =
        content.length := by
    simp only [List.length_append, List.length_singleton]
    omega
  rw [Scope.close]
  simp only [hLen]
  by_cases hShort : content.length < 0x80
  · have hOne : lengthOctets content.length = 1 := by
      rw [lengthOctets, if_pos hShort]
    rw [hOne, if_neg (by omega)]
    simp [elementBytes, lengthBytes, hShort]
  · have hNeeded :
        lengthOctets content.length =
          1 + significantOctets content.length
            content.length := by
      rw [lengthOctets, if_neg hShort]
    have hPos :
        0 < significantOctets content.length
          content.length :=
      significantOctets_pos (by omega)
    rw [if_pos (by omega)]
    generalize hk :
      significantOctets content.length content.length = k
      at hNeeded hPos
    have hCount :
        lengthOctets content.length - 1 = k := by omega
    have hTake :
        (before ++ [t] ++ [0] ++ content).take
            (before.length + 1 + 1) =
          before ++ [t] ++ [0] := by
      rw [List.take_left' (by simp)]
    have hDrop :
        (before ++ [t] ++ [0] ++ content).drop
            (before.length + 1 + 1) = content := by
      rw [List.drop_left' (by simp)]
    have hSet :
        (before ++ [t] ++ [0] ++ List.replicate k 0 ++
            content).set (before.length + 1)
            (UInt8.ofNat (0x80 ||| k)) =
          (before ++ [t] ++ [UInt8.ofNat (0x80 ||| k)]) ++
            List.replicate k 0 ++ content := by
      simp
    have hFold :=
      foldl_set_range
        (fun i => octetAt content.length (k - 1 - i))
        (before ++ [t] ++ [UInt8.ofNat (0x80 ||| k)])
        (List.replicate k 0) content
    have hTwo : lengthOctets content.length - 2 = k - 1 := by
      omega
    rw [hCount, hTwo, hTake, hDrop, hSet]
    simp only [List.length_replicate, List.length_append,
      List.length_singleton] at hFold
    rw [hFold, ← bigEndian_eq_map]
    simp [elementBytes, lengthBytes, hShort, hCount]

end Ber

end Snmpio

------------------------------------------------------------
-- Writes
------------------------------------------------------------

namespace Snmpio

namespace Ber

namespace Writer

variable {bytes : Octets}

/-
  `op` appends `bytes` when `good` holds and refuses
  otherwise; an error recorded before it is kept.
-/
structure Emits
    (good : Bool)
    (bytes : Octets)
    (op : Writer → Writer) : Prop where
  writes :
    good = true → ∀ w : Writer, w.ec = none →
      op w = w.append bytes
  refuses :
    good = false → ∀ w : Writer, w.ec = none →
      (op w).ec = some .oidNotEncodable
  keeps :
    ∀ w : Writer, w.ec.isSome → (op w).ec = w.ec

@[simp] theorem append_ec
    (w : Writer)
    (bytes : Octets) :
    (w.append bytes).ec = w.ec := rfl

theorem append_append
    (w : Writer)
    (a b : Octets) :
    (w.append a).append b = w.append (a ++ b) := by
  simp [append]

/- A write that nothing makes it refuse. -/
theorem Emits.always
    {op : Writer → Writer}
    (hWrites :
      ∀ w : Writer, w.ec = none → op w = w.append bytes)
    (hKeeps :
      ∀ w : Writer, w.ec.isSome → (op w).ec = w.ec) :
    Emits true bytes op where
  writes := fun _ => hWrites
  refuses := by
    intro hGood
    simp at hGood
  keeps := hKeeps

/- Writes in a row append in a row. -/
theorem Emits.comp
    {good₁ good₂ : Bool}
    {bytes₁ bytes₂ : Octets}
    {op₁ op₂ : Writer → Writer}
    (hFirst : Emits good₁ bytes₁ op₁)
    (hSecond : Emits good₂ bytes₂ op₂) :
    Emits (good₁ && good₂) (bytes₁ ++ bytes₂)
      (fun w => op₂ (op₁ w)) where
  writes := by
    intro hGood w hEc
    rw [Bool.and_eq_true] at hGood
    rw [hFirst.writes hGood.1 w hEc,
      hSecond.writes hGood.2 (w.append bytes₁) hEc,
      append_append]
  refuses := by
    intro hBad w hEc
    cases hGood₁ : good₁ with
    | true =>
        rw [hGood₁, Bool.true_and] at hBad
        rw [hFirst.writes hGood₁ w hEc]
        exact hSecond.refuses hBad _ hEc
    | false =>
        have hRefused := hFirst.refuses hGood₁ w hEc
        rw [hSecond.keeps _ (by rw [hRefused]; rfl)]
        exact hRefused
  keeps := by
    intro w hEc
    have hKept := hFirst.keeps w hEc
    rw [hSecond.keeps _ (by rw [hKept]; exact hEc), hKept]

/- What a write leaves in a fresh buffer. -/
theorem Emits.fresh
    {op : Writer → Writer}
    (hOp : Emits true bytes op) :
    op {} = { buf := bytes, ec := none } := by
  rw [hOp.writes rfl {} rfl]
  simp [append]

theorem Emits.nil :
    Emits true [] (fun w => w) :=
  Emits.always (by simp [append]) (by simp)

/- A write for each member of a list. -/
theorem Emits.foldl
    {α : Type}
    {good : α → Bool}
    {bytes : α → Octets}
    {op : Writer → α → Writer}
    (hOp : ∀ x, Emits (good x) (bytes x) (fun w => op w x))
    (xs : List α) :
    Emits (xs.all good) (xs.flatMap bytes)
      (fun w => xs.foldl op w) := by
  induction xs with
  | nil => exact Emits.nil
  | cons x xs ih =>
      simpa [List.flatMap_cons] using (hOp x).comp ih

theorem close_ec
    (s : Scope)
    (w : Writer) :
    (s.close w).ec = w.ec := by
  unfold Scope.close
  simp only
  split <;> rfl

theorem beginConstructed_ec
    {w : Writer}
    {t : TagType}
    (hTag : isConstructed t = true) :
    (w.beginConstructed t).2.ec = w.ec := by
  simp [beginConstructed, hTag, putTag]

/- A scope emits one element around what is written in it. -/
theorem constructed_emits
    {good : Bool}
    {op : Writer → Writer}
    {t : TagType}
    (hTag : isConstructed t = true)
    (hOp : Emits good bytes op) :
    Emits good (elementBytes t bytes)
      (fun w =>
        (w.beginConstructed t).1.close
          (op (w.beginConstructed t).2)) where
  writes := by
    intro hGood w hEc
    have hBegin :
        w.beginConstructed t =
          (⟨w.buf.length + 1⟩,
            { buf := w.buf ++ [t] ++ [0]
              ec := w.ec }) := by
      simp [beginConstructed, hTag, putTag, append]
    rw [hBegin]
    simp only
    rw [hOp.writes hGood
      { buf := w.buf ++ [t] ++ [0], ec := w.ec } hEc]
    exact close_append w.buf bytes t w.ec
  refuses := by
    intro hBad w hEc
    rw [close_ec]
    exact hOp.refuses hBad _
      (by rw [beginConstructed_ec hTag]; exact hEc)
  keeps := by
    intro w hEc
    have hBegin :
        (w.beginConstructed t).2.ec = w.ec :=
      beginConstructed_ec hTag
    rw [close_ec, hOp.keeps _ (by rw [hBegin]; exact hEc),
      hBegin]

end Writer

end Ber

end Snmpio

------------------------------------------------------------
-- Values and Varbinds
------------------------------------------------------------

namespace Snmpio

namespace Ber

open Octets

/- The minimal two's-complement content. -/
def integerContent
    (v : Int32) : Octets :=
  stripPadding (decide (v < 0))
    (bigEndian 4 v.toUInt32.toNat)

/- The minimal unsigned content, with room for the sign. -/
def unsignedBytes
    (v : UInt64) : Octets :=
  stripPadding false (0 :: bigEndian 8 v.toNat)

/- The sub-identifiers, the first two in one. -/
def oidContent
    (o : Oid) : Octets :=
  (packedSubids o).flatMap emit

/- The content the writer chooses for a Value. -/
def valueContentBytes :
    Value → Octets
| .null => []
| .integer v => integerContent v
| .octetString v => v
| .oid o => oidContent o
| .ipAddress v => v.toList
| .counter32 v => unsignedBytes v.toUInt64
| .gauge32 v => unsignedBytes v.toUInt64
| .timeTicks v => unsignedBytes v.toUInt64
| .opaqueOctets v => v
| .counter64 v => unsignedBytes v
| .exception _ => []

def valueBytes
    (v : Value) : Octets :=
  elementBytes (valueTag v) (valueContentBytes v)

def varbindBytes
    (vb : Varbind) : Octets :=
  elementBytes Tag.sequence
    (elementBytes Tag.objectIdentifier (oidContent vb.name) ++
      valueBytes vb.val)

def varbindListBytes
    (vbs : List Varbind) : Octets :=
  elementBytes Tag.sequence (vbs.flatMap varbindBytes)

theorem emitGroups_length
    (k v : Nat) :
    (emitGroups k v).length = k := by
  induction k with
  | zero => rfl
  | succ k ih => simp [emitGroups, ih]

/- The announced size is the size emitted. -/
theorem encodedOidContentSize_eq
    (o : Oid) :
    encodedOidContentSize o = (oidContent o).length := by
  unfold encodedOidContentSize oidContent
  rw [List.length_flatMap]
  congr 1
  apply List.map_congr_left
  intro v _
  rw [emit, emitGroups_length]

namespace Writer

theorem tlv_writes
    {w : Writer}
    {t : TagType}
    {content : Octets}
    (_hEc : w.ec = none) :
    ((w.putTag t).putLength content.length).append content =
      w.append (elementBytes t content) := by
  simp [putTag, putLength, append, elementBytes]

/- A primitive write appends its element or does nothing. -/
theorem primitive_emits
    {t : TagType}
    {content : Octets}
    {op : Writer → Writer}
    (hOp :
      ∀ w : Writer,
        op w =
          if w.ec.isSome then w
          else ((w.putTag t).putLength
            content.length).append content) :
    Emits true (elementBytes t content) op := by
  apply Emits.always
  · intro w hEc
    rw [hOp, if_neg (by simp [hEc]), tlv_writes hEc]
  · intro w hEc
    rw [hOp, if_pos hEc]

theorem integer_emits
    (v : Int32) :
    Emits true (elementBytes Tag.integer (integerContent v))
      (fun w => w.integer v) :=
  primitive_emits (fun _ => rfl)

theorem octetString_emits
    (v : Octets)
    (t : TagType) :
    Emits true (elementBytes t v)
      (fun w => w.octetString v t) :=
  primitive_emits (fun _ => rfl)

theorem tlv_emits
    (t : TagType)
    (content : Octets) :
    Emits true (elementBytes t content)
      (fun w => w.tlv t content) :=
  primitive_emits (fun _ => rfl)

theorem unsigned64_emits
    (v : UInt64)
    (t : TagType) :
    Emits true (elementBytes t (unsignedBytes v))
      (fun w => w.unsigned64 v t) :=
  primitive_emits (fun _ => rfl)

theorem nullValue_emits :
    Emits true (elementBytes Tag.null [])
      (fun w => w.nullValue) :=
  primitive_emits (fun w => by simp [nullValue, append])

/- A name that cannot be written is an error. -/
theorem objectIdentifier_emits
    (o : Oid) :
    Emits o.isEncodable
      (elementBytes Tag.objectIdentifier (oidContent o))
      (fun w => w.objectIdentifier o) where
  writes := by
    intro hGood w hEc
    simp only [objectIdentifier]
    rw [if_neg (by simp [hEc]), if_neg (by simp [hGood]),
      encodedOidContentSize_eq]
    exact tlv_writes hEc
  refuses := by
    intro hBad w hEc
    simp [objectIdentifier, hEc, hBad, fail]
  keeps := by
    intro w hEc
    simp [objectIdentifier, hEc]

/- The guard of `write` repeats the one of each primitive. -/
theorem write_eq_of_ok
    {v : Value}
    {good : Bool}
    {bytes : Octets}
    {op : Writer → Writer}
    (hOp : Emits good bytes op)
    (hWrite :
      ∀ w : Writer, w.ec = none → w.write v = op w) :
    Emits good bytes (fun w => w.write v) where
  writes := by
    intro hGood w hEc
    rw [hWrite w hEc, hOp.writes hGood w hEc]
  refuses := by
    intro hBad w hEc
    rw [hWrite w hEc, hOp.refuses hBad w hEc]
  keeps := by
    intro w hEc
    simp [write, hEc]

/- A value, by its type. -/
theorem write_emits
    (v : Value) :
    Emits v.isEncodable (valueBytes v)
      (fun w => w.write v) := by
  have hOk :
      ∀ w : Writer, w.ec = none →
        (w.ec.isSome = true) = False := by
    intro w hEc
    simp [hEc]
  cases v with
  | null =>
      apply write_eq_of_ok nullValue_emits
      intro w hEc
      simp only [write, hOk w hEc, if_false]
  | integer v =>
      apply write_eq_of_ok (integer_emits v)
      intro w hEc
      simp only [write, hOk w hEc, if_false]
  | octetString v =>
      apply write_eq_of_ok
        (octetString_emits v Tag.octetString)
      intro w hEc
      simp only [write, hOk w hEc, if_false]
  | oid o =>
      apply write_eq_of_ok (objectIdentifier_emits o)
      intro w hEc
      simp only [write, hOk w hEc, if_false]
  | ipAddress v =>
      apply write_eq_of_ok
        (octetString_emits v.toList Tag.ipAddress)
      intro w hEc
      simp only [write, hOk w hEc, if_false]
  | counter32 v =>
      apply write_eq_of_ok
        (unsigned64_emits v.toUInt64 Tag.counter32)
      intro w hEc
      simp only [write, hOk w hEc, if_false, unsigned32]
  | gauge32 v =>
      apply write_eq_of_ok
        (unsigned64_emits v.toUInt64 Tag.gauge32)
      intro w hEc
      simp only [write, hOk w hEc, if_false, unsigned32]
  | timeTicks v =>
      apply write_eq_of_ok
        (unsigned64_emits v.toUInt64 Tag.timeticks)
      intro w hEc
      simp only [write, hOk w hEc, if_false, unsigned32]
  | opaqueOctets v =>
      apply write_eq_of_ok
        (octetString_emits v Tag.opaqueOctets)
      intro w hEc
      simp only [write, hOk w hEc, if_false]
  | counter64 v =>
      apply write_eq_of_ok
        (unsigned64_emits v Tag.counter64)
      intro w hEc
      simp only [write, hOk w hEc, if_false]
  | exception e =>
      cases e with
      | noSuchObject =>
          apply write_eq_of_ok
            (tlv_emits Tag.noSuchObject [])
          intro w hEc
          simp only [write, hOk w hEc, if_false]
      | noSuchInstance =>
          apply write_eq_of_ok
            (tlv_emits Tag.noSuchInstance [])
          intro w hEc
          simp only [write, hOk w hEc, if_false]
      | endOfMibView =>
          apply write_eq_of_ok
            (tlv_emits Tag.endOfMibView [])
          intro w hEc
          simp only [write, hOk w hEc, if_false]

/- A function that opens a sequence around its writes. -/
theorem sequence_emits
    {good : Bool}
    {bytes : Octets}
    {body op : Writer → Writer}
    (hBody : Emits good bytes body)
    (hOp :
      ∀ w : Writer,
        op w = w.beginSequence.1.close
          (body w.beginSequence.2)) :
    Emits good (elementBytes Tag.sequence bytes) op := by
  have hEq :
      op = fun w : Writer =>
        (w.beginConstructed Tag.sequence).1.close
          (body (w.beginConstructed Tag.sequence).2) := by
    funext w
    rw [hOp, beginSequence]
  rw [hEq]
  exact constructed_emits (by decide) hBody

/- The name, then the value, in a scope. -/
theorem writeVarbind_emits
    (vb : Varbind) :
    Emits vb.isEncodable (varbindBytes vb)
      (fun w => w.writeVarbind vb) := by
  have hParts :=
    (objectIdentifier_emits vb.name).comp
      (write_emits vb.val)
  apply sequence_emits hParts
  intro w
  rfl

/- One after the other, in a scope. -/
theorem varbindList_emits
    (vbs : List Varbind) :
    Emits (vbs.all Varbind.isEncodable)
      (varbindListBytes vbs)
      (fun w => w.varbindList vbs) := by
  have hParts := Emits.foldl writeVarbind_emits vbs
  apply sequence_emits hParts
  intro w
  rfl

end Writer

end Ber

end Snmpio
