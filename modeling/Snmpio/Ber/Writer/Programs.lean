import Snmpio.Ber.Writer.Encoding
import Mathlib.Data.Nat.Digits.Lemmas

/-
  Programs of writes.

  A scope is opened and closed around what is written in it,
  so a program of writes is a list of trees: a leaf is one
  of the members that write, a node is a scope.

  On a writer without an error a tree appends its encoding,
  built bottom up.  On a writer with one, a member that
  opens no scope does nothing, but `beginConstructed` does
  not look at the error: what is appended is the framing of
  the scopes, one inside the other, with nothing in them.

  Key definitions include:
    * `Ber.minimalLength`
    * `Ber.Writer.Operation`
    * `Ber.Writer.Tree`
    * `Ber.Writer.Tree.write`
    * `Ber.Writer.Tree.encoding`
    * `Ber.Writer.Tree.residue`

  Key theorems include:
    * `Ber.lengthBytes_eq_minimalLength`
    * `Ber.Writer.Tree.write_emits`
    * `Ber.Writer.scopes_encode_directly`
    * `Ber.Writer.Tree.write_leaves`
    * `Ber.Writer.error_silences_iff`
-/

------------------------------------------------------------
-- Minimal Lengths
------------------------------------------------------------

namespace Snmpio

namespace Ber

open Octets

/-
  A definite length in the fewest octets: the short form
  where it is enough, otherwise the base-256 digits, without
  a leading zero, after their count.
-/
def minimalLength
    (n : Nat) : Octets :=
  if n < 128 then
    [UInt8.ofNat n]
  else
    UInt8.ofNat (0x80 ||| (Nat.digits 256 n).length) ::
      (Nat.digits 256 n).reverse.map UInt8.ofNat

/- The octets of a length are its digits in base 256. -/
theorem significantOctets_eq_digits
    (n : Nat) :
    significantOctets n n = (Nat.digits 256 n).length := by
  apply le_antisymm
  · rw [significantOctets_le_iff le_rfl,
      ← Nat.digits_length_le_iff (by omega)]
  · rw [Nat.digits_length_le_iff (by omega),
      ← significantOctets_le_iff le_rfl]

theorem bigEndian_eq_digits
    (n : Nat) :
    bigEndian (Nat.digits 256 n).length n =
      (Nat.digits 256 n).reverse.map UInt8.ofNat := by
  have hDigits :
      ∀ d ∈ (Nat.digits 256 n).reverse, d < 256 := by
    intro d hd
    exact Nat.digits_lt_base (by omega)
      (List.mem_reverse.mp hd)
  have hValue :
      Positional.value 256 (Nat.digits 256 n).reverse =
        n := by
    rw [Positional.value, List.reverse_reverse,
      Nat.ofDigits_digits]
  have hBack := Positional.digits_value (by omega) hDigits
  rw [hValue, List.length_reverse,
    ← bigEndian_map_toNat] at hBack
  have hOfNat :
      UInt8.ofNat ∘ UInt8.toNat = id := by
    funext b
    exact UInt8.ofNat_toNat
  have hOctets := congrArg (List.map UInt8.ofNat) hBack
  rwa [List.map_map, hOfNat, List.map_id] at hOctets

/- `putLength` takes no octet more than it needs. -/
theorem lengthBytes_eq_minimalLength
    (n : Nat) :
    lengthBytes n = minimalLength n := by
  unfold lengthBytes minimalLength lengthOctets
  split
  · rfl
  · simp only [Nat.add_sub_cancel_left,
      significantOctets_eq_digits, bigEndian_eq_digits]

end Ber

end Snmpio

------------------------------------------------------------
-- Operations and Trees
------------------------------------------------------------

namespace Snmpio

namespace Ber

namespace Writer

/- The members that write. -/
inductive Operation where
  | integer (v : Int32) (t : TagType)
  | unsigned32 (v : UInt32) (t : TagType)
  | unsigned64 (v : UInt64) (t : TagType)
  | octetString (v : Octets) (t : TagType)
  | nullValue
  | objectIdentifier (o : Oid)
  | value (v : Value)
  | varbind (vb : Varbind)
  | varbindList (vbs : List Varbind)
  | raw (bytes : Octets)
  | tlv (t : TagType) (content : Octets)

/- One call of the Writer. -/
def perform
    (o : Operation)
    (w : Writer) : Writer :=
  match o with
  | .integer v t => w.integer v t
  | .unsigned32 v t => w.unsigned32 v t
  | .unsigned64 v t => w.unsigned64 v t
  | .octetString v t => w.octetString v t
  | .nullValue => w.nullValue
  | .objectIdentifier o => w.objectIdentifier o
  | .value v => w.write v
  | .varbind vb => w.writeVarbind vb
  | .varbindList vbs => w.varbindList vbs
  | .raw bytes => w.raw bytes
  | .tlv t content => w.tlv t content

/- Calls nested in scopes. -/
inductive Tree where
  | leaf (o : Operation)
  | node (t : TagType) (children : List Tree)

namespace Tree

mutual

/- A scope stands around the writes of a node's children. -/
def write :
    Tree → Writer → Writer
| .leaf o, w => perform o w
| .node t children, w =>
    let (s, w) := w.beginConstructed t
    s.close (writeAll children w)

/- The calls of one scope, in their order. -/
def writeAll :
    List Tree → Writer → Writer
| [], w => w
| tree :: trees, w => writeAll trees (write tree w)

end

mutual

/-
  The encoding bottom up.  A leaf is what its member writes
  into a fresh writer.
-/
def encoding :
    Tree → Octets
| .leaf o => (perform o {}).buf
| .node t children =>
    t :: (minimalLength (encodings children).length ++
      encodings children)

def encodings :
    List Tree → Octets
| [] => []
| tree :: trees => encoding tree ++ encodings trees

end

mutual

/- Every leaf can be written, every scope is one. -/
def WellFormed :
    Tree → Prop
| .leaf o => (perform o {}).ec = none
| .node t children =>
    isConstructed t = true ∧ AllWellFormed children

/- Every name, value and length can be written. -/
def AllWellFormed :
    List Tree → Prop
| [] => True
| tree :: trees => WellFormed tree ∧ AllWellFormed trees

end

end Tree

end Writer

end Ber

end Snmpio

------------------------------------------------------------
-- Scopes and Direct Encoding
------------------------------------------------------------

namespace Snmpio

namespace Ber

namespace Writer

/- Octets that are already encoded. -/
theorem raw_emits
    (bytes : Octets) :
    Emits true bytes (fun w => w.raw bytes) := by
  apply Emits.always
  · intro w hEc
    simp [raw, hEc]
  · intro w hEc
    simp [raw, hEc]

/- Every member appends some octets or refuses. -/
theorem perform_emits
    (o : Operation) :
    ∃ good bytes, Emits good bytes (perform o) := by
  cases o with
  | integer v t =>
      have hEmits :
          Emits true (elementBytes t (integerContent v))
            (fun w => w.integer v t) :=
        primitive_emits (fun _ => rfl)
      exact ⟨_, _, hEmits⟩
  | unsigned32 v t =>
      exact ⟨_, _, unsigned64_emits v.toUInt64 t⟩
  | unsigned64 v t => exact ⟨_, _, unsigned64_emits v t⟩
  | octetString v t => exact ⟨_, _, octetString_emits v t⟩
  | nullValue => exact ⟨_, _, nullValue_emits⟩
  | objectIdentifier o =>
      exact ⟨_, _, objectIdentifier_emits o⟩
  | value v => exact ⟨_, _, write_emits v⟩
  | varbind vb => exact ⟨_, _, writeVarbind_emits vb⟩
  | varbindList vbs => exact ⟨_, _, varbindList_emits vbs⟩
  | raw bytes => exact ⟨_, _, raw_emits bytes⟩
  | tlv t content => exact ⟨_, _, tlv_emits t content⟩

/- One that does not refuse a fresh writer refuses none. -/
theorem perform_writes
    {o : Operation}
    (hGood : (perform o {}).ec = none) :
    Emits true (perform o {}).buf (perform o) := by
  rcases perform_emits o with ⟨good, bytes, hEmits⟩
  cases good with
  | true =>
      rw [hEmits.fresh]
      exact hEmits
  | false =>
      have hRefused := hEmits.refuses rfl {} rfl
      rw [hGood] at hRefused
      cases hRefused

namespace Tree

mutual

/- A scope widens its length without moving the rest. -/
theorem write_emits
    (tree : Tree)
    (hTree : tree.WellFormed) :
    Emits true tree.encoding tree.write := by
  cases tree with
  | leaf o => exact perform_writes hTree
  | node t children =>
      have hContent := writeAll_emits children hTree.2
      have hScope := constructed_emits hTree.1 hContent
      rw [elementBytes, lengthBytes_eq_minimalLength]
        at hScope
      exact hScope

theorem writeAll_emits
    (trees : List Tree)
    (hTrees : AllWellFormed trees) :
    Emits true (encodings trees) (writeAll trees) := by
  cases trees with
  | nil => exact Emits.nil
  | cons tree trees =>
      exact (write_emits tree hTrees.1).comp
        (writeAll_emits trees hTrees.2)

end

end Tree

/-
  Nested scopes leave what was in the buffer and append the
  encoding that is built bottom up, which is also what `tlv`
  appends for the finished content.
-/
theorem scopes_encode_directly
    (tree : Tree)
    (w : Writer)
    (hTree : tree.WellFormed)
    (hEc : w.ec = none) :
    tree.write w =
        { buf := w.buf ++ tree.encoding, ec := none } ∧
      ∀ t children, tree = .node t children →
        tree.write w =
          w.tlv t (Tree.encodings children) := by
  have hWrite := (tree.write_emits hTree).writes rfl w hEc
  constructor
  · rw [hWrite, append, hEc]
  · rintro t children rfl
    rw [hWrite, (tlv_emits t _).writes rfl w hEc,
      elementBytes, lengthBytes_eq_minimalLength]
    rfl

/-
  A scope inside another, with a name beside it.  Where the
  inner one has 253 octets its length takes two, and that of
  the outer one, which is patched next, takes three.
-/
theorem scopes_encode_directly_nested :
    ((Tree.node 0x30 [.node 0xA0 [.leaf (.value .null)],
        .leaf (.objectIdentifier ⟨[1, 3]⟩)]).write
          { buf := [0xFF] }).buf =
        [0xFF, 0x30, 0x07, 0xA0, 0x02, 0x05, 0x00, 0x06,
          0x01, 0x2B] ∧
      ((Tree.node 0x30 [.node 0xA0
          [.leaf (.octetString (List.replicate 250 0)
            0x04)]]).write { buf := [0xFF] }).buf =
        [0xFF, 0x30, 0x82, 0x01, 0x00, 0xA0, 0x81, 0xFD,
          0x04, 0x81, 0xFA] ++ List.replicate 250 0 := by
  constructor
  · rw [(scopes_encode_directly
      (.node 0x30 [.node 0xA0 [.leaf (.value .null)],
        .leaf (.objectIdentifier ⟨[1, 3]⟩)])
      { buf := [0xFF] }
      ⟨rfl, ⟨rfl, rfl, trivial⟩, rfl, trivial⟩ rfl).1]
    decide
  · rw [(scopes_encode_directly
      (.node 0x30 [.node 0xA0
        [.leaf (.octetString (List.replicate 250 0) 0x04)]])
      { buf := [0xFF] }
      ⟨rfl, ⟨rfl, rfl, trivial⟩, trivial⟩ rfl).1]
    decide +kernel

end Writer

end Ber

end Snmpio

------------------------------------------------------------
-- Writes After an Error
------------------------------------------------------------

namespace Snmpio

namespace Ber

namespace Writer

/- What a member appends to a writer with an error. -/
def Operation.residue :
    Operation → Octets
| .varbind _ => elementBytes Tag.sequence []
| .varbindList vbs =>
    elementBytes Tag.sequence
      (vbs.flatMap (fun _ => elementBytes Tag.sequence []))
| _ => []

/- The members that open a scope of their own. -/
def Operation.opensScope :
    Operation → Bool
| .varbind _ => true
| .varbindList _ => true
| _ => false

namespace Tree

mutual

/- What is left of a scope after an error. -/
def residue :
    Tree → Octets
| .leaf o => o.residue
| .node t children => elementBytes t (residues children)

def residues :
    List Tree → Octets
| [] => []
| tree :: trees => residue tree ++ residues trees

end

/- Whether anything is left at all. -/
def opensScope :
    Tree → Bool
| .leaf o => o.opensScope
| .node _ _ => true

end Tree

/- An error is kept and `bytes` are appended after it. -/
def Leaves
    (bytes : Octets)
    (op : Writer → Writer) : Prop :=
  ∀ w : Writer, w.ec.isSome → op w = w.append bytes

theorem Leaves.nil :
    Leaves [] (fun w => w) := by
  intro w _
  simp [append]

/- One after the other. -/
theorem Leaves.comp
    {bytes₁ bytes₂ : Octets}
    {op₁ op₂ : Writer → Writer}
    (hFirst : Leaves bytes₁ op₁)
    (hSecond : Leaves bytes₂ op₂) :
    Leaves (bytes₁ ++ bytes₂) (fun w => op₂ (op₁ w)) := by
  intro w hEc
  show op₂ (op₁ w) = w.append (bytes₁ ++ bytes₂)
  rw [hFirst w hEc, hSecond (w.append bytes₁) hEc,
    append_append]

/- Over a list. -/
theorem Leaves.foldl
    {α : Type}
    {bytes : α → Octets}
    {op : Writer → α → Writer}
    (hOp : ∀ x, Leaves (bytes x) (fun w => op w x))
    (xs : List α) :
    Leaves (xs.flatMap bytes) (fun w => xs.foldl op w) := by
  induction xs with
  | nil => exact Leaves.nil
  | cons x xs ih =>
      simpa [List.flatMap_cons] using (hOp x).comp ih

/- The tag and the length are written nevertheless. -/
theorem Leaves.constructed
    {bytes : Octets}
    {op : Writer → Writer}
    (t : TagType)
    (hOp : Leaves bytes op) :
    Leaves (elementBytes t bytes)
      (fun w =>
        (w.beginConstructed t).1.close
          (op (w.beginConstructed t).2)) := by
  intro w hEc
  have hFail : w.fail .unexpectedTag = w := by
    unfold fail
    cases hCase : w.ec with
    | none => simp [hCase] at hEc
    | some e => rfl
  have hBegin :
      w.beginConstructed t =
        (⟨w.buf.length + 1⟩,
          { buf := w.buf ++ [t] ++ [0]
            ec := w.ec }) := by
    simp [beginConstructed, hFail, putTag, append]
  simp only [hBegin]
  rw [hOp { buf := w.buf ++ [t] ++ [0], ec := w.ec } hEc]
  exact close_append w.buf bytes t w.ec

/- A member that looks at the error first. -/
theorem Leaves.guarded
    {op body : Writer → Writer}
    (hOp :
      ∀ w : Writer,
        op w = if w.ec.isSome then w else body w) :
    Leaves [] op := by
  intro w hEc
  rw [hOp, if_pos hEc]
  simp [append]

theorem objectIdentifier_leaves
    (o : Oid) :
    Leaves [] (fun w => w.objectIdentifier o) :=
  Leaves.guarded (fun _ => rfl)

theorem write_leaves
    (v : Value) :
    Leaves [] (fun w => w.write v) :=
  Leaves.guarded (fun _ => rfl)

theorem writeVarbind_leaves
    (vb : Varbind) :
    Leaves (elementBytes Tag.sequence [])
      (fun w => w.writeVarbind vb) := by
  have hParts : Leaves [] (fun w =>
      (w.objectIdentifier vb.name).write vb.val) :=
    (objectIdentifier_leaves vb.name).comp
      (write_leaves vb.val)
  have hScope := Leaves.constructed Tag.sequence hParts
  exact hScope

/- After an error only scopes leave octets. -/
theorem perform_leaves
    (o : Operation) :
    Leaves o.residue (perform o) := by
  cases o with
  | objectIdentifier o => exact objectIdentifier_leaves o
  | value v => exact write_leaves v
  | varbind vb => exact writeVarbind_leaves vb
  | varbindList vbs =>
      exact Leaves.constructed Tag.sequence
        (Leaves.foldl writeVarbind_leaves vbs)
  | _ => exact Leaves.guarded (fun _ => rfl)

theorem Operation.residue_eq_nil_iff
    (o : Operation) :
    o.residue = [] ↔ o.opensScope = false := by
  cases o <;> simp [residue, opensScope, elementBytes]

namespace Tree

mutual

theorem write_leaves
    (tree : Tree) :
    Leaves tree.residue tree.write := by
  cases tree with
  | leaf o => exact perform_leaves o
  | node t children =>
      exact Leaves.constructed t (writeAll_leaves children)

theorem writeAll_leaves
    (trees : List Tree) :
    Leaves (residues trees) (writeAll trees) := by
  cases trees with
  | nil => exact Leaves.nil
  | cons tree trees =>
      exact (write_leaves tree).comp (writeAll_leaves trees)

end

/- Nothing is left where no scope was opened. -/
theorem residue_eq_nil_iff
    (tree : Tree) :
    tree.residue = [] ↔ tree.opensScope = false := by
  cases tree with
  | leaf o => exact o.residue_eq_nil_iff
  | node t children =>
      simp [residue, opensScope, elementBytes]

theorem residues_eq_nil_iff
    (trees : List Tree) :
    residues trees = [] ↔
      ∀ tree ∈ trees, tree.opensScope = false := by
  induction trees with
  | nil => simp [residues]
  | cons tree trees ih =>
      rw [residues, List.append_eq_nil_iff,
        residue_eq_nil_iff, ih, List.forall_mem_cons]

end Tree

/-
  After an error the error stays, and so does what is in the
  buffer.  Nothing is appended exactly when no scope is
  opened, by `beginConstructed` itself or by the members for
  Varbinds, which use it.
-/
theorem error_silences_iff
    (trees : List Tree)
    (w : Writer)
    (hEc : w.ec.isSome) :
    (Tree.writeAll trees w).ec = w.ec ∧
      w.buf <+: (Tree.writeAll trees w).buf ∧
      ((Tree.writeAll trees w).buf = w.buf ↔
        ∀ tree ∈ trees, tree.opensScope = false) := by
  rw [Tree.writeAll_leaves trees w hEc,
    ← Tree.residues_eq_nil_iff]
  refine ⟨rfl, List.prefix_append _ _, ?_⟩
  exact List.append_right_eq_self

/- A writer that has refused a name of one arc. -/
def refusedName : Writer :=
  ({} : Writer).objectIdentifier ⟨[1]⟩

theorem error_silences_iff_integer :
    (Tree.writeAll [.leaf (.integer 5 Tag.integer)]
      refusedName).buf = refusedName.buf :=
  (error_silences_iff [.leaf (.integer 5 Tag.integer)]
    refusedName (by decide)).2.2.mpr
      (by simp [Tree.opensScope, Operation.opensScope])

/- The next Varbind leaves an empty sequence behind. -/
theorem varbind_after_error :
    refusedName.ec = some .oidNotEncodable ∧
      refusedName.buf = [] ∧
      (Tree.writeAll [.leaf (.varbind ⟨⟨[1, 3]⟩, .null⟩)]
        refusedName).buf = [0x30, 0x00] := by
  decide

end Writer

end Ber

end Snmpio
