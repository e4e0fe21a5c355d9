import Snmpio.Ber.Tag
import Snmpio.Core.Value

/-
  The octet strings BER allows for each kind of element,
  as relations that mention neither reader nor writer.

  A grammar relates the octets of an element to the value
  they denote.  Several strings may denote one value: a
  length or an integer may carry padding.

  Key definitions include:
    * `Ber.LengthForm`
    * `Ber.Element`
    * `Ber.IntegerContent`
    * `Ber.UnsignedContent`
    * `Ber.Subid`
    * `Ber.OidContent`
    * `Ber.ValueForm`
    * `Ber.VarbindForm`
    * `Ber.VarbindListForm`
-/

------------------------------------------------------------
-- Elements
------------------------------------------------------------

namespace Snmpio

namespace Ber

open Octets

variable {α : Type}

/-
  `ls` is a definite length of value `n`: the short form, or
  the long form with one to four octets, minimal or not.
-/
def LengthForm
    (n : Nat)
    (ls : Octets) : Prop :=
  (∃ b : UInt8, b.toNat < 128 ∧ ls = [b] ∧ n = b.toNat) ∨
    ∃ (b : UInt8) (os : Octets),
      ls = b :: os ∧ b.toNat = 128 + os.length ∧
        1 ≤ os.length ∧ os.length ≤ 4 ∧
        n = unsignedValue os

/-
  `d` is one element with tag `t` whose content satisfies
  `G` for the value `x`.
-/
def Element
    (t : TagType)
    (G : Octets → α → Prop)
    (d : Octets)
    (x : α) : Prop :=
  ∃ ls content,
    d = t :: (ls ++ content) ∧
      LengthForm content.length ls ∧ G content x

/-
  The same for a content whose meaning depends on where it
  starts, in an input the element itself starts at `p` of.
-/
def ElementAt
    (t : TagType)
    (G : Nat → Octets → α → Prop)
    (p : Nat)
    (d : Octets)
    (x : α) : Prop :=
  ∃ ls content,
    d = t :: (ls ++ content) ∧
      LengthForm content.length ls ∧
      G (p + (1 + ls.length)) content x

/- One part after the other, with nothing in between. -/
def Seq
    {β : Type}
    (G : Octets → α → Prop)
    (H : Octets → β → Prop)
    (d : Octets)
    (x : α × β) : Prop :=
  ∃ d₁ d₂, d = d₁ ++ d₂ ∧ G d₁ x.1 ∧ H d₂ x.2

/- The same for parts that depend on where they start. -/
def SeqAt
    {β : Type}
    (G : Nat → Octets → α → Prop)
    (H : Nat → Octets → β → Prop)
    (p : Nat)
    (d : Octets)
    (x : α × β) : Prop :=
  ∃ d₁ d₂, d = d₁ ++ d₂ ∧ G p d₁ x.1 ∧
    H (p + d₁.length) d₂ x.2

/- Any number of parts, one after the other. -/
inductive Star
    (G : Octets → α → Prop) :
    Octets → List α → Prop
  | nil : Star G [] []
  | cons
      {d₁ d₂ : Octets}
      {x : α}
      {xs : List α}
      (hHead : G d₁ x)
      (hTail : Star G d₂ xs) :
      Star G (d₁ ++ d₂) (x :: xs)

end Ber

end Snmpio

------------------------------------------------------------
-- Primitive Contents
------------------------------------------------------------

namespace Snmpio

namespace Ber

open Octets

/- Non-empty two's complement, with any sign padding. -/
def IntegerContent
    (content : Octets)
    (v : Int32) : Prop :=
  content ≠ [] ∧ signedValue content = v.toInt

/- Non-empty big-endian unsigned, with any leading zeros. -/
def UnsignedContent
    (content : Octets)
    (n : Nat) : Prop :=
  content ≠ [] ∧ unsignedValue content = n

/- Any octets, which are the value. -/
def OctetsContent
    (content : Octets)
    (v : Octets) : Prop :=
  content = v

/- The seven value bits of a sub-identifier's octet. -/
def groupBits
    (b : UInt8) : Nat :=
  b.toNat % 128

/-
  A minimal base-128 sub-identifier below `2 ^ 32`: the
  continuation bit on all octets but the last, and no
  leading octet that is nothing but the continuation bit.
-/
def Subid
    (octets : Octets)
    (n : Nat) : Prop :=
  ∃ init last,
    octets = init ++ [last] ∧
      (∀ b ∈ init, 128 ≤ b.toNat) ∧ last.toNat < 128 ∧
      init.head? ≠ some 0x80 ∧
      n = Positional.value 128 (octets.map groupBits) ∧
      n < 2 ^ 32

/-
  The arcs a sequence of sub-identifiers names: the first
  one packs two, as `40 * first + second` with `first` at
  most 2.
-/
def arcs :
    List Nat → List Nat
| [] => []
| n :: ns => min (n / 40) 2 :: (n - 40 * min (n / 40) 2) :: ns

/- A non-empty run of sub-identifiers, at most 128 arcs. -/
def OidContent
    (content : Octets)
    (o : Oid) : Prop :=
  ∃ ns, ns ≠ [] ∧ Star Subid content ns ∧
    o.subids.map UInt32.toNat = arcs ns ∧
    o.subids.length ≤ 128

end Ber

end Snmpio

------------------------------------------------------------
-- Values and Varbinds
------------------------------------------------------------

namespace Snmpio

namespace Ber

/- The tag of a Value's type. -/
def valueTag :
    Value → TagType
| .null => 0x05
| .integer _ => 0x02
| .octetString _ => 0x04
| .oid _ => 0x06
| .ipAddress _ => 0x40
| .counter32 _ => 0x41
| .gauge32 _ => 0x42
| .timeTicks _ => 0x43
| .opaqueOctets _ => 0x44
| .counter64 _ => 0x46
| .exception .noSuchObject => 0x80
| .exception .noSuchInstance => 0x81
| .exception .endOfMibView => 0x82

/- The contents that denote a Value under its own tag. -/
def ValueContent
    (content : Octets) :
    Value → Prop
| .null => content = []
| .integer v => IntegerContent content v
| .octetString v => OctetsContent content v
| .oid o => OidContent content o
| .ipAddress v => OctetsContent content v.toList
| .counter32 v => UnsignedContent content v.toNat
| .gauge32 v => UnsignedContent content v.toNat
| .timeTicks v => UnsignedContent content v.toNat
| .opaqueOctets v => OctetsContent content v
| .counter64 v => UnsignedContent content v.toNat
| .exception _ => content = []

def ValueForm
    (d : Octets)
    (v : Value) : Prop :=
  Element (valueTag v) ValueContent d v

/- The pair of an OBJECT IDENTIFIER and a Value. -/
def VarbindContent
    (content : Octets)
    (vb : Varbind) : Prop :=
  Seq (Element 0x06 OidContent) ValueForm content
    (vb.name, vb.val)

def VarbindForm
    (d : Octets)
    (vb : Varbind) : Prop :=
  Element 0x30 VarbindContent d vb

def VarbindListForm
    (d : Octets)
    (vbs : List Varbind) : Prop :=
  Element 0x30 (Star VarbindForm) d vbs

end Ber

end Snmpio
