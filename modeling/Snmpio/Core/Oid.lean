import Mathlib.Data.List.Basic
import Mathlib.Order.Defs.LinearOrder
import Mathlib.Data.UInt

/-
  Object identifiers.

  Key definitions include:
    * `Oid`
    * `Oid.isEncodable`
    * `Oid.isPrefixOf`
-/

------------------------------------------------------------
-- Object Identifiers
------------------------------------------------------------

namespace Snmpio

/-
  A sequence of 32-bit sub-identifiers.  The type holds any
  sequence; encodability is a separate question.
-/
structure Oid where
  subids : List UInt32
  deriving DecidableEq, Repr

namespace Oid

/- RFC 3416: at most 128 sub-identifiers. -/
def maxSubids : Nat := 128

def size
    (o : Oid) : Nat :=
  o.subids.length

/- Comparison is lexicographic on sub-identifiers. -/
instance : LT Oid where
  lt a b := a.subids < b.subids

instance
    (a b : Oid) :
    Decidable (a < b) :=
  inferInstanceAs (Decidable (a.subids < b.subids))

/-
  Whether the OID can be written as a BER OBJECT
  IDENTIFIER: the first two arcs are packed as
  `40 * first + second`.
-/
def isEncodable
    (o : Oid) : Bool :=
  match o.subids with
  | first :: second :: _ =>
      if o.size > maxSubids then false
      else if first > 2 then false
      else if first < 2 ∧ second > 39 then false
      else if first = 2 ∧
          second.toNat > 2 ^ 32 - 1 - 80 then false
      else true
  | _ => false

/- The element-by-element comparison of `isPrefixOf`. -/
def subidsPrefix :
    List UInt32 → List UInt32 → Bool
| [], _ => true
| _ :: _, [] => false
| a :: as, b :: bs => a == b && subidsPrefix as bs

/- Subtree membership; an OID is a prefix of itself. -/
def isPrefixOf
    (o other : Oid) : Bool :=
  subidsPrefix o.subids other.subids

end Oid

end Snmpio
