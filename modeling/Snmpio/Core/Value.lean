import Snmpio.Core.Octets
import Snmpio.Core.Oid

/-
  The Values a Varbind carries.
-/

------------------------------------------------------------
-- Values and Varbinds
------------------------------------------------------------

namespace Snmpio

/- The exception markers of RFC 3416. -/
inductive ValueException where
  | noSuchObject
  | noSuchInstance
  | endOfMibView
  deriving DecidableEq, Repr

/- The alternatives of the `Value` variant. -/
inductive Value where
  | null
  | integer (v : Int32)
  | octetString (v : Octets)
  | oid (v : Oid)
  | ipAddress (v : Vector UInt8 4)
  | counter32 (v : UInt32)
  | gauge32 (v : UInt32)
  | timeTicks (v : UInt32)
  | opaqueOctets (v : Octets)
  | counter64 (v : UInt64)
  | exception (e : ValueException)
  deriving DecidableEq

structure Varbind where
  name : Oid
  val : Value
  deriving DecidableEq

/- `std::holds_alternative<ValueException>`. -/
def Value.isException :
    Value → Bool
| .exception _ => true
| _ => false

/- The one Value whose encoding can be refused. -/
def Value.isEncodable :
    Value → Bool
| .oid o => o.isEncodable
| _ => true

/- A Varbind the writer can express. -/
def Varbind.isEncodable
    (vb : Varbind) : Bool :=
  vb.name.isEncodable && vb.val.isEncodable

end Snmpio
