import Mathlib.Data.UInt

/-
  BER identifier octets.  SNMP only uses the low-tag-number
  form, so an identifier is one octet.
-/

------------------------------------------------------------
-- Identifier Octets
------------------------------------------------------------

namespace Snmpio

namespace Ber

abbrev TagType := UInt8

def constructedBit : TagType := 0x20
def numberMask : TagType := 0x1F
def highTagNumberEscape : TagType := 0x1F

namespace Tag

-- X.690 universal types.
def integer : TagType := 0x02
def octetString : TagType := 0x04
def null : TagType := 0x05
def objectIdentifier : TagType := 0x06
def sequence : TagType := 0x30

-- RFC 2578 application types.
def ipAddress : TagType := 0x40
def counter32 : TagType := 0x41
def gauge32 : TagType := 0x42
def timeticks : TagType := 0x43
def opaqueOctets : TagType := 0x44
def counter64 : TagType := 0x46

-- RFC 3416 exception markers.
def noSuchObject : TagType := 0x80
def noSuchInstance : TagType := 0x81
def endOfMibView : TagType := 0x82

-- RFC 3416 PDU tags.
def getRequest : TagType := 0xA0
def getNextRequest : TagType := 0xA1
def response : TagType := 0xA2
def setRequest : TagType := 0xA3
def getBulkRequest : TagType := 0xA5
def report : TagType := 0xA8

end Tag

def isConstructed
    (t : TagType) : Bool :=
  t &&& constructedBit != 0

end Ber

end Snmpio
