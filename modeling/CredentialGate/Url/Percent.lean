import CredentialGate.Text.Hex
import CredentialGate.Text.Utf8

/-! Percent encoding. Each part of an address has its own set of bytes that are encoded; bytes that
are no printable ASCII always are. -/
namespace CredentialGate.Url

/-- A set of printable characters that are encoded. -/
abbrev EncodeSet := List Char

def controlSet : EncodeSet := []
def fragmentSet : EncodeSet := [' ', '"', '<', '>', '`']
def querySet : EncodeSet := [' ', '"', '#', '<', '>']
def specialQuerySet : EncodeSet := '\'' :: querySet
def pathSet : EncodeSet := ['#', '?', '{', '}'] ++ fragmentSet
def segmentSet : EncodeSet := ['/', '%'] ++ pathSet
def specialSegmentSet : EncodeSet := '\\' :: segmentSet
def userSet : EncodeSet := ['/', ':', ';', '=', '@', '[', '\\', ']', '^', '|'] ++ pathSet

def isEncoded (set : EncodeSet) (b : UInt8) : Bool :=
  b < 0x20 || 0x7E < b || set.contains (Char.ofNat b.toNat)

def encodeByte (set : EncodeSet) (b : UInt8) : List Char :=
  if isEncoded set b then '%' :: Text.upperHex b else [Char.ofNat b.toNat]

def encode (set : EncodeSet) (cs : List Char) : String :=
  String.ofList ((Text.utf8 (String.ofList cs)).flatMap (encodeByte set))

/-- The bytes of a text in which a percent sign and two digits stand for one byte. -/
def decode : List UInt8 → List UInt8
  | 0x25 :: a :: b :: rest =>
    match Text.hexNumber? [Char.ofNat a.toNat, Char.ofNat b.toNat] with
    | some n => UInt8.ofNat n :: decode rest
    | none => 0x25 :: decode (a :: b :: rest)
  | b :: rest => b :: decode rest
  | [] => []

end CredentialGate.Url
