import Wireform.Refusal
import Wireform.Text.Utf8

/-!
# Character sets

The three encodings in which the payload of a string may be written and read:
UTF-8, ISO-8859-1 and US-ASCII. The last two have one byte for each character up
to a largest one. Writing refuses the first character that has no place in the
set; reading never refuses and puts U+FFFD where bytes are no text.

## Main definitions

* `Charset`: The character sets.
* `Charset.encode`, `Charset.decode`: Text to bytes and back.
-/

namespace Wireform

/-- An encoding of text. -/
inductive Charset where
  | utf8
  | latin1
  | ascii
  deriving DecidableEq, Inhabited

namespace Charset

/-- The name of the character set. -/
def name : Charset → String
  | .utf8 => "UTF-8"
  | .latin1 => "ISO-8859-1"
  | .ascii => "US-ASCII"

/-- The largest character of the set. -/
def maxChar : Charset → Nat
  | .utf8 => 0x10FFFF
  | .latin1 => 0xFF
  | .ascii => 0x7F

/-- Whether every character is below U+0080. -/
def isPlain (text : String) : Bool :=
  text.toList.all fun c => c.toNat < 0x80

/-- The bytes of a text, refused at the first character that is not in the set.
    Text of ASCII characters alone has the same bytes in every set. -/
def encode (charset : Charset) (text : String) : Checked Refusal Bytes :=
  if charset = .utf8 ∨ isPlain text then .ok (Utf8.encode text)
  else
    match text.toList.findIdx? fun c => charset.maxChar < c.toNat with
    | some index => .error (.refused (.unmappable charset.name text index))
    | none => .ok (text.toList.map fun c => UInt8.ofNat c.toNat)

/-- The character of one byte; bytes beyond the set become U+FFFD. -/
def charOf (charset : Charset) (byte : UInt8) : Char :=
  if byte.toNat ≤ charset.maxChar then Char.ofNat byte.toNat else Utf8.replacement

/-- The text of some bytes. -/
def decode (charset : Charset) (bytes : Bytes) : String :=
  match charset with
  | .utf8 => Utf8.decode bytes
  | .latin1 | .ascii => String.ofList (bytes.map charset.charOf)

end Charset

end Wireform
