import Wireform.Buffer

/-!
# UTF-8

Text as bytes and back. Encoding is the standard one. Decoding accepts every
byte sequence: each maximal part that begins like a character and does not
become one is replaced by a single U+FFFD, and decoding goes on with the byte
that broke it.

The decoder is a machine with one state per unfinished character: the number of
bytes still owed, the bits collected, and the range in which the next byte has
to lie. The range is what rules out overlong forms, surrogates and code points
beyond U+10FFFF at the first byte that commits to them.

## Main definitions

* `Utf8.encode`: The bytes of a text.
* `Utf8.Pending`, `Utf8.Decoder`: An unfinished character, and the machine.
* `Utf8.decode`: The text of some bytes, with replacements.
-/

namespace Wireform

namespace Utf8

/-- The bytes of a text. -/
def encode (text : String) : Bytes :=
  text.toList.flatMap String.utf8EncodeChar

/-- The character that stands for bytes that are no text. -/
def replacement : Char := Char.ofNat 0xFFFD

/-- A character of which some bytes are still owed. -/
structure Pending where
  owed : Nat
  bits : Nat
  low : Nat
  high : Nat
  deriving DecidableEq

/-- What the first byte of a character says about the rest. -/
inductive Lead where
  | char (c : Char)
  | opens (pending : Pending)
  | invalid

/-- Read a byte as the first of a character. -/
def lead (byte : UInt8) : Lead :=
  let b := byte.toNat
  if b < 0x80 then .char (Char.ofNat b)
  else if b < 0xC2 then .invalid
  else if b < 0xE0 then .opens ⟨1, b % 32, 0x80, 0xBF⟩
  else if b = 0xE0 then .opens ⟨2, 0, 0xA0, 0xBF⟩
  else if b = 0xED then .opens ⟨2, 0xD, 0x80, 0x9F⟩
  else if b < 0xF0 then .opens ⟨2, b % 16, 0x80, 0xBF⟩
  else if b = 0xF0 then .opens ⟨3, 0, 0x90, 0xBF⟩
  else if b < 0xF4 then .opens ⟨3, b % 8, 0x80, 0xBF⟩
  else if b = 0xF4 then .opens ⟨3, 4, 0x80, 0x8F⟩
  else .invalid

/-- The characters decoded so far, last first, and the one under way. -/
structure Decoder where
  decoded : List Char
  pending : Option Pending

namespace Decoder

/-- Take a byte where a new character begins. -/
def startWith (decoded : List Char) (byte : UInt8) : Decoder :=
  match lead byte with
  | .char c => ⟨c :: decoded, none⟩
  | .opens pending => ⟨decoded, some pending⟩
  | .invalid => ⟨replacement :: decoded, none⟩

/-- Take the next byte. One that cannot continue the character under way ends it
    with a replacement and begins anew. -/
def step (d : Decoder) (byte : UInt8) : Decoder :=
  match d.pending with
  | none => startWith d.decoded byte
  | some p =>
      let b := byte.toNat
      if p.low ≤ b ∧ b ≤ p.high then
        let bits := p.bits * 64 + b % 64
        if p.owed = 1 then ⟨Char.ofNat bits :: d.decoded, none⟩
        else ⟨d.decoded, some ⟨p.owed - 1, bits, 0x80, 0xBF⟩⟩
      else startWith (replacement :: d.decoded) byte

/-- The characters at the end of the bytes; an unfinished one is replaced. -/
def finish (d : Decoder) : List Char :=
  match d.pending with
  | none => d.decoded.reverse
  | some _ => (replacement :: d.decoded).reverse

end Decoder

/-- The text of some bytes, with a replacement for each maximal invalid part. -/
def decode (bytes : Bytes) : String :=
  String.ofList (bytes.foldl Decoder.step ⟨[], none⟩).finish

end Utf8

end Wireform
