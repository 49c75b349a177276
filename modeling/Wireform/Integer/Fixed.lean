import Wireform.Window

/-!
# Fixed-width integers

Integers of 8, 16, 24, 32 and 64 bits, signed and unsigned. They have no
prefix: an encoding is exactly `FixedInt.width` bytes, least significant first
unless the order is switched to network order.

A value is an integer of the type's range, and its encoding is that integer
modulo `2 ^ (8 * width)`. Reading inverts this with `FixedInt.decode`, which
takes the representative in the signed or the unsigned range.

## Main definitions

* `ByteOrder`: Native (little-endian) or network order.
* `readUnsigned`, `writeUnsigned`, `signExtend`: Words of any number of bytes.
* `FixedInt`: The ten integer types, with their range and codec.
* `FixedInt.Reader`, `FixedInt.Builder`: Reading and writing one integer.
-/

namespace Wireform

/-- The order of the bytes of a fixed-width integer. Native order is least
    significant byte first. -/
inductive ByteOrder where
  | native
  | network
  deriving DecidableEq, Inhabited

/-- Turn little-endian bytes into the given order, or back. -/
def ByteOrder.arrange : ByteOrder → Bytes → Bytes
  | .native, bytes => bytes
  | .network, bytes => bytes.reverse

theorem ByteOrder.length_arrange (order : ByteOrder) (bytes : Bytes) :
    (order.arrange bytes).length = bytes.length := by
  cases order with
  | native => rfl
  | network => exact List.length_reverse

/-- The low 64 bits of the unsigned number in `width` bytes at a position. -/
def readUnsigned {ε : Type} (b : Buffer) (position width : Nat) (order : ByteOrder) :
    Checked ε Nat := do
  let stop ← Word.add position width
  let bytes ← b.slice position stop
  return Bytes.toNatLE (order.arrange bytes) % Word.bound

/-- The buffer with the low `width` bytes of a word at a position. A word has
    eight bytes, so a larger width stops. -/
def writeUnsigned {ε : Type} (b : Buffer) (position width : Nat) (order : ByteOrder)
    (value : Nat) : Checked ε Buffer := do
  let stop ← Word.add position width
  if stop ≤ b.size ∧ width ≤ 8 then
    return b.overwrite position (order.arrange (Bytes.ofNatLE width value))
  else Checked.stop

/-- The low `width` bytes of a word read as a signed number. The width is a
    32-bit number between one and eight. -/
def signExtend {ε : Type} (raw width : Nat) : Checked ε Int :=
  let w := width % 2 ^ (32 : Nat)
  if 1 ≤ w ∧ w ≤ 8 then .ok (Int.bmod raw (2 ^ (8 * w))) else .error .stopped

/-- The fixed-width integer types. -/
inductive FixedInt where
  | int8
  | int16
  | int24
  | int32
  | int64
  | uint8
  | uint16
  | uint24
  | uint32
  | uint64
  deriving DecidableEq, Inhabited

namespace FixedInt

/-- The name of the type. -/
def name : FixedInt → String
  | .int8 => "int8"
  | .int16 => "int16"
  | .int24 => "int24"
  | .int32 => "int32"
  | .int64 => "int64"
  | .uint8 => "uint8"
  | .uint16 => "uint16"
  | .uint24 => "uint24"
  | .uint32 => "uint32"
  | .uint64 => "uint64"

/-- The number of bytes of an encoding. -/
def width : FixedInt → Nat
  | .int8 | .uint8 => 1
  | .int16 | .uint16 => 2
  | .int24 | .uint24 => 3
  | .int32 | .uint32 => 4
  | .int64 | .uint64 => 8

/-- Whether the type has negative values. -/
def isSigned : FixedInt → Bool
  | .int8 | .int16 | .int24 | .int32 | .int64 => true
  | .uint8 | .uint16 | .uint24 | .uint32 | .uint64 => false

/-- The number of values of the type. -/
def modulus (k : FixedInt) : Nat :=
  2 ^ (8 * k.width)

/-- The least value of the type. -/
def minValue (k : FixedInt) : Int :=
  if k.isSigned then -(2 ^ (8 * k.width - 1)) else 0

/-- The greatest value of the type. -/
def maxValue (k : FixedInt) : Int :=
  if k.isSigned then 2 ^ (8 * k.width - 1) - 1 else 2 ^ (8 * k.width) - 1

/-- The word that stands for a value, refused outside the range of the type. -/
def encode (k : FixedInt) (value : Int) : Checked Refusal Nat :=
  if k.minValue ≤ value ∧ value ≤ k.maxValue then .ok (value % k.modulus).toNat
  else .error (.refused (.valueOutOfRange k.name value))

/-- The value a word stands for. -/
def decode (k : FixedInt) (raw : Nat) : Int :=
  if k.isSigned then Int.bmod raw k.modulus else (raw % k.modulus : Nat)

/-- A window that starts with an integer of a known type. -/
structure Reader where
  kind : FixedInt
  order : ByteOrder
  window : Window
  deriving DecidableEq

namespace Reader

/-- Bind to a window, which has to hold the whole integer. -/
def wrap (kind : FixedInt) (order : ByteOrder) (buffer : Buffer) (offset maxLimit : Nat) :
    Checked Refusal Reader := do
  let window ← Window.wrap buffer offset maxLimit
  let limit ← Word.add offset kind.width
  checkLimit limit maxLimit
  return ⟨kind, order, window⟩

/-- Bind to a window if it holds the whole integer. -/
def tryWrap (kind : FixedInt) (order : ByteOrder) (buffer : Buffer) (offset maxLimit : Nat) :
    Option Reader :=
  match Window.tryWrap buffer offset maxLimit with
  | none => none
  | some window => if window.remaining < kind.width then none else some ⟨kind, order, window⟩

/-- The position past the integer. -/
def limit (r : Reader) : Nat :=
  r.window.offset + r.kind.width

/-- The integer. -/
def value (r : Reader) : Checked Refusal Int := do
  let raw ← readUnsigned r.window.buffer r.window.offset r.kind.width r.order
  return r.kind.decode raw

end Reader

/-- An integer being written. -/
structure Builder where
  kind : FixedInt
  order : ByteOrder
  cursor : Cursor
  isSet : Bool

namespace Builder

/-- Start in a window, which has to have room for the integer. -/
def wrap (kind : FixedInt) (buffer : Buffer) (offset maxLimit : Nat) :
    Checked Refusal Builder := do
  let cursor ← Cursor.wrap buffer offset maxLimit
  let limit ← Word.add offset kind.width
  checkLimit limit maxLimit
  return ⟨kind, .native, cursor, false⟩

/-- The bytes of a word in the order set at this moment. -/
def arranged (b : Builder) (raw : Nat) : Encoding where
  size := b.kind.width
  bytes := b.order.arrange (Bytes.ofNatLE b.kind.width raw)
  length_bytes := (b.order.length_arrange _).trans (Bytes.length_ofNatLE _ raw)

/-- Write a value in the order set at this moment. -/
def set (b : Builder) (value : Int) : Outcome Refusal Builder Unit :=
  (b.cursor.assign (b.arranged <$> b.kind.encode value)).mapState
      (fun cursor => { b with cursor := cursor })
    |>.onSuccess fun b => { b with isSet := true }

/-- The reader over the written integer. It reads in the order the builder has
    now, which need not be the order at the time of writing. -/
def build (b : Builder) : Checked Refusal Reader := do
  if b.isSet then Reader.wrap b.kind b.order b.cursor.buffer b.cursor.offset b.cursor.limit
  else Checked.refuse .valueNotSet

end Builder

end FixedInt

end Wireform
