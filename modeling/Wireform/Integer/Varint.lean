import Wireform.Window

/-!
# Variable-width integers

Unsigned numbers in base 128, least significant group first. Each byte carries
seven bits and, in its high bit, whether another byte follows; the encoding ends
with the first byte whose high bit is clear. Signed types zigzag the value first,
so that numbers of small magnitude stay short whatever their sign.

The end of an encoding is found by `scan`, which looks at no more bytes than the
widest value needs and tests the last of them against a mask of the bits that
would not fit. `scan64` gives the same answer faster when ten bytes are at hand:
it tests the high bits of the first eight with one mask.

## Main definitions

* `zigzag`, `unzigzag`: Integers as natural numbers.
* `encodedSize`, `groups`, `encoding`: The size and the bytes of an encoding.
* `encodeInto`, `decodeAt`: Writing and reading the bytes.
* `Scan`, `scan`, `scan32`, `scan64`: Finding the end of an encoding.
* `VarInt`: The four integer types, with `VarInt.Reader` and `VarInt.Builder`.
-/

namespace Wireform

/-- Integers in the order 0, -1, 1, -2, 2, and so on. -/
def zigzag (value : Int) : Nat :=
  if 0 ≤ value then (2 * value).toNat else (-2 * value - 1).toNat

/-- The integer at a place of that order. -/
def unzigzag (place : Nat) : Int :=
  if place % 2 = 0 then (place / 2 : Nat) else -((place / 2 : Nat) : Int) - 1

namespace Varint

/-- The number of bytes that encode a number: one for every seven bits begun,
    and one for zero. -/
def encodedSize (value : Nat) : Nat :=
  (value.log2 + 7) / 7

/-- The bytes that encode a number. -/
def groups (value : Nat) : Bytes :=
  if value < 128 then [UInt8.ofNat value]
  else UInt8.ofNat (value % 128 + 128) :: groups (value / 128)
termination_by value
decreasing_by omega

theorem groups_of_lt {value : Nat} (h : value < 128) : groups value = [UInt8.ofNat value] := by
  rw [groups, if_pos h]

theorem groups_of_le {value : Nat} (h : 128 ≤ value) :
    groups value = UInt8.ofNat (value % 128 + 128) :: groups (value / 128) := by
  rw [groups, if_neg (by omega)]

/-- The first seven bits of a number take its highest bit seven places down. -/
theorem log2_of_le {value : Nat} (h : 128 ≤ value) : value.log2 = (value / 128).log2 + 7 := by
  rw [Nat.log2_eq_iff (by omega)]
  have hlow := Nat.log2_self_le (n := value / 128) (by omega)
  have hhigh := Nat.lt_log2_self (n := value / 128)
  rw [Nat.pow_succ] at hhigh
  rw [Nat.pow_add, Nat.pow_add, Nat.pow_add]
  omega

theorem length_groups (value : Nat) : (groups value).length = encodedSize value := by
  fun_induction groups value with
  | case1 value h =>
      rcases Nat.eq_zero_or_pos value with rfl | hpos
      · rfl
      · have hlog : value.log2 < 7 := (Nat.log2_lt (by omega)).mpr h
        rw [encodedSize, List.length_singleton]
        omega
  | case2 value h ih =>
      have hlog := log2_of_le (Nat.le_of_not_lt h)
      rw [List.length_cons, ih, encodedSize, encodedSize]
      omega

/-- The bytes that encode a number, sized up front. -/
def encoding (value : Nat) : Encoding where
  size := encodedSize value
  bytes := groups value
  length_bytes := length_groups value

/-- Write an encoding to the front of a buffer, and yield its size. Where the
    buffer is too short the bytes that fit are written before the stop. -/
def encodeInto (b : Buffer) (value : Nat) : Outcome Refusal Buffer Nat :=
  let bytes := groups value
  ⟨if bytes.length ≤ b.size then .ok bytes.length else .error .stopped, b.overwrite 0 bytes⟩

/-- The number whose base-128 digits are the low seven bits of the bytes. -/
def ofGroups (bytes : Bytes) : Nat :=
  bytes.foldr (fun byte high => byte.toNat % 128 + 128 * high) 0

/-- The low 64 bits of the number in the `size` bytes at a position. A word has
    no room for an eleventh group. -/
def decodeAt {ε : Type} (b : Buffer) (position size : Nat) : Checked ε Nat := do
  let stop ← Word.add position size
  let bytes ← b.slice position stop
  if size ≤ 10 then return ofGroups bytes % Word.bound else Checked.stop

/-- What there is at the place where an encoding is expected. -/
inductive Scan where
  /-- An encoding of this many bytes. -/
  | complete (size : Nat)
  /-- The window ends before the encoding does. -/
  | truncated
  /-- The encoding has more bits than the value may have. -/
  | overflow
  deriving DecidableEq

/-- Follow the continuation bits from a position, of which `size` bytes have
    been seen already and at most `count` more lie inside the window. The byte
    number `maxSize` ends the encoding in any case, and must not carry a bit of
    the mask. -/
def scanFrom {ε : Type} (b : Buffer) (maxSize : Nat) (lastMask : UInt8) :
    (count position size : Nat) → Checked ε Scan
  | 0, _, _ => .ok .truncated
  | count + 1, position, size => do
      let byte ← b.byteAt position
      if size + 1 = maxSize then
        return if byte &&& lastMask ≠ 0 then .overflow else .complete (size + 1)
      else if byte &&& 0x80 = 0 then return .complete (size + 1)
      else scanFrom b maxSize lastMask count (position + 1) (size + 1)

/-- Find the end of an encoding of at most `maxSize` bytes in a window. -/
def scan {ε : Type} (b : Buffer) (offset maxLimit maxSize : Nat) (lastMask : UInt8) :
    Checked ε Scan := do
  let stop ← Word.add offset maxSize
  scanFrom b maxSize lastMask (min maxLimit stop - offset) offset 0

/-- The most bytes a 32-bit number takes. -/
def maxSize32 : Nat := 5

/-- The most bytes a 64-bit number takes. -/
def maxSize64 : Nat := 10

/-- The bits of a fifth byte that a 32-bit number has no room for. -/
def lastMask32 : UInt8 := 0xf0

/-- The bits of a tenth byte that a 64-bit number has no room for. -/
def lastMask64 : UInt8 := 0xfe

/-- The high bits of eight bytes taken as one word. -/
def continuationLanes : Nat := 0x8080808080808080

/-- Find the end of an encoding of a 32-bit number. -/
def scan32 {ε : Type} (b : Buffer) (offset maxLimit : Nat) : Checked ε Scan :=
  scan b offset maxLimit maxSize32 lastMask32

/-- Find the end of an encoding of a 64-bit number. With ten bytes at hand the
    first eight are tested at once. -/
def scan64 {ε : Type} (b : Buffer) (offset maxLimit : Nat) : Checked ε Scan := do
  let remaining ← Word.sub maxLimit offset
  let long ←
    if maxSize64 ≤ remaining then do
      let lanes ← b.slice offset (offset + 8)
      if Bytes.toNatLE lanes &&& continuationLanes = continuationLanes then do
        let ninth ← b.byteAt (offset + 8)
        pure (ninth &&& 0x80 ≠ 0 : Bool)
      else pure false
    else pure false
  if long then do
    let tenth ← b.byteAt (offset + 9)
    return if tenth &&& lastMask64 ≠ 0 then .overflow else .complete maxSize64
  else scan b offset maxLimit maxSize64 lastMask64

/-- The zigzagged number at the front of some bytes, and its size. -/
def decode64 (bytes : Bytes) : Checked Refusal (Int × Nat) := do
  let b := Buffer.ofBytes bytes
  match ← scan64 b 0 b.size with
  | .complete size => do
      let raw ← decodeAt b 0 size
      return (unzigzag raw, size)
  | .truncated => Checked.refuse (.malformed "varint64" 0)
  | .overflow => Checked.refuse (.varintOverflow "varint64" 0 64)

end Varint

/-- The variable-width integer types. -/
inductive VarInt where
  /-- Unsigned, 32 bits. -/
  | varuint32
  /-- Unsigned, 32 bits, shifted by one to make room for -1. -/
  | varuint32n
  /-- Signed, 32 bits. -/
  | varint32
  /-- Signed, 64 bits. -/
  | varint64
  deriving DecidableEq, Inhabited

namespace VarInt

/-- The name of the type. -/
def name : VarInt → String
  | .varuint32 => "varuint32"
  | .varuint32n => "varuint32n"
  | .varint32 => "varint32"
  | .varint64 => "varint64"

/-- The number of bits of an encoded number. -/
def bits : VarInt → Nat
  | .varuint32 | .varuint32n | .varint32 => 32
  | .varint64 => 64

/-- The most bytes of an encoding. -/
def maxSize : VarInt → Nat
  | .varuint32 | .varuint32n | .varint32 => 5
  | .varint64 => 10

/-- The least value of the type. -/
def minValue : VarInt → Int
  | .varuint32 => 0
  | .varuint32n => -1
  | .varint32 => -2 ^ (31 : Nat)
  | .varint64 => -2 ^ (63 : Nat)

/-- The greatest value of the type. -/
def maxValue : VarInt → Int
  | .varuint32 => 2 ^ (32 : Nat) - 1
  | .varuint32n => 0x0FFFFFFF
  | .varint32 => 2 ^ (31 : Nat) - 1
  | .varint64 => 2 ^ (63 : Nat) - 1

/-- Find the end of an encoding of the type. -/
def scan {ε : Type} (k : VarInt) (b : Buffer) (offset maxLimit : Nat) : Checked ε Varint.Scan :=
  match k with
  | .varuint32 | .varuint32n | .varint32 => Varint.scan32 b offset maxLimit
  | .varint64 => Varint.scan64 b offset maxLimit

/-- The number that stands for a value of the type's range. -/
def represent : VarInt → Int → Nat
  | .varuint32, value => value.toNat
  | .varuint32n, value => (value + 1).toNat
  | .varint32, value | .varint64, value => zigzag value

/-- The number that stands for a value, refused outside the range of the type. -/
def encode (k : VarInt) (value : Int) : Checked Refusal Nat :=
  if k.minValue ≤ value ∧ value ≤ k.maxValue then .ok (k.represent value)
  else .error (.refused (.valueOutOfRange k.name value))

/-- The value a number stands for. The nullable type wraps around in 32 bits. -/
def decode : VarInt → Nat → Int
  | .varuint32, raw => (raw % 2 ^ (32 : Nat) : Nat)
  | .varuint32n, raw => Int.bmod (raw - 1) (2 ^ (32 : Nat))
  | .varint32, raw => unzigzag (raw % 2 ^ (32 : Nat))
  | .varint64, raw => unzigzag raw

/-- A window that starts with an encoding of known size. -/
structure Reader where
  kind : VarInt
  window : Window
  size : Nat
  deriving DecidableEq

namespace Reader

/-- Bind to a window, which has to start with an encoding of the type. -/
def wrap (kind : VarInt) (buffer : Buffer) (offset maxLimit : Nat) : Checked Refusal Reader := do
  let window ← Window.wrap buffer offset maxLimit
  let first ← Word.add offset 1
  checkLimit first maxLimit
  match ← kind.scan buffer offset maxLimit with
  | .complete size => return ⟨kind, window, size⟩
  | .truncated => do
      let beyond ← Word.add maxLimit 1
      Checked.refuse (.limitExceeded beyond maxLimit)
  | .overflow => Checked.refuse (.varintOverflow kind.name offset kind.bits)

/-- Bind to a window if it starts with an encoding of the type. -/
def tryWrap (kind : VarInt) (buffer : Buffer) (offset maxLimit : Nat) :
    Checked Refusal (Option Reader) :=
  match Window.tryWrap buffer offset maxLimit with
  | none => .ok none
  | some window =>
      if window.remaining < 1 then .ok none
      else do
        match ← kind.scan buffer offset maxLimit with
        | .complete size => return some ⟨kind, window, size⟩
        | .truncated | .overflow => return none

/-- The position past the encoding. -/
def limit (r : Reader) : Nat :=
  r.window.offset + r.size

/-- The integer. -/
def value (r : Reader) : Checked Refusal Int := do
  let raw ← Varint.decodeAt r.window.buffer r.window.offset r.size
  return r.kind.decode raw

end Reader

/-- An integer being written. -/
structure Builder where
  kind : VarInt
  cursor : Cursor
  isSet : Bool

namespace Builder

/-- Start in a window, which has to have room for one byte. That room is looked
    at before the window itself. -/
def wrap (kind : VarInt) (buffer : Buffer) (offset maxLimit : Nat) : Checked Refusal Builder := do
  let first ← Word.add offset 1
  checkLimit first maxLimit
  let cursor ← Cursor.wrap buffer offset maxLimit
  return ⟨kind, cursor, false⟩

/-- Write a value. -/
def set (b : Builder) (value : Int) : Outcome Refusal Builder Unit :=
  (b.cursor.assign (Varint.encoding <$> b.kind.encode value)).mapState
      (fun cursor => { b with cursor := cursor })
    |>.onSuccess fun b => { b with isSet := true }

/-- The reader over the written integer. -/
def build (b : Builder) : Checked Refusal Reader := do
  if b.isSet then Reader.wrap b.kind b.cursor.buffer b.cursor.offset b.cursor.limit
  else Checked.refuse .valueNotSet

end Builder

end VarInt

end Wireform
