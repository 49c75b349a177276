import Wireform.Buffer

/-!
# Prefix widths

Lengths and counts stand in front of what they measure as little-endian numbers
of 0, 8, 16 or 32 bits. Width zero means that there is no prefix: the end of
the window takes its place.

Lists, arrays and maps always have their two prefixes, so they are indexed by
`SequenceWidth`, which leaves the zero out.

## Main definitions

* `Width`: Width of a length prefix.
* `Width.bytes`, `Width.greatest`: What schemas say of a prefix.
* `Width.size`, `Width.maxValue`: What encodings have there.
* `Width.read`, `Width.write`: A prefix in a buffer.
* `SequenceWidth`: Width of a length and count prefix.
-/

namespace Wireform

/-- Width of a length prefix. -/
inductive Width where
  | zero
  | eight
  | sixteen
  | thirtyTwo
  deriving DecidableEq, Inhabited

namespace Width

/-- The number of bits in the prefix. -/
def bits : Width → Nat
  | .zero => 0
  | .eight => 8
  | .sixteen => 16
  | .thirtyTwo => 32

/-- The number of bytes in the prefix, as a schema reckons it. -/
def bytes (w : Width) : Nat :=
  w.bits / 8

/-- The largest number in the prefix, as a schema reckons it. -/
def greatest : Width → Nat
  | .zero => 0
  | w => 2 ^ w.bits - 1

/-- The number of bytes in the prefix of an encoding. -/
def size : Width → Nat
  | .zero => 0
  | .eight => 1
  | .sixteen => 2
  | .thirtyTwo => 4

/-- The largest number that the prefix of an encoding holds. For strings it marks
    the null value. -/
def maxValue : Width → Nat
  | .zero => 0
  | .eight => 0xFF
  | .sixteen => 0xFFFF
  | .thirtyTwo => 0xFFFFFFFF

/-- The width with the given number of bits. -/
def ofBits? : Nat → Option Width
  | 0 => some .zero
  | 8 => some .eight
  | 16 => some .sixteen
  | 32 => some .thirtyTwo
  | _ => none

/-- The report on a number of bits that is no width. -/
def invalidMessage (bits : Nat) : String :=
  s!"invalid prefix width {bits}, expected 0, 8, 16 or 32"

/-- The prefix at a position. -/
def read {ε : Type} (w : Width) (b : Buffer) (position : Nat) : Checked ε Nat := do
  let stop ← Word.add position w.size
  let bytes ← b.slice position stop
  return Bytes.toNatLE bytes

/-- The buffer with the low bytes of `value` as the prefix at a position. -/
def write {ε : Type} (w : Width) (b : Buffer) (position value : Nat) : Checked ε Buffer := do
  let stop ← Word.add position w.size
  if stop ≤ b.size then return b.overwrite position (Bytes.ofNatLE w.size value)
  else Checked.stop

@[simp]
theorem ofBits?_bits (w : Width) : ofBits? w.bits = some w := by
  cases w <;> rfl

theorem bytes_eq_size (w : Width) : w.bytes = w.size := by
  cases w <;> rfl

theorem greatest_eq_maxValue (w : Width) : w.greatest = w.maxValue := by
  cases w <;> rfl

end Width

/-- Width of the length and count prefixes of a list, an array or a map. -/
inductive SequenceWidth where
  | eight
  | sixteen
  | thirtyTwo
  deriving DecidableEq, Inhabited

namespace SequenceWidth

/-- The same width among those of length prefixes. -/
def width : SequenceWidth → Width
  | .eight => .eight
  | .sixteen => .sixteen
  | .thirtyTwo => .thirtyTwo

/-- The number of bytes in each of the two prefixes. -/
def size (w : SequenceWidth) : Nat :=
  w.width.size

/-- The largest length and the largest count the prefixes hold. -/
def maxValue (w : SequenceWidth) : Nat :=
  w.width.maxValue

end SequenceWidth

end Wireform
