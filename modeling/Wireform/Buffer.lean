import Wireform.Refusal

/-!
# Byte buffers

A buffer is a fixed number of bytes that readers look into and builders write
over. Its content is held in an array so that writing in place is cheap, and
everything said about it goes through its list of bytes: `slice` is a segment
of that list, and `overwrite` replaces a segment of it.

Integers enter a buffer as a fixed number of base-256 digits, least significant
first. `toNatLE` and `ofNatLE` are the two directions on lists of bytes; network
order is the reversed list.

## Main definitions

* `Bytes`: A list of bytes.
* `toNatLE`, `ofNatLE`: Little-endian numbers of any width.
* `Buffer`: A block of bytes.
* `Buffer.slice`: The bytes between two positions, which stops outside the buffer.
* `Buffer.overwrite`: The buffer with some bytes replaced.
-/

namespace Wireform

/-- A sequence of bytes. -/
abbrev Bytes : Type := List UInt8

namespace Bytes

/-- The number whose base-256 digits are the bytes, least significant first. -/
def toNatLE (bytes : Bytes) : Nat :=
  bytes.foldr (fun byte high => byte.toNat + 256 * high) 0

/-- The low `width` base-256 digits of a number, least significant first. -/
def ofNatLE : Nat → Nat → Bytes
  | 0, _ => []
  | width + 1, value => UInt8.ofNat value :: ofNatLE width (value / 256)

@[simp]
theorem length_ofNatLE (width value : Nat) : (ofNatLE width value).length = width := by
  induction width generalizing value with
  | zero => rfl
  | succ width ih => simp [ofNatLE, ih]

end Bytes

/-- A block of bytes of fixed size. -/
structure Buffer where
  data : Array UInt8
  deriving DecidableEq, Inhabited

namespace Buffer

/-- The buffer that holds the given bytes. -/
def ofBytes (bytes : Bytes) : Buffer :=
  ⟨bytes.toArray⟩

/-- The content of the buffer. -/
def toBytes (b : Buffer) : Bytes :=
  b.data.toList

/-- The number of bytes in the buffer. -/
def size (b : Buffer) : Nat :=
  b.data.size

/-- The byte at a position, which stops outside the buffer. -/
def byteAt {ε : Type} (b : Buffer) (position : Nat) : Checked ε UInt8 :=
  match b.data[position]? with
  | some byte => .ok byte
  | none => .error .stopped

/-- The bytes in `[start, stop)`, which stops unless that is a segment of the
    buffer. -/
def slice {ε : Type} (b : Buffer) (start stop : Nat) : Checked ε Bytes :=
  if start ≤ stop ∧ stop ≤ b.size then .ok (b.data.extract start stop).toList
  else .error .stopped

/-- The buffer with `bytes` written from `position` on. Bytes that would fall
    behind the end are dropped. -/
def overwrite (b : Buffer) (position : Nat) : Bytes → Buffer
  | [] => b
  | byte :: rest => overwrite ⟨b.data.setIfInBounds position byte⟩ (position + 1) rest

@[simp]
theorem size_overwrite (b : Buffer) (position : Nat) (bytes : Bytes) :
    (b.overwrite position bytes).size = b.size := by
  induction bytes generalizing b position with
  | nil => rfl
  | cons byte rest ih => rw [overwrite, ih]; simp [size]

end Buffer

end Wireform
