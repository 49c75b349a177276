import Wireform.Width

/-!
# Windows and write positions

A reader looks at a *window*: the bytes of a buffer from an offset up to a
maximal limit. A builder writes into a window and remembers how far it has come;
that is a *cursor*. Both check their bounds with the same two tests,
`checkWindow` when a window is chosen and `checkLimit` before a position in it
is used.

Some builder steps hand part of the window to a *visitor*, which writes what it
likes there and reports a number of bytes. The report is checked after the
visitor has written, so a refused visit may leave bytes behind. `Cursor.visit`
and `Cursor.visitCapped` therefore yield an `Outcome`. So does every other
operation that goes on after it has written: `Cursor.place` moves the write
position, and the test of the new position comes after the bytes.

## Main definitions

* `checkLimit`, `checkWindow`: The two bounds tests.
* `Window`: A validated window, with `Window.wrap` and `Window.tryWrap`.
* `Cursor`: A window under construction and its write position.
* `Cursor.place`, `Cursor.assign`: A write that moves the write position.
* `Visitor`: Bytes to put in front of a window, and the number reported.
-/

namespace Wireform

/-- Refuses unless `limit ≤ maxLimit`. -/
def checkLimit (limit maxLimit : Nat) : Checked Refusal Unit :=
  if limit > maxLimit then .error (.refused (.limitExceeded limit maxLimit)) else .ok ()

/-- Refuses unless `offset ≤ maxLimit ≤ capacity`. The capacity is looked at
    first. -/
def checkWindow (capacity offset maxLimit : Nat) : Checked Refusal Unit :=
  if maxLimit > capacity then .error (.refused (.capacityExceeded maxLimit capacity))
  else if offset > maxLimit then .error (.refused (.offsetBeyondLimit offset maxLimit))
  else .ok ()

/-- The part `[offset, maxLimit)` of a buffer. -/
structure Window where
  buffer : Buffer
  offset : Nat
  maxLimit : Nat
  deriving DecidableEq

namespace Window

/-- The window, if it lies inside the buffer. -/
def wrap (buffer : Buffer) (offset maxLimit : Nat) : Checked Refusal Window := do
  checkWindow buffer.size offset maxLimit
  return ⟨buffer, offset, maxLimit⟩

/-- The window, or nothing where `wrap` would refuse. -/
def tryWrap (buffer : Buffer) (offset maxLimit : Nat) : Option Window :=
  match checkWindow buffer.size offset maxLimit with
  | .ok _ => some ⟨buffer, offset, maxLimit⟩
  | .error _ => none

/-- The number of bytes in the window. -/
def remaining (w : Window) : Nat :=
  w.maxLimit - w.offset

end Window

/-- What a visitor does with the window it is given: it puts as many of `bytes`
    as fit at the front, and says that it has written `report` bytes. -/
structure Visitor where
  bytes : Bytes
  report : Nat

/-- The bytes of a value, and the size that was reckoned for them up front. -/
structure Encoding where
  size : Nat
  bytes : Bytes
  length_bytes : bytes.length = size

/-- A window being written. `limit` is the write position. -/
structure Cursor where
  buffer : Buffer
  offset : Nat
  maxLimit : Nat
  limit : Nat
  deriving DecidableEq

namespace Cursor

/-- A cursor at the start of the window, if that lies inside the buffer. -/
def wrap (buffer : Buffer) (offset maxLimit : Nat) : Checked Refusal Cursor := do
  checkWindow buffer.size offset maxLimit
  return ⟨buffer, offset, maxLimit, offset⟩

/-- Move the write position. -/
def setLimit (c : Cursor) (limit : Nat) : Checked Refusal Cursor := do
  checkLimit limit c.maxLimit
  return { c with limit := limit }

/-- The end of a segment of `length` bytes at a position, once it is known to
    lie before the maximal limit. -/
def segmentEnd (c : Cursor) (position length : Nat) : Checked Refusal Nat := do
  let stop ← Word.add position length
  checkLimit stop c.maxLimit
  if stop ≤ c.buffer.size then return stop else Checked.stop

/-- The bytes of a segment inside the window. -/
def segment (c : Cursor) (position length : Nat) : Checked Refusal Bytes := do
  let stop ← c.segmentEnd position length
  c.buffer.slice position stop

/-- Write `bytes` at a position. The write position stays where it is. -/
def store (c : Cursor) (position : Nat) (bytes : Bytes) : Checked Refusal Cursor := do
  let _ ← c.segmentEnd position bytes.length
  return { c with buffer := c.buffer.overwrite position bytes }

/-- Write `bytes` at a position, and yield the position past them. -/
def put (c : Cursor) (position : Nat) (bytes : Bytes) : Checked Refusal (Nat × Cursor) := do
  let stop ← c.segmentEnd position bytes.length
  return (stop, { c with buffer := c.buffer.overwrite position bytes })

/-- Write `bytes` at a position, and then move the write position to `limit`. The
    bytes are in the buffer by the time that the new position is looked at. -/
def place (c : Cursor) (position : Nat) (bytes : Bytes) (limit : Nat) :
    Outcome Refusal Cursor Unit :=
  (Outcome.ofChecked c (c.store position bytes)).andThen fun _ c =>
    Outcome.ofChecked c (c.setLimit limit)

/-- Place an encoding at the start of the window, if there is one. -/
def assign (c : Cursor) (encoding : Checked Refusal Encoding) : Outcome Refusal Cursor Unit :=
  (Outcome.check c encoding).andThen fun e c => c.place c.offset e.bytes (c.offset + e.size)

/-- The number of bytes from a position to the maximal limit. -/
def room (c : Cursor) (position : Nat) : Checked Refusal Nat := do
  checkLimit position c.maxLimit
  if c.maxLimit ≤ c.buffer.size then return c.maxLimit - position else Checked.stop

/-- The bytes from a position to the maximal limit. -/
def tail (c : Cursor) (position : Nat) : Checked Refusal Bytes := do
  let _ ← c.room position
  c.buffer.slice position c.maxLimit

/-- Give a visitor the `length` bytes from a position on, and check what it
    reports against the maximal limit. -/
def visitIn (c : Cursor) (position length : Nat) (visitor : Visitor) :
    Outcome Refusal Cursor Nat :=
  let written := { c with buffer := c.buffer.overwrite position (visitor.bytes.take length) }
  let result := do
    let stop ← Word.add position visitor.report
    checkLimit stop c.maxLimit
    return stop
  ⟨result, written⟩

/-- Give a visitor everything from a position to the maximal limit, and yield
    the position past the bytes it reports. -/
def visit (c : Cursor) (position : Nat) (visitor : Visitor) : Outcome Refusal Cursor Nat :=
  match c.room position with
  | .ok length => c.visitIn position length visitor
  | .error fault => ⟨.error fault, c⟩

/-- Like `visit`, but the visitor sees at most `cap` bytes. -/
def visitCapped (c : Cursor) (position cap : Nat) (visitor : Visitor) :
    Outcome Refusal Cursor Nat :=
  match c.room position with
  | .ok length => c.visitIn position (min length cap) visitor
  | .error fault => ⟨.error fault, c⟩

end Cursor

/-- A copy of `[offset, offset + length)` of the source bytes. The end of the
    region is a 64-bit sum of two numbers of the caller. -/
def region (source : Bytes) (offset length : Nat) : Checked Refusal Bytes := do
  let stop ← Word.add offset length
  checkLimit stop source.length
  return (source.drop offset).take length

end Wireform
