import Wireform.Window

/-!
# Lists, arrays and maps

Every list-shaped value except the empty list has one layout: a length, a count
and the fields. Length and count have the same width, least significant byte
first; the length counts every byte after itself, the count included.

A builder reserves room for both prefixes, lets the fields be written one after
another, and fills the prefixes in at the end. A field comes from a visitor, from
bytes that are encoded already, or from a nested writer that is handed the whole
buffer and answers with the position it has reached.

## Main definitions

* `Sequence`: The decoded prefixes of a list-shaped value.
* `Sequence.walk`: Step over a number of consecutive values.
* `Sequence.Builder`: A list-shaped value being written.
* `EmptyList.Builder`: The list without prefixes, which takes no fields.
-/

namespace Wireform

/-- A window that starts with a list-shaped value. -/
structure Sequence where
  width : SequenceWidth
  window : Window
  length : Nat
  count : Nat
  deriving DecidableEq

namespace Sequence

/-- The prefixes at the start of a window, which has to hold all the bytes they
    announce. -/
def measure (width : SequenceWidth) (window : Window) : Checked Refusal Sequence := do
  let offset := window.offset
  let fields ← Word.add offset (2 * width.size)
  checkLimit fields window.maxLimit
  let length ← width.width.read window.buffer offset
  if length < width.size then Checked.refuse (.malformed "list" offset)
  else do
    let counted ← Word.add offset width.size
    let stop ← Word.add counted length
    checkLimit stop window.maxLimit
    let count ← width.width.read window.buffer counted
    return ⟨width, window, length, count⟩

/-- Bind to a window. -/
def wrap (width : SequenceWidth) (buffer : Buffer) (offset maxLimit : Nat) :
    Checked Refusal Sequence := do
  let window ← Window.wrap buffer offset maxLimit
  measure width window

/-- Bind to a window if it holds a list-shaped value. -/
def tryWrap (width : SequenceWidth) (buffer : Buffer) (offset maxLimit : Nat) :
    Checked Refusal (Option Sequence) :=
  match Window.tryWrap buffer offset maxLimit with
  | none => .ok none
  | some window => Checked.speculate (measure width window)

/-- The position of the first field. -/
def fieldsOffset (s : Sequence) : Nat :=
  s.window.offset + 2 * s.width.size

/-- The position past the last field. -/
def limit (s : Sequence) : Nat :=
  s.window.offset + s.width.size + s.length

/-- The bytes of the fields. -/
def fields (s : Sequence) : Checked Refusal Bytes :=
  s.window.buffer.slice s.fieldsOffset s.limit

/-- Step over `count` consecutive values from a position. `step` takes the
    position of a value to the position past it. -/
def walk (step : Nat → Checked Refusal Nat) : (count position : Nat) → Checked Refusal Nat
  | 0, position => .ok position
  | count + 1, position => do
      let next ← step position
      walk step count next

/-- A list-shaped value being written. -/
structure Builder where
  width : SequenceWidth
  cursor : Cursor
  count : Nat

namespace Builder

/-- Start in a window, and leave room for the prefixes. -/
def wrap (width : SequenceWidth) (buffer : Buffer) (offset maxLimit : Nat) :
    Checked Refusal Builder := do
  let cursor ← Cursor.wrap buffer offset maxLimit
  let fields ← Word.add offset (2 * width.size)
  let cursor ← cursor.setLimit fields
  return ⟨width, cursor, 0⟩

/-- Take `count` fields that end at `stop` into account. Limit and count go up
    together: where the count leaves the 64-bit range, there is no builder any
    more whose limit could be looked at. -/
def advance (b : Builder) (count stop : Nat) : Checked Refusal Builder := do
  let cursor ← b.cursor.setLimit stop
  let total ← Word.add b.count count
  return { b with cursor := cursor, count := total }

/-- Let a visitor write `count` fields. -/
def fields (b : Builder) (count : Nat) (visitor : Visitor) : Outcome Refusal Builder Unit :=
  let visited := b.cursor.visit b.cursor.limit visitor
  visited.mapState (fun cursor => { b with cursor := cursor })
    |>.andThen fun stop written => Outcome.ofChecked written (written.advance count stop)

/-- Append `count` fields that are encoded already. -/
def fieldsFrom (b : Builder) (count : Nat) (bytes : Bytes) : Outcome Refusal Builder Unit :=
  let written := Outcome.ofAnswer b.cursor (b.cursor.put b.cursor.limit bytes)
  written.mapState (fun cursor => { b with cursor := cursor })
    |>.andThen fun stop written => Outcome.ofChecked written (written.advance count stop)

/-- Append one field with a nested writer, which gets the buffer, the position
    and the maximal limit and answers with the position past the field. -/
def item (b : Builder) (write : Buffer → Nat → Nat → Outcome Refusal Buffer Nat) :
    Outcome Refusal Builder Unit :=
  let start := b.cursor.limit
  let nested := write b.cursor.buffer start b.cursor.maxLimit
  nested.mapState (fun buffer => { b with cursor := { b.cursor with buffer := buffer } })
    |>.andThen fun stop written =>
      if stop < start then ⟨.error (.refused (.malformed "list item" start)), written⟩
      else Outcome.ofChecked written (written.advance 1 stop)

/-- Fill in the prefixes, refused where the length or the count does not fit. -/
def finish (b : Builder) : Checked Refusal Cursor := do
  let offset := b.cursor.offset
  let body ← Word.sub b.cursor.limit offset
  let length ← Word.sub body b.width.size
  let max := b.width.maxValue
  if length > max then Checked.refuse (.lengthExceeded length max)
  else if b.count > max then Checked.refuse (.lengthExceeded b.count max)
  else
    b.cursor.store offset
      (Bytes.ofNatLE b.width.size length ++ Bytes.ofNatLE b.width.size b.count)

end Builder

end Sequence

namespace EmptyList

/-- The empty list being written. -/
structure Builder where
  cursor : Cursor

namespace Builder

/-- Start in a window. -/
def wrap (buffer : Buffer) (offset maxLimit : Nat) : Checked Refusal Builder := do
  let cursor ← Cursor.wrap buffer offset maxLimit
  return ⟨cursor⟩

/-- Append `count` fields, of which there may be none only. -/
def fields (b : Builder) (count : Nat) : Checked Refusal Builder :=
  if count ≠ 0 then .error (.refused (.fieldsNotSupported "list0")) else .ok b

end Builder

end EmptyList

end Wireform
