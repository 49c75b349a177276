import Wireform.Integer.Varint
import Wireform.Text.Charset

/-!
# Strings

Character data with its length in front. The prefix has 0, 8, 16 or 32 bits, or
is a zigzag varint. The largest number of a fixed prefix, and -1 in a varint,
stand for the null string, so a payload is always shorter than the prefix could
count. A string without a prefix runs to the end of its window and is never null.

Prefix and payload are written under one bounds check: either both are there or
nothing has changed.

## Main definitions

* `Strings.Reader`, `Strings.Builder`: Strings with a prefix of fixed width.
* `VarStrings.Reader`, `VarStrings.Builder`: Strings with a varint prefix.
-/

namespace Wireform

namespace Strings

/-- The name of the string type with a prefix of the given width. -/
def name : Width → String
  | .zero => "string"
  | .eight => "string8"
  | .sixteen => "string16"
  | .thirtyTwo => "string32"

/-- A window that starts with a string. The length is absent for the null
    string. -/
structure Reader where
  width : Width
  window : Window
  length : Option Nat
  deriving DecidableEq

namespace Reader

/-- The length of the string at the start of a window. -/
def measure (width : Width) (window : Window) : Checked Refusal (Option Nat) :=
  if width = .zero then .ok (some window.remaining)
  else do
    let payload ← Word.add window.offset width.size
    checkLimit payload window.maxLimit
    let raw ← width.read window.buffer window.offset
    if raw = width.maxValue then return none
    else do
      let stop ← Word.add payload raw
      checkLimit stop window.maxLimit
      return some raw

/-- Bind to a window, which has to hold the prefix and the whole payload. -/
def wrap (width : Width) (buffer : Buffer) (offset maxLimit : Nat) : Checked Refusal Reader := do
  let window ← Window.wrap buffer offset maxLimit
  let length ← measure width window
  return ⟨width, window, length⟩

/-- Bind to a window if it holds the prefix and the whole payload. -/
def tryWrap (width : Width) (buffer : Buffer) (offset maxLimit : Nat) :
    Checked Refusal (Option Reader) :=
  match Window.tryWrap buffer offset maxLimit with
  | none => .ok none
  | some window => do
      let length ← Checked.speculate (measure width window)
      return length.map fun length => ⟨width, window, length⟩

/-- The number of bytes of the prefix. -/
def prefixSize (r : Reader) : Nat :=
  r.width.size

/-- The position past the string. -/
def limit (r : Reader) : Nat :=
  r.window.offset + r.width.size + r.length.getD 0

/-- The payload, absent for the null string. -/
def payload (r : Reader) : Checked Refusal (Option Bytes) :=
  match r.length with
  | none => .ok none
  | some length => do
      let start := r.window.offset + r.width.size
      let bytes ← r.window.buffer.slice start (start + length)
      return some bytes

end Reader

/-- A string being written. -/
structure Builder where
  width : Width
  cursor : Cursor
  isSet : Bool

namespace Builder

/-- Start in a window, which has to have room for the prefix. -/
def wrap (width : Width) (buffer : Buffer) (offset maxLimit : Nat) : Checked Refusal Builder := do
  let cursor ← Cursor.wrap buffer offset maxLimit
  let payload ← Word.add offset width.size
  checkLimit payload maxLimit
  return ⟨width, cursor, false⟩

/-- The number to put into the prefix for a payload or for null. -/
def prefixValue (width : Width) : Option Bytes → Checked Refusal Nat
  | none =>
      if width = .zero then .error (.refused (.nullNotSupported (name width)))
      else .ok width.maxValue
  | some bytes =>
      if width ≠ .zero ∧ bytes.length ≥ width.maxValue then
        .error (.refused (.lengthExceeded bytes.length (width.maxValue - 1)))
      else .ok bytes.length

/-- The prefix and the payload behind it. -/
def prefixed (width : Width) (payload : Bytes) (raw : Nat) : Encoding where
  size := width.size + payload.length
  bytes := Bytes.ofNatLE width.size raw ++ payload
  length_bytes := by rw [List.length_append, Bytes.length_ofNatLE]

/-- Write a payload, or null. -/
def write (b : Builder) (payload : Option Bytes) : Outcome Refusal Builder Unit :=
  (b.cursor.assign (prefixed b.width (payload.getD []) <$> prefixValue b.width payload)).mapState
      (fun cursor => { b with cursor := cursor })
    |>.onSuccess fun b => { b with isSet := true }

/-- The reader over the written string. -/
def build (b : Builder) : Checked Refusal Reader := do
  if b.isSet then Reader.wrap b.width b.cursor.buffer b.cursor.offset b.cursor.limit
  else Checked.refuse .valueNotSet

end Builder

end Strings

namespace VarStrings

/-- A window that starts with a string whose length is a varint. -/
structure Reader where
  window : Window
  prefixSize : Nat
  length : Option Nat
  deriving DecidableEq

namespace Reader

/-- The size of the prefix and the length of the string at the start of a
    window. -/
def measure (window : Window) : Checked Refusal (Nat × Option Nat) := do
  let first ← Word.add window.offset 1
  checkLimit first window.maxLimit
  match ← Varint.scan32 window.buffer window.offset window.maxLimit with
  | .truncated => do
      let beyond ← Word.add window.maxLimit 1
      Checked.refuse (.limitExceeded beyond window.maxLimit)
  | .overflow => Checked.refuse (.varintOverflow "varstring" window.offset 32)
  | .complete size => do
      let raw ← Varint.decodeAt window.buffer window.offset size
      let length := unzigzag (raw % 2 ^ (32 : Nat))
      if length = -1 then return (size, none)
      else if length < -1 then Checked.refuse (.malformed "varstring" window.offset)
      else do
        let payload ← Word.add window.offset size
        let stop ← Word.add payload length.toNat
        checkLimit stop window.maxLimit
        return (size, some length.toNat)

/-- Bind to a window, which has to hold the prefix and the whole payload. -/
def wrap (buffer : Buffer) (offset maxLimit : Nat) : Checked Refusal Reader := do
  let window ← Window.wrap buffer offset maxLimit
  let (size, length) ← measure window
  return ⟨window, size, length⟩

/-- Bind to a window if it holds the prefix and the whole payload. -/
def tryWrap (buffer : Buffer) (offset maxLimit : Nat) : Checked Refusal (Option Reader) :=
  match Window.tryWrap buffer offset maxLimit with
  | none => .ok none
  | some window => do
      let measured ← Checked.speculate (measure window)
      return measured.map fun (size, length) => ⟨window, size, length⟩

/-- The position past the string. -/
def limit (r : Reader) : Nat :=
  r.window.offset + r.prefixSize + r.length.getD 0

/-- The payload, absent for the null string. -/
def payload (r : Reader) : Checked Refusal (Option Bytes) :=
  match r.length with
  | none => .ok none
  | some length => do
      let start := r.window.offset + r.prefixSize
      let bytes ← r.window.buffer.slice start (start + length)
      return some bytes

end Reader

/-- A string being written. Left unset, it is built as null. -/
structure Builder where
  cursor : Cursor
  isSet : Bool

namespace Builder

/-- Start in a window. -/
def wrap (buffer : Buffer) (offset maxLimit : Nat) : Checked Refusal Builder := do
  let cursor ← Cursor.wrap buffer offset maxLimit
  return ⟨cursor, false⟩

/-- The largest length of a payload. -/
def maxLength : Nat := 2 ^ (31 : Nat) - 1

/-- The number to put into the prefix for a payload or for null. -/
def prefixValue : Option Bytes → Checked Refusal Nat
  | none => .ok (zigzag (-1))
  | some bytes =>
      if bytes.length > maxLength then
        .error (.refused (.lengthExceeded bytes.length maxLength))
      else .ok (zigzag bytes.length)

/-- The prefix and the payload behind it. -/
def prefixed (payload : Bytes) (raw : Nat) : Encoding where
  size := Varint.encodedSize raw + payload.length
  bytes := Varint.groups raw ++ payload
  length_bytes := by rw [List.length_append, Varint.length_groups]

/-- Write a payload, or null. -/
def write (b : Builder) (payload : Option Bytes) : Outcome Refusal Builder Unit :=
  (b.cursor.assign (prefixed (payload.getD []) <$> prefixValue payload)).mapState
      (fun cursor => { b with cursor := cursor })
    |>.onSuccess fun b => { b with isSet := true }

/-- Write null in place of a value that was never set. -/
def settle (b : Builder) : Outcome Refusal Builder Unit :=
  if b.isSet then ⟨.ok (), b⟩ else b.write none

end Builder

end VarStrings

end Wireform
