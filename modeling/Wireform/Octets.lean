import Wireform.Window

/-!
# Octets

Raw bytes, in two forms. Plain octets have no prefix and run to the end of their
window. Bounded octets carry a little-endian length in front and have a largest
length; with a prefix of width zero they run to the end of the window or up to
the bound, whichever comes first.

Their builders replace the bytes written so far or append to them. Bytes may come
from the caller, from a region of another buffer, or from a visitor that writes
into the window itself. Bounded octets patch the prefix after the payload has
been written and its length checked.

## Main definitions

* `Octets.Reader`, `Octets.Builder`: Plain octets.
* `Bounded.Reader`, `Bounded.Builder`: Bounded octets.
* `Placement`: Replace what has been written, or append to it.
-/

namespace Wireform

/-- Where a builder of octets puts new bytes. -/
inductive Placement where
  | replace
  | append
  deriving DecidableEq

namespace Octets

/-- A window taken as octets. -/
structure Reader where
  window : Window
  deriving DecidableEq

namespace Reader

/-- Bind to a window. -/
def wrap (buffer : Buffer) (offset maxLimit : Nat) : Checked Refusal Reader := do
  let window ← Window.wrap buffer offset maxLimit
  return ⟨window⟩

/-- Bind to a window if it lies inside the buffer. -/
def tryWrap (buffer : Buffer) (offset maxLimit : Nat) : Option Reader :=
  (Window.tryWrap buffer offset maxLimit).map Reader.mk

/-- The end of the window. -/
def limit (r : Reader) : Nat :=
  r.window.maxLimit

/-- The number of bytes. -/
def length (r : Reader) : Nat :=
  r.window.remaining

/-- The bytes. -/
def value (r : Reader) : Checked Refusal Bytes :=
  r.window.buffer.slice r.window.offset r.window.maxLimit

end Reader

/-- Octets being written. -/
structure Builder where
  cursor : Cursor

namespace Builder

/-- Start in a window. -/
def wrap (buffer : Buffer) (offset maxLimit : Nat) : Checked Refusal Builder := do
  let cursor ← Cursor.wrap buffer offset maxLimit
  return ⟨cursor⟩

/-- The position at which a placement writes. -/
def position (b : Builder) : Placement → Nat
  | .replace => b.cursor.offset
  | .append => b.cursor.limit

/-- Write bytes. -/
def write (b : Builder) (placement : Placement) (bytes : Bytes) : Outcome Refusal Builder Unit :=
  let position := b.position placement
  (b.cursor.place position bytes (position + bytes.length)).mapState Builder.mk

/-- Let a visitor write. -/
def visit (b : Builder) (placement : Placement) (visitor : Visitor) :
    Outcome Refusal Builder Unit :=
  let visited := b.cursor.visit (b.position placement) visitor
  visited.andThen (fun stop cursor => Outcome.ofChecked cursor (cursor.setLimit stop))
    |>.mapState Builder.mk

/-- The reader over the written bytes, which may be none. -/
def build (b : Builder) : Checked Refusal Reader :=
  Reader.wrap b.cursor.buffer b.cursor.offset b.cursor.limit

end Builder

end Octets

namespace Bounded

/-- The largest length a prefix describes; without a prefix, every length. -/
def defaultBound : Width → Nat
  | .zero => Word.max
  | w => w.maxValue

/-- A bound cut down to what the prefix describes. -/
def effectiveBound (w : Width) (bound : Nat) : Nat :=
  min bound (defaultBound w)

/-- A window that starts with bounded octets of known length. -/
structure Reader where
  width : Width
  bound : Nat
  window : Window
  length : Nat
  deriving DecidableEq

namespace Reader

/-- The length of the octets at the start of a window. -/
def measure (width : Width) (bound : Nat) (window : Window) : Checked Refusal Nat :=
  if width = .zero then .ok (min window.remaining bound)
  else do
    let payload ← Word.add window.offset width.size
    checkLimit payload window.maxLimit
    let length ← width.read window.buffer window.offset
    if length > bound then Checked.refuse (.lengthExceeded length bound)
    else do
      let stop ← Word.add payload length
      checkLimit stop window.maxLimit
      return length

/-- Bind to a window, which has to hold the prefix and the whole payload. -/
def wrap (width : Width) (bound : Nat) (buffer : Buffer) (offset maxLimit : Nat) :
    Checked Refusal Reader := do
  let window ← Window.wrap buffer offset maxLimit
  let length ← measure width bound window
  return ⟨width, bound, window, length⟩

/-- Bind to a window if it holds the prefix and the whole payload. -/
def tryWrap (width : Width) (bound : Nat) (buffer : Buffer) (offset maxLimit : Nat) :
    Checked Refusal (Option Reader) :=
  match Window.tryWrap buffer offset maxLimit with
  | none => .ok none
  | some window => do
      let length ← Checked.speculate (measure width bound window)
      return length.map fun length => ⟨width, bound, window, length⟩

/-- The position of the payload. -/
def payload (r : Reader) : Nat :=
  r.window.offset + r.width.size

/-- The position past the payload. -/
def limit (r : Reader) : Nat :=
  r.window.offset + r.width.size + r.length

/-- The payload. -/
def value (r : Reader) : Checked Refusal Bytes :=
  r.window.buffer.slice r.payload (r.payload + r.length)

end Reader

/-- Bounded octets being written; `length` is that of the payload so far. -/
structure Builder where
  width : Width
  bound : Nat
  length : Nat
  cursor : Cursor
  isSet : Bool

namespace Builder

/-- Start in a window, which has to have room for the prefix. -/
def wrap (width : Width) (buffer : Buffer) (offset maxLimit : Nat) : Checked Refusal Builder := do
  let cursor ← Cursor.wrap buffer offset maxLimit
  let payload ← Word.add offset width.size
  checkLimit payload maxLimit
  return ⟨width, defaultBound width, 0, cursor, false⟩

/-- Change the bound for the steps to come. What has been written stays. -/
def withBound (b : Builder) (bound : Nat) : Builder :=
  { b with bound := effectiveBound b.width bound }

/-- Refuses a payload longer than the bound. -/
def checkBound (b : Builder) (length : Nat) : Checked Refusal Unit :=
  if length > b.bound then .error (.refused (.lengthExceeded length b.bound)) else .ok ()

/-- The place in the payload at which a placement writes. -/
def start (b : Builder) : Placement → Nat
  | .replace => 0
  | .append => b.length

/-- The position at which a placement writes. -/
def position (b : Builder) (placement : Placement) : Nat :=
  b.cursor.offset + b.width.size + b.start placement

/-- The length of a payload that ends at `stop`, refused beyond the bound. -/
def lengthTo (b : Builder) (stop : Nat) : Checked Refusal Nat := do
  let length ← Word.sub stop (b.cursor.offset + b.width.size)
  b.checkBound length
  return length

/-- Take a payload that ends at `stop` into account: check its length, patch the
    prefix and move the write position, one after the other. -/
def settle (b : Builder) (stop : Nat) : Outcome Refusal Builder Unit :=
  (Outcome.check b (b.lengthTo stop)).andThen fun length b =>
    (b.cursor.place b.cursor.offset (Bytes.ofNatLE b.width.size length) stop).mapState
        (fun cursor => { b with cursor := cursor })
      |>.onSuccess fun b => { b with length := length, isSet := true }

/-- Refuses bytes that would make the payload longer than the bound. -/
def checkAdded (b : Builder) (placement : Placement) (bytes : Bytes) : Checked Refusal Unit := do
  let length ← Word.add (b.start placement) bytes.length
  b.checkBound length

/-- Write bytes. The bound is looked at before, and once more when they are taken
    into account. -/
def write (b : Builder) (placement : Placement) (bytes : Bytes) : Outcome Refusal Builder Unit :=
  (Outcome.check b (b.checkAdded placement bytes)).andThen fun _ b =>
    (Outcome.ofAnswer b.cursor (b.cursor.put (b.position placement) bytes)).mapState
        (fun cursor => { b with cursor := cursor })
      |>.andThen fun stop written => written.settle stop

/-- The number of bytes that the bound leaves for a placement. It stops where
    the bound was lowered below what is already there. -/
def allowance (b : Builder) (placement : Placement) : Checked Refusal Nat :=
  Word.sub b.bound (b.start placement)

/-- Let a visitor write into a window no larger than the bound. -/
def visit (b : Builder) (placement : Placement) (visitor : Visitor) :
    Outcome Refusal Builder Unit :=
  match b.allowance placement with
  | .error fault => ⟨.error fault, b⟩
  | .ok cap =>
      let visited := b.cursor.visitCapped (b.position placement) cap visitor
      visited.mapState (fun cursor => { b with cursor := cursor })
        |>.andThen fun stop written => written.settle stop

/-- The reader over the written octets. They are read under the largest bound of
    the prefix, and the reader then takes the builder's bound. -/
def build (b : Builder) : Checked Refusal Reader := do
  if b.isSet then do
    let reader ←
      Reader.wrap b.width (defaultBound b.width) b.cursor.buffer b.cursor.offset b.cursor.limit
    return { reader with bound := b.bound }
  else Checked.refuse .valueNotSet

end Builder

end Bounded

end Wireform
