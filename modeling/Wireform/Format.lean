import Wireform.Integer.Fixed
import Wireform.Integer.Varint
import Wireform.Octets
import Wireform.Text.Strings
import Wireform.Sequence

/-!
# Formats and readers

The closed set of wire formats, and the readers bound to encodings of them.
Arrays and maps nest to any depth, so formats form a tree and reading follows it.

A reader is bound in two ways. `Format.wrap` is strict and says why the window
holds no encoding; `Format.tryWrap` is speculative and says only that it does
not. Arrays and maps walk over their elements when they are bound, with the
strict entry point, and produce them later with the speculative one:
`Reader.items` and `Reader.entries` end early should that ever disagree.

## Main definitions

* `Format`: The wire formats.
* `Settings`: Byte order and bound that a reader is given in advance.
* `Reader`: A reader of any format.
* `Format.wrap`, `Format.tryWrap`: Binding a reader to a window.
* `Reader.items`, `Reader.entries`: The elements of an array and of a map.
* `Reader.forEach`, `Reader.matchFirst`, `Reader.anyMatch`: Loops over them.
-/

namespace Wireform

/-- The wire formats. -/
inductive Format where
  | fixed (kind : FixedInt)
  | varint (kind : VarInt)
  | octets
  | bounded (width : Width)
  | string (width : Width)
  | varstring
  /-- The empty list, which takes no bytes. -/
  | emptyList
  | list (width : SequenceWidth)
  | array (width : SequenceWidth) (item : Format)
  | map (width : SequenceWidth) (key value : Format)
  deriving DecidableEq, Inhabited

/-- What a reader or a builder is told in advance: the byte order of fixed-width
    integers and the bound of bounded octets. -/
structure Settings where
  order : Option ByteOrder := none
  bound : Option Nat := none
  deriving DecidableEq, Inhabited

/-- Nothing told in advance. -/
def Settings.default : Settings := {}

/-- A reader bound to an encoding. -/
inductive Reader where
  | fixed (reader : FixedInt.Reader)
  | varint (reader : VarInt.Reader)
  | octets (reader : Octets.Reader)
  | bounded (reader : Bounded.Reader)
  | string (reader : Strings.Reader)
  | varstring (reader : VarStrings.Reader)
  | emptyList (window : Window)
  | list (sequence : Sequence)
  | array (item : Format) (sequence : Sequence)
  | map (key value : Format) (sequence : Sequence)
  deriving DecidableEq

namespace Reader

/-- The window the reader is bound to. -/
def window : Reader → Window
  | .fixed r => r.window
  | .varint r => r.window
  | .octets r => r.window
  | .bounded r => r.window
  | .string r => r.window
  | .varstring r => r.window
  | .emptyList w => w
  | .list s | .array _ s | .map _ _ s => s.window

/-- The position past the encoding. -/
def limit : Reader → Nat
  | .fixed r => r.limit
  | .varint r => r.limit
  | .octets r => r.limit
  | .bounded r => r.limit
  | .string r => r.limit
  | .varstring r => r.limit
  | .emptyList w => w.offset
  | .list s | .array _ s | .map _ _ s => s.limit

/-- The position of the encoding. -/
def offset (r : Reader) : Nat :=
  r.window.offset

/-- The number of bytes of the encoding. -/
def size (r : Reader) : Nat :=
  r.limit - r.offset

/-- The bytes of the encoding, prefixes included. -/
def bytes (r : Reader) : Checked Refusal Bytes :=
  r.window.buffer.slice r.offset r.limit

/-- The payload of octets or of a string; absent for the null string and for
    formats that have none. -/
def payload : Reader → Checked Refusal (Option Bytes)
  | .octets r => some <$> r.value
  | .bounded r => some <$> r.value
  | .string r => r.payload
  | .varstring r => r.payload
  | _ => .ok none

/-- The payload as text in a character set; absent where there is no payload. -/
def text (r : Reader) (charset : Charset) : Checked Refusal (Option String) := do
  let payload ← r.payload
  return payload.map charset.decode

end Reader

namespace Format

/-- Bind a reader to a window, or say why the window holds no encoding. -/
def wrap (buffer : Buffer) : Format → Settings → (offset maxLimit : Nat) → Checked Refusal Reader
  | .fixed kind, settings, offset, maxLimit =>
      .fixed <$> FixedInt.Reader.wrap kind (settings.order.getD .native) buffer offset maxLimit
  | .varint kind, _, offset, maxLimit => .varint <$> VarInt.Reader.wrap kind buffer offset maxLimit
  | .octets, _, offset, maxLimit => .octets <$> Octets.Reader.wrap buffer offset maxLimit
  | .bounded width, settings, offset, maxLimit =>
      let bound := Bounded.effectiveBound width (settings.bound.getD (Bounded.defaultBound width))
      .bounded <$> Bounded.Reader.wrap width bound buffer offset maxLimit
  | .string width, _, offset, maxLimit =>
      .string <$> Strings.Reader.wrap width buffer offset maxLimit
  | .varstring, _, offset, maxLimit => .varstring <$> VarStrings.Reader.wrap buffer offset maxLimit
  | .emptyList, _, offset, maxLimit => .emptyList <$> Window.wrap buffer offset maxLimit
  | .list width, _, offset, maxLimit => .list <$> Sequence.wrap width buffer offset maxLimit
  | .array width item, _, offset, maxLimit => do
      let s ← Sequence.wrap width buffer offset maxLimit
      let past := fun position => Reader.limit <$> wrap buffer item {} position s.limit
      let _ ← Sequence.walk past s.count s.fieldsOffset
      return .array item s
  | .map width key value, _, offset, maxLimit => do
      let s ← Sequence.wrap width buffer offset maxLimit
      if s.count % 2 ≠ 0 then Checked.refuse (.malformed "map" offset)
      else do
        let pastEntry := fun position => do
          let pastKey ← Reader.limit <$> wrap buffer key {} position s.limit
          Reader.limit <$> wrap buffer value {} pastKey s.limit
        let _ ← Sequence.walk pastEntry (s.count / 2) s.fieldsOffset
        return .map key value s

/-- The position past the value of a format at a position. -/
def past (buffer : Buffer) (format : Format) (limit position : Nat) : Checked Refusal Nat :=
  Reader.limit <$> wrap buffer format {} position limit

/-- The position past the entry of a map at a position. -/
def pastEntry (buffer : Buffer) (key value : Format) (limit position : Nat) :
    Checked Refusal Nat := do
  let pastKey ← past buffer key limit position
  past buffer value limit pastKey

/-- Bind a reader to a window if it holds an encoding. Elements are walked over
    with the strict entry point here too. -/
def tryWrap (buffer : Buffer) (format : Format) (settings : Settings) (offset maxLimit : Nat) :
    Checked Refusal (Option Reader) :=
  match format with
  | .fixed kind =>
      let order := settings.order.getD .native
      .ok ((FixedInt.Reader.tryWrap kind order buffer offset maxLimit).map .fixed)
  | .varint kind =>
      (fun r => r.map .varint) <$> VarInt.Reader.tryWrap kind buffer offset maxLimit
  | .octets => .ok ((Octets.Reader.tryWrap buffer offset maxLimit).map .octets)
  | .bounded width =>
      let bound := Bounded.effectiveBound width (settings.bound.getD (Bounded.defaultBound width))
      (fun r => r.map .bounded) <$> Bounded.Reader.tryWrap width bound buffer offset maxLimit
  | .string width =>
      (fun r => r.map .string) <$> Strings.Reader.tryWrap width buffer offset maxLimit
  | .varstring => (fun r => r.map .varstring) <$> VarStrings.Reader.tryWrap buffer offset maxLimit
  | .emptyList => .ok ((Window.tryWrap buffer offset maxLimit).map .emptyList)
  | .list width => (fun s => s.map .list) <$> Sequence.tryWrap width buffer offset maxLimit
  | .array width item => do
      match ← Sequence.tryWrap width buffer offset maxLimit with
      | none => return none
      | some s => do
          let walked ←
            Checked.speculate (Sequence.walk (past buffer item s.limit) s.count s.fieldsOffset)
          return walked.map fun _ => .array item s
  | .map width key value => do
      match ← Sequence.tryWrap width buffer offset maxLimit with
      | none => return none
      | some s =>
          if s.count % 2 ≠ 0 then return none
          else do
            let walked ← Checked.speculate
              (Sequence.walk (pastEntry buffer key value s.limit) (s.count / 2) s.fieldsOffset)
            return walked.map fun _ => .map key value s

end Format

namespace Reader

/-- At most `count` consecutive values from a position, produced one by one
    until one is not there. -/
def produce {α : Type} (next : Nat → Checked Refusal (Option (α × Nat))) :
    (count position : Nat) → Checked Refusal (List α)
  | 0, _ => .ok []
  | count + 1, position => do
      match ← next position with
      | none => return []
      | some (value, past) => do
          let rest ← produce next count past
          return value :: rest

/-- The value of a format at a position of a sequence, and the position past
    it. -/
def elementAt (s : Sequence) (format : Format) (position : Nat) :
    Checked Refusal (Option (Reader × Nat)) := do
  let found ← Format.tryWrap s.window.buffer format {} position s.limit
  return found.map fun r => (r, r.limit)

/-- The elements of an array; nothing for other formats. -/
def items : Reader → Checked Refusal (List Reader)
  | .array item s => produce (elementAt s item) s.count s.fieldsOffset
  | _ => .ok []

/-- The entry of a map at a position, and the position past it. -/
def entryAt (s : Sequence) (key value : Format) (position : Nat) :
    Checked Refusal (Option ((Reader × Reader) × Nat)) := do
  match ← elementAt s key position with
  | none => return none
  | some (k, pastKey) => do
      match ← elementAt s value pastKey with
      | none => return none
      | some (v, pastValue) => return some ((k, v), pastValue)

/-- The entries of a map; nothing for other formats. -/
def entries : Reader → Checked Refusal (List (Reader × Reader))
  | .map key value s => produce (entryAt s key value) (s.count / 2) s.fieldsOffset
  | _ => .ok []

/-- Hand consecutive values from a position to a consumer one by one: at most
    `count` of them, until one is not there or the consumer is done. -/
def iterate {α σ : Type} (next : Nat → Checked Refusal (Option (α × Nat)))
    (consume : σ → α → ForInStep σ) : (count position : Nat) → σ → Checked Refusal σ
  | 0, _, state => .ok state
  | count + 1, position, state => do
      match ← next position with
      | none => return state
      | some (value, past) =>
          match consume state value with
          | .done state => return state
          | .yield state => iterate next consume count past state

/-- Hand the elements of an array to a consumer; there are none for other
    formats. -/
def iterateItems {σ : Type} (r : Reader) (consume : σ → Reader → ForInStep σ) (state : σ) :
    Checked Refusal σ :=
  match r with
  | .array item s => iterate (elementAt s item) consume s.count s.fieldsOffset state
  | _ => .ok state

/-- Visit every element of an array. -/
def forEach {σ : Type} (r : Reader) (visit : σ → Reader → σ) (state : σ) : Checked Refusal σ :=
  r.iterateItems (fun state item => .yield (visit state item)) state

/-- Visit every entry of a map. -/
def forEachEntry {σ : Type} (r : Reader) (visit : σ → Reader × Reader → σ) (state : σ) :
    Checked Refusal σ :=
  match r with
  | .map key value s =>
      iterate (entryAt s key value) (fun state entry => .yield (visit state entry)) (s.count / 2)
        s.fieldsOffset state
  | _ => .ok state

/-- The first element of an array that a test accepts. What stands behind it is
    not looked at. -/
def matchFirst (r : Reader) (test : Reader → Bool) : Checked Refusal (Option Reader) :=
  r.iterateItems (fun _ item => if test item then .done (some item) else .yield none) none

/-- Whether a test accepts some element of an array. -/
def anyMatch (r : Reader) (test : Reader → Bool) : Checked Refusal Bool :=
  r.iterateItems (fun _ item => if test item then .done true else .yield false) false

end Reader

end Wireform
