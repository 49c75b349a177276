import Wireform.Format

/-!
# Builders

Writing a value of any format as a sequence of steps. A builder is started in a
window, takes steps, and is built into the reader over what was written. Which
steps make sense depends on the format: numbers are set, octets and strings are
written from one of several sources, lists take fields, arrays take items and
maps take entries.

Items, keys and values are elements: scripts that are run by a nested builder at
the position that the outer one has reached, or bytes put there as they are. So
scripts nest as formats do, and running them is a recursion over the script.

A step that fails leaves the builder usable. Its outcome says what state that
is, because a visitor or a nested builder may have written already.

## Main definitions

* `Source`, `Step`, `Element`: What there is to write.
* `Builder`: A builder of any format.
* `Format.start`, `Builder.apply`, `Builder.run`, `Builder.build`: The life of a
  builder.
* `Builder.offered`: The size of the window a step hands to its visitor.
-/

namespace Wireform

/-- Where the bytes of octets or of a string come from. -/
inductive Source where
  /-- The bytes themselves. -/
  | bytes (bytes : Bytes)
  /-- A region of other bytes. -/
  | region (bytes : Bytes) (offset length : Nat)
  /-- The payload of an encoding that stands in a window of other bytes. -/
  | encoded (format : Format) (bytes : Bytes) (offset maxLimit : Nat)
  /-- A visitor, which writes on its own. -/
  | visitor (visitor : Visitor)
  /-- A text in a character set. -/
  | text (text : String) (charset : Charset)
  /-- The null string. -/
  | null

/-- The payload of an encoding in a window of some bytes. -/
def Format.payloadIn (format : Format) (bytes : Bytes) (offset maxLimit : Nat) :
    Checked Refusal (Option Bytes) := do
  let reader ← Format.wrap (Buffer.ofBytes bytes) format {} offset maxLimit
  reader.payload

/-- The payload that a source stands for, which is absent for null. A visitor is
    no payload. -/
def Source.payload : Source → Checked Refusal (Option Bytes)
  | .bytes data => .ok (some data)
  | .region data offset length => some <$> Wireform.region data offset length
  | .encoded format data offset maxLimit => format.payloadIn data offset maxLimit
  | .text content charset => some <$> charset.encode content
  | .null | .visitor _ => .ok none

mutual

/-- One step of a builder. -/
inductive Step where
  /-- Change the byte order or the bound for the steps to come. -/
  | configure (settings : Settings)
  /-- Set a number. -/
  | set (value : Int)
  /-- Write octets or a string. -/
  | write (placement : Placement) (source : Source)
  /-- Let a visitor append fields to a list. -/
  | fields (count : Nat) (visitor : Visitor)
  /-- Append encoded fields to a list. -/
  | fieldsFrom (count : Nat) (bytes : Bytes)
  /-- Append an item to an array. -/
  | item (element : Element)
  /-- Append an entry to a map. -/
  | entry (key value : Element)

/-- A value that stands inside another one. -/
inductive Element where
  /-- A value written by a nested builder. -/
  | built (format : Format) (settings : Settings) (steps : List Step)
  /-- Bytes put at the position as they are, up to the end of the buffer, and
      the distance to the position after them. -/
  | raw (bytes : Bytes) (advance : Int)

end

/-- A builder of any format. -/
inductive Builder where
  | fixed (builder : FixedInt.Builder)
  | varint (builder : VarInt.Builder)
  | octets (builder : Octets.Builder)
  | bounded (builder : Bounded.Builder)
  | string (builder : Strings.Builder)
  | varstring (builder : VarStrings.Builder)
  | emptyList (builder : EmptyList.Builder)
  | list (builder : Sequence.Builder)
  | array (item : Format) (builder : Sequence.Builder)
  | map (key value : Format) (builder : Sequence.Builder)

namespace Format

/-- Start a builder of the format in a window. -/
def start (format : Format) (buffer : Buffer) (offset maxLimit : Nat) : Checked Refusal Builder :=
  match format with
  | .fixed kind => .fixed <$> FixedInt.Builder.wrap kind buffer offset maxLimit
  | .varint kind => .varint <$> VarInt.Builder.wrap kind buffer offset maxLimit
  | .octets => .octets <$> Octets.Builder.wrap buffer offset maxLimit
  | .bounded width => .bounded <$> Bounded.Builder.wrap width buffer offset maxLimit
  | .string width => .string <$> Strings.Builder.wrap width buffer offset maxLimit
  | .varstring => .varstring <$> VarStrings.Builder.wrap buffer offset maxLimit
  | .emptyList => .emptyList <$> EmptyList.Builder.wrap buffer offset maxLimit
  | .list width => .list <$> Sequence.Builder.wrap width buffer offset maxLimit
  | .array width item => .array item <$> Sequence.Builder.wrap width buffer offset maxLimit
  | .map width key value => .map key value <$> Sequence.Builder.wrap width buffer offset maxLimit

end Format

namespace Builder

/-- The buffer, the window and the write position of the builder. -/
def cursor : Builder → Cursor
  | .fixed b => b.cursor
  | .varint b => b.cursor
  | .octets b => b.cursor
  | .bounded b => b.cursor
  | .string b => b.cursor
  | .varstring b => b.cursor
  | .emptyList b => b.cursor
  | .list b | .array _ b | .map _ _ b => b.cursor

/-- The write position. -/
def limit (b : Builder) : Nat :=
  b.cursor.limit

/-- The number of fields of a list so far. -/
def fieldCount? : Builder → Option Nat
  | .list b => some b.count
  | _ => none

/-- The family of the builder, for messages. -/
def kind : Builder → String
  | .fixed b => b.kind.name
  | .varint b => b.kind.name
  | .octets _ => "octets"
  | .bounded _ => "bounded_octets"
  | .string b => Strings.name b.width
  | .varstring _ => "varstring"
  | .emptyList _ => "list0"
  | .list _ => "list"
  | .array _ _ => "array"
  | .map _ _ _ => "map"

/-- Change the byte order or the bound for the steps to come, where the format
    has them. -/
def configure (b : Builder) (settings : Settings) : Builder :=
  match b with
  | .fixed f => .fixed { f with order := settings.order.getD f.order }
  | .bounded o =>
      match settings.bound with
      | some bound => .bounded (o.withBound bound)
      | none => .bounded o
  | other => other

/-- Refuse a step that the format does not have. -/
def unsupported (b : Builder) : Outcome Refusal Builder Unit :=
  ⟨.error (.refused (.stepNotSupported b.kind)), b⟩

/-- Set a number. -/
def set (b : Builder) (value : Int) : Outcome Refusal Builder Unit :=
  match b with
  | .fixed f => (f.set value).mapState .fixed
  | .varint v => (v.set value).mapState .varint
  | _ => b.unsupported

/-- Let a visitor write octets. -/
def visit (b : Builder) (placement : Placement) (visitor : Visitor) :
    Outcome Refusal Builder Unit :=
  match b with
  | .octets o => (o.visit placement visitor).mapState .octets
  | .bounded o => (o.visit placement visitor).mapState .bounded
  | _ => b.unsupported

/-- Write octets or a string, of which only a string may be null. -/
def writePayload (b : Builder) (placement : Placement) (payload : Option Bytes) :
    Outcome Refusal Builder Unit :=
  match b with
  | .octets o => (o.write placement (payload.getD [])).mapState .octets
  | .bounded o => (o.write placement (payload.getD [])).mapState .bounded
  | .string s => (s.write payload).mapState .string
  | .varstring s => (s.write payload).mapState .varstring
  | _ => b.unsupported

/-- Whether octets or a string are written. -/
def takesPayload : Builder → Bool
  | .octets _ | .bounded _ | .string _ | .varstring _ => true
  | _ => false

/-- Write octets or a string. What a source refers to is found before anything is
    written. -/
def write (b : Builder) (placement : Placement) (source : Source) :
    Outcome Refusal Builder Unit :=
  match source with
  | .visitor visitor => b.visit placement visitor
  | source =>
      if b.takesPayload then
        (Outcome.check b source.payload).andThen fun payload b => b.writePayload placement payload
      else b.unsupported

/-- Let a visitor append fields to a list. -/
def fields (b : Builder) (count : Nat) (visitor : Visitor) : Outcome Refusal Builder Unit :=
  match b with
  | .emptyList e => Outcome.ofChecked b (.emptyList <$> e.fields count)
  | .list s => (s.fields count visitor).mapState .list
  | _ => b.unsupported

/-- Append encoded fields to a list. -/
def fieldsFrom (b : Builder) (count : Nat) (bytes : Bytes) : Outcome Refusal Builder Unit :=
  match b with
  | .list s => (s.fieldsFrom count bytes).mapState .list
  | _ => b.unsupported

/-- Append an item to an array. -/
def item (b : Builder) (write : Buffer → Nat → Nat → Outcome Refusal Buffer Nat) :
    Outcome Refusal Builder Unit :=
  match b with
  | .array format s => (s.item write).mapState (.array format)
  | _ => b.unsupported

/-- Append a key and then a value to a map. A value that fails leaves its key
    behind. -/
def entry (b : Builder) (writeKey writeValue : Buffer → Nat → Nat → Outcome Refusal Buffer Nat) :
    Outcome Refusal Builder Unit :=
  match b with
  | .map key value s =>
      ((s.item writeKey).andThen fun _ s => s.item writeValue).mapState (.map key value)
  | _ => b.unsupported

/-- The reader over what was written, and the buffer. Lists get their prefixes
    only now, and a string with a varint prefix that was never set becomes
    null. -/
def build (b : Builder) : Outcome Refusal Buffer Reader :=
  match b with
  | .fixed f => ⟨.fixed <$> f.build, f.cursor.buffer⟩
  | .varint v => ⟨.varint <$> v.build, v.cursor.buffer⟩
  | .octets o => ⟨.octets <$> o.build, o.cursor.buffer⟩
  | .bounded o => ⟨.bounded <$> o.build, o.cursor.buffer⟩
  | .string s => ⟨.string <$> s.build, s.cursor.buffer⟩
  | .varstring s =>
      let settled := s.settle
      finish settled.state.cursor.buffer .varstring
        ((fun _ => settled.state.cursor) <$> settled.result)
  | .emptyList e => finish e.cursor.buffer .emptyList (.ok e.cursor)
  | .list s => finish s.cursor.buffer (.list s.width) s.finish
  | .array item s => finish s.cursor.buffer (.array s.width item) s.finish
  | .map key value s => finish s.cursor.buffer (.map s.width key value) s.finish
where
  /-- Bind a reader to what the cursor has passed over. -/
  finish (before : Buffer) (format : Format) : Checked Refusal Cursor → Outcome Refusal Buffer Reader
    | .ok c => ⟨Format.wrap c.buffer format {} c.offset c.limit, c.buffer⟩
    | .error fault => ⟨.error fault, before⟩

/-- The size of the window that a step hands to its visitor, if it comes to
    that. -/
def offered (b : Builder) (step : Step) : Option Nat :=
  match b, step with
  | .octets o, .write placement (.visitor _) => (o.cursor.room (o.position placement)).toOption
  | .bounded o, .write placement (.visitor _) =>
      match o.allowance placement, o.cursor.room (o.position placement) with
      | .ok cap, .ok room => some (min room cap)
      | _, _ => none
  | .list s, .fields _ _ => (s.cursor.room s.cursor.limit).toOption
  | _, _ => none

end Builder

mutual

/-- Take one step. -/
def Builder.apply (b : Builder) : Step → Outcome Refusal Builder Unit
  | .configure settings => ⟨.ok (), b.configure settings⟩
  | .set value => b.set value
  | .write placement source => b.write placement source
  | .fields count visitor => b.fields count visitor
  | .fieldsFrom count bytes => b.fieldsFrom count bytes
  | .item element => b.item element.write
  | .entry key value => b.entry key.write value.write

/-- Take steps until one fails. -/
def Builder.run (b : Builder) : List Step → Outcome Refusal Builder Unit
  | [] => ⟨.ok (), b⟩
  | step :: rest => (b.apply step).andThen fun _ b => b.run rest

/-- Write an element at a position of a buffer, and yield the position past it.
    A raw element may name any position, taken as a 64-bit number. -/
def Element.write : Element → Buffer → (position maxLimit : Nat) → Outcome Refusal Buffer Nat
  | .raw bytes advance, buffer, position, _ =>
      ⟨.ok ((position + advance) % Word.bound).toNat, buffer.overwrite position bytes⟩
  | .built format settings steps, buffer, position, maxLimit =>
      match format.start buffer position maxLimit with
      | .error fault => ⟨.error fault, buffer⟩
      | .ok b =>
          let written := (b.configure settings).run steps
          match written.result with
          | .error fault => ⟨.error fault, written.state.cursor.buffer⟩
          | .ok _ =>
              let built := written.state.build
              ⟨Reader.limit <$> built.result, built.state⟩

end

end Wireform
