import Wireform.Format

/-!
# What a Reader Tells

The answers of all accessors of a reader, put together.

Two readers bound to different buffers are never the same reader, so saying
that they read the same value needs something to compare that is not the
reader. `Content` is that: the bytes of the encoding, the number, the payload,
the count and the field bytes, each where the format has it, and the contents
of the elements all the way down. Reading it off a reader calls every accessor
once, which makes "no accessor ever stops" the statement that the content is
there.

The elements of an array are readers again, and it is the format that says how
deep they go. `Format.contentOf` therefore follows the format, and a reader's
own format is recovered from it by `Reader.format`.

## Main definitions

* `Content`: The answers of the accessors, with those of the elements.
* `Reader.shell`: The answers of a reader without its elements.
* `Format.contentOf`, `Reader.content`: All answers of a reader.
* `Reader.Reaches`: The readers found inside a reader, at any depth.
-/

namespace Wireform

/-- Everything that a reader tells about its value. What a format does not
    have stays absent or empty. -/
structure Content where
  bytes : Bytes
  number : Option Int := none
  payload : Option Bytes := none
  count : Nat := 0
  fields : Bytes := []
  items : List Content := []
  entries : List (Content × Content) := []

/-- The number of bytes of the encoding. -/
def Content.size (c : Content) : Nat :=
  c.bytes.length

namespace Reader

/-- The format the reader is bound to. -/
def format : Reader → Format
  | .fixed r => .fixed r.kind
  | .varint r => .varint r.kind
  | .octets _ => .octets
  | .bounded r => .bounded r.width
  | .string r => .string r.width
  | .varstring _ => .varstring
  | .emptyList _ => .emptyList
  | .list s => .list s.width
  | .array item s => .array s.width item
  | .map key value s => .map s.width key value

/-- The value of a number; absent for other formats. -/
def number : Reader → Checked Refusal (Option Int)
  | .fixed r => some <$> r.value
  | .varint r => some <$> r.value
  | _ => .ok none

/-- The number of fields of a list, an array or a map. -/
def fieldCount : Reader → Nat
  | .list s | .array _ s | .map _ _ s => s.count
  | _ => 0

/-- The bytes of the fields of a list, an array or a map. -/
def fields : Reader → Checked Refusal Bytes
  | .list s | .array _ s | .map _ _ s => s.fields
  | _ => .ok []

/-- What a reader tells without looking into its elements. -/
def shell (r : Reader) : Checked Refusal Content := do
  let bytes ← r.bytes
  let number ← r.number
  let payload ← r.payload
  let fields ← r.fields
  return { bytes, number, payload, count := r.fieldCount, fields }

/-- A reader found inside another: the reader itself, an item of an array, or
    a key or a value of a map, at any depth. -/
inductive Reaches : Reader → Reader → Prop
  | refl (r : Reader) : Reaches r r
  | item {r q p : Reader} {items : List Reader} (h : r.items = .ok items) (hq : q ∈ items)
      (hp : Reaches q p) : Reaches r p
  | key {r k v p : Reader} {entries : List (Reader × Reader)} (h : r.entries = .ok entries)
      (hk : (k, v) ∈ entries) (hp : Reaches k p) : Reaches r p
  | value {r k v p : Reader} {entries : List (Reader × Reader)} (h : r.entries = .ok entries)
      (hv : (k, v) ∈ entries) (hp : Reaches v p) : Reaches r p

end Reader

/-- What a reader of the format tells, elements included. -/
def Format.contentOf : Format → Reader → Checked Refusal Content
  | .array _ item, r => do
      let shell ← r.shell
      let items ← r.items
      let items ← items.mapM item.contentOf
      return { shell with items }
  | .map _ key value, r => do
      let shell ← r.shell
      let entries ← r.entries
      let entries ← entries.mapM fun e => do
        let k ← key.contentOf e.1
        let v ← value.contentOf e.2
        return (k, v)
      return { shell with entries }
  | _, r => r.shell

/-- What a reader tells, elements included. -/
def Reader.content (r : Reader) : Checked Refusal Content :=
  r.format.contentOf r

end Wireform
