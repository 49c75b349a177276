import Wireform.Output.Description

/-!
# Built-in types

The descriptions of the types that every schema may use: integers of variable
width, octets, strings, lists, arrays and maps, and the integers of fixed width
where a typedef names one.

## Main definitions

* `WireType.limitRule?`: How the end of a built-in type is found.
* `describeBuiltin?`: The description of a built-in type under an identity.
* `builtinTypes`: The types that every compilation describes.
-/

namespace Wireform

/-- How a reader of a built-in type finds the end of an encoding. -/
def WireType.limitRule? (type : WireType) : Option LimitRule :=
  match type.fixedWidth? with
  | some width => some (.fixed width)
  | none =>
      match type with
      | .varint .varuint32 => some (.varint 32 false 5 0)
      | .varint .varuint32n => some (.varint 32 false 5 1)
      | .varint .varint32 => some (.varint 32 true 5 0)
      | .varint .varint64 => some (.varint 64 true 10 0)
      | .octets => some (.remaining none)
      | .boundedOctets .zero bound => some (.remaining bound)
      | .boundedOctets width _ => some (.prefixed width.bytes)
      | .string .zero => some (.remaining none)
      | .string width => some (.prefixed width.bytes)
      | .varstring => some .varintPrefixed
      | .list .zero => some .empty
      | .list width => some (.sequence width.bytes)
      | .array width _ => some (.sequence width.bytes)
      | .map width _ _ => some (.sequence width.bytes)
      | .fixed _ | .named _ => none

theorem WireType.limitRule?_of_fixedWidth? {type : WireType} {width : Nat}
    (h : type.fixedWidth? = some width) : type.limitRule? = some (.fixed width) := by
  unfold limitRule?
  rw [h]

/-- The host type of a number's values. -/
def hostValue : WireType → HostInt
  | .fixed .int8 => .i8
  | .fixed .uint8 => .u8
  | .fixed .int16 => .i16
  | .fixed .uint16 => .u16
  | .fixed .int24 | .fixed .int32 => .i32
  | .fixed .uint24 | .fixed .uint32 | .varint .varuint32 => .u32
  | .fixed .int64 | .varint .varint64 => .i64
  | .fixed .uint64 => .u64
  | _ => .i32

/-- The reader and builder methods of numbers. -/
def describeNumber (d : TypeDescription) (type : WireType) : TypeDescription :=
  let value := (hostValue type).name
  d.withMethods [{ name := "value", role := .value, returns := value }]
    |>.withBuilder
        [{ name := "set", role := .set, params := [⟨"value", value⟩], returns := builderResult }]
        ["value"]

/-- Integers of fixed width. -/
def describeFixed (d : TypeDescription) (kind : FixedInt) : TypeDescription :=
  { describeNumber d (.fixed kind) with
    constants := [⟨"WIDTH", .integer ((WireType.fixed kind).fixedWidth?.getD 0)⟩] }

/-- The size of the longest encoding of a number of variable width, the least number
    and the greatest, as they are described. -/
def varintLimits : VarInt → Int × Int × Int
  | .varint64 => (10, -2 ^ (63 : Nat), 2 ^ (63 : Nat) - 1)
  | .varuint32 => (5, 0, 2 ^ (32 : Nat) - 1)
  | .varuint32n => (5, -1, 0x0FFFFFFF)
  | .varint32 => (5, -2 ^ (31 : Nat), 2 ^ (31 : Nat) - 1)

/-- Integers of variable width. -/
def describeVarint (d : TypeDescription) (kind : VarInt) : TypeDescription :=
  let (maxSize, least, greatest) := varintLimits kind
  { describeNumber d (.varint kind) with
    constants :=
      [⟨"MAX_SIZE", .integer maxSize⟩, ⟨"MIN_VALUE", .integer least⟩,
        ⟨"MAX_VALUE", .integer greatest⟩] }

/-- The four ways of writing octets: from a reader, from bytes, from a part of a
    buffer, and in place. -/
def octetWriters (reader stem : String) (role : Role) : List Method :=
  [{ name := stem, role, params := [⟨"value", s!"&{reader}"⟩], returns := builderResult },
   { name := stem ++ "_bytes", role, params := [⟨"value", "&[u8]"⟩], returns := builderResult },
   { name := stem ++ "_region", role
     params := [⟨"buffer", "&[u8]"⟩, ⟨"offset", "usize"⟩, ⟨"length", "usize"⟩]
     returns := builderResult },
   { name := stem ++ "_with", role, params := [⟨"visitor", "FnOnce(&mut [u8]) -> usize"⟩]
     returns := builderResult }]

/-- The rest of the window. -/
def describeOctets (d : TypeDescription) : TypeDescription :=
  let reader := d.identity.simpleName
  d.withMethods
      [{ name := "value", role := .value, returns := "&[u8]" },
       { name := "length", role := .length, returns := "usize" }]
    |>.withBuilder (octetWriters reader "set" .set ++ octetWriters reader "put" .put) []

/-- The constructor that takes a bound. -/
def withBoundMethod : Method :=
  { name := "with_bound", role := .withBound, params := [⟨"bound", "usize"⟩], returns := "Self" }

/-- Octets up to a bound. -/
def describeBoundedOctets (d : TypeDescription) : TypeDescription :=
  let reader := d.identity.simpleName
  d.withMethods
      [withBoundMethod,
       { name := "value", role := .value, returns := "&[u8]" },
       { name := "length", role := .length, returns := "usize" },
       { name := "bound", role := .bound, returns := "usize" }]
    |>.withBuilder
        (withBoundMethod :: (octetWriters reader "set" .set ++ octetWriters reader "put" .put))
        ["value"]

/-- The builder methods of strings. -/
def stringWriters : List Method :=
  [{ name := "set", role := .set, params := [⟨"value", "&impl StringFlyweight"⟩]
     returns := builderResult },
   { name := "set_region", role := .set
     params := [⟨"buffer", "&[u8]"⟩, ⟨"offset", "usize"⟩, ⟨"length", "usize"⟩]
     returns := builderResult },
   { name := "set_str", role := .set, params := [⟨"value", "&str"⟩, ⟨"charset", "Charset"⟩]
     returns := builderResult }]

/-- Strings. Those without a length cannot be null, and a variable-width one that
    was not set is null. -/
def describeString (d : TypeDescription) (type : WireType) : TypeDescription :=
  let nullWriters : List Method :=
    if type = .string .zero then []
    else [{ name := "set_null", role := .setNull, returns := builderResult }]
  d.withMethods
      [{ name := "field_size_length", role := .fieldSizeLength, returns := "usize" },
       { name := "length", role := .length, returns := "Option<usize>" },
       { name := "as_string", role := .asString, returns := "Option<String>" },
       { name := "as_string_with", role := .asString, params := [⟨"charset", "Charset"⟩]
         returns := "Option<String>" }]
    |>.withBuilder (stringWriters ++ nullWriters) (if type = .varstring then [] else ["value"])

/-- The callback that writes into a window. -/
def visitorType : String := "FnOnce(&mut [u8], usize, usize) -> FlyweightResult<usize>"

/-- The reader methods of everything that has a length and a count. -/
def sequenceReaders : List Method :=
  [{ name := "length", role := .length, returns := "usize" },
   { name := "field_count", role := .fieldCount, returns := "usize" }]

/-- The bytes of all fields. -/
def fieldsReader : Method :=
  { name := "fields", role := .fields, returns := "&[u8]" }

/-- The builder methods of lists that have fields written in place. -/
def visitedFieldWriters : List Method :=
  [{ name := "field", role := .field, params := [⟨"visitor", visitorType⟩]
     returns := builderResult },
   { name := "fields", role := .fieldsCount
     params := [⟨"count", "usize"⟩, ⟨"visitor", visitorType⟩], returns := builderResult }]

/-- The builder method that takes encoded fields. -/
def copiedFieldsWriter : Method :=
  { name := "fields_from", role := .fieldsFrom, params := [⟨"count", "usize"⟩, ⟨"bytes", "&[u8]"⟩]
    returns := builderResult }

/-- The list that is always empty. -/
def describeEmptyList (d : TypeDescription) : TypeDescription :=
  d.withMethods (sequenceReaders ++ [fieldsReader])
    |>.withBuilder visitedFieldWriters []

/-- Lists. -/
def describeList (d : TypeDescription) : TypeDescription :=
  d.withMethods (sequenceReaders ++ [fieldsReader])
    |>.withBuilder (visitedFieldWriters ++ [copiedFieldsWriter]) []

/-- Arrays. -/
def describeArray (d : TypeDescription) : TypeDescription :=
  d.withMethods (sequenceReaders ++
      [{ name := "is_empty", role := .isEmpty, returns := "bool" },
       { name := "for_each", role := .forEach, params := [⟨"consumer", "FnMut(&V)"⟩] },
       { name := "any_match", role := .anyMatch, params := [⟨"predicate", "FnMut(&V) -> bool"⟩]
         returns := "bool" },
       { name := "match_first", role := .matchFirst
         params := [⟨"predicate", "FnMut(&V) -> bool"⟩], returns := "Option<V>" }])
    |>.withBuilder
        [{ name := "item", role := .item, params := [⟨"builder", visitorType⟩]
           returns := builderResult }] []

/-- Maps whose keys and values have the given names. -/
def describeMap (d : TypeDescription) (key value : String) : TypeDescription :=
  d.withMethods (sequenceReaders ++
      [{ name := "is_empty", role := .isEmpty, returns := "bool" },
       { name := "for_each", role := .forEach
         params := [⟨"consumer", s!"FnMut(&{key}, &{value})"⟩] }])
    |>.withBuilder
        [{ name := "entry", role := .entry
           params := [⟨"key", visitorType⟩, ⟨"value", visitorType⟩], returns := builderResult }] []

/-- The description of a built-in type under an identity. References have none. -/
def describeBuiltin? (identity : Identity) (type : WireType) : Option TypeDescription := do
  let family ← type.family?
  let limit ← type.limitRule?
  let d := TypeDescription.reader family identity limit
  match type with
  | .fixed kind => some (describeFixed d kind)
  | .varint kind => some (describeVarint d kind)
  | .octets => some (describeOctets d)
  | .boundedOctets _ _ => some (describeBoundedOctets d)
  | .string _ | .varstring => some (describeString d type)
  | .list .zero => some (describeEmptyList d)
  | .list _ => some (describeList d)
  | .array _ _ => some (describeArray d)
  | .map _ _ _ => some (describeMap d "K" "V")
  | .named _ => none

/-- The types that every compilation describes, with names in place of the
    elements of arrays and maps. -/
def builtinTypes : List WireType :=
  [.varint .varuint32, .varint .varuint32n, .varint .varint32, .varint .varint64, .octets]
    ++ [Width.zero, .eight, .sixteen, .thirtyTwo].map (WireType.boundedOctets · none)
    ++ [Width.zero, .eight, .sixteen, .thirtyTwo].map WireType.string
    ++ [.varstring]
    ++ [Width.zero, .eight, .thirtyTwo].map WireType.list
    ++ [Width.eight, .sixteen, .thirtyTwo].map (WireType.array · (.named "V"))
    ++ [Width.eight, .sixteen, .thirtyTwo].map (WireType.map · (.named "K") (.named "V"))

/-- The descriptions of the built-in types in a namespace. -/
def describeBuiltins (nameSpace : String) : List TypeDescription :=
  builtinTypes.filterMap fun type => do
    let name ← builtinName? type
    describeBuiltin? (.generated nameSpace name) type

end Wireform
