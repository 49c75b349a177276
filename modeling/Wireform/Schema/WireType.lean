import Wireform.Integer.Fixed
import Wireform.Integer.Varint
import Wireform.Json.Basic

/-!
# Wire types

The types a schema may give to a member, a constant, a case or an alias. They
are the wire formats with their parameters, and references to declarations by
name.

Wire types have a name for display, and a JSON form: the plain ones are strings,
those with parameters are objects with a single field.

## Main definitions

* `WireType`: The wire types.
* `WireType.family?`, `WireType.display`: Their names.
* `WireType.toJson`, `WireType.ofJson?`: Their JSON form.
-/

namespace Wireform

/-- A type as it stands in a schema. -/
inductive WireType where
  | fixed (kind : FixedInt)
  | varint (kind : VarInt)
  | octets
  | boundedOctets (width : Width) (max : Option Nat)
  | string (width : Width)
  | varstring
  | list (width : Width)
  | array (width : Width) (item : WireType)
  | map (width : Width) (key value : WireType)
  /-- A reference to a declaration, by qualified or scope-relative name. -/
  | named (name : String)
  deriving DecidableEq, Inhabited

namespace WireType

/-- The encoded size of fixed-width integers. -/
def fixedWidth? : WireType → Option Nat
  | .fixed .int8 | .fixed .uint8 => some 1
  | .fixed .int16 | .fixed .uint16 => some 2
  | .fixed .int24 | .fixed .uint24 => some 3
  | .fixed .int32 | .fixed .uint32 => some 4
  | .fixed .int64 | .fixed .uint64 => some 8
  | _ => none

/-- The size of an integer in a schema is the one that its reader needs. -/
theorem fixedWidth?_fixed (kind : FixedInt) :
    (WireType.fixed kind).fixedWidth? = some kind.width := by
  cases kind <;> rfl

/-- Whether the type has no negative values apart from a null marker. -/
def isUnsigned : WireType → Bool
  | .fixed .uint8 | .fixed .uint16 | .fixed .uint24 | .fixed .uint32 | .fixed .uint64 => true
  | .varint .varuint32 | .varint .varuint32n => true
  | _ => false

/-- Whether the values are integers. -/
def isInteger : WireType → Bool
  | .fixed _ | .varint _ => true
  | _ => false

/-- Whether the values are strings. -/
def isString : WireType → Bool
  | .string _ | .varstring => true
  | _ => false

/-- Whether the type is a reference. -/
def isNamed : WireType → Bool
  | .named _ => true
  | _ => false

/-- A number of bits behind a name, left out if it is zero. -/
def widthSuffix : Width → String
  | .zero => ""
  | width => toString width.bits

/-- The built-in family of the type. References have none. -/
def family? : WireType → Option String
  | .fixed kind => some kind.name
  | .varint kind => some kind.name
  | .octets => some "octets"
  | .boundedOctets width _ => some ("bounded_octets" ++ widthSuffix width)
  | .string width => some ("string" ++ widthSuffix width)
  | .varstring => some "varstring"
  | .list width => some ("list" ++ toString width.bits)
  | .array width _ => some ("array" ++ toString width.bits)
  | .map width _ _ => some ("map" ++ toString width.bits)
  | .named _ => none

/-- The type as messages and descriptions show it. -/
def display : WireType → String
  | .named name => name
  | .array width item => "array" ++ toString width.bits ++ "<" ++ item.display ++ ">"
  | .map width key value =>
      "map" ++ toString width.bits ++ "<" ++ key.display ++ ", " ++ value.display ++ ">"
  | .boundedOctets width (some max) =>
      "bounded_octets" ++ widthSuffix width ++ "[" ++ toString max ++ "]"
  | other => other.family?.getD ""

/-- The width of a prefix in JSON: its number of bits. -/
def widthToJson (width : Width) : Json :=
  .int width.bits

/-- Read the width of a prefix. -/
def widthOfJson? (json : Json) : Option Width := do
  let bits ← json.natUpTo? 255
  Width.ofBits? bits

/-- The JSON form of a type. -/
def toJson : WireType → Json
  | .fixed kind => .str kind.name
  | .varint kind => .str kind.name
  | .octets => .str "octets"
  | .boundedOctets width none =>
      .obj [("bounded_octets", .obj [("width", widthToJson width)])]
  | .boundedOctets width (some max) =>
      .obj [("bounded_octets", .obj [("width", widthToJson width), ("max", .int max)])]
  | .string width => .obj [("string", .obj [("width", widthToJson width)])]
  | .varstring => .str "varstring"
  | .list width => .obj [("list", .obj [("width", widthToJson width)])]
  | .array width item =>
      .obj [("array", .obj [("width", widthToJson width), ("item", item.toJson)])]
  | .map width key value =>
      .obj [("map", .obj [("width", widthToJson width), ("key", key.toJson),
        ("value", value.toJson)])]
  | .named name => .obj [("named", .str name)]

/-- The types without parameters, by name. -/
def plain? : String → Option WireType
  | "int8" => some (.fixed .int8)
  | "int16" => some (.fixed .int16)
  | "int24" => some (.fixed .int24)
  | "int32" => some (.fixed .int32)
  | "int64" => some (.fixed .int64)
  | "uint8" => some (.fixed .uint8)
  | "uint16" => some (.fixed .uint16)
  | "uint24" => some (.fixed .uint24)
  | "uint32" => some (.fixed .uint32)
  | "uint64" => some (.fixed .uint64)
  | "varuint32" => some (.varint .varuint32)
  | "varuint32n" => some (.varint .varuint32n)
  | "varint32" => some (.varint .varint32)
  | "varint64" => some (.varint .varint64)
  | "octets" => some .octets
  | "varstring" => some .varstring
  | _ => none

/-- Read the parameters of a type that has a width alone. -/
def widthRecord? (payload : Json) : Option Width :=
  match payload.record? ["width"] with
  | some [width] => Json.required? widthOfJson? width
  | _ => none

/-- Read the parameters of bounded octets. -/
def boundedRecord? (payload : Json) : Option WireType :=
  match payload.record? ["width", "max"] with
  | some [width, max] => do
      let width ← Json.required? widthOfJson? width
      let max ← Json.orElse? none (Json.nullable? (Json.natUpTo? Word.max)) max
      return .boundedOctets width max
  | _ => none

/-- Read a type from its JSON form. `buffered` says whether the value was read
    into memory as a whole before its type was known. -/
def ofJson? (buffered : Bool) (json : Json) : Option WireType :=
  match json with
  | .str tag => plain? tag
  | .obj [(tag, payload)] =>
      if tag = "bounded_octets" then boundedRecord? payload
      else if tag = "string" then .string <$> widthRecord? payload
      else if tag = "list" then .list <$> widthRecord? payload
      else if tag = "array" then
        match _h : payload.record? ["width", "item"] with
        | some [width, some item] => do
            let width ← Json.required? widthOfJson? width
            let item ← ofJson? buffered item
            return .array width item
        | _ => none
      else if tag = "map" then
        match _h : payload.record? ["width", "key", "value"] with
        | some [width, some key, some value] => do
            let width ← Json.required? widthOfJson? width
            let key ← ofJson? buffered key
            let value ← ofJson? buffered value
            return .map width key value
        | _ => none
      else if tag = "named" then .named <$> payload.str?
      else if Json.isUnit buffered (some payload) then plain? tag
      else none
  | _ => none
termination_by sizeOf json
decreasing_by
  · have := Json.sizeOf_lt_of_record? item _h (by simp)
    simp only [Json.obj.sizeOf_spec, List.cons.sizeOf_spec, Prod.mk.sizeOf_spec]
    omega
  · have := Json.sizeOf_lt_of_record? key _h (by simp)
    simp only [Json.obj.sizeOf_spec, List.cons.sizeOf_spec, Prod.mk.sizeOf_spec]
    omega
  · have := Json.sizeOf_lt_of_record? value _h (by simp)
    simp only [Json.obj.sizeOf_spec, List.cons.sizeOf_spec, Prod.mk.sizeOf_spec]
    omega

end WireType

end Wireform
