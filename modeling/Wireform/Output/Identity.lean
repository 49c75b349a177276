import Wireform.Options

/-!
# Identities

The names that types have in generated code: the integer types of the host
language for the integers of fixed width, and names in a namespace for everything
else.

## Main definitions

* `HostInt`: The integer types of the host language.
* `Identity`: A host type or a generated name.
* `builtinName?`: The name of a built-in type.
-/

namespace Wireform

/-- The integer types of the host language. -/
inductive HostInt where
  | i8
  | u8
  | i16
  | u16
  | i32
  | u32
  | i64
  | u64
  deriving DecidableEq, Inhabited

namespace HostInt

/-- The number of bits of the type. -/
def bits : HostInt → Nat
  | .i8 | .u8 => 8
  | .i16 | .u16 => 16
  | .i32 | .u32 => 32
  | .i64 | .u64 => 64

/-- The name of the type. -/
def name : HostInt → String
  | .i8 => "i8"
  | .u8 => "u8"
  | .i16 => "i16"
  | .u16 => "u16"
  | .i32 => "i32"
  | .u32 => "u32"
  | .i64 => "i64"
  | .u64 => "u64"

/-- The type that holds the integers of a fixed-width type. -/
def ofFixed : FixedInt → HostInt
  | .int8 => .i8
  | .uint8 => .u8
  | .int16 => .i16
  | .uint16 => .u16
  | .int24 | .int32 => .i32
  | .uint24 | .uint32 => .u32
  | .int64 => .i64
  | .uint64 => .u64

end HostInt

/-- The name of a type in generated code. -/
inductive Identity where
  | host (type : HostInt)
  | generated (nameSpace name : String)
  deriving DecidableEq, Inhabited

namespace Identity

/-- The name without the namespace. -/
def simpleName : Identity → String
  | .host type => type.name
  | .generated _ name => name

/-- The number of bits of a host type. -/
def bits? : Identity → Option Nat
  | .host type => some type.bits
  | .generated _ _ => none

/-- The name with the namespace, if there is one. -/
def display : Identity → String
  | .host type => type.name
  | .generated nameSpace name =>
      if nameSpace.isEmpty then name else nameSpace ++ scopeSeparator ++ name

/-- The JSON form of an identity. -/
def toJson : Identity → Json
  | .host type => .obj [("host", .str type.name)]
  | .generated nameSpace name =>
      .obj [("generated", .obj [("namespace", .str nameSpace), ("name", .str name)])]

end Identity

/-- What is appended to the names of built-in types, whatever the options say. -/
def builtinSuffix : String := "FW"

/-- The name of the built-in type that stands for a wire type, for those that are
    no host types. -/
def builtinName? : WireType → Option String
  | .fixed _ | .named _ => none
  | .varint .varuint32 => some ("Varuint32" ++ builtinSuffix)
  | .varint .varuint32n => some ("Varuint32n" ++ builtinSuffix)
  | .varint .varint32 => some ("Varint32" ++ builtinSuffix)
  | .varint .varint64 => some ("Varint64" ++ builtinSuffix)
  | .octets => some ("Octets" ++ builtinSuffix)
  | .boundedOctets width _ =>
      some ("BoundedOctets" ++ WireType.widthSuffix width ++ builtinSuffix)
  | .string width => some ("String" ++ WireType.widthSuffix width ++ builtinSuffix)
  | .varstring => some ("VarString" ++ builtinSuffix)
  | .list width => some ("List" ++ toString width.bits ++ builtinSuffix)
  | .array width _ => some ("Array" ++ toString width.bits ++ builtinSuffix)
  | .map width _ _ => some ("Map" ++ toString width.bits ++ builtinSuffix)

end Wireform
