import Wireform.Schema.Declaration

/-!
# The JSON form of a schema

Each part of a schema is written as an object with its fields in a fixed order,
and read from an object in any order or from an array by position. Fields that
are absent are left out. A declaration carries its kind in the field
`declaration`, and is read into memory as a whole before the kind is known.

## Main definitions

* `Member.toJson`, `Declaration.toJson`, `Specification.toJson`: The JSON form.
* `Member.ofJson?`, `Declaration.ofJson?`, `Specification.ofJson?`: Read it.
-/

namespace Wireform

open Json (required? orElse? nullable? list?)

/-- A field that is left out if there is nothing to write. -/
def optionalField (name : String) (value : Option Json) : List (String × Json) :=
  match value with
  | some json => [(name, json)]
  | none => []

/-- A field that is left out if there are no items to write. -/
def itemsField (name : String) (items : List Json) : List (String × Json) :=
  if items.isEmpty then [] else [(name, .arr items)]

namespace ByteOrder

/-- The JSON form of a byte order. -/
def toJson : ByteOrder → Json
  | .native => .str "native"
  | .network => .str "network"

/-- Read a byte order. -/
def ofJson? (buffered : Bool) (json : Json) : Option ByteOrder :=
  match json.case? with
  | some (tag, payload) =>
      if Json.isUnit buffered payload then
        if tag = "native" then some .native
        else if tag = "network" then some .network
        else none
      else none
  | none => none

end ByteOrder

namespace Literal

/-- The JSON form of a literal: an integer or a string. -/
def toJson : Literal → Json
  | .integer value => .int value
  | .text value => .str value

/-- Read a literal. Integers are signed 64-bit integers. -/
def ofJson? (json : Json) : Option Literal :=
  match json with
  | .str s => some (.text s)
  | json => .integer <$> json.intIn? FixedInt.int64.minValue FixedInt.int64.maxValue

end Literal

namespace Member

/-- The JSON form of a member. -/
def toJson (m : Member) : Json :=
  .obj ([("name", .str m.name), ("type", m.type.toJson)]
    ++ optionalField "default" (m.default.map Literal.toJson)
    ++ optionalField "size" (m.size.map fun n => .int n)
    ++ [("byte_order", m.byteOrder.toJson)])

/-- Read a member. -/
def ofJson? (buffered : Bool) (json : Json) : Option Member :=
  match json.record? ["name", "type", "default", "size", "byte_order"] with
  | some [name, type, default, size, byteOrder] => do
      let name ← required? Json.str? name
      let type ← required? (WireType.ofJson? buffered) type
      let default ← orElse? none (nullable? Literal.ofJson?) default
      let size ← orElse? none (nullable? (Json.natUpTo? Word.max)) size
      let byteOrder ← orElse? ByteOrder.native (ByteOrder.ofJson? buffered) byteOrder
      return { name, type, default, size, byteOrder }
  | _ => none

end Member

namespace StructDecl

/-- The fields of a struct. -/
def toFields (d : StructDecl) : List (String × Json) :=
  [("name", .str d.name)]
    ++ optionalField "supertype" (d.supertype.map .str)
    ++ optionalField "type_id" (d.typeId.map fun n => .int n)
    ++ [("members", .arr (d.members.map Member.toJson))]

/-- Read a struct. -/
def ofJson? (json : Json) : Option StructDecl :=
  match json.record? ["name", "supertype", "type_id", "members"] with
  | some [name, supertype, typeId, members] => do
      let name ← required? Json.str? name
      let supertype ← orElse? none (nullable? Json.str?) supertype
      let typeId ← orElse? none (nullable? (Json.natUpTo? 4294967295)) typeId
      let members ← orElse? [] (list? (Member.ofJson? true)) members
      return { name, supertype, typeId, members }
  | _ => none

end StructDecl

namespace EnumConstant

/-- The JSON form of an enum constant. -/
def toJson (c : EnumConstant) : Json :=
  .obj ([("name", .str c.name)] ++ optionalField "value" (c.value.map Literal.toJson))

/-- Read an enum constant. -/
def ofJson? (json : Json) : Option EnumConstant :=
  match json.record? ["name", "value"] with
  | some [name, value] => do
      let name ← required? Json.str? name
      let value ← orElse? none (nullable? Literal.ofJson?) value
      return { name, value }
  | _ => none

end EnumConstant

namespace EnumDecl

/-- The fields of an enum. -/
def toFields (d : EnumDecl) : List (String × Json) :=
  [("name", .str d.name)]
    ++ optionalField "value_type" (d.valueType.map WireType.toJson)
    ++ [("constants", .arr (d.constants.map EnumConstant.toJson))]

/-- Read an enum. -/
def ofJson? (json : Json) : Option EnumDecl :=
  match json.record? ["name", "value_type", "constants"] with
  | some [name, valueType, constants] => do
      let name ← required? Json.str? name
      let valueType ← orElse? none (nullable? (WireType.ofJson? true)) valueType
      let constants ← required? (list? EnumConstant.ofJson?) constants
      return { name, valueType, constants }
  | _ => none

end EnumDecl

namespace ListDecl

/-- The fields of a list. -/
def toFields (d : ListDecl) : List (String × Json) :=
  [("name", .str d.name), ("width", WireType.widthToJson d.width),
    ("members", .arr (d.members.map Member.toJson))]

/-- Read a list. -/
def ofJson? (json : Json) : Option ListDecl :=
  match json.record? ["name", "width", "members"] with
  | some [name, width, members] => do
      let name ← required? Json.str? name
      let width ← required? WireType.widthOfJson? width
      let members ← orElse? [] (list? (Member.ofJson? true)) members
      return { name, width, members }
  | _ => none

end ListDecl

namespace MapDecl

/-- The fields of a map. -/
def toFields (d : MapDecl) : List (String × Json) :=
  [("name", .str d.name), ("width", WireType.widthToJson d.width),
    ("key", d.key.toJson), ("value", d.value.toJson)]

/-- Read a map. -/
def ofJson? (json : Json) : Option MapDecl :=
  match json.record? ["name", "width", "key", "value"] with
  | some [name, width, key, value] => do
      let name ← required? Json.str? name
      let width ← required? WireType.widthOfJson? width
      let key ← required? (WireType.ofJson? true) key
      let value ← required? (WireType.ofJson? true) value
      return { name, width, key, value }
  | _ => none

end MapDecl

namespace UnionCase

/-- The JSON form of a case. -/
def toJson (c : UnionCase) : Json :=
  .obj [("value", .int c.value), ("name", .str c.name), ("type", c.type.toJson)]

/-- Read a case. -/
def ofJson? (json : Json) : Option UnionCase :=
  match json.record? ["value", "name", "type"] with
  | some [value, name, type] => do
      let value ← required?
        (Json.intIn? FixedInt.int64.minValue FixedInt.int64.maxValue) value
      let name ← required? Json.str? name
      let type ← required? (WireType.ofJson? true) type
      return { value, name, type }
  | _ => none

end UnionCase

namespace UnionDecl

/-- The fields of a union. -/
def toFields (d : UnionDecl) : List (String × Json) :=
  [("name", .str d.name), ("kind", d.kind.toJson),
    ("cases", .arr (d.cases.map UnionCase.toJson))]

/-- Read a union. -/
def ofJson? (json : Json) : Option UnionDecl :=
  match json.record? ["name", "kind", "cases"] with
  | some [name, kind, cases] => do
      let name ← required? Json.str? name
      let kind ← orElse? (WireType.fixed .uint8) (WireType.ofJson? true) kind
      let cases ← required? (list? UnionCase.ofJson?) cases
      return { name, kind, cases }
  | _ => none

end UnionDecl

namespace VariantCase

/-- The JSON form of a case. -/
def toJson (c : VariantCase) : Json :=
  .obj [("kind", c.kind.toJson), ("type", c.type.toJson)]

/-- Read a case. -/
def ofJson? (json : Json) : Option VariantCase :=
  match json.record? ["kind", "type"] with
  | some [kind, type] => do
      let kind ← required? Literal.ofJson? kind
      let type ← required? (WireType.ofJson? true) type
      return { kind, type }
  | _ => none

end VariantCase

namespace VariantDecl

/-- The fields of a variant. -/
def toFields (d : VariantDecl) : List (String × Json) :=
  [("name", .str d.name), ("kind", d.kind.toJson)]
    ++ optionalField "of" (d.of.map WireType.toJson)
    ++ [("cases", .arr (d.cases.map VariantCase.toJson))]

/-- Read a variant. -/
def ofJson? (json : Json) : Option VariantDecl :=
  match json.record? ["name", "kind", "of", "cases"] with
  | some [name, kind, of, cases] => do
      let name ← required? Json.str? name
      let kind ← required? (WireType.ofJson? true) kind
      let of ← orElse? none (nullable? (WireType.ofJson? true)) of
      let cases ← required? (list? VariantCase.ofJson?) cases
      return { name, kind, of, cases }
  | _ => none

end VariantDecl

namespace TypedefDecl

/-- The fields of a typedef. -/
def toFields (d : TypedefDecl) : List (String × Json) :=
  [("name", .str d.name), ("original", d.aliased.toJson)]

/-- Read a typedef. -/
def ofJson? (json : Json) : Option TypedefDecl :=
  match json.record? ["name", "original"] with
  | some [name, aliased] => do
      let name ← required? Json.str? name
      let aliased ← required? (WireType.ofJson? true) aliased
      return { name, aliased }
  | _ => none

end TypedefDecl

namespace Declaration

/-- The fields of a declaration apart from its kind. -/
def toFields : Declaration → List (String × Json)
  | .struct d => d.toFields
  | .enum d => d.toFields
  | .list d => d.toFields
  | .map d => d.toFields
  | .union d => d.toFields
  | .variant d => d.toFields
  | .typedef d => d.toFields

/-- The JSON form of a declaration. -/
def toJson (d : Declaration) : Json :=
  .obj (("declaration", .str d.kind) :: d.toFields)

/-- Read a declaration whose kind is known. -/
def ofKind? (kind : String) (body : Json) : Option Declaration :=
  if kind = "struct" then .struct <$> StructDecl.ofJson? body
  else if kind = "enum" then .enum <$> EnumDecl.ofJson? body
  else if kind = "list" then .list <$> ListDecl.ofJson? body
  else if kind = "map" then .map <$> MapDecl.ofJson? body
  else if kind = "union" then .union <$> UnionDecl.ofJson? body
  else if kind = "variant" then .variant <$> VariantDecl.ofJson? body
  else if kind = "typedef" then .typedef <$> TypedefDecl.ofJson? body
  else none

/-- Read a declaration: an object that has its kind in one of the fields, or an
    array that starts with it. -/
def ofJson? (json : Json) : Option Declaration :=
  if json.isReadable then
    match json with
    | .obj fields =>
        match Json.field? fields "declaration" with
        | some (some (.str kind)) =>
            -- the kind may stand anywhere among the fields
            ofKind? kind (.obj (fields.filter (·.1 ≠ "declaration")))
        | _ => none
    | .arr (.str kind :: rest) => ofKind? kind (.arr rest)
    | _ => none
  else none

end Declaration

namespace Scope

mutual

/-- The JSON form of a scope. -/
def toJson : Scope → Json
  | .mk name scopes declarations =>
      .obj ([("name", .str name)]
        ++ itemsField "scopes" (listToJson scopes)
        ++ itemsField "declarations" (declarations.map Declaration.toJson))

/-- The JSON form of several scopes. -/
def listToJson : List Scope → List Json
  | [] => []
  | scope :: rest => scope.toJson :: listToJson rest

end

mutual

/-- Read a scope. -/
def ofJson? (json : Json) : Option Scope :=
  match _h : json.record? ["name", "scopes", "declarations"] with
  | some [name, scopes, declarations] => do
      let name ← required? Json.str? name
      let scopes ← match _hs : scopes with
        | some (.arr items) => listOfJson? items
        | some _ => none
        | none => some []
      let declarations ← orElse? [] (list? Declaration.ofJson?) declarations
      return .mk name scopes declarations
  | _ => none
termination_by sizeOf json
decreasing_by
  subst _hs
  have := Json.sizeOf_lt_of_record? (.arr items) _h (by simp)
  simp only [Json.arr.sizeOf_spec] at this
  omega

/-- Read several scopes. -/
def listOfJson? (items : List Json) : Option (List Scope) :=
  match items with
  | [] => some []
  | json :: rest => do
      let scope ← ofJson? json
      let scopes ← listOfJson? rest
      return scope :: scopes
termination_by sizeOf items

end

end Scope

namespace Specification

/-- The JSON form of a schema. -/
def toJson (spec : Specification) : Json :=
  .obj [("scope", spec.scope.toJson)]

/-- Read a schema. -/
def ofJson? (json : Json) : Option Specification :=
  match json.record? ["scope"] with
  | some [scope] => Specification.mk <$> required? Scope.ofJson? scope
  | _ => none

end Specification

end Wireform
