import Wireform.Output.Description

/-!
# The JSON form of descriptions

Objects with their fields in a fixed order. Empty lists of constants, members and
parameters are left out, and so is an absent lookup; other absent values are
null.

## Main definitions

* `TypeDescription.toJson`: The JSON form of a description.
-/

namespace Wireform

/-- A value that is null where it is absent. -/
def nullOr {α : Type} (write : α → Json) : Option α → Json
  | some value => write value
  | none => .null

/-- A natural number as JSON. -/
def natJson (n : Nat) : Json :=
  .int n

/-- The JSON form of a limit rule. -/
def LimitRule.toJson : LimitRule → Json
  | .fixed width => .obj [("rule", .str "fixed"), ("width", natJson width)]
  | .varint bits zigzag maxSize bias =>
      .obj [("rule", .str "varint"), ("bits", natJson bits), ("zigzag", .bool zigzag),
        ("max_size", natJson maxSize), ("bias", .int bias)]
  | .prefixed size => .obj [("rule", .str "prefixed"), ("prefix", natJson size)]
  | .varintPrefixed => .obj [("rule", .str "varint_prefixed")]
  | .remaining bound => .obj [("rule", .str "remaining"), ("bound", nullOr natJson bound)]
  | .sequence size => .obj [("rule", .str "sequence"), ("prefix", natJson size)]
  | .empty => .obj [("rule", .str "empty")]
  | .members => .obj [("rule", .str "members")]
  | .dispatch kind => .obj [("rule", .str "dispatch"), ("kind", kind.toJson)]

/-- The JSON form of a constant. -/
def ConstantDescription.toJson (c : ConstantDescription) : Json :=
  .obj [("name", .str c.name), ("value", c.value.toJson)]

/-- The JSON form of a member. -/
def FieldDescription.toJson (f : FieldDescription) : Json :=
  .obj ([("name", .str f.name), ("wire_type", .str f.wireType),
      ("identity", f.identity.toJson), ("value_identity", f.valueIdentity.toJson)]
    ++ itemsField "parameters" (f.parameters.map Identity.toJson)
    ++ [("offset", nullOr natJson f.offset), ("size", nullOr natJson f.size),
      ("required", .bool f.required), ("default", nullOr Literal.toJson f.default),
      ("byte_order", f.byteOrder.toJson)])

namespace Role

/-- The word for a role. -/
def word : Role → String
  | .tryWrap => "try_wrap"
  | .wrap => "wrap"
  | .limit => "limit"
  | .sizeof => "sizeof"
  | .length => "length"
  | .fieldCount => "field_count"
  | .fields => "fields"
  | .value => "value"
  | .asString => "as_string"
  | .fieldSizeLength => "field_size_length"
  | .accessor _ => "accessor"
  | .presence _ => "presence"
  | .kind => "kind"
  | .case _ _ => "case"
  | .get => "get"
  | .typeId => "type_id"
  | .isEmpty => "is_empty"
  | .forEach => "for_each"
  | .anyMatch => "any_match"
  | .matchFirst => "match_first"
  | .valueOf => "value_of"
  | .bound => "bound"
  | .withBound => "with_bound"
  | .set => "set"
  | .put => "put"
  | .setter _ _ => "setter"
  | .caseSetter _ _ => "case_setter"
  | .setNull => "set_null"
  | .field => "field"
  | .fieldsCount => "fields_count"
  | .fieldsFrom => "fields_from"
  | .item => "item"
  | .entry => "entry"
  | .build => "build"

/-- What belongs to a role besides its word. -/
def details : Role → List (String × Json)
  | .accessor name | .presence name => [("field", .str name)]
  | .case selector name | .caseSetter selector name =>
      [("kind", selector.toJson), ("field", .str name)]
  | .setter name index => [("field", .str name), ("index", natJson index)]
  | _ => []

/-- The JSON form of a role. -/
def toJson (role : Role) : Json :=
  .obj (("role", .str role.word) :: role.details)

end Role

/-- The JSON form of a parameter. -/
def Parameter.toJson (p : Parameter) : Json :=
  .obj [("name", .str p.name), ("ty", .str p.type)]

/-- The JSON form of a method. -/
def Method.toJson (m : Method) : Json :=
  .obj [("name", .str m.name), ("params", .arr (m.params.map Parameter.toJson)),
    ("returns", .str m.returns), ("semantics", m.role.toJson)]

/-- The JSON form of a builder. -/
def BuilderDescription.toJson (b : BuilderDescription) : Json :=
  .obj [("name", .str b.name), ("methods", .arr (b.methods.map Method.toJson)),
    ("required", .arr (b.required.map .str))]

/-- The JSON form of a lookup. -/
def ValueOf.toJson (v : ValueOf) : Json :=
  .obj [("strategy", .str v.strategy),
    match v with
    | .ordinal constants => ("constants", .arr (constants.map .str))
    | .switch cases => ("cases", .arr (cases.map fun c => .arr [.int c.1, .str c.2]))
    | .table entries => ("entries", .obj (entries.map fun e => (toString e.1, .str e.2)))
    | .stringSwitch cases => ("cases", .arr (cases.map fun c => .arr [.str c.1, .str c.2]))]

/-- The JSON form of a description. -/
def TypeDescription.toJson (d : TypeDescription) : Json :=
  .obj ([("qualified_name", nullOr .str d.qualifiedName), ("family", .str d.family),
      ("identity", d.identity.toJson), ("limit", d.limit.toJson)]
    ++ itemsField "constants" (d.constants.map ConstantDescription.toJson)
    ++ itemsField "fields" (d.fields.map FieldDescription.toJson)
    ++ [("methods", .arr (d.methods.map Method.toJson)),
      ("builder", nullOr BuilderDescription.toJson d.builder)]
    ++ optionalField "value_of" (d.valueOf.map ValueOf.toJson))

end Wireform
