import Wireform.Output.Builtin
import Wireform.Output.Site

/-!
# Enums

A constant of an enum is encoded as a value of the enum's type: the value it is
declared with, or else its position among the constants, or its name where the
values are strings.

## Main definitions

* `WireType.valueRange?`: The integers that a type can back an enum with.
* `constantValues`: The encoded values of the constants.
* `lookupOf`: How the constant of an encoded value is found.
* `describeEnum`: The description of an enum.
-/

namespace Wireform

/-- The least and the greatest integer that an enum of the type can use. Values
    of a schema are signed 64-bit integers. -/
def WireType.valueRange? : WireType → Option (Int × Int)
  | .fixed .int8 => some (-128, 127)
  | .fixed .uint8 => some (0, 255)
  | .fixed .int16 => some (-32768, 32767)
  | .fixed .uint16 => some (0, 65535)
  | .fixed .int24 => some (-2 ^ (23 : Nat), 2 ^ (23 : Nat) - 1)
  | .fixed .uint24 => some (0, 2 ^ (24 : Nat) - 1)
  | .fixed .int32 | .varint .varint32 => some (-2 ^ (31 : Nat), 2 ^ (31 : Nat) - 1)
  | .fixed .uint32 | .varint .varuint32 => some (0, 2 ^ (32 : Nat) - 1)
  | .varint .varuint32n => some (-1, 0x0FFFFFFF)
  | .fixed .int64 | .varint .varint64 => some (-2 ^ (63 : Nat), 2 ^ (63 : Nat) - 1)
  | .fixed .uint64 => some (0, 2 ^ (63 : Nat) - 1)
  | _ => none

/-- Whether values of the type are looked up in a table. -/
def WireType.isWide : WireType → Bool
  | .fixed .int64 | .fixed .uint64 | .fixed .uint32 | .varint .varint64 => true
  | _ => false

/-- The value of a constant, if it lies in the range of its type. -/
def constantWithin (site : Site) (name : String) (type : WireType)
    (least greatest value : Int) : Compiled Literal :=
  if value < least ∨ greatest < value then site.invalid (.valueDoesNotFit name value type)
  else .ok (.integer value)

/-- The encoded value of the constant at a position. -/
def constantValue (site : Site) (valueType : Option WireType) (index : Nat)
    (c : EnumConstant) : Compiled Literal :=
  match valueType with
  | none =>
      match c.value with
      | none => .ok (.integer index)
      | some _ => site.invalid (.valueWithoutType c.name)
  | some type =>
      if type.isString then
        match c.value with
        | none => .ok (.text c.name)
        | some (.text text) => .ok (.text text)
        | some (.integer _) => site.invalid (.stringValueNeeded c.name)
      else
        match type.valueRange? with
        | none => site.invalid (.cannotBackEnum type)
        | some (least, greatest) =>
            match c.value with
            | some (.text _) => site.invalid (.integerValueNeeded c.name)
            | none => constantWithin site c.name type least greatest index
            | some (.integer value) => constantWithin site c.name type least greatest value

/-- The encoded values of the constants, from a position on. -/
def constantValues (site : Site) (valueType : Option WireType) (index : Nat) :
    List EnumConstant → Compiled (List Literal)
  | [] => .ok []
  | c :: rest => do
      let value ← constantValue site valueType index c
      let values ← constantValues site valueType (index + 1) rest
      return value :: values

/-- The integers among some values, with the names of their constants. -/
def integerCases (names : List String) (values : List Literal) : List (Int × String) :=
  (values.filterMap Literal.integer?).zip names

/-- The texts among some values, with the names of their constants. -/
def textCases (names : List String) (values : List Literal) : List (String × String) :=
  (values.zip names).filterMap fun (value, name) =>
    match value with
    | .text text => some (text, name)
    | .integer _ => none

/-- How the constant of an encoded value is found. -/
def lookupOf (valueType : Option WireType) (names : List String) (values : List Literal) :
    ValueOf :=
  match valueType with
  | none => .ordinal names
  | some type =>
      if type.isString then .stringSwitch (textCases names values)
      else if type.isWide then .tableOf (integerCases names values)
      else .switch (integerCases names values)

/-- How the end of an encoded constant is found, and what its values are. -/
def enumEncoding (site : Site) : Option WireType → Compiled (LimitRule × String)
  | none => .ok (.fixed 4, "i32")
  | some type => do
      let value ← site.valueIdentityOf type
      return (type.limitRule?.getD (.fixed 4), value.display)

/-- The description of an enum. -/
def describeEnum (site : Site) (d : EnumDecl) : Compiled TypeDescription := do
  let values ← constantValues site d.valueType 0 d.constants
  let names := d.constants.map (·.name)
  let (limit, value) ← enumEncoding site d.valueType
  let name := site.identity.simpleName
  let reader := (site.reader "enum" limit).withMethods
    [{ name := "get", role := .get, returns := s!"Option<{name}>" },
     { name := "value", role := .value, returns := value },
     { name := "value_of", role := .valueOf, params := [⟨"value", value⟩]
       returns := s!"Option<{name}>" }]
  return { reader with
      constants := (names.zip values).map fun (n, v) => ⟨n, v⟩
      valueOf := some (lookupOf d.valueType names values) }
    |>.withBuilder
        [{ name := "set", role := .set, params := [⟨"value", name⟩], returns := builderResult }]
        ["value"]

end Wireform
