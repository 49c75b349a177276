import Wireform.Output.Identity

/-!
# Descriptions of readers and builders

Everything that is needed to write the reader and the builder of a type: its
identity, how the end of an encoding is found, its constants and members, and the
methods of both with the role each plays.

## Main definitions

* `LimitRule`: How the end of an encoding is found.
* `Role`, `Method`: What a method does, and its signature.
* `FieldDescription`: A member as it is laid out.
* `ValueOf`: How the constant of an encoded value is found.
* `TypeDescription`: The description of a type.
-/

namespace Wireform

/-- How a reader finds the end of an encoding that starts at an offset. -/
inductive LimitRule where
  /-- A number of bytes that never varies. -/
  | fixed (width : Nat)
  /-- Bytes with continuation bits. The encoded number is the value moved by
      `bias`. -/
  | varint (bits : Nat) (zigzag : Bool) (maxSize : Nat) (bias : Int)
  /-- A prefix of this many bytes, and as many bytes as it says. -/
  | prefixed (size : Nat)
  /-- A variable-width prefix, and as many bytes as it says. -/
  | varintPrefixed
  /-- The rest of the window, up to a bound. -/
  | remaining (bound : Option Nat)
  /-- A length and a count of this many bytes each; the length covers the count. -/
  | sequence (size : Nat)
  /-- Nothing at all. -/
  | empty
  /-- The end of the last member. -/
  | members
  /-- The end of the case that the discriminator selects. -/
  | dispatch (kind : Identity)
  deriving DecidableEq, Inhabited

/-- A named constant. -/
structure ConstantDescription where
  name : String
  value : Literal
  deriving DecidableEq, Inhabited

/-- A member as it is laid out. -/
structure FieldDescription where
  name : String
  /-- The type as the schema writes it. -/
  wireType : String
  identity : Identity
  /-- The identity of the member's values. -/
  valueIdentity : Identity
  /-- The identities of the elements of arrays and maps. -/
  parameters : List Identity
  /-- The distance from the start, where every member before has a size. -/
  offset : Option Nat
  /-- The number of bytes, where it never varies. -/
  size : Option Nat
  required : Bool
  default : Option Literal
  byteOrder : ByteOrder
  deriving DecidableEq, Inhabited

/-- What a method does, so that its name need not be understood. -/
inductive Role where
  | tryWrap
  | wrap
  | limit
  | sizeof
  | length
  | fieldCount
  | fields
  | value
  | asString
  | fieldSizeLength
  /-- Read the named member. -/
  | accessor (field : String)
  /-- Whether an optional member is present. -/
  | presence (field : String)
  | kind
  /-- Read the case that a discriminator selects. -/
  | case (kind : Literal) (field : String)
  | get
  | typeId
  | isEmpty
  | forEach
  | anyMatch
  | matchFirst
  | valueOf
  | bound
  | withBound
  /-- Write from the start. -/
  | set
  /-- Write after what has been written. -/
  | put
  /-- Write the named member, in the order of the layout. -/
  | setter (field : String) (index : Nat)
  /-- Select a case and write it. -/
  | caseSetter (kind : Literal) (field : String)
  | setNull
  | field
  | fieldsCount
  | fieldsFrom
  | item
  | entry
  | build
  deriving DecidableEq, Inhabited

/-- A parameter of a method. -/
structure Parameter where
  name : String
  type : String
  deriving DecidableEq, Inhabited

/-- The signature of a method, and what it does. -/
structure Method where
  name : String
  role : Role
  params : List Parameter := []
  returns : String := "()"
  deriving DecidableEq, Inhabited

/-- The description of a builder. -/
structure BuilderDescription where
  name : String
  methods : List Method
  /-- The members that may not be left out. -/
  required : List String
  deriving DecidableEq, Inhabited

/-- The builder method of a name. -/
def BuilderDescription.method? (b : BuilderDescription) (name : String) : Option Method :=
  b.methods.find? (·.name = name)

/-- How the constant of an encoded value is found. -/
inductive ValueOf where
  /-- The value is the position of the constant. -/
  | ordinal (constants : List String)
  /-- Comparison with each value of at most 32 bits. -/
  | switch (cases : List (Int × String))
  /-- A table by value, in ascending order. -/
  | table (entries : List (Int × String))
  /-- Comparison with each text. -/
  | stringSwitch (cases : List (String × String))
  deriving DecidableEq, Inhabited

namespace ValueOf

/-- The name of the strategy. -/
def strategy : ValueOf → String
  | .ordinal _ => "ordinal"
  | .switch _ => "switch"
  | .table _ => "table"
  | .stringSwitch _ => "string_switch"

/-- The constant of an encoded value. -/
def lookup? : ValueOf → Literal → Option String
  | .ordinal constants, .integer position =>
      if 0 ≤ position then constants[position.toNat]? else none
  | .switch cases, .integer value => cases.lookup value
  | .table entries, .integer value => entries.lookup value
  | .stringSwitch cases, .text text => cases.lookup text
  | _, _ => none

/-- Put a value into a table in ascending order. An equal value is replaced. -/
def insertEntry (value : Int) (name : String) : List (Int × String) → List (Int × String)
  | [] => [(value, name)]
  | (other, otherName) :: rest =>
      if value < other then (value, name) :: (other, otherName) :: rest
      else if value = other then (value, name) :: rest
      else (other, otherName) :: insertEntry value name rest

/-- The table of some values, in ascending order and with the last of equal
    ones. -/
def tableOf (cases : List (Int × String)) : ValueOf :=
  .table (cases.foldl (fun entries c => insertEntry c.1 c.2 entries) [])

end ValueOf

/-- The description of the reader and the builder of a type. -/
structure TypeDescription where
  /-- The qualified name of the declaration; absent for built-in types. -/
  qualifiedName : Option String := none
  /-- The kind of declaration, or the built-in family. -/
  family : String
  identity : Identity
  limit : LimitRule
  constants : List ConstantDescription := []
  fields : List FieldDescription := []
  methods : List Method
  builder : Option BuilderDescription := none
  valueOf : Option ValueOf := none
  deriving DecidableEq, Inhabited

/-- What the methods of a builder return. -/
def builderResult : String := "FlyweightResult<&mut Self>"

/-- The window that a reader is bound to. -/
def windowParams : List Parameter :=
  [⟨"buffer", "&[u8]"⟩, ⟨"offset", "usize"⟩, ⟨"max_limit", "usize"⟩]

/-- The reverse of a name without any built-in suffix at its end. -/
def dropBuiltinSuffixes : List Char → List Char
  | 'W' :: 'F' :: rest => dropBuiltinSuffixes rest
  | reversed => reversed

/-- The name of the builder of a reader: the name of the reader without the
    built-in suffix, however often that stands at its end. -/
def builderName (reader : String) : String :=
  String.ofList (dropBuiltinSuffixes reader.toList.reverse).reverse ++ "Builder"

namespace TypeDescription

/-- A reader with the methods that every reader has. -/
def reader (family : String) (identity : Identity) (limit : LimitRule) : TypeDescription where
  family
  identity
  limit
  methods :=
    [{ name := "try_wrap", role := .tryWrap, params := windowParams
       returns := s!"Option<{identity.simpleName}>" },
     { name := "wrap", role := .wrap, params := windowParams
       returns := s!"FlyweightResult<{identity.simpleName}>" },
     { name := "limit", role := .limit, returns := "usize" },
     { name := "sizeof", role := .sizeof, returns := "usize" }]

/-- The description with more reader methods. -/
def withMethods (d : TypeDescription) (methods : List Method) : TypeDescription :=
  { d with methods := d.methods ++ methods }

/-- The description with a builder of these methods, and the method that ends
    it. -/
def withBuilder (d : TypeDescription) (methods : List Method) (required : List String) :
    TypeDescription :=
  let build : Method :=
    { name := "build", role := .build
      returns := s!"FlyweightResult<{d.identity.simpleName}>" }
  { d with
    builder := some
      { name := builderName d.identity.simpleName, methods := methods ++ [build], required } }

/-- The reader method of a name. -/
def method? (d : TypeDescription) (name : String) : Option Method :=
  d.methods.find? (·.name = name)

/-- The member of a name. -/
def field? (d : TypeDescription) (name : String) : Option FieldDescription :=
  d.fields.find? (·.name = name)

/-- The value of the constant of a name. -/
def constant? (d : TypeDescription) (name : String) : Option Literal :=
  (d.constants.find? (·.name = name)).map (·.value)

end TypeDescription

end Wireform
