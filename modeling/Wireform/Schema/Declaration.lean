import Wireform.Schema.WireType

/-!
# Declarations

What a schema declares, and the tree of scopes it is declared in. A struct lays
out its members one after the other, a list lays out those that are present, a
union and a variant select one of their cases by a discriminator, an enum names
the values of a type, a map declares the types of its keys and values, and a
typedef gives a type another name.

## Main definitions

* `Literal`: Defaults, enum values and discriminators.
* `Member`, `Declaration`, `Scope`, `Specification`: The tree of a schema.
* `Declaration.referencedTypes`: The types a declaration refers to.
* `qualify`: The qualified name of a path of names.
-/

namespace Wireform

/-- A literal value of a schema. -/
inductive Literal where
  | integer (value : Int)
  | text (value : String)
  deriving DecidableEq, Inhabited

/-- The integer of a literal. -/
def Literal.integer? : Literal → Option Int
  | .integer value => some value
  | .text _ => none

/-- A member of a struct or a list. -/
structure Member where
  name : String
  type : WireType
  /-- A member with a default may be left out when building. -/
  default : Option Literal := none
  /-- The number of items of an array member, where that never varies. -/
  size : Option Nat := none
  byteOrder : ByteOrder := .native
  deriving DecidableEq, Inhabited

/-- Whether a member cannot be left out. -/
def Member.isRequired (m : Member) : Bool :=
  m.default.isNone

/-- Members one after the other, those of the supertype first. -/
structure StructDecl where
  name : String
  supertype : Option String := none
  typeId : Option Nat := none
  members : List Member := []
  deriving DecidableEq, Inhabited

/-- A named value. Without a literal, its position or its name is the value. -/
structure EnumConstant where
  name : String
  value : Option Literal := none
  deriving DecidableEq, Inhabited

/-- Named values of a type. Without a value type the position is encoded. -/
structure EnumDecl where
  name : String
  valueType : Option WireType := none
  constants : List EnumConstant
  deriving DecidableEq, Inhabited

/-- Those of the members that are present. -/
structure ListDecl where
  name : String
  width : Width
  members : List Member := []
  deriving DecidableEq, Inhabited

/-- Entries of a key and a value. -/
structure MapDecl where
  name : String
  width : Width
  key : WireType
  value : WireType
  deriving DecidableEq, Inhabited

/-- A case of a union, with the discriminator that selects it. -/
structure UnionCase where
  value : Int
  name : String
  type : WireType
  deriving DecidableEq, Inhabited

/-- A case selected by an integer. -/
structure UnionDecl where
  name : String
  kind : WireType := .fixed .uint8
  cases : List UnionCase
  deriving DecidableEq, Inhabited

/-- A case of a variant, with the discriminator that selects it. -/
structure VariantCase where
  kind : Literal
  type : WireType
  deriving DecidableEq, Inhabited

/-- A case selected by an integer or an enum constant, read as a type that all
    cases widen to. -/
structure VariantDecl where
  name : String
  kind : WireType
  /-- The common type; the type of the first case if absent. -/
  of : Option WireType := none
  cases : List VariantCase
  deriving DecidableEq, Inhabited

/-- Another name for a type. -/
structure TypedefDecl where
  name : String
  aliased : WireType
  deriving DecidableEq, Inhabited

/-- A named node of a scope. -/
inductive Declaration where
  | struct (decl : StructDecl)
  | enum (decl : EnumDecl)
  | list (decl : ListDecl)
  | map (decl : MapDecl)
  | union (decl : UnionDecl)
  | variant (decl : VariantDecl)
  | typedef (decl : TypedefDecl)
  deriving DecidableEq, Inhabited

namespace Declaration

/-- The name, as it stands in the schema. -/
def name : Declaration → String
  | .struct d => d.name
  | .enum d => d.name
  | .list d => d.name
  | .map d => d.name
  | .union d => d.name
  | .variant d => d.name
  | .typedef d => d.name

/-- The word for the kind of declaration. -/
def kind : Declaration → String
  | .struct _ => "struct"
  | .enum _ => "enum"
  | .list _ => "list"
  | .map _ => "map"
  | .union _ => "union"
  | .variant _ => "variant"
  | .typedef _ => "typedef"

/-- The members that the declaration itself lays out. -/
def members : Declaration → List Member
  | .struct d => d.members
  | .list d => d.members
  | _ => []

/-- Every type the declaration refers to, in the order of the declaration. -/
def referencedTypes : Declaration → List WireType
  | .struct d => d.members.map (·.type)
  | .list d => d.members.map (·.type)
  | .enum d => d.valueType.toList
  | .map d => [d.key, d.value]
  | .union d => d.kind :: d.cases.map (·.type)
  | .variant d => d.kind :: (d.of.toList ++ d.cases.map (·.type))
  | .typedef d => [d.aliased]

/-- The declaration under another name. -/
def renamed (name : String) : Declaration → Declaration
  | .struct d => .struct { d with name }
  | .enum d => .enum { d with name }
  | .list d => .list { d with name }
  | .map d => .map { d with name }
  | .union d => .union { d with name }
  | .variant d => .variant { d with name }
  | .typedef d => .typedef { d with name }

end Declaration

/-- Declarations under a name, and the scopes nested in it. -/
inductive Scope where
  | mk (name : String) (scopes : List Scope) (declarations : List Declaration)
  deriving Inhabited

namespace Scope

/-- The local name of the scope. -/
def name : Scope → String
  | mk name _ _ => name

/-- The nested scopes. -/
def scopes : Scope → List Scope
  | mk _ scopes _ => scopes

/-- The declarations of the scope itself. -/
def declarations : Scope → List Declaration
  | mk _ _ declarations => declarations

end Scope

/-- A schema: the root scope and everything nested in it. -/
structure Specification where
  scope : Scope
  deriving Inhabited

/-- What stands between the names of a path. -/
def scopeSeparator : String := "::"

/-- The qualified name of a path of names. -/
def qualify (path : List String) : String :=
  scopeSeparator.intercalate path

/-- A declaration with the path of scope names it stands in. -/
structure Located where
  path : List String
  declaration : Declaration
  deriving Inhabited

namespace Located

/-- The qualified name of the scope around the declaration. -/
def scope (l : Located) : String :=
  qualify l.path

/-- The qualified name of the declaration. -/
def qualifiedName (l : Located) : String :=
  qualify (l.path ++ [l.declaration.name])

end Located

mutual

/-- The declarations of a scope that stands in the given path, its own first,
    then those of the nested scopes. -/
def Scope.locate (path : List String) : Scope → List Located
  | .mk name scopes declarations =>
      declarations.map (Located.mk (path ++ [name])) ++ Scope.locateAll (path ++ [name]) scopes

/-- The declarations of several scopes that stand in the given path. -/
def Scope.locateAll (path : List String) : List Scope → List Located
  | [] => []
  | scope :: rest => scope.locate path ++ Scope.locateAll path rest

end

/-- All declarations of a schema, depth first. -/
def Specification.located (spec : Specification) : List Located :=
  spec.scope.locate []

end Wireform
