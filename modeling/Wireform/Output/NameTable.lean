import Wireform.Output.Identity
import Wireform.Schema.Naming

/-!
# The names of a schema

Every declaration with its qualified name, the scope it stands in and its
identity. The table is made once and then only read. Where a name is declared
twice, the last declaration counts.

## Main definitions

* `NameTable.ofSpecification`: The table of a schema.
* `NameTable.lookup?`, `NameTable.qualify?`: Find declarations by name.
* `NameTable.identityOf?`, `NameTable.identityIn?`: The identity of a type.
* `NameTable.valueIdentityIn?`: The identity of the values of a type.
-/

namespace Wireform

/-- A declaration with its names. -/
structure NameEntry where
  qualifiedName : String
  /-- The qualified name of the scope around the declaration. -/
  scope : String
  declaration : Declaration
  identity : Identity
  deriving Inhabited

/-- The entry of a declaration. The namespace takes the place of the root
    scope. -/
def Located.entry (options : Options) (l : Located) : NameEntry where
  qualifiedName := l.qualifiedName
  scope := l.scope
  declaration := l.declaration
  identity := .generated (qualify (options.nameSpace :: l.path.tail))
    (l.declaration.name ++ options.suffix)

/-- The names of a schema. -/
structure NameTable where
  nameSpace : String
  /-- The declarations, depth first. -/
  entries : List NameEntry
  deriving Inhabited

namespace NameTable

/-- The names of a schema under the given options. -/
def ofSpecification (spec : Specification) (options : Options) : NameTable where
  nameSpace := options.nameSpace
  entries := spec.located.map (Located.entry options)

/-- The declaration of a qualified name. -/
def lookup? (table : NameTable) (qualifiedName : String) : Option NameEntry :=
  table.entries.reverse.find? (·.qualifiedName = qualifiedName)

/-- Whether a qualified name is declared. -/
def isDefined (table : NameTable) (qualifiedName : String) : Bool :=
  table.entries.any (·.qualifiedName = qualifiedName)

/-- The qualified name that a name stands for, seen from a scope. -/
def qualify? (table : NameTable) (scope name : String) : Option String :=
  searchOutward table.isDefined scope name

/-- The identity of a type that is no reference. -/
def builtinIdentity? (table : NameTable) : WireType → Option Identity
  | .fixed kind => some (.host (HostInt.ofFixed kind))
  | type => (builtinName? type).map (Identity.generated table.nameSpace)

/-- The identity of a type whose references are qualified names. -/
def identityOf? (table : NameTable) : WireType → Option Identity
  | .named name => (table.lookup? name).map (·.identity)
  | type => table.builtinIdentity? type

/-- The identity of a type whose references are seen from a scope. -/
def identityIn? (table : NameTable) (scope : String) : WireType → Option Identity
  | .named name => do
      let qualifiedName ← table.qualify? scope name
      let entry ← table.lookup? qualifiedName
      return entry.identity
  | type => table.builtinIdentity? type

/-- The wider identity that holds the values of an unsigned type. -/
def unsignedIdentity? (table : NameTable) : WireType → Option Identity
  | .fixed .uint8 | .fixed .uint16 | .fixed .uint24 => some (.host .i32)
  | .fixed .uint32 => some (.host .i64)
  | .fixed .uint64 => some (.host .u64)
  | .varint .varuint32 =>
      (builtinName? (.varint .varuint32)).map (Identity.generated table.nameSpace)
  | _ => none

/-- The identity of the values of a type, which is wider for unsigned types. -/
def valueIdentityIn? (table : NameTable) (scope : String) (type : WireType) :
    Option Identity :=
  table.unsignedIdentity? type <|> table.identityIn? scope type

end NameTable

end Wireform
