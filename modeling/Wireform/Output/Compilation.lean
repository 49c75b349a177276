import Wireform.Json.Text
import Wireform.Output.Choice
import Wireform.Output.DescriptionJson
import Wireform.Output.Enumeration

/-!
# Compilation

From a schema to the descriptions of its types: the schema is verified, its names
are tabled, and each declaration in a scope of interest is described. The
descriptions of the built-in types come first.

A typedef has the description of what it stands for, under its own name and
identity.

## Main definitions

* `describeDeclaration`, `describeTypedef`: The description of a declaration.
* `compile`: The descriptions of a schema.
* `identities`: The identity of every declaration.
* `Specification.parse`, `Options.parse`: Schemas and options from JSON text.
* `identitiesText`: From JSON text to JSON text.
-/

namespace Wireform

/-- What a chain of typedefs ends in. -/
inductive AliasTarget where
  /-- A built-in type. -/
  | builtin (type : WireType)
  /-- A declaration, with the scope that its references are resolved from. -/
  | declared (scope : String) (declaration : Declaration)

/-- Follow typedefs from a type that is seen from a scope. `seen` are the names on
    the way, and `steps` bounds their number: a chain with more steps than there
    are declarations meets one of them again. -/
def aliasTarget (site : Site) (steps : Nat) (seen : List String) (scope : String) :
    WireType → Compiled AliasTarget
  | .named name => do
      let entry ← (site.inScope scope).resolve name
      if entry.qualifiedName ∈ seen then site.invalid .typedefCycle
      else
        match entry.declaration with
        | .typedef d =>
            match steps with
            | 0 => site.invalid .typedefCycle
            | steps + 1 =>
                aliasTarget site steps (entry.qualifiedName :: seen) entry.scope d.aliased
        | declaration => return .declared entry.scope declaration
  | type => .ok (.builtin type)

/-- The description of a declaration that is no typedef. -/
def describeShape (site : Site) : Declaration → Compiled TypeDescription
  | .struct d => describeStruct site d
  | .enum d => describeEnum site d
  | .list d => describeListDecl site d
  | .map d => describeMapDecl site d
  | .union d => describeUnion site d
  | .variant d => describeVariant site d
  | .typedef d => site.invalid (.cannotAlias d.aliased)

/-- The description of a typedef: what it stands for is described under its name. -/
def describeTypedef (site : Site) (d : TypedefDecl) : Compiled TypeDescription := do
  let target ← aliasTarget site site.table.entries.length [site.qualifiedName] site.scope d.aliased
  match target with
  | .declared scope declaration =>
      describeShape (site.inScope scope) (declaration.renamed d.name)
  | .builtin type =>
      match describeBuiltin? site.identity type with
      | some description => return { description with qualifiedName := some site.qualifiedName }
      | none => site.invalid (.cannotAlias type)

/-- The description of a declaration. -/
def describeDeclaration (site : Site) : Declaration → Compiled TypeDescription
  | .typedef d => describeTypedef site d
  | declaration => describeShape site declaration

/-- The descriptions of a schema. -/
structure Compilation where
  nameSpace : String
  /-- The built-in types, then the declarations of interest, depth first. -/
  types : List TypeDescription
  deriving Inhabited

namespace Compilation

/-- The description of a declaration. -/
def find? (c : Compilation) (qualifiedName : String) : Option TypeDescription :=
  c.types.find? (·.qualifiedName = some qualifiedName)

/-- The description of a built-in type. -/
def builtin? (c : Compilation) (family : String) : Option TypeDescription :=
  c.types.find? fun d => d.qualifiedName.isNone && d.family = family

/-- The descriptions of declarations alone. -/
def declarations (c : Compilation) : List TypeDescription :=
  c.types.filter (·.qualifiedName.isSome)

/-- The JSON form of a compilation. -/
def toJson (c : Compilation) : Json :=
  .obj [("namespace", .str c.nameSpace), ("types", .arr (c.types.map TypeDescription.toJson))]

/-- The JSON text of a compilation. -/
def text (c : Compilation) : String :=
  c.toJson.pretty

end Compilation

/-- The description of an entry of a name table. -/
def describeEntry (table : NameTable) (entry : NameEntry) : Compiled TypeDescription :=
  match Site.of? table entry.qualifiedName with
  | some site => describeDeclaration site entry.declaration
  | none => Checked.refuse (.invalid entry.qualifiedName .notResolved)

/-- A verified schema, or the error that reports what is wrong with it. -/
def verified (spec : Specification) : Compiled Unit :=
  match spec.verify with
  | .ok () => .ok ()
  | .error violation => Checked.refuse (.violation violation)

/-- The descriptions of a schema. -/
def compile (spec : Specification) (options : Options) : Compiled Compilation := do
  verified spec
  let table := NameTable.ofSpecification spec options
  let targeted := table.entries.filter fun entry => options.targets entry.scope
  let described ← targeted.mapM (describeEntry table)
  return { nameSpace := options.nameSpace
           types := describeBuiltins table.nameSpace ++ described }

/-- Put a name into a list in ascending order. An equal name is replaced. -/
def insertName {α : Type} (name : String) (value : α) : List (String × α) → List (String × α)
  | [] => [(name, value)]
  | (other, otherValue) :: rest =>
      if name < other then (name, value) :: (other, otherValue) :: rest
      else if name = other then (name, value) :: rest
      else (other, otherValue) :: insertName name value rest

/-- The identities of all declarations of a schema, in the order of their qualified
    names. -/
def identities (spec : Specification) (options : Options) :
    Compiled (List (String × Identity)) := do
  verified spec
  let table := NameTable.ofSpecification spec options
  return table.entries.foldl
    (fun names entry => insertName entry.qualifiedName entry.identity names) []

/-- The JSON form of identities. -/
def identitiesToJson (names : List (String × Identity)) : Json :=
  .obj (names.map fun (name, identity) => (name, identity.toJson))

/-- Read a value from JSON. What is nested too deeply may only be ignored. -/
def readWith {α : Type} (read : Json → Option α) (json : Json) : Compiled α :=
  match read (json.limitDepth Json.maxDepth) with
  | some value => .ok value
  | none => Checked.refuse .unreadable

/-- Read a value from JSON text. -/
def parseWith {α : Type} (read : Json → Option α) (text : String) : Compiled α :=
  match Json.parse text with
  | some json => readWith read json
  | none => Checked.refuse .unreadable

/-- Read a schema from JSON text. -/
def Specification.parse (text : String) : Compiled Specification :=
  parseWith Specification.ofJson? text

/-- Read options from JSON text. -/
def Options.parse (text : String) : Compiled Options :=
  parseWith Options.ofJson? text

/-- The JSON text of the identities of a schema in JSON text. -/
def identitiesText (schema : String) (options : Options) : Compiled String := do
  let spec ← Specification.parse schema
  let names ← identities spec options
  return (identitiesToJson names).pretty

end Wireform
