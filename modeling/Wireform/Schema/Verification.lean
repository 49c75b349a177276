import Wireform.Json.Printer
import Wireform.Schema.Naming

/-!
# Verification

Whether a schema is well formed: names are identifiers and unique where they have
to be, bounds fit their prefixes, and the supertypes of every struct are structs
that end somewhere. Other references are left to the generators, which have to
resolve them anyway.

The first violation in the order of the schema is reported, except that
supertypes are followed only after everything else has passed.

## Main definitions

* `Violation`, `Violation.message`: What is wrong with a schema.
* `Declaration.verify`: Check a declaration by itself.
* `Scope.verify`: Check the scopes and declarations of a tree.
* `verifySupertypes`: Follow the supertypes of a struct.
* `Specification.verify`: Check a schema.
-/

namespace Wireform

/-- A rule that a schema does not keep. -/
inductive Violation where
  /-- A name of the given kind is no identifier. -/
  | notIdentifier (kind name : String)
  | definedTwice (type : String)
  | memberTwice (member owner : String)
  | constantTwice (constant owner : String)
  | constantValueTwice (constant owner : String)
  | caseValueTwice (value : Int) (owner : String)
  | caseKindTwice (owner : String)
  /-- A bound is beyond the largest length that its prefix holds. -/
  | boundTooLarge (width : Width) (bound : Nat) (owner : String)
  | supertypeUndefined (supertype owner : String)
  | supertypeNotStruct (supertype owner : String)
  | recursiveInheritance (owner : String)
  deriving DecidableEq

/-- The text that reports a violation. -/
def Violation.message : Violation → String
  | .notIdentifier kind name => s!"The {kind} name {Json.quote name} is not an identifier"
  | .definedTwice type => s!"The type {Json.quote type} is defined twice"
  | .memberTwice member owner =>
      s!"The member {Json.quote member} is declared twice in {Json.quote owner}"
  | .constantTwice constant owner =>
      s!"The constant {Json.quote constant} is declared twice in {Json.quote owner}"
  | .constantValueTwice constant owner =>
      s!"The value of constant {Json.quote constant} is used twice in {Json.quote owner}"
  | .caseValueTwice value owner =>
      s!"The union case value {value} is used twice in {Json.quote owner}"
  | .caseKindTwice owner => s!"A variant case kind is used twice in {Json.quote owner}"
  | .boundTooLarge width bound owner =>
      s!"The bound {bound} of " ++ (WireType.boundedOctets width (some bound)).display
        ++ s!" in {Json.quote owner} does not fit a {width.bits}-bit length"
  | .supertypeUndefined supertype owner =>
      s!"The supertype {Json.quote supertype} of {Json.quote owner} is not defined"
  | .supertypeNotStruct supertype owner =>
      s!"The supertype {Json.quote supertype} of {Json.quote owner} is not a struct"
  | .recursiveInheritance owner =>
      s!"Recursive inheritance of {Json.quote owner} is not allowed"

/-- A check that passes or finds a violation. -/
abbrev Verified : Type := Except Violation Unit

/-- Require a condition. -/
def require (condition : Bool) (violation : Violation) : Verified :=
  if condition then .ok () else .error violation

/-- A name has to be an identifier. -/
def verifyIdentifier (kind name : String) : Verified :=
  require (isIdentifier name) (.notIdentifier kind name)

/-- The names of members are identifiers, and none is used twice. -/
def verifyMembers (owner : String) (seen : List String) : List Member → Verified
  | [] => .ok ()
  | m :: rest => do
      verifyIdentifier "member" m.name
      require (m.name ∉ seen) (.memberTwice m.name owner)
      verifyMembers owner (m.name :: seen) rest

/-- The bounds in a type fit their prefixes. -/
def WireType.verifyBounds (owner : String) : WireType → Verified
  | .boundedOctets width (some bound) =>
      require (width.bits = 0 || bound ≤ width.greatest) (.boundTooLarge width bound owner)
  | .array _ item => item.verifyBounds owner
  | .map _ key value => do
      key.verifyBounds owner
      value.verifyBounds owner
  | _ => .ok ()

/-- The names of constants are identifiers, and no name and no value is used
    twice. -/
def verifyConstants (owner : String) (names : List String) (values : List Literal) :
    List EnumConstant → Verified
  | [] => .ok ()
  | c :: rest => do
      verifyIdentifier "constant" c.name
      require (c.name ∉ names) (.constantTwice c.name owner)
      match c.value with
      | some value =>
          require (value ∉ values) (.constantValueTwice c.name owner)
          verifyConstants owner (c.name :: names) (value :: values) rest
      | none => verifyConstants owner (c.name :: names) values rest

/-- The names of cases are identifiers, and no value is used twice. -/
def verifyUnionCases (owner : String) (values : List Int) : List UnionCase → Verified
  | [] => .ok ()
  | c :: rest => do
      verifyIdentifier "case" c.name
      require (c.value ∉ values) (.caseValueTwice c.value owner)
      verifyUnionCases owner (c.value :: values) rest

/-- No kind is used twice. -/
def verifyVariantCases (owner : String) (kinds : List Literal) : List VariantCase → Verified
  | [] => .ok ()
  | c :: rest => do
      require (c.kind ∉ kinds) (.caseKindTwice owner)
      verifyVariantCases owner (c.kind :: kinds) rest

/-- Check a declaration by itself, under its qualified name. -/
def Declaration.verify (d : Declaration) (qualifiedName : String) : Verified := do
  verifyMembers qualifiedName [] d.members
  d.referencedTypes.forM (WireType.verifyBounds qualifiedName)
  match d with
  | .enum e => verifyConstants qualifiedName [] [] e.constants
  | .union u => verifyUnionCases qualifiedName [] u.cases
  | .variant v => verifyVariantCases qualifiedName [] v.cases
  | _ => .ok ()

/-- Check the declarations of a scope after those whose qualified names are
    given, and return the qualified names of all of them. -/
def verifyDeclarations (path : List String) (defined : List String) :
    List Declaration → Except Violation (List String)
  | [] => .ok defined
  | d :: rest => do
      verifyIdentifier d.kind d.name
      let qualifiedName := qualify (path ++ [d.name])
      require (qualifiedName ∉ defined) (.definedTwice qualifiedName)
      d.verify qualifiedName
      verifyDeclarations path (qualifiedName :: defined) rest

mutual

/-- Check a scope that stands in the given path, after the declarations whose
    qualified names are given, and return the qualified names of all of them. -/
def Scope.verify (path : List String) (defined : List String) :
    Scope → Except Violation (List String)
  | .mk name scopes declarations => do
      verifyIdentifier "scope" name
      let defined ← verifyDeclarations (path ++ [name]) defined declarations
      Scope.verifyAll (path ++ [name]) defined scopes

/-- Check several scopes that stand in the given path. -/
def Scope.verifyAll (path : List String) (defined : List String) :
    List Scope → Except Violation (List String)
  | [] => .ok defined
  | scope :: rest => do
      let defined ← scope.verify path defined
      Scope.verifyAll path defined rest

end

/-- A struct with the qualified names of its scope and of itself. -/
structure LocatedStruct where
  qualifiedName : String
  scope : String
  struct : StructDecl

/-- The structs among located declarations. -/
def structsAmong (located : List Located) : List LocatedStruct :=
  located.filterMap fun l =>
    match l.declaration with
    | .struct d => some ⟨l.qualifiedName, l.scope, d⟩
    | _ => none

/-- Follow the supertypes of a struct. `owner` is where the chain started, `seen`
    are the structs on it, and `steps` bounds its length: a chain with more steps
    than there are structs meets one of them again. -/
def verifySupertypes (defined : List String) (structs : List LocatedStruct) (owner : String)
    (steps : Nat) (seen : List String) (current : LocatedStruct) : Verified :=
  match current.struct.supertype with
  | none => .ok ()
  | some supertype =>
      match searchOutward (· ∈ defined) current.scope supertype with
      | none => .error (.supertypeUndefined supertype owner)
      | some resolved =>
          match structs.find? (·.qualifiedName = resolved) with
          | none => .error (.supertypeNotStruct resolved owner)
          | some parent =>
              if resolved ∈ seen then .error (.recursiveInheritance owner)
              else
                match steps with
                | 0 => .error (.recursiveInheritance owner)
                | steps + 1 =>
                    verifySupertypes defined structs owner steps (resolved :: seen) parent

/-- Check a schema. -/
def Specification.verify (spec : Specification) : Verified := do
  let defined ← spec.scope.verify [] []
  -- names are unique from here on, so a qualified name stands for one struct
  let structs := structsAmong spec.located
  structs.forM fun s =>
    verifySupertypes defined structs s.qualifiedName structs.length [s.qualifiedName] s

end Wireform
