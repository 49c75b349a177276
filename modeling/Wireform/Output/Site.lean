import Wireform.Output.Defect
import Wireform.Output.Description
import Wireform.Output.NameTable

/-!
# Where a declaration is described

A description is made under a name and an identity, with references resolved from
a scope. The three belong together for a declaration by itself, and come apart in
two places: a typedef describes another declaration under its own name, and a
struct lays out members that its supertypes declare in their scopes.

## Main definitions

* `Site`: The name, identity and scope of a description in the making.
* `Site.identity`, `Site.declaration`: What a type refers to.
* `Site.fixedSize`: The size of a type that never varies.
* `Site.field`: The description of a member.
-/

namespace Wireform

/-- Where a declaration is described. -/
structure Site where
  table : NameTable
  /-- The scope that references are resolved from. -/
  scope : String
  qualifiedName : String
  identity : Identity
  deriving Inhabited

namespace Site

/-- The site of a declaration by itself. -/
def of? (table : NameTable) (qualifiedName : String) : Option Site :=
  (table.lookup? qualifiedName).map fun entry =>
    { table, scope := entry.scope, qualifiedName, identity := entry.identity }

/-- The same site with references resolved from another scope. -/
def inScope (site : Site) (scope : String) : Site :=
  { site with scope }

/-- The error for a type that refers to nothing. -/
def unresolved {α : Type} (site : Site) (type : WireType) : Compiled α :=
  Checked.refuse (.unresolved type.display site.qualifiedName)

/-- The error for a declaration that cannot be described. -/
def invalid {α : Type} (site : Site) (defect : Defect) : Compiled α :=
  Checked.refuse (.invalid site.qualifiedName defect)

/-- The identity of a type. -/
def identityOf (site : Site) (type : WireType) : Compiled Identity :=
  match site.table.identityIn? site.scope type with
  | some identity => .ok identity
  | none => site.unresolved type

/-- The identity of the values of a type. -/
def valueIdentityOf (site : Site) (type : WireType) : Compiled Identity :=
  match site.table.valueIdentityIn? site.scope type with
  | some identity => .ok identity
  | none => site.unresolved type

/-- The declaration that a name refers to. -/
def resolve (site : Site) (name : String) : Compiled NameEntry :=
  match site.table.qualify? site.scope name with
  | some qualifiedName =>
      match site.table.lookup? qualifiedName with
      | some entry => .ok entry
      | none => site.unresolved (.named name)
  | none => site.unresolved (.named name)

/-- The declaration that a type refers to. -/
def declaration (site : Site) : WireType → Compiled NameEntry
  | .named name => site.resolve name
  | type => site.unresolved type

/-- The size of a type, if it never varies. `steps` bounds the number of typedefs
    that are followed. -/
def fixedSizeWithin (site : Site) : Nat → WireType → Compiled (Option Nat)
  | steps, .named name => do
      let entry ← site.resolve name
      match entry.declaration with
      | .enum d =>
          match d.valueType with
          | none => return some 4
          | some type => return type.fixedWidth?
      | .typedef d =>
          match steps with
          | 0 => Checked.stop
          | steps + 1 => (site.inScope entry.scope).fixedSizeWithin steps d.aliased
      | _ => return none
  | _, type => return type.fixedWidth?

/-- The size of a type, if it never varies. A chain of more typedefs than there
    are declarations does not end. -/
def fixedSize (site : Site) (type : WireType) : Compiled (Option Nat) :=
  site.fixedSizeWithin site.table.entries.length type

/-- The identities of the elements of an array or a map. -/
def parameters (site : Site) : WireType → Compiled (List Identity)
  | .array _ item => do return [← site.identityOf item]
  | .map _ key value => do
      let key ← site.identityOf key
      let value ← site.identityOf value
      return [key, value]
  | _ => .ok []

/-- The size of a member, if it never varies: the size of its type, or of an array
    with a declared number of items of a size that never varies. -/
def memberSize (site : Site) (m : Member) : Compiled (Option Nat) := do
  match ← site.fixedSize m.type with
  | some size => return some size
  | none =>
      match m.type, m.size with
      | .array width item, some count =>
          match ← site.fixedSize item with
          | some size =>
              -- a length and a count stand before the items
              let items ← Word.mul count size
              return some (← Word.add (2 * width.bytes) items)
          | none => return none
      | _, _ => return none

/-- The description of a member at an offset. -/
def field (site : Site) (m : Member) (offset : Option Nat) : Compiled FieldDescription := do
  let parameters ← site.parameters m.type
  let size ← site.memberSize m
  let identity ← site.identityOf m.type
  let valueIdentity ← site.valueIdentityOf m.type
  return {
    name := m.name
    wireType := m.type.display
    identity, valueIdentity, parameters, offset, size
    required := m.isRequired
    default := m.default
    byteOrder := m.byteOrder }

/-- A reader under the name of the site. -/
def reader (site : Site) (family : String) (limit : LimitRule) : TypeDescription :=
  { TypeDescription.reader family site.identity limit with
    qualifiedName := some site.qualifiedName }

end Site

end Wireform
