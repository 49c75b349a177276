import Wireform.Output.Layout

/-!
# Unions and variants

A discriminator followed by the case it selects. A union is discriminated by an
integer of fixed width. A variant is discriminated by an integer or by the
constants of an enum, and is read as a common type of its cases.

## Main definitions

* `describeUnion`: The description of a union.
* `describeVariant`: The description of a variant.
-/

namespace Wireform

/-- The size of the discriminator of a union. -/
def unionKindSize (site : Site) (kind : WireType) : Compiled Nat := do
  let size ← site.fixedSize kind
  match kind.isInteger, size with
  | true, some size => return size
  | _, _ => site.invalid (.unionKind kind)

/-- The constants of a union with a discriminator of the given size. -/
def unionConstants (kindSize : Nat) (cases : List UnionCase) : List ConstantDescription :=
  ⟨"FIELD_OFFSET_KIND", .integer 0⟩ :: ⟨"FIELD_SIZE_KIND", .integer kindSize⟩
    :: cases.map fun c => ⟨constantName "KIND_" c.name, .integer c.value⟩

/-- The description of a union. -/
def describeUnion (site : Site) (d : UnionDecl) : Compiled TypeDescription := do
  let kindSize ← unionKindSize site d.kind
  let kind ← site.valueIdentityOf d.kind
  let fields ← d.cases.mapM fun c => site.field { name := c.name, type := c.type } (some kindSize)
  let cases := d.cases.zip fields
  let readers := cases.map fun ((c, f) : UnionCase × FieldDescription) =>
    { name := c.name, role := .case (.integer c.value) c.name
      returns := f.valueIdentity.display : Method }
  let setters := cases.map fun ((c, f) : UnionCase × FieldDescription) =>
    { name := c.name, role := .caseSetter (.integer c.value) c.name
      params := [⟨"value", f.valueIdentity.display⟩], returns := builderResult : Method }
  let reader := (site.reader "union" (.dispatch kind)).withMethods
    ({ name := "kind", role := .kind, returns := kind.display } :: readers)
  return { reader with
      constants := unionConstants kindSize d.cases
      fields }
    |>.withBuilder setters ["kind"]

/-- The name of the member that a case of a variant is read as. -/
def caseName : Literal → String
  | .integer value =>
      if value < 0 then s!"as_minus_{value.natAbs}" else s!"as_{value}"
  | .text name => "as_" ++ Text.lowercaseText name

/-- The names of the constants that discriminate a variant, or nothing if it is
    discriminated by an integer. -/
def discriminatingConstants (site : Site) (kind : WireType) : Compiled (Option (List String)) := do
  if kind.isInteger then
    return none
  else
    match kind with
    | .named name =>
        let entry ← site.resolve name
        match entry.declaration with
        | .enum d => return some (d.constants.map (·.name))
        | _ => site.invalid (.variantKindNotEnum entry.qualifiedName)
    | _ => site.invalid (.variantKind kind)

/-- Whether a literal is a discriminator: an integer, or one of the constants. -/
def isDiscriminator : Option (List String) → Literal → Bool
  | none, .integer _ => true
  | some constants, .text name => name ∈ constants
  | _, _ => false

/-- The type that all cases of a variant are read as. -/
def commonType (site : Site) (d : VariantDecl) : Compiled WireType :=
  match d.of, d.cases with
  | some type, _ => .ok type
  | none, c :: _ => .ok c.type
  | none, [] => site.invalid .variantWithoutCases

/-- The description of a variant. -/
def describeVariant (site : Site) (d : VariantDecl) : Compiled TypeDescription := do
  let constants ← discriminatingConstants site d.kind
  match d.cases.find? (!isDiscriminator constants ·.kind) with
  | some c => site.invalid (.caseKindMismatch c.kind d.kind)
  | none =>
      let common ← commonType site d
      let common ← site.valueIdentityOf common
      let kind ← site.identityOf d.kind
      let kindSize ← site.fixedSize d.kind
      let fields ← d.cases.mapM fun c =>
        site.field { name := caseName c.kind, type := c.type } kindSize
      let cases := d.cases.zip fields
      let readers := cases.map fun ((c, f) : VariantCase × FieldDescription) =>
        { name := "get_" ++ f.name, role := .case c.kind f.name
          returns := f.valueIdentity.display : Method }
      let setters := cases.map fun ((c, f) : VariantCase × FieldDescription) =>
        { name := "set_" ++ f.name, role := .caseSetter c.kind f.name
          params := [⟨"value", f.valueIdentity.display⟩], returns := builderResult : Method }
      let reader := (site.reader "variant" (.dispatch kind)).withMethods
        ([{ name := "kind", role := .kind, returns := kind.display },
          { name := "get", role := .get, returns := common.display }] ++ readers)
      return { reader with fields }
        |>.withBuilder
            ({ name := "set", role := .set, params := [⟨"value", common.display⟩]
               returns := builderResult } :: setters)
            ["value"]

end Wireform
