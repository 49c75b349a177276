import Mathlib.Data.List.Forall2
import Wireform.Proofs.Compiling

/-!
# What Descriptions Read

How much of a schema a description depends on.

A description looks declarations up by their names and reads a part of what it finds.
Of a type it reads what stands outside: the elements of an array or a map are looked
up if it is the type of a field, and what stands further inside goes into texts only.
Of a case it does not read by which integer it is selected, and of a member not what
its default is. `Declaration.SameReading` relates declarations that agree on the rest.

Tables, entries and sites are compared up to a relation on declarations, which is a
parameter here. Everything that is followed by name is followed alike up to any
relation that implies `SameReading`, so that the walks up supertypes and along typedefs
are gone through once. With equality it says that every name means the same.

Errors show types, and differ where nothing else does. The lemmas are stated with
`Checked.Alike`: both computations fail, or both give values that are related.

## Main definitions

* `WireType.AgreesTo`: Types that are the same down to a depth.
* `Declaration.SameReading`: Declarations that agree on what descriptions read.
* `NameTable.SameUpTo`, `Site.SameUpTo`: Tables in which, and sites from which, every
  name means the same up to a relation on declarations.
* `Site.SameReading`: Sites from which every name reads the same.

## Theorems

* `WireType.AgreesTo.look_eq`: What does not look inside a type.
* `Site.SameUpTo.alike_resolve`: Names are resolved alike.
* `Site.SameReading.alike_fixedSize`: A type has the same size from such sites.
* `Site.SameReading.alike_field`: Fields are described alike.
* `Site.SameUpTo.alike_layout`: Members are laid out alike.
* `Site.SameUpTo.alike_describeDeclaration`: Declarations are described alike if shapes
  are.
-/

namespace Wireform

open Checked

namespace WireType

/-- Two types that are the same down to a depth of arrays and maps. What stands deeper
    may differ. -/
inductive AgreesTo : Nat → WireType → WireType → Prop where
  | same {depth : Nat} (t : WireType) : AgreesTo depth t t
  | hidden (t t' : WireType) : AgreesTo 0 t t'
  | array {depth : Nat} {width : Width} {item item' : WireType} (h : AgreesTo depth item item') :
      AgreesTo (depth + 1) (.array width item) (.array width item')
  | map {depth : Nat} {width : Width} {key key' value value' : WireType}
      (hkey : AgreesTo depth key key') (hvalue : AgreesTo depth value value') :
      AgreesTo (depth + 1) (.map width key value) (.map width key' value')

namespace AgreesTo

variable {depth : Nat} {t t' : WireType}

theorem mono (h : t.AgreesTo depth t') {less : Nat} (hle : less ≤ depth) :
    t.AgreesTo less t' := by
  induction h generalizing less with
  | same t => exact .same t
  | hidden t t' =>
      rw [Nat.le_zero.mp hle]
      exact .hidden t t'
  | array _ ih =>
      cases less with
      | zero => exact .hidden _ _
      | succ less => exact .array (ih (Nat.le_of_succ_le_succ hle))
  | map _ _ ihkey ihvalue =>
      cases less with
      | zero => exact .hidden _ _
      | succ less =>
          have hle := Nat.le_of_succ_le_succ hle
          exact .map (ihkey hle) (ihvalue hle)

/-- What does not depend on the elements of arrays and maps does not see what differs
    inside. -/
theorem look_eq {α : Type} {look : WireType → α}
    (harray : ∀ width item item', look (.array width item) = look (.array width item'))
    (hmap : ∀ width key value key' value',
      look (.map width key value) = look (.map width key' value'))
    (h : t.AgreesTo (depth + 1) t') : look t = look t' := by
  cases h with
  | same _ => rfl
  | array _ => exact harray _ _ _
  | map _ _ => exact hmap _ _ _ _ _

theorem isInteger (h : t.AgreesTo (depth + 1) t') : t.isInteger = t'.isInteger :=
  h.look_eq (fun _ _ _ => rfl) fun _ _ _ _ _ => rfl

theorem fixedWidth? (h : t.AgreesTo (depth + 1) t') : t.fixedWidth? = t'.fixedWidth? :=
  h.look_eq (fun _ _ _ => rfl) fun _ _ _ _ _ => rfl

end AgreesTo

theorem agrees_self (t : WireType) : t.AgreesTo 1 t :=
  .same t

/-- An optional type agrees with itself, if there is one. -/
theorem agreesTo_optional (t : Option WireType) (depth : Nat) :
    Option.Rel (AgreesTo depth) t t := by
  cases t with
  | none => exact .none
  | some t => exact .some (.same t)

end WireType

section Declarations

/-- Two literals that are integers, or the same. -/
inductive Literal.SameOutline : Literal → Literal → Prop where
  | same (v : Literal) : SameOutline v v
  | integers (i j : Int) : SameOutline (.integer i) (.integer j)

/-- Two members of which the same is read: the types, down to their elements, and the
    number of items. -/
structure Member.SameReading (m m' : Member) : Prop where
  type : m.type.AgreesTo 2 m'.type
  size : m.size = m'.size

/-- Two cases of which the same is read: the types, and whether integers select
    them. -/
structure VariantCase.SameReading (c c' : VariantCase) : Prop where
  kind : c.kind.SameOutline c'.kind
  type : c.type.AgreesTo 2 c'.type

/-- Two declarations that agree on what descriptions read. The types of fields are
    taken apart once, and other types not at all. -/
inductive Declaration.SameReading : Declaration → Declaration → Prop where
  | struct {d d' : StructDecl} (hsupertype : d.supertype = d'.supertype)
      (hmembers : List.Forall₂ Member.SameReading d.members d'.members) :
      SameReading (.struct d) (.struct d')
  | enum {d d' : EnumDecl}
      (htype : Option.Rel (WireType.AgreesTo 1) d.valueType d'.valueType)
      (hconstants : d.constants = d'.constants) : SameReading (.enum d) (.enum d')
  | list {d d' : ListDecl} (hwidth : d.width = d'.width)
      (hmembers : List.Forall₂ Member.SameReading d.members d'.members) :
      SameReading (.list d) (.list d')
  | map {d d' : MapDecl} (hwidth : d.width = d'.width) (hkey : d.key.AgreesTo 1 d'.key)
      (hvalue : d.value.AgreesTo 1 d'.value) : SameReading (.map d) (.map d')
  | union {d d' : UnionDecl} (hkind : d.kind.AgreesTo 1 d'.kind)
      (hcases : List.Forall₂ (fun c c' => c.type.AgreesTo 2 c'.type) d.cases d'.cases) :
      SameReading (.union d) (.union d')
  | variant {d d' : VariantDecl} (hkind : d.kind.AgreesTo 1 d'.kind)
      (hof : Option.Rel (WireType.AgreesTo 1) d.of d'.of)
      (hcases : List.Forall₂ VariantCase.SameReading d.cases d'.cases) :
      SameReading (.variant d) (.variant d')
  | typedef {d d' : TypedefDecl} (haliased : d.aliased.AgreesTo 1 d'.aliased) :
      SameReading (.typedef d) (.typedef d')

theorem Member.SameReading.refl (m : Member) : m.SameReading m :=
  ⟨.same _, rfl⟩

theorem Declaration.SameReading.refl (d : Declaration) : d.SameReading d := by
  cases d with
  | struct d => exact .struct rfl (List.forall₂_same.mpr fun m _ => .refl m)
  | enum d => exact .enum (WireType.agreesTo_optional d.valueType 1) rfl
  | list d => exact .list rfl (List.forall₂_same.mpr fun m _ => .refl m)
  | map d => exact .map rfl (.same _) (.same _)
  | union d => exact .union (.same _) (List.forall₂_same.mpr fun _ _ => .same _)
  | variant d =>
      exact .variant (.same _) (WireType.agreesTo_optional d.of 1)
        (List.forall₂_same.mpr fun _ _ => ⟨.same _, .same _⟩)
  | typedef d => exact .typedef (.same _)

end Declarations

section Tables

variable {D E : Declaration → Declaration → Prop}

/-- Two entries of the same names, with related declarations. -/
structure NameEntry.SameUpTo (D : Declaration → Declaration → Prop) (e e' : NameEntry) :
    Prop where
  qualifiedName : e.qualifiedName = e'.qualifiedName
  scope : e.scope = e'.scope
  declaration : D e.declaration e'.declaration
  identity : e.identity = e'.identity

/-- Two tables in which every name means the same, up to a relation on
    declarations. -/
structure NameTable.SameUpTo (D : Declaration → Declaration → Prop) (t t' : NameTable) :
    Prop where
  nameSpace : t.nameSpace = t'.nameSpace
  lookup : ∀ q, Option.Rel (NameEntry.SameUpTo D) (t.lookup? q) (t'.lookup? q)
  length : t.entries.length = t'.entries.length

/-- Sites from which every name means the same, up to a relation on declarations and
    whatever is described there. -/
structure Site.SameUpTo (D : Declaration → Declaration → Prop) (site site' : Site) : Prop where
  names : site.table.SameUpTo D site'.table
  scope : site.scope = site'.scope

/-- What typedefs end in, up to a relation on declarations: types that agree, or related
    declarations of one scope. -/
inductive AliasTarget.SameUpTo (D : Declaration → Declaration → Prop) :
    AliasTarget → AliasTarget → Prop where
  | builtin {t t' : WireType} (h : t.AgreesTo 1 t') : SameUpTo D (.builtin t) (.builtin t')
  | declared {scope : String} {d d' : Declaration} (h : D d d') :
      SameUpTo D (.declared scope d) (.declared scope d')

/-- Sites from which every name reads the same. -/
abbrev Site.SameReading (site site' : Site) : Prop :=
  site.SameUpTo Declaration.SameReading site'

namespace NameTable

theorem isDefined_eq_isSome (t : NameTable) (q : String) :
    t.isDefined q = (t.lookup? q).isSome := by
  rw [Bool.eq_iff_iff, isDefined, lookup?, List.any_eq_true, List.find?_isSome]
  simp only [List.mem_reverse]

namespace SameUpTo

variable {t t' : NameTable} (h : t.SameUpTo D t')

include h

/-- A name is declared in both tables, as related declarations, or in none. -/
theorem lookup_cases (q : String) : (t.lookup? q = none ∧ t'.lookup? q = none) ∨
    ∃ e e', t.lookup? q = some e ∧ t'.lookup? q = some e' ∧ e.SameUpTo D e' := by
  have hfound := h.lookup q
  generalize t.lookup? q = found at hfound ⊢
  generalize t'.lookup? q = found' at hfound ⊢
  cases hfound with
  | none => exact .inl ⟨rfl, rfl⟩
  | some hentry => exact .inr ⟨_, _, rfl, rfl, hentry⟩

theorem mono (hDE : ∀ d d', D d d' → E d d') : t.SameUpTo E t' := by
  refine ⟨h.nameSpace, fun q => ?_, h.length⟩
  rcases h.lookup_cases q with ⟨hnone, hnone'⟩ | ⟨e, e', he, he', hentry⟩
  · rw [hnone, hnone']
    exact .none
  · rw [he, he']
    exact .some { hentry with declaration := hDE _ _ hentry.declaration }

theorem qualify? (scope name : String) : t.qualify? scope name = t'.qualify? scope name := by
  have hdefined : t.isDefined = t'.isDefined := by
    funext q
    rw [isDefined_eq_isSome, isDefined_eq_isSome]
    rcases h.lookup_cases q with ⟨hnone, hnone'⟩ | ⟨e, e', he, he', _⟩
    · rw [hnone, hnone']
    · rw [he, he']
      rfl
  rw [NameTable.qualify?, NameTable.qualify?, hdefined]

variable {type type' : WireType} {depth : Nat} (htype : type.AgreesTo (depth + 1) type')

include htype

theorem identityIn? (scope : String) :
    t.identityIn? scope type = t'.identityIn? scope type' := by
  have hbuiltin : t.builtinIdentity? type = t'.builtinIdentity? type' := by
    have hsame : t.builtinIdentity? type = t'.builtinIdentity? type := by
      unfold builtinIdentity?
      rw [h.nameSpace]
    exact hsame.trans (htype.look_eq (fun _ _ _ => rfl) fun _ _ _ _ _ => rfl)
  cases htype with
  | same type =>
      cases type with
      | named name =>
          rw [NameTable.identityIn?, NameTable.identityIn?, h.qualify?]
          refine congrArg (t'.qualify? scope name).bind (funext fun q => ?_)
          rcases h.lookup_cases q with ⟨hnone, hnone'⟩ | ⟨e, e', he, he', hentry⟩
          · rw [hnone, hnone']
          · rw [he, he']
            exact congrArg some hentry.identity
      | _ => exact hbuiltin
  | array _ => exact hbuiltin
  | map _ _ => exact hbuiltin

theorem valueIdentityIn? (scope : String) :
    t.valueIdentityIn? scope type = t'.valueIdentityIn? scope type' := by
  have hunsigned : t.unsignedIdentity? type = t'.unsignedIdentity? type' := by
    have hsame : t.unsignedIdentity? type = t'.unsignedIdentity? type := by
      unfold unsignedIdentity?
      rw [h.nameSpace]
    exact hsame.trans (htype.look_eq (fun _ _ _ => rfl) fun _ _ _ _ _ => rfl)
  rw [NameTable.valueIdentityIn?, NameTable.valueIdentityIn?, hunsigned, h.identityIn? htype]

end SameUpTo

end NameTable

namespace Site.SameUpTo

variable {site site' : Site} (h : site.SameUpTo D site')

include h

theorem inScope (scope : String) : (site.inScope scope).SameUpTo D (site'.inScope scope) :=
  ⟨h.names, rfl⟩

theorem mono (hDE : ∀ d d', D d d' → E d d') : site.SameUpTo E site' :=
  ⟨h.names.mono hDE, h.scope⟩

theorem alike_resolve (name : String) :
    Alike (NameEntry.SameUpTo D) (site.resolve name) (site'.resolve name) := by
  unfold resolve
  rw [h.scope, h.names.qualify?]
  cases site'.table.qualify? site'.scope name with
  | none => exact .error _ _
  | some q =>
      dsimp only
      rcases h.names.lookup_cases q with ⟨hnone, hnone'⟩ | ⟨e, e', he, he', hentry⟩
      · rw [hnone, hnone']
        exact .error _ _
      · rw [he, he']
        exact .ok hentry

section Types

variable {t t' : WireType} {depth : Nat}

theorem alike_identityOf (ht : t.AgreesTo (depth + 1) t') :
    Alike Eq (site.identityOf t) (site'.identityOf t') := by
  unfold identityOf
  rw [h.scope, h.names.identityIn? ht]
  cases site'.table.identityIn? site'.scope t' with
  | none => exact .error _ _
  | some identity => exact .ok rfl

theorem alike_valueIdentityOf (ht : t.AgreesTo (depth + 1) t') :
    Alike Eq (site.valueIdentityOf t) (site'.valueIdentityOf t') := by
  unfold valueIdentityOf
  rw [h.scope, h.names.valueIdentityIn? ht]
  cases site'.table.valueIdentityIn? site'.scope t' with
  | none => exact .error _ _
  | some identity => exact .ok rfl

theorem alike_parameters (ht : t.AgreesTo (depth + 2) t') :
    Alike Eq (site.parameters t) (site'.parameters t') := by
  have harray {width : Width} {item item' : WireType} (hitem : item.AgreesTo (depth + 1) item') :
      Alike Eq (site.parameters (.array width item)) (site'.parameters (.array width item')) := by
    refine (h.alike_identityOf hitem).bind ?_
    rintro identity _ rfl
    exact .ok rfl
  have hmap {width : Width} {key key' value value' : WireType}
      (hkey : key.AgreesTo (depth + 1) key') (hvalue : value.AgreesTo (depth + 1) value') :
      Alike Eq (site.parameters (.map width key value))
        (site'.parameters (.map width key' value')) := by
    refine (h.alike_identityOf hkey).bind ?_
    rintro keyIdentity _ rfl
    refine (h.alike_identityOf hvalue).bind ?_
    rintro valueIdentity _ rfl
    exact .ok rfl
  cases ht with
  | same t =>
      cases t with
      | array width item => exact harray (.same item)
      | map width key value => exact hmap (.same key) (.same value)
      | _ => exact .ok rfl
  | array hitem => exact harray hitem
  | map hkey hvalue => exact hmap hkey hvalue

end Types

end Site.SameUpTo

end Tables

/-- The field with what is copied from a member. -/
def FieldDescription.copying (f : FieldDescription) (m : Member) : FieldDescription :=
  { f with
    name := m.name
    wireType := m.type.display
    required := m.isRequired
    default := m.default
    byteOrder := m.byteOrder }

namespace Site.SameReading

variable {site site' : Site} (h : site.SameReading site')

include h

section Types

variable {t t' : WireType} {depth : Nat}

/-- Sizes are found through typedefs, which are followed alike. -/
theorem alike_fixedSizeWithin (steps : Nat) (ht : t.AgreesTo (depth + 1) t') :
    Alike Eq (site.fixedSizeWithin steps t) (site'.fixedSizeWithin steps t') := by
  induction steps using Nat.strongRecOn generalizing site site' t t' depth with
  | ind steps ih =>
      cases ht with
      | same t =>
          cases t with
          | named name =>
              rw [fixedSizeWithin.eq_def, fixedSizeWithin.eq_def]
              refine (h.alike_resolve name).bind ?_
              rintro ⟨q, scope, d, identity⟩ ⟨q', scope', d', identity'⟩ ⟨_, hscope, hd, _⟩
              dsimp only at hscope hd
              cases hd with
              | @enum d d' htype _ =>
                  dsimp only
                  generalize d.valueType = type at htype ⊢
                  generalize d'.valueType = type' at htype ⊢
                  cases htype with
                  | none => exact .ok rfl
                  | some htype => exact .ok htype.fixedWidth?
              | typedef haliased =>
                  cases steps with
                  | zero => exact .error _ _
                  | succ k =>
                      -- from the scope of the typedef both sites see the same again
                      subst hscope
                      exact ih k (Nat.lt_succ_self k) (h.inScope scope) haliased
              | _ => exact .ok rfl
          | _ =>
              rw [fixedSizeWithin.eq_def, fixedSizeWithin.eq_def]
              exact .ok rfl
      | array _ | map _ _ =>
          rw [fixedSizeWithin.eq_def, fixedSizeWithin.eq_def]
          exact .ok rfl

theorem alike_fixedSize (ht : t.AgreesTo (depth + 1) t') :
    Alike Eq (site.fixedSize t) (site'.fixedSize t') := by
  rw [fixedSize, fixedSize, h.names.length]
  exact h.alike_fixedSizeWithin _ ht

end Types

variable {m m' : Member} (hm : m.SameReading m')

include hm

theorem alike_memberSize : Alike Eq (site.memberSize m) (site'.memberSize m') := by
  refine (h.alike_fixedSize hm.type).bind ?_
  rintro size _ rfl
  rcases m with ⟨name, t, default, count, byteOrder⟩
  rcases m' with ⟨name', t', default', count', byteOrder'⟩
  rcases hm with ⟨htype, hsize⟩
  dsimp only at htype hsize
  subst hsize
  cases size with
  | some size => exact .ok rfl
  | none =>
      have hitems {item item' : WireType} (hitem : item.AgreesTo 1 item')
          (f : Option Nat → Compiled (Option Nat)) :
          Alike Eq (site.fixedSize item >>= f) (site'.fixedSize item' >>= f) := by
        refine (h.alike_fixedSize hitem).bind ?_
        rintro size _ rfl
        exact alike_refl _
      cases count with
      | none =>
          cases htype with
          | same t => cases t <;> exact .ok rfl
          | array _ | map _ _ => exact .ok rfl
      | some count =>
          cases htype with
          | same t =>
              cases t with
              | array width item => exact hitems (.same item) _
              | _ => exact .ok rfl
          | array hitem => exact hitems hitem _
          | map _ _ => exact .ok rfl

/-- Members of the same reading are described as fields that differ in what is copied
    from them. -/
theorem alike_field (offset : Option Nat) :
    Alike (fun f f' => ∃ g : FieldDescription, f = g.copying m ∧ f' = g.copying m')
      (site.field m offset) (site'.field m' offset) := by
  refine (h.alike_parameters hm.type).bind ?_
  rintro parameters _ rfl
  refine (h.alike_memberSize hm).bind ?_
  rintro size _ rfl
  refine (h.alike_identityOf hm.type).bind ?_
  rintro identity _ rfl
  refine (h.alike_valueIdentityOf hm.type).bind ?_
  rintro valueIdentity _ rfl
  exact .ok ⟨{ (default : FieldDescription) with
    identity, valueIdentity, parameters, offset, size }, rfl, rfl⟩

omit hm in
/-- A member is described as the same field, or cannot be described from either
    site. -/
theorem alike_field_self (m : Member) (offset : Option Nat) :
    Alike Eq (site.field m offset) (site'.field m offset) := by
  refine (h.alike_field (.refl m) offset).mono ?_
  rintro _ _ ⟨field, rfl, rfl⟩
  rfl

end Site.SameReading

section Parts

theorem Site.alike_prefixSize (site site' : Site) (width : Width) (allowed : List Width) :
    Alike Eq (prefixSize site width allowed) (prefixSize site' width allowed) :=
  alike_ite (fun _ => .ok rfl) fun _ => .error _ _

/-- The value of a constant depends on the site in the text of an error only. -/
theorem Site.alike_constantValue (site site' : Site) {valueType valueType' : Option WireType}
    (htype : Option.Rel (WireType.AgreesTo 1) valueType valueType') (index : Nat)
    (c : EnumConstant) :
    Alike Eq (constantValue site valueType index c) (constantValue site' valueType' index c) := by
  have hwithin : ∀ type type' least greatest value,
      Alike Eq (constantWithin site c.name type least greatest value)
        (constantWithin site' c.name type' least greatest value) := by
    intro type type' least greatest value
    exact alike_ite (fun _ => .error _ _) fun _ => .ok rfl
  rcases c with ⟨name, value⟩
  unfold constantValue
  cases htype with
  | none =>
      cases value with
      | none => exact .ok rfl
      | some v => exact .error _ _
  | @some type type' htype =>
      have hstring : type.isString = type'.isString :=
        htype.look_eq (fun _ _ _ => rfl) fun _ _ _ _ _ => rfl
      have hrange : type.valueRange? = type'.valueRange? :=
        htype.look_eq (fun _ _ _ => rfl) fun _ _ _ _ _ => rfl
      dsimp only
      rw [hstring, hrange]
      refine alike_ite (fun _ => ?_) fun _ => ?_
      · rcases value with _ | (_ | _)
        · exact .ok rfl
        · exact .error _ _
        · exact .ok rfl
      · cases type'.valueRange? with
        | none => exact .error _ _
        | some range =>
            rcases value with _ | (_ | _)
            · exact hwithin _ _ _ _ _
            · exact hwithin _ _ _ _ _
            · exact .error _ _

theorem Site.alike_constantValues (site site' : Site) {valueType valueType' : Option WireType}
    (htype : Option.Rel (WireType.AgreesTo 1) valueType valueType') (index : Nat)
    (constants : List EnumConstant) :
    Alike Eq (constantValues site valueType index constants)
      (constantValues site' valueType' index constants) := by
  induction constants generalizing index with
  | nil => exact .ok rfl
  | cons c rest ih =>
      refine (Site.alike_constantValue site site' htype index c).bind ?_
      rintro value _ rfl
      refine (ih (index + 1)).bind ?_
      rintro values _ rfl
      exact .ok rfl

/-- The common type of the cases is given, or that of the first case. -/
theorem Site.alike_commonType (site site' : Site) {d d' : VariantDecl}
    (hof : Option.Rel (WireType.AgreesTo 1) d.of d'.of)
    (hcases : List.Forall₂ VariantCase.SameReading d.cases d'.cases) :
    Alike (WireType.AgreesTo 1) (commonType site d) (commonType site' d') := by
  unfold commonType
  generalize d.of = common at hof ⊢
  generalize d'.of = common' at hof ⊢
  generalize d.cases = cases at hcases ⊢
  generalize d'.cases = cases' at hcases ⊢
  cases hof with
  | some htype => exact .ok htype
  | none =>
      cases hcases with
      | nil => exact .error _ _
      | cons hc _ => exact .ok (hc.type.mono (by decide))

/-- Members are described alike if as fields they are, and have the same size. -/
theorem alike_describeMembers_of_fields {P : Site × Member → Site × Member → Prop}
    {F : FieldDescription → FieldDescription → Prop}
    (hfield : ∀ a b offset, P a b →
      Alike (fun f f' => F f f' ∧ f.size = f'.size) (a.1.field a.2 offset) (b.1.field b.2 offset))
    {members members' : List (Site × Member)} (h : List.Forall₂ P members members')
    (offset : Option Nat) :
    Alike (List.Forall₂ F) (describeMembers offset members) (describeMembers offset members') := by
  induction h generalizing offset with
  | nil => exact .ok .nil
  | @cons a b rest rest' hfirst _ ih =>
      refine (hfield a b offset hfirst).bind ?_
      rintro f f' ⟨hf, hsize⟩
      -- offsets are sums of sizes, so the next field has the same one
      rw [hsize]
      refine (alike_refl _).bind ?_
      rintro next _ rfl
      exact (ih next).bind fun _ _ hfields => .ok (.cons hf hfields)

variable {site site' : Site} (h : site.SameReading site')

include h

theorem Site.SameReading.alike_enumEncoding {valueType valueType' : Option WireType}
    (htype : Option.Rel (WireType.AgreesTo 1) valueType valueType') :
    Alike Eq (enumEncoding site valueType) (enumEncoding site' valueType') := by
  cases htype with
  | none => exact .ok rfl
  | @some type type' htype =>
      have hlimit : type.limitRule? = type'.limitRule? :=
        htype.look_eq (fun _ _ _ => rfl) fun _ _ _ _ _ => rfl
      refine (h.alike_valueIdentityOf htype).bind ?_
      rintro value _ rfl
      rw [hlimit]
      exact .ok rfl

variable {kind kind' : WireType} (hkind : kind.AgreesTo 1 kind')

include hkind

theorem Site.SameReading.alike_unionKindSize :
    Alike Eq (unionKindSize site kind) (unionKindSize site' kind') := by
  unfold unionKindSize
  refine (h.alike_fixedSize hkind).bind ?_
  rintro size _ rfl
  rw [hkind.isInteger]
  cases kind'.isInteger with
  | false => exact .error _ _
  | true =>
      cases size with
      | none => exact .error _ _
      | some size => exact .ok rfl

theorem Site.SameReading.alike_discriminatingConstants :
    Alike Eq (discriminatingConstants site kind) (discriminatingConstants site' kind') := by
  unfold discriminatingConstants
  rw [hkind.isInteger]
  refine alike_ite (fun _ => .ok rfl) fun _ => ?_
  cases hkind with
  | same kind =>
      cases kind with
      | named name =>
          refine (h.alike_resolve name).bind ?_
          rintro ⟨q, scope, d, identity⟩ ⟨q', scope', d', identity'⟩ ⟨_, _, hd, _⟩
          dsimp only at hd
          cases hd with
          | enum _ hconstants => exact .ok (congrArg (fun cs => some (cs.map (·.name))) hconstants)
          | _ => exact .error _ _
      | _ => exact .error _ _
  | array _ | map _ _ => exact .error _ _

end Parts

section Walks

variable {D : Declaration → Declaration → Prop} (hD : ∀ d d', D d d' → d.SameReading d')
  {site site' : Site} (h : site.SameUpTo D site')

include hD h

/-- The supertypes of a struct are found alike. -/
theorem Site.SameUpTo.alike_supertypeChain (steps : Nat) (seen : List String)
    {current current' : Site} (hcurrent : current.SameUpTo D current') {d d' : StructDecl}
    (hd : D (.struct d) (.struct d')) :
    Alike (List.Forall₂ fun a b => a.1.SameUpTo D b.1 ∧ D (.struct a.2) (.struct b.2))
      (supertypeChain site steps seen current d)
      (supertypeChain site' steps seen current' d') := by
  induction steps using Nat.strongRecOn generalizing seen current current' d d' with
  | ind steps ih =>
      have hsuper : d.supertype = d'.supertype := by
        cases hD _ _ hd with
        | struct hsuper _ => exact hsuper
      rw [supertypeChain.eq_def, supertypeChain.eq_def, hsuper]
      cases d'.supertype with
      | none => exact .ok (.cons ⟨hcurrent, hd⟩ .nil)
      | some supertype =>
          refine (hcurrent.alike_resolve supertype).bind ?_
          rintro ⟨q, scope, e, identity⟩ ⟨q', scope', e', identity'⟩ ⟨hq, hscope, he, _⟩
          dsimp only at hq hscope he
          subst hq hscope
          cases hD _ _ he with
          | struct _ _ =>
              refine alike_ite (fun _ => .error _ _) fun _ => ?_
              cases steps with
              | zero => exact .error _ _
              | succ k =>
                  -- the walk goes on from the scope of the parent, with the table it has
                  refine (ih k (Nat.lt_succ_self k) (q :: seen) (h.inScope scope) he).bind ?_
                  intro chain chain' hchain
                  exact .ok (.cons ⟨hcurrent, hd⟩ hchain)
          | _ => exact .error _ _

/-- The members of a chain are laid out alike, related as those of related structs. -/
theorem Site.SameUpTo.alike_layout (hname : site.qualifiedName = site'.qualifiedName)
    {M : Member → Member → Prop}
    (hM : ∀ s s', D (.struct s) (.struct s') → List.Forall₂ M s.members s'.members)
    {d d' : StructDecl} (hd : D (.struct d) (.struct d')) :
    Alike (List.Forall₂ fun a b => a.1.SameUpTo D b.1 ∧ M a.2 b.2)
      (layout site d) (layout site' d') := by
  rw [layout, layout, hname, h.names.length]
  refine (h.alike_supertypeChain hD _ _ h hd).bind fun chain chain' hchain => ?_
  refine .ok (List.rel_flatMap (List.forall₂_reverse_iff.mpr hchain) ?_)
  rintro ⟨owner, e⟩ ⟨owner', e'⟩ ⟨howner, he⟩
  refine List.forall₂_map_left_iff.mpr (List.forall₂_map_right_iff.mpr ?_)
  exact (hM e e' he).imp fun m m' hm => ⟨howner, hm⟩

/-- Typedefs are followed alike. -/
theorem Site.SameUpTo.alike_aliasTarget (steps : Nat) (seen : List String) (scope : String)
    {t t' : WireType} (ht : t.AgreesTo 1 t') :
    Alike (AliasTarget.SameUpTo D) (aliasTarget site steps seen scope t)
      (aliasTarget site' steps seen scope t') := by
  induction steps using Nat.strongRecOn generalizing seen scope t t' with
  | ind steps ih =>
      have hbuiltin := ht
      cases ht with
      | same t =>
          cases t with
          | named name =>
              rw [aliasTarget.eq_def, aliasTarget.eq_def]
              refine ((h.inScope scope).alike_resolve name).bind ?_
              rintro ⟨q, scope, e, identity⟩ ⟨q', scope', e', identity'⟩ ⟨hq, hscope, he, _⟩
              dsimp only at hq hscope he
              subst hq hscope
              refine alike_ite (fun _ => .error _ _) fun _ => ?_
              cases hD _ _ he with
              | typedef haliased =>
                  cases steps with
                  | zero => exact .error _ _
                  | succ k => exact ih k (Nat.lt_succ_self k) (q :: seen) scope haliased
              | _ => exact .ok (.declared he)
          | _ =>
              rw [aliasTarget.eq_def, aliasTarget.eq_def]
              exact .ok (.builtin hbuiltin)
      | array _ | map _ _ =>
          rw [aliasTarget.eq_def, aliasTarget.eq_def]
          exact .ok (.builtin hbuiltin)

variable (hname : site.qualifiedName = site'.qualifiedName)
  (hidentity : site.identity = site'.identity) {R : TypeDescription → TypeDescription → Prop}
  (hrefl : ∀ made, R made made)
  (hshape : ∀ scope d d', D d d' →
    Alike R (describeShape (site.inScope scope) d) (describeShape (site'.inScope scope) d'))

include hname hidentity hrefl hshape

/-- Declarations are described alike under one name, if shapes are. -/
theorem Site.SameUpTo.alike_describeDeclaration {d d' : Declaration} (hd : D d d') :
    Alike R (describeDeclaration site d) (describeDeclaration site' d') := by
  have hown : Alike R (describeShape site d) (describeShape site' d') := by
    have hsite : site.inScope site'.scope = site := by
      rw [← h.scope]
      rfl
    have hown := hshape site'.scope d d' hd
    rw [hsite] at hown
    exact hown
  cases hD d d' hd with
  | @typedef e e' haliased =>
      change Alike R (describeTypedef site e) (describeTypedef site' e')
      unfold describeTypedef
      rw [hname, hidentity, h.scope, h.names.length]
      refine (h.alike_aliasTarget hD _ _ _ haliased).bind fun target target' htarget => ?_
      cases htarget with
      | @builtin t t' ht =>
          have hbuiltin : describeBuiltin? site'.identity t = describeBuiltin? site'.identity t' :=
            ht.look_eq (fun _ _ _ => rfl) fun _ _ _ _ _ => rfl
          dsimp only
          rw [hbuiltin]
          cases describeBuiltin? site'.identity t' with
          | none => exact .error _ _
          | some description => exact .ok (hrefl _)
      | @declared scope k k' hk =>
          dsimp only
          rw [describeShape_renamed, describeShape_renamed]
          exact hshape scope k k' hk
  | _ => exact hown

end Walks

end Wireform
