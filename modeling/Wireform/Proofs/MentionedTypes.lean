import Wireform.Proofs.References
import Wireform.Proofs.Supertypes

/-!
# Types That Descriptions Mention

Which types the descriptions of a compilation mention, and whether these are described.

A field mentions the identity of its type, of its values and of its elements, and a
choice mentions the identity of its discriminator. To make use of a description, all of
them have to be known: as a type of the host language, as a type that is built in, or as
a declaration of the schema.

An identity is made from a name, and the name of a built-in type from a family and a
width. Any width will do for that. But lists of 16 bits and arrays and maps without a
width are not among the types that are built in, and although declarations of such
lists and maps are refused, fields of these types are not. What they mention has no
description.

These are the only ones. To say where they come from, a description is traced back to
the schema: a struct has the fields of its supertypes, and a typedef those of what it
stands for. `Specification.HasFieldType` follows both.

## Main definitions

* `TypeDescription.identities`: The identities that a description mentions.
* `WireType.isUndescribed`: Types that have a name and no description.
* `Specification.HasFieldType`: The types of the fields of a declaration.
* `Compilation.Knows`: Identities that can be made use of.
* `NameTable.Gives`: What the identity of a type can be.
* `TypeDescription.Mentions`: A description with fields of the given types.

## Theorems

* `mem_builtinNames_iff`: Which names have a description.
* `Site.field_gives`: The identities that a field mentions.
* `mentions_of_describeShape`: A declaration is described with fields of its types.
* `aliasTarget_eq_ok`: What typedefs were followed to.
* `mentions_of_describeDeclaration`: Every description has the fields that the schema
  says.
* `Compilation.knows_generated_iff`: Which names are known.
* `known_or_undescribed`: Only types without a description are not known.
* `long_list_undescribed`: A type that is not known.
-/

namespace Wireform

/-- The identities of the type, the values and the elements of a field. -/
def FieldDescription.identities (f : FieldDescription) : List Identity :=
  f.identity :: f.valueIdentity :: f.parameters

/-- The identity of the discriminator that selects the end of an encoding. -/
def LimitRule.identities : LimitRule → List Identity
  | .dispatch kind => [kind]
  | _ => []

/-- The identities that a description mentions. -/
def TypeDescription.identities (d : TypeDescription) : List Identity :=
  d.fields.flatMap FieldDescription.identities ++ d.limit.identities

/-- The types that have the name of a built-in type, but of a width that none of the
    built-in types has. -/
def WireType.isUndescribed : WireType → Bool
  | .list .sixteen | .array .zero _ | .map .zero _ _ => true
  | _ => false

/-- The types of the fields of a declaration: its own, those of its supertype if it is a
    struct, and those of what it names if it is a typedef. -/
inductive Specification.HasFieldType (spec : Specification) : Located → WireType → Prop where
  | own {l : Located} {t : WireType} (h : t ∈ l.declaration.fieldTypes) : spec.HasFieldType l t
  | inherited {l parent : Located} {d : StructDecl} {name : String} {t : WireType}
      (hl : l.declaration = .struct d) (hsuper : d.supertype = some name)
      (hparent : parent ∈ spec.located)
      (hresolves : Resolves spec.Defines name l.path parent.qualifiedName)
      (h : spec.HasFieldType parent t) : spec.HasFieldType l t
  | aliased {l next : Located} {d : TypedefDecl} {name : String} {t : WireType}
      (hl : l.declaration = .typedef d) (hname : d.aliased = .named name)
      (hnext : next ∈ spec.located)
      (hresolves : Resolves spec.Defines name l.path next.qualifiedName)
      (h : spec.HasFieldType next t) : spec.HasFieldType l t

/-- The identities that can be made use of: types of the host language, the types that
    are built into the compilation, and declarations of the schema. -/
inductive Compilation.Knows (c : Compilation) (spec : Specification) (options : Options) :
    Identity → Prop where
  | host (type : HostInt) : c.Knows spec options (.host type)
  | builtin {d : TypeDescription} (hd : d ∈ c.types) (hname : d.qualifiedName = none) :
      c.Knows spec options d.identity
  | declared {l : Located} (hl : l ∈ spec.located) : c.Knows spec options (l.entry options).identity

/-- What the identity of a type can be: a type of the host language, the name of a
    built-in type, or the identity of a declaration. -/
def NameTable.Gives (table : NameTable) (t : WireType) (i : Identity) : Prop :=
  (∃ type, i = .host type) ∨
    (∃ name, builtinName? t = some name ∧ i = .generated table.nameSpace name) ∨
    ∃ e ∈ table.entries, i = e.identity

section Names

/-- The name of a built-in type has a description exactly if the width is one of those
    that are built in. -/
theorem mem_builtinNames_iff {t : WireType} {name : String} (h : builtinName? t = some name) :
    name ∈ builtinNames ↔ t.isUndescribed = false := by
  cases t with
  | fixed kind => cases h
  | varint kind => cases kind <;> cases h <;> exact iff_of_true (by decide +kernel) rfl
  | octets => cases h; exact iff_of_true (by decide +kernel) rfl
  | boundedOctets width bound =>
      cases width <;> cases h <;> exact iff_of_true (by decide +kernel) rfl
  | string width => cases width <;> cases h <;> exact iff_of_true (by decide +kernel) rfl
  | varstring => cases h; exact iff_of_true (by decide +kernel) rfl
  | list width =>
      cases width with
      | sixteen => cases h; exact iff_of_false (by decide +kernel) Bool.noConfusion
      | _ => cases h; exact iff_of_true (by decide +kernel) rfl
  | array width item =>
      cases width with
      | zero => cases h; exact iff_of_false (by decide +kernel) Bool.noConfusion
      | _ => cases h; exact iff_of_true (by decide +kernel) rfl
  | map width key value =>
      cases width with
      | zero => cases h; exact iff_of_false (by decide +kernel) Bool.noConfusion
      | _ => cases h; exact iff_of_true (by decide +kernel) rfl
  | named name => cases h

theorem isUndescribed_of_isInteger {t : WireType} (h : t.isInteger = true) :
    t.isUndescribed = false := by
  cases t with
  | fixed kind => rfl
  | varint kind => rfl
  | _ => cases h

theorem identities_of_limitRule? {t : WireType} {rule : LimitRule} (h : t.limitRule? = some rule) :
    rule.identities = [] := by
  unfold WireType.limitRule? at h
  split at h
  · cases h
    rfl
  · split at h <;> cases h <;> rfl

end Names

namespace NameTable

variable {table : NameTable} {t : WireType} {i : Identity}

theorem mem_entries_of_lookup? {q : String} {e : NameEntry} (h : table.lookup? q = some e) :
    e ∈ table.entries :=
  List.mem_reverse.mp (List.mem_of_find?_eq_some h)

theorem gives_of_builtinIdentity? (h : table.builtinIdentity? t = some i) : table.Gives t i := by
  unfold builtinIdentity? at h
  split at h
  · exact .inl ⟨_, (Option.some.inj h).symm⟩
  · rcases Option.map_eq_some_iff.mp h with ⟨name, hname, hi⟩
    exact .inr (.inl ⟨name, hname, hi.symm⟩)

theorem gives_of_identityIn? {scope : String} (h : table.identityIn? scope t = some i) :
    table.Gives t i := by
  cases t with
  | named name =>
      rcases Option.bind_eq_some_iff.mp h with ⟨q, _, h⟩
      rcases Option.bind_eq_some_iff.mp h with ⟨e, he, h⟩
      exact .inr (.inr ⟨e, mem_entries_of_lookup? he, (Option.some.inj h).symm⟩)
  | _ => exact gives_of_builtinIdentity? h

theorem gives_of_unsignedIdentity? (h : table.unsignedIdentity? t = some i) :
    table.Gives t i := by
  unfold unsignedIdentity? at h
  split at h
  · exact .inl ⟨_, (Option.some.inj h).symm⟩
  · exact .inl ⟨_, (Option.some.inj h).symm⟩
  · exact .inl ⟨_, (Option.some.inj h).symm⟩
  · exact .inl ⟨_, (Option.some.inj h).symm⟩
  · exact .inl ⟨_, (Option.some.inj h).symm⟩
  · rcases Option.map_eq_some_iff.mp h with ⟨name, hname, hi⟩
    exact .inr (.inl ⟨name, hname, hi.symm⟩)
  · cases h

theorem gives_of_valueIdentityIn? {scope : String}
    (h : table.valueIdentityIn? scope t = some i) : table.Gives t i := by
  unfold valueIdentityIn? at h
  cases hunsigned : table.unsignedIdentity? t with
  | some wider =>
      rw [hunsigned] at h
      exact gives_of_unsignedIdentity? (hunsigned.trans h)
  | none =>
      rw [hunsigned] at h
      exact gives_of_identityIn? h

end NameTable

namespace Site

variable (site : Site)

open Checked

theorem identityOf_gives (t : WireType) : (site.identityOf t).Ensures (site.table.Gives t) := by
  unfold identityOf
  cases h : site.table.identityIn? site.scope t with
  | none => exact ensures_error _ _
  | some i => exact ensures_ok (NameTable.gives_of_identityIn? h)

theorem valueIdentityOf_gives (t : WireType) :
    (site.valueIdentityOf t).Ensures (site.table.Gives t) := by
  unfold valueIdentityOf
  cases h : site.table.valueIdentityIn? site.scope t with
  | none => exact ensures_error _ _
  | some i => exact ensures_ok (NameTable.gives_of_valueIdentityIn? h)

theorem parameters_gives (t : WireType) :
    (site.parameters t).Ensures fun is => ∀ i ∈ is, ∃ e ∈ t.elements, site.table.Gives e i := by
  cases t with
  | array width item =>
      refine (site.identityOf_gives item).bind fun i hi => ensures_ok ?_
      rw [List.forall_mem_singleton]
      exact ⟨item, List.mem_singleton.mpr rfl, hi⟩
  | map width key value =>
      refine (site.identityOf_gives key).bind fun i hi => ?_
      refine (site.identityOf_gives value).bind fun j hj => ensures_ok ?_
      rw [List.forall_mem_cons, List.forall_mem_singleton]
      exact ⟨⟨key, List.mem_cons_self, hi⟩, value, List.mem_cons_of_mem _ List.mem_cons_self, hj⟩
  | _ => exact ensures_ok (List.forall_mem_nil _)

/-- A field mentions its type and the types right inside of it. -/
theorem field_gives (m : Member) (offset : Option Nat) :
    (site.field m offset).Ensures fun f =>
      ∀ i ∈ f.identities, ∃ e ∈ m.type :: m.type.elements, site.table.Gives e i := by
  refine (site.parameters_gives m.type).bind fun parameters hparameters => ?_
  refine ensures_bind fun size => ?_
  refine (site.identityOf_gives m.type).bind fun identity hidentity => ?_
  refine (site.valueIdentityOf_gives m.type).bind fun value hvalue => ensures_ok ?_
  unfold FieldDescription.identities
  rw [List.forall_mem_cons, List.forall_mem_cons]
  refine ⟨⟨_, List.mem_cons_self, hidentity⟩, ⟨_, List.mem_cons_self, hvalue⟩, fun i hi => ?_⟩
  rcases hparameters i hi with ⟨e, he, hgives⟩
  exact ⟨e, List.mem_cons_of_mem _ he, hgives⟩

variable {site}

/-- The identity of a built-in type is its name in the namespace. -/
theorem eq_generated_of_identityOf {t : WireType} {name : String}
    (hname : builtinName? t = some name) {i : Identity} (h : site.identityOf t = .ok i) :
    i = .generated site.table.nameSpace name := by
  have hidentity : site.table.identityIn? site.scope t =
      some (.generated site.table.nameSpace name) := by
    cases t with
    | fixed kind => cases hname
    | named q => cases hname
    | _ => exact congrArg (Option.map _) hname
  rw [identityOf, hidentity] at h
  exact (Except.ok.inj h).symm

theorem mem_parameters {t e : WireType} {name : String} (he : e ∈ t.elements)
    (hname : builtinName? e = some name) {is : List Identity} (h : site.parameters t = .ok is) :
    .generated site.table.nameSpace name ∈ is := by
  cases t with
  | array width item =>
      rcases bind_eq_ok.mp h with ⟨i, hi, h⟩
      rw [List.mem_singleton.mp he] at hname
      rw [← Except.ok.inj h, eq_generated_of_identityOf hname hi]
      exact List.mem_cons_self
  | map width key value =>
      rcases bind_eq_ok.mp h with ⟨i, hi, h⟩
      rcases bind_eq_ok.mp h with ⟨j, hj, h⟩
      rw [← Except.ok.inj h]
      rcases List.mem_pair.mp he with rfl | rfl
      · rw [eq_generated_of_identityOf hname hi]
        exact List.mem_cons_self
      · rw [eq_generated_of_identityOf hname hj]
        exact List.mem_cons_of_mem _ List.mem_cons_self
  | _ => exact absurd he List.not_mem_nil

/-- A field mentions every built-in type that its type is or has right inside. -/
theorem mem_identities_of_field {m : Member} {offset : Option Nat} {f : FieldDescription}
    (h : site.field m offset = .ok f) {e : WireType} (he : e ∈ m.type :: m.type.elements)
    {name : String} (hname : builtinName? e = some name) :
    .generated site.table.nameSpace name ∈ f.identities := by
  rcases bind_eq_ok.mp h with ⟨parameters, hparameters, h⟩
  rcases bind_eq_ok.mp h with ⟨size, _, h⟩
  rcases bind_eq_ok.mp h with ⟨identity, hidentity, h⟩
  rcases bind_eq_ok.mp h with ⟨value, _, h⟩
  rw [← Except.ok.inj h, FieldDescription.identities]
  rcases List.mem_cons.mp he with rfl | he
  · rw [eq_generated_of_identityOf hname hidentity]
    exact List.mem_cons_self
  · have hmem := mem_parameters he hname hparameters
    exact List.mem_cons_of_mem _ (List.mem_cons_of_mem _ hmem)

end Site

section Shapes

/-- The description of a member of the type, with references looked up in the table. -/
def NameTable.Describes (table : NameTable) (t : WireType) (f : FieldDescription) : Prop :=
  ∃ (site : Site) (m : Member) (offset : Option Nat),
    site.table = table ∧ m.type = t ∧ site.field m offset = .ok f

/-- A description with fields of these types. Apart from them it mentions nothing that
    has no description. -/
structure TypeDescription.Mentions (table : NameTable) (types : List WireType)
    (d : TypeDescription) : Prop where
  fields : List.Forall₂ table.Describes types d.fields
  limit : ∀ i ∈ d.limit.identities, ∃ t : WireType, t.isUndescribed = false ∧ table.Gives t i

variable {site : Site} {description : TypeDescription}

theorem describes_of_mapM {α : Type} (asMember : α → Member) {offset : Option Nat} {xs : List α}
    {fields : List FieldDescription}
    (h : xs.mapM (fun x => site.field (asMember x) offset) = .ok fields) :
    List.Forall₂ site.table.Describes (xs.map fun x => (asMember x).type) fields := by
  rw [List.forall₂_map_left_iff]
  exact (Checked.mapM_eq_ok.mp h).imp fun x f hf => ⟨site, asMember x, offset, rfl, rfl, hf⟩

theorem describes_of_describeMembers {table : NameTable} {members : List (Site × Member)}
    (htable : ∀ m ∈ members, m.1.table = table) {offset : Option Nat}
    {fields : List FieldDescription} (h : describeMembers offset members = .ok fields) :
    List.Forall₂ table.Describes (members.map (·.2.type)) fields := by
  induction members generalizing offset fields with
  | nil =>
      rw [← Except.ok.inj h]
      exact .nil
  | cons first rest ih =>
      rcases first with ⟨owner, m⟩
      rcases List.forall_mem_cons.mp htable with ⟨howner, hrest⟩
      rw [describeMembers] at h
      rcases Checked.bind_eq_ok.mp h with ⟨f, hf, h⟩
      rcases Checked.bind_eq_ok.mp h with ⟨next, _, h⟩
      rcases Checked.bind_eq_ok.mp h with ⟨fields, hfields, h⟩
      rw [← Except.ok.inj h]
      exact .cons ⟨owner, m, offset, howner, rfl, hf⟩ (ih hrest hfields)

theorem mentions_of_describeStruct {d : StructDecl} {members : List (Site × Member)}
    (hlayout : layout site d = .ok members) (htable : ∀ m ∈ members, m.1.table = site.table)
    (h : describeStruct site d = .ok description) :
    description.Mentions site.table (members.map (·.2.type)) := by
  rw [describeStruct, hlayout, Checked.ok_bind] at h
  rcases Checked.bind_eq_ok.mp h with ⟨fields, hfields, h⟩
  rw [← Except.ok.inj h]
  exact ⟨describes_of_describeMembers htable hfields, List.forall_mem_nil _⟩

/-- The types of the members of some structs. -/
theorem mem_membersOf_type (structs : List Located) (t : WireType) :
    t ∈ (site.membersOf structs).map (·.2.type) ↔
      ∃ o ∈ structs, t ∈ o.declaration.members.map (·.type) := by
  rw [Site.membersOf, List.map_flatMap, List.mem_flatMap]
  simp only [List.map_map]
  exact Iff.rfl

theorem mentions_of_describeListDecl {d : ListDecl}
    (h : describeListDecl site d = .ok description) :
    description.Mentions site.table (d.members.map (·.type)) := by
  rcases Checked.bind_eq_ok.mp h with ⟨size, _, h⟩
  by_cases hlong : d.members.length > maskSize * 8
  · rw [if_pos hlong] at h
    cases h
  · rw [if_neg hlong] at h
    rcases Checked.bind_eq_ok.mp h with ⟨fields, hfields, h⟩
    rw [← Except.ok.inj h]
    exact ⟨describes_of_mapM id hfields, List.forall_mem_nil _⟩

theorem mentions_of_describeMapDecl {d : MapDecl} (h : describeMapDecl site d = .ok description) :
    description.Mentions site.table [] := by
  rcases Checked.bind_eq_ok.mp h with ⟨size, _, h⟩
  rcases Checked.bind_eq_ok.mp h with ⟨key, _, h⟩
  rcases Checked.bind_eq_ok.mp h with ⟨value, _, h⟩
  rw [← Except.ok.inj h]
  exact ⟨.nil, List.forall_mem_nil _⟩

theorem identities_of_enumEncoding {type : Option WireType} {encoding : LimitRule × String}
    (h : enumEncoding site type = .ok encoding) : encoding.1.identities = [] := by
  cases type with
  | none =>
      rw [← Except.ok.inj h]
      rfl
  | some type =>
      rcases Checked.bind_eq_ok.mp h with ⟨value, _, h⟩
      rw [← Except.ok.inj h]
      cases hrule : type.limitRule? with
      | none => rfl
      | some rule => exact identities_of_limitRule? hrule

theorem mentions_of_describeEnum {d : EnumDecl} (h : describeEnum site d = .ok description) :
    description.Mentions site.table [] := by
  rcases Checked.bind_eq_ok.mp h with ⟨values, _, h⟩
  rcases Checked.bind_eq_ok.mp h with ⟨encoding, hencoding, h⟩
  rw [← Except.ok.inj h]
  refine ⟨.nil, ?_⟩
  have hlimit := identities_of_enumEncoding hencoding
  intro i hi
  exact absurd (hlimit ▸ hi) List.not_mem_nil

/-- Unions are discriminated by integers, which all have a description or are types of the
    host language. -/
theorem mentions_of_describeUnion {d : UnionDecl} (h : describeUnion site d = .ok description) :
    description.Mentions site.table (d.cases.map (·.type)) := by
  rcases Checked.bind_eq_ok.mp h with ⟨size, hsize, h⟩
  rcases Checked.bind_eq_ok.mp h with ⟨kind, hkind, h⟩
  rcases Checked.bind_eq_ok.mp h with ⟨fields, hfields, h⟩
  rw [← Except.ok.inj h]
  refine ⟨describes_of_mapM (fun c : UnionCase => { name := c.name, type := c.type }) hfields, ?_⟩
  have hinteger : d.kind.isInteger = true := by
    rcases Checked.bind_eq_ok.mp hsize with ⟨fixed, _, hsize⟩
    by_contra hnot
    rw [Bool.not_eq_true] at hnot
    rw [hnot] at hsize
    cases hsize
  intro i hi
  cases List.mem_singleton.mp hi
  exact ⟨d.kind, isUndescribed_of_isInteger hinteger, site.valueIdentityOf_gives d.kind kind hkind⟩

theorem isUndescribed_of_discriminatingConstants {kind : WireType}
    {constants : Option (List String)}
    (h : discriminatingConstants site kind = .ok constants) : kind.isUndescribed = false := by
  by_cases hinteger : kind.isInteger = true
  · exact isUndescribed_of_isInteger hinteger
  · unfold discriminatingConstants at h
    rw [if_neg hinteger] at h
    cases kind with
    | named name => rfl
    | _ => cases h

/-- Variants are discriminated by integers or by declarations. -/
theorem mentions_of_describeVariant {d : VariantDecl}
    (h : describeVariant site d = .ok description) :
    description.Mentions site.table (d.cases.map (·.type)) := by
  rcases Checked.bind_eq_ok.mp h with ⟨constants, hconstants, h⟩
  cases hmismatch : d.cases.find? (!isDiscriminator constants ·.kind) with
  | some c =>
      simp only [hmismatch] at h
      cases h
  | none =>
      simp only [hmismatch] at h
      rcases Checked.bind_eq_ok.mp h with ⟨common, _, h⟩
      rcases Checked.bind_eq_ok.mp h with ⟨value, _, h⟩
      rcases Checked.bind_eq_ok.mp h with ⟨kind, hkind, h⟩
      rcases Checked.bind_eq_ok.mp h with ⟨size, _, h⟩
      rcases Checked.bind_eq_ok.mp h with ⟨fields, hfields, h⟩
      rw [← Except.ok.inj h]
      refine ⟨describes_of_mapM
        (fun c : VariantCase => { name := caseName c.kind, type := c.type }) hfields, ?_⟩
      intro i hi
      cases List.mem_singleton.mp hi
      exact ⟨d.kind, isUndescribed_of_discriminatingConstants hconstants,
        site.identityOf_gives d.kind kind hkind⟩

/-- Anything but a struct is described with fields of its own types. -/
theorem mentions_of_describeShape {d : Declaration} (hstruct : ∀ s, d ≠ .struct s)
    (h : describeShape site d = .ok description) :
    description.Mentions site.table d.fieldTypes := by
  cases d with
  | struct d => exact absurd rfl (hstruct d)
  | enum d => exact mentions_of_describeEnum h
  | list d => exact mentions_of_describeListDecl h
  | map d => exact mentions_of_describeMapDecl h
  | union d => exact mentions_of_describeUnion h
  | variant d => exact mentions_of_describeVariant h
  | typedef d => cases h

theorem mentions_of_describeBuiltin? {identity : Identity} {type : WireType}
    (h : describeBuiltin? identity type = some description) (table : NameTable) :
    description.Mentions table [] := by
  rcases Option.bind_eq_some_iff.mp h with ⟨family, _, h⟩
  rcases Option.bind_eq_some_iff.mp h with ⟨limit, hlimit, h⟩
  have hnone := identities_of_limitRule? hlimit
  have hfields : description.fields = [] ∧ description.limit = limit := by
    split at h <;> cases h <;> exact ⟨rfl, rfl⟩
  refine ⟨hfields.1 ▸ .nil, fun i hi => ?_⟩
  rw [hfields.2, hnone] at hi
  exact absurd hi List.not_mem_nil

end Shapes

namespace Specification

variable {spec : Specification} (hunique : (spec.located.map Located.qualifiedName).Nodup)

include hunique

/-- A struct has the fields of its ancestors and its own. -/
theorem hasFieldType_of_ancestors {l : Located} {ancestors : List Located}
    (h : spec.Ancestors l ancestors) (t : WireType) :
    spec.HasFieldType l t ↔ ∃ o ∈ l :: ancestors, t ∈ o.declaration.members.map (·.type) := by
  have hown {l : Located} {d : StructDecl} (hd : l.declaration = .struct d) :
      l.declaration.fieldTypes = l.declaration.members.map (·.type) := by
    rw [hd]
    rfl
  induction h with
  | @root l d hd hnone =>
      constructor
      · intro h
        cases h with
        | own h => exact ⟨l, List.mem_cons_self, hown hd ▸ h⟩
        | inherited he hsuper _ _ _ =>
            cases hd.symm.trans he
            cases hnone.symm.trans hsuper
        | aliased he _ _ _ _ => cases hd.symm.trans he
      · rintro ⟨o, ho, h⟩
        cases List.mem_singleton.mp ho
        exact .own (hown hd ▸ h)
  | @step l parent d name rest hd hsuper hparent hresolves _ ih =>
      constructor
      · intro h
        cases h with
        | own h => exact ⟨l, List.mem_cons_self, hown hd ▸ h⟩
        | inherited he hsuper' hparent' hresolves' h =>
            -- the name of the supertype stands for one struct
            cases hd.symm.trans he
            cases hsuper.symm.trans hsuper'
            have hsame := hresolves.unique hresolves'
            cases List.inj_on_of_nodup_map hunique hparent hparent' hsame
            rcases ih.mp h with ⟨o, ho, h⟩
            exact ⟨o, List.mem_cons_of_mem l ho, h⟩
        | aliased he _ _ _ _ => cases hd.symm.trans he
      · rintro ⟨o, ho, h⟩
        rcases List.mem_cons.mp ho with rfl | ho
        · exact .own (hown hd ▸ h)
        · exact .inherited hd hsuper hparent hresolves (ih.mpr ⟨o, ho, h⟩)

/-- A typedef has the fields of what it names. -/
theorem hasFieldType_of_typedef {l next : Located} {d : TypedefDecl} {name : String}
    (hd : l.declaration = .typedef d) (hname : d.aliased = .named name)
    (hnext : next ∈ spec.located)
    (hresolves : Resolves spec.Defines name l.path next.qualifiedName) (t : WireType) :
    spec.HasFieldType l t ↔ spec.HasFieldType next t := by
  constructor
  · intro h
    cases h with
    | own h =>
        rw [hd] at h
        cases h
    | inherited he _ _ _ _ => cases hd.symm.trans he
    | aliased he hname' hnext' hresolves' h =>
        cases hd.symm.trans he
        cases hname.symm.trans hname'
        have hsame := hresolves.unique hresolves'
        cases List.inj_on_of_nodup_map hunique hnext hnext' hsame
        exact h
  · exact .aliased hd hname hnext hresolves

theorem hasFieldType_of_standsFor {l k : Located} (h : spec.StandsFor l k) (t : WireType) :
    spec.HasFieldType l t ↔ spec.HasFieldType k t := by
  induction h with
  | self _ => exact Iff.rfl
  | through hd hname hnext hresolves _ ih =>
      rw [hasFieldType_of_typedef hunique hd hname hnext hresolves, ih]

omit hunique in
/-- A typedef of a built-in type has no fields. -/
theorem not_hasFieldType_of_builtin {l : Located} {d : TypedefDecl}
    (hd : l.declaration = .typedef d) (hnot : ∀ name, d.aliased ≠ .named name) (t : WireType) :
    ¬ spec.HasFieldType l t := by
  intro h
  cases h with
  | own h =>
      rw [hd] at h
      cases h
  | inherited he _ _ _ _ => cases hd.symm.trans he
  | aliased he hname _ _ _ =>
      cases hd.symm.trans he
      exact hnot _ hname

omit hunique in
/-- A declaration that is neither a struct nor a typedef has its own fields only. -/
theorem hasFieldType_of_shape {l : Located} (hstruct : ∀ d, l.declaration ≠ .struct d)
    (htypedef : ∀ d, l.declaration ≠ .typedef d) (t : WireType) :
    spec.HasFieldType l t ↔ t ∈ l.declaration.fieldTypes := by
  constructor
  · intro h
    cases h with
    | own h => exact h
    | inherited he _ _ _ _ => exact absurd he (hstruct _)
    | aliased he _ _ _ _ => exact absurd he (htypedef _)
  · exact .own

end Specification

section Following

variable {spec : Specification} {options : Options} {site : Site}
  (hunique : (spec.located.map Located.qualifiedName).Nodup)
  (hpaths : ∀ l ∈ spec.located, ∀ name ∈ l.path, IsIdentifier name)
  (htable : site.table = NameTable.ofSpecification spec options)

include hunique hpaths htable

/-- Following typedefs led to what the typedef stands for, or to a built-in type, and
    then there are no fields. -/
theorem aliasTarget_eq_ok {l : Located} {d : TypedefDecl} (hl : l ∈ spec.located)
    (hd : l.declaration = .typedef d) {steps : Nat} {seen : List String} {target : AliasTarget}
    (h : aliasTarget site steps seen l.scope d.aliased = .ok target) :
    (∃ k, spec.StandsFor l k ∧ target = .declared k.scope k.declaration) ∨
      (∃ type, target = .builtin type) ∧ ∀ t, ¬ spec.HasFieldType l t := by
  induction steps using Nat.strongRecOn generalizing l d seen with
  | ind steps ih =>
      rw [aliasTarget.eq_def] at h
      cases haliased : d.aliased with
      | named name =>
          simp only [haliased] at h
          rcases Checked.bind_eq_ok.mp h with ⟨entry, hentry, h⟩
          rcases Site.exists_of_resolve hunique hpaths htable hl hentry with
            ⟨next, hnext, hresolves, rfl⟩
          by_cases hseen : (next.entry options).qualifiedName ∈ seen
          · rw [if_pos hseen] at h
            cases h
          rw [if_neg hseen] at h
          have hsame := spec.hasFieldType_of_typedef hunique hd haliased hnext hresolves
          cases hdecl : next.declaration with
          | typedef e =>
              -- going on from the next typedef takes one of the steps
              rw [show (next.entry options).declaration = .typedef e from hdecl] at h
              cases steps with
              | zero => cases h
              | succ steps =>
                  rcases ih steps (Nat.lt_succ_self steps) hnext hdecl h with
                    ⟨k, hstands, rfl⟩ | ⟨hbuiltin, hnone⟩
                  · exact .inl ⟨k, .through hd haliased hnext hresolves hstands, rfl⟩
                  · exact .inr ⟨hbuiltin, fun t ht => hnone t ((hsame t).mp ht)⟩
          | _ =>
              rw [show (next.entry options).declaration = _ from hdecl] at h
              have hnot : ∀ e, next.declaration ≠ .typedef e := by
                rw [hdecl]
                intro e he
                cases he
              refine .inl ⟨next, .through hd haliased hnext hresolves (.self hnot), ?_⟩
              rw [hdecl]
              exact (Except.ok.inj h).symm
      | _ =>
          simp only [haliased] at h
          refine .inr ⟨⟨_, (Except.ok.inj h).symm⟩, fun t => ?_⟩
          refine spec.not_hasFieldType_of_builtin hd ?_ t
          rw [haliased]
          intro name hname
          cases hname

end Following

section Compilations

variable {spec : Specification} {options : Options} {c : Compilation}

/-- A declaration that stands for a struct or another shape is described with the fields
    that it has. -/
theorem mentions_of_standsFor (hverify : spec.verify = .ok ()) {l k : Located}
    (hl : l ∈ spec.located) (hstands : spec.StandsFor l k) {description : TypeDescription}
    (h : describeDeclaration (l.site spec options) l.declaration = .ok description) :
    ∃ types, description.Mentions (NameTable.ofSpecification spec options) types ∧
      ∀ t, t ∈ types ↔ spec.HasFieldType l t := by
  rcases Specification.located_of_verify hverify with ⟨hpaths, _, hunique⟩
  have hk := hstands.mem_located hl
  have hshape : describeShape (l.siteFor spec options k) k.declaration = .ok description :=
    describeDeclaration_standsFor hverify hl hstands h
  simp only [Specification.hasFieldType_of_standsFor hunique hstands]
  by_cases hstruct : ∃ d, k.declaration = .struct d
  · rcases hstruct with ⟨d, hd⟩
    rcases Specification.ancestors_of_verify hverify hk hd with ⟨ancestors, hchain, hnodup⟩
    have hfresh := fresh_of_standsFor hunique hl hstands hchain hnodup
    have htable : (l.siteFor spec options k).table = NameTable.ofSpecification spec options := rfl
    have hlayout := (layout_of_ancestors hunique hpaths htable hk hd rfl hchain hfresh).2
    rw [hd] at hshape
    refine ⟨_, mentions_of_describeStruct hlayout ?_ hshape, fun t => ?_⟩
    · -- inherited members are seen from other scopes, in the same table
      intro m hm
      rcases List.mem_flatMap.mp hm with ⟨o, _, hm⟩
      rcases List.mem_map.mp hm with ⟨_, _, rfl⟩
      rfl
    · rw [Specification.hasFieldType_of_ancestors hunique hchain, mem_membersOf_type]
      simp only [List.mem_reverse]
  · rw [not_exists] at hstruct
    have htypedef : ∀ d, k.declaration ≠ .typedef d := by
      intro d hd
      rw [hd] at hshape
      cases hshape
    refine ⟨_, mentions_of_describeShape hstruct hshape, fun t => ?_⟩
    exact (Specification.hasFieldType_of_shape hstruct htypedef t).symm

/-- A declaration of a verified schema is described with the fields that it has. -/
theorem mentions_of_describeDeclaration (hverify : spec.verify = .ok ()) {l : Located}
    (hl : l ∈ spec.located) {description : TypeDescription}
    (h : describeDeclaration (l.site spec options) l.declaration = .ok description) :
    ∃ types, description.Mentions (NameTable.ofSpecification spec options) types ∧
      ∀ t, t ∈ types ↔ spec.HasFieldType l t := by
  rcases Specification.located_of_verify hverify with ⟨hpaths, _, hunique⟩
  by_cases htypedef : ∃ d, l.declaration = .typedef d
  · rcases htypedef with ⟨d, hd⟩
    have htypedefined := h
    rw [hd] at htypedefined
    rcases Checked.bind_eq_ok.mp htypedefined with ⟨target, htarget, hdescribed⟩
    rcases aliasTarget_eq_ok hunique hpaths rfl hl hd htarget with
      ⟨k, hstands, _⟩ | ⟨⟨type, rfl⟩, hnone⟩
    · exact mentions_of_standsFor hverify hl hstands h
    · -- a built-in type has no fields, and neither has the typedef
      cases hbuiltin : describeBuiltin? (l.site spec options).identity type with
      | none =>
          simp only [hbuiltin] at hdescribed
          cases hdescribed
      | some builtin =>
          simp only [hbuiltin] at hdescribed
          rw [← Except.ok.inj hdescribed]
          have hmentions := mentions_of_describeBuiltin? hbuiltin
            (NameTable.ofSpecification spec options)
          refine ⟨[], ⟨hmentions.fields, hmentions.limit⟩, fun t => ?_⟩
          exact iff_of_false List.not_mem_nil (hnone t)
  · rw [not_exists] at htypedef
    exact mentions_of_standsFor hverify hl (.self htypedef) h

/-- The identities that fields of a declaration mention and that have no description:
    the names of types of a width that is not built in, whether a field has such a type
    or has it right inside of its own. -/
def Specification.Lacks (spec : Specification) (options : Options) (l : Located) (i : Identity) :
    Prop :=
  ∃ t, spec.HasFieldType l t ∧ ∃ e ∈ t :: t.elements, e.isUndescribed = true ∧
    ∃ name, builtinName? e = some name ∧ i = .generated options.nameSpace name

/-- What is built into a compilation has the names of the built-in types. -/
theorem Compilation.knows_generated_iff (h : compile spec options = .ok c) (name : String) :
    c.Knows spec options (.generated options.nameSpace name) ↔
      name ∈ builtinNames ∨
        ∃ l ∈ spec.located, (l.entry options).identity = .generated options.nameSpace name := by
  have hbears := describeBuiltins_bears options.nameSpace
  rcases Compilation.mem_types_of_compile h with ⟨hcases, hbuiltins, _⟩
  constructor
  · intro hknows
    generalize hi : Identity.generated options.nameSpace name = i at hknows
    cases hknows with
    | host type => cases hi
    | @builtin d hd hnone =>
        left
        rcases hcases d hd with hd | ⟨l, _, hd⟩
        · rcases exists_of_forall₂ hbears hd with ⟨_, hmem, hbears⟩
          rcases List.mem_map.mp hmem with ⟨other, hother, rfl⟩
          rw [hbears.identity_eq] at hi
          rw [(Identity.generated.inj hi).2]
          exact hother
        · -- a declaration has a qualified name
          rw [describeDeclaration_describesAs _ _ d hd] at hnone
          cases hnone
    | @declared l hl => exact .inr ⟨l, hl, rfl⟩
  · rintro (hname | ⟨l, hl, hi⟩)
    · rcases exists_of_forall₂ hbears.flip (List.mem_map_of_mem hname) with ⟨d, hd, hdbears⟩
      rw [← hdbears.identity_eq]
      exact .builtin (hbuiltins d hd) (describeBuiltins_qualifiedName hd)
    · rw [← hi]
      exact .declared hl

/-- The identity of a type is known, or the type has no description. -/
theorem Compilation.knows_of_gives (h : compile spec options = .ok c) {t : WireType}
    {i : Identity} (hgives : (NameTable.ofSpecification spec options).Gives t i) :
    c.Knows spec options i ∨ t.isUndescribed = true ∧
      ∃ name, builtinName? t = some name ∧ i = .generated options.nameSpace name := by
  rcases hgives with ⟨type, rfl⟩ | ⟨name, hname, rfl⟩ | ⟨e, he, rfl⟩
  · exact .inl (.host type)
  · by_cases hundescribed : t.isUndescribed = true
    · exact .inr ⟨hundescribed, name, hname, rfl⟩
    · rw [Bool.not_eq_true, ← mem_builtinNames_iff hname] at hundescribed
      exact .inl ((Compilation.knows_generated_iff h name).mpr (.inl hundescribed))
  · rcases List.mem_map.mp he with ⟨l, hl, rfl⟩
    exact .inl (.declared hl)

/-- What a description mentions is known, apart from types without a description in its
    fields. -/
theorem Compilation.knows_of_mentions (h : compile spec options = .ok c) {d : TypeDescription}
    {types : List WireType} (hmentions : d.Mentions (NameTable.ofSpecification spec options) types)
    {i : Identity} (hi : i ∈ d.identities) :
    c.Knows spec options i ∨ ∃ t ∈ types, ∃ e ∈ t :: t.elements, e.isUndescribed = true ∧
      ∃ name, builtinName? e = some name ∧ i = .generated options.nameSpace name := by
  rcases List.mem_append.mp hi with hi | hi
  · rcases List.mem_flatMap.mp hi with ⟨f, hf, hi⟩
    rcases exists_of_forall₂ hmentions.fields.flip hf with
      ⟨_, ht, site, m, offset, htable, rfl, hfield⟩
    rcases site.field_gives m offset f hfield i hi with ⟨e, he, hgives⟩
    rw [htable] at hgives
    rcases Compilation.knows_of_gives h hgives with hknows | hlacks
    · exact .inl hknows
    · exact .inr ⟨m.type, ht, e, he, hlacks⟩
  · rcases hmentions.limit i hi with ⟨t, hdescribed, hgives⟩
    rcases Compilation.knows_of_gives h hgives with hknows | ⟨hundescribed, _⟩
    · exact .inl hknows
    · cases hdescribed.symm.trans hundescribed

/-- What a built-in type mentions is known. -/
theorem Compilation.knows_of_builtin (h : compile spec options = .ok c) {d : TypeDescription}
    (hd : d ∈ describeBuiltins options.nameSpace) {i : Identity} (hi : i ∈ d.identities) :
    c.Knows spec options i := by
  rcases List.mem_filterMap.mp hd with ⟨type, _, hd⟩
  rcases Option.bind_eq_some_iff.mp hd with ⟨name, _, hd⟩
  have hmentions := mentions_of_describeBuiltin? hd (NameTable.ofSpecification spec options)
  rcases Compilation.knows_of_mentions h hmentions hi with hknows | ⟨t, ht, _⟩
  · exact hknows
  · exact absurd ht List.not_mem_nil

/-- What a declaration lacks is mentioned by its description. -/
theorem Compilation.mentions_of_lacks (h : compile spec options = .ok c) {l : Located}
    (hl : l ∈ targeted spec options) {i : Identity} (hlacks : spec.Lacks options l i) :
    ∃ d ∈ c.types, d.qualifiedName = some l.qualifiedName ∧ i ∈ d.identities := by
  rcases hlacks with ⟨t, ht, e, he, _, name, hname, rfl⟩
  rcases (Compilation.mem_types_of_compile h).2.2 l hl with ⟨d, hd, hdescribes⟩
  have hmade := mentions_of_describeDeclaration (compile_eq_ok h).1 (mem_located_of_targeted hl)
    hdescribes
  rcases hmade with ⟨types, hmentions, htypes⟩
  rcases exists_of_forall₂ hmentions.fields ((htypes t).mpr ht) with
    ⟨f, hf, site, m, offset, htable, rfl, hfield⟩
  have hmem := Site.mem_identities_of_field hfield he hname
  rw [htable] at hmem
  exact ⟨d, hd, describeDeclaration_describesAs _ _ d hdescribes,
    List.mem_append_left _ (List.mem_flatMap.mpr ⟨f, hf, hmem⟩)⟩

/-- What a declaration lacks is not built in. -/
theorem Compilation.knows_iff_of_lacks (h : compile spec options = .ok c) {l : Located}
    {i : Identity} (hlacks : spec.Lacks options l i) :
    c.Knows spec options i ↔ ∃ k ∈ spec.located, (k.entry options).identity = i := by
  rcases hlacks with ⟨t, _, e, _, hundescribed, name, hname, rfl⟩
  have hnot : name ∉ builtinNames := by
    rw [mem_builtinNames_iff hname, hundescribed]
    exact Bool.noConfusion
  rw [Compilation.knows_generated_iff h name, or_iff_right hnot]

/-- Every identity that a description mentions is known, or is one that the fields of
    its declaration lack. Conversely what a declaration lacks is mentioned by its
    description, and is known only if some declaration happens to have that
    identity. -/
theorem known_or_undescribed (h : compile spec options = .ok c) :
    (∀ d ∈ c.types, ∀ i ∈ d.identities, c.Knows spec options i ∨
      ∃ l ∈ targeted spec options, d.qualifiedName = some l.qualifiedName ∧
        spec.Lacks options l i) ∧
    ∀ l ∈ targeted spec options, ∀ i, spec.Lacks options l i →
      (∃ d ∈ c.types, d.qualifiedName = some l.qualifiedName ∧ i ∈ d.identities) ∧
      (c.Knows spec options i ↔ ∃ k ∈ spec.located, (k.entry options).identity = i) := by
  constructor
  · intro d hd i hi
    rcases (Compilation.mem_types_of_compile h).1 d hd with hd | ⟨l, hl, hd⟩
    · exact .inl (Compilation.knows_of_builtin h hd hi)
    · have hmade := mentions_of_describeDeclaration (compile_eq_ok h).1
        (mem_located_of_targeted hl) hd
      rcases hmade with ⟨types, hmentions, htypes⟩
      rcases Compilation.knows_of_mentions h hmentions hi with hknows | ⟨t, ht, hlacks⟩
      · exact .inl hknows
      · exact .inr ⟨l, hl, describeDeclaration_describesAs _ _ d hd, t, (htypes t).mp ht, hlacks⟩
  · intro l hl i hlacks
    exact ⟨Compilation.mentions_of_lacks h hl hlacks, Compilation.knows_iff_of_lacks h hlacks⟩

end Compilations

section Holders

/-- A struct that holds items. -/
def itemHolder (item : WireType) : Located where
  path := ["example"]
  declaration := .struct
    { name := "Holder", members := [{ name := "items", type := .array .eight item }] }

/-- A struct that extends the one that holds items. -/
def itemStore : Located where
  path := ["example", "inner"]
  declaration := .struct { name := "Store", supertype := some "Holder" }

/-- A typedef of the struct that extends the other one. -/
def storeAlias : Located where
  path := ["example"]
  declaration := .typedef { name := "Alias", aliased := .named "inner::Store" }

/-- A schema with these three. -/
def itemHolders (item : WireType) : Specification where
  scope := .mk "example" [.mk "inner" [] [itemStore.declaration]]
    [(itemHolder item).declaration, storeAlias.declaration]

/-- The identity that a list of 16 bits is given. -/
def longList : Identity :=
  .generated ({} : Options).nameSpace "List16FW"

theorem exists_compile_itemHolders : ∃ c, compile (itemHolders (.list .sixteen)) {} = .ok c :=
  Checked.exists_of_isOk (by decide +kernel)

/-- The typedef lacks the items that its struct inherits. -/
theorem lacks_longList : (itemHolders (.list .sixteen)).Lacks {} storeAlias longList := by
  rcases exists_compile_itemHolders with ⟨c, hcompile⟩
  have hpaths := (Specification.located_of_verify (compile_eq_ok hcompile).1).1
  have hlocated : (itemHolders (.list .sixteen)).located =
      [itemHolder (.list .sixteen), storeAlias, itemStore] := rfl
  have hholder : itemHolder (.list .sixteen) ∈ (itemHolders (.list .sixteen)).located := by
    simp [hlocated]
  have halias : storeAlias ∈ (itemHolders (.list .sixteen)).located := by simp [hlocated]
  have hstore : itemStore ∈ (itemHolders (.list .sixteen)).located := by simp [hlocated]
  -- from the typedef to the struct, and from there to its supertype
  have hnamed := (@qualify?_ofSpecification _ {} hpaths _ halias "inner::Store"
    itemStore.qualifiedName).mp (by decide +kernel)
  have hsuper := (@qualify?_ofSpecification _ {} hpaths _ hstore "Holder"
    (itemHolder (.list .sixteen)).qualifiedName).mp (by decide +kernel)
  have hitems : (itemHolders (.list .sixteen)).HasFieldType storeAlias
      (.array .eight (.list .sixteen)) :=
    .aliased rfl rfl hstore hnamed (.inherited rfl rfl hholder hsuper (.own List.mem_cons_self))
  exact ⟨_, hitems, .list .sixteen, List.mem_cons_of_mem _ List.mem_cons_self, rfl, _, rfl, rfl⟩

theorem storeAlias_targeted : storeAlias ∈ targeted (itemHolders (.list .sixteen)) {} :=
  List.mem_cons_of_mem _ List.mem_cons_self

theorem known_or_undescribed_itemHolders :
    ∃ c, compile (itemHolders (.list .sixteen)) {} = .ok c ∧
      ∃ d ∈ c.types, d.qualifiedName = some storeAlias.qualifiedName ∧ longList ∈ d.identities := by
  rcases exists_compile_itemHolders with ⟨c, hcompile⟩
  have hlacks := (known_or_undescribed hcompile).2 storeAlias storeAlias_targeted longList
    lacks_longList
  exact ⟨c, hcompile, hlacks.1⟩

/-- A schema compiles with a description that mentions a list which is neither built in
    nor declared. -/
theorem long_list_undescribed :
    ∃ c, compile (itemHolders (.list .sixteen)) {} = .ok c ∧
      ∃ d ∈ c.types, ∃ i ∈ d.identities, ¬ c.Knows (itemHolders (.list .sixteen)) {} i := by
  rcases exists_compile_itemHolders with ⟨c, hcompile⟩
  rcases Compilation.mentions_of_lacks hcompile storeAlias_targeted lacks_longList with
    ⟨d, hd, _, hmentions⟩
  refine ⟨c, hcompile, d, hd, longList, hmentions, ?_⟩
  rw [Compilation.knows_iff_of_lacks hcompile lacks_longList]
  decide +kernel

end Holders

end Wireform
