import Wireform.Proofs.Readings
import Wireform.Proofs.SameButName

/-!
# Sites That See the Same

What the description of a declaration depends on.

A description is made at a site, which holds a table with all names of the schema.
It reads little of that: what a name means, and how many names there are, which bounds
how far it follows them. Two tables that agree on this are as good as one, in whatever
order they hold their entries.

The name and the identity that a site has go into what is described there, and into
the text of every error. They go into no field. A member is therefore described as
the same field for every declaration that takes it over, if it can be described at
all. Since errors may differ where fields are the same, the lemmas on fields are
stated with `Checked.Alike`. A whole declaration is described as the same but for
the name, and at sites that differ in the table only, as the same.

## Main definitions

* `NameTable.SameNames`: Tables in which every name means the same.
* `Site.SameView`: Sites from which every name means the same.
* `Site.withTable`: The site with another table.

## Theorems

* `alike_describeMembers`: Members are described alike from such sites.
* `Site.SameReading.alike_describeShape`: So is a declaration, but for the name and
  the identity.
* `alike_describeDeclaration`: A declaration is described alike with another table
  in which every name means the same.
-/

namespace Wireform

open Checked

/-- Two tables in which every name means the same. -/
abbrev NameTable.SameNames (t t' : NameTable) : Prop :=
  t.SameUpTo Eq t'

/-- Sites from which every name means the same, whatever is described there. -/
abbrev Site.SameView (site site' : Site) : Prop :=
  site.SameUpTo Eq site'

theorem NameTable.sameNames_of_lookup {t t' : NameTable} (hnameSpace : t.nameSpace = t'.nameSpace)
    (hlookup : ∀ q, t.lookup? q = t'.lookup? q)
    (hlength : t.entries.length = t'.entries.length) : t.SameNames t' := by
  refine ⟨hnameSpace, fun q => ?_, hlength⟩
  rw [hlookup]
  cases t'.lookup? q with
  | none => exact .none
  | some entry => exact .some ⟨rfl, rfl, rfl, rfl⟩

theorem NameTable.sameNames_refl (t : NameTable) : t.SameNames t :=
  sameNames_of_lookup rfl (fun _ => rfl) rfl

theorem sameReading_of_eq : ∀ d d' : Declaration, d = d' → d.SameReading d' := by
  rintro d _ rfl
  exact .refl d

/-- What means the same reads the same. -/
theorem Site.SameUpTo.reading {site site' : Site} (h : site.SameView site') :
    site.SameReading site' :=
  h.mono sameReading_of_eq

section Members

/-- Members are described as the same fields, or not at all, from sites from which
    every name means the same. -/
theorem alike_describeMembers {members members' : List (Site × Member)}
    (h : List.Forall₂ (fun a b => a.1.SameView b.1 ∧ a.2 = b.2) members members')
    (offset : Option Nat) :
    Alike Eq (describeMembers offset members) (describeMembers offset members') := by
  have hfield : ∀ (a b : Site × Member) offset, a.1.SameView b.1 ∧ a.2 = b.2 →
      Alike (fun f f' => f = f' ∧ f.size = f'.size) (a.1.field a.2 offset)
        (b.1.field b.2 offset) := by
    rintro ⟨owner, m⟩ ⟨owner', _⟩ offset ⟨hview, rfl⟩
    refine (Site.SameReading.alike_field_self hview.reading m offset).mono ?_
    rintro field _ rfl
    exact ⟨rfl, rfl⟩
  refine (alike_describeMembers_of_fields hfield h offset).mono fun fields fields' hfields => ?_
  rwa [List.forall₂_eq_eq_eq] at hfields

theorem alike_mapM {α β : Type} {x y : α → Compiled β} (h : ∀ a, Alike Eq (x a) (y a))
    (as : List α) : Alike Eq (as.mapM x) (as.mapM y) := by
  have hitems : List.Forall₂ (fun a b => Alike Eq (x a) (y b)) as as :=
    List.forall₂_same.mpr fun a _ => h a
  refine (Alike.mapM hitems).mono fun bs bs' hbs => ?_
  rwa [List.forall₂_eq_eq_eq] at hbs

end Members

section Shapes

/-- What has fields and setters for them is put together alike at any site. -/
theorem Site.sameButName_ofFields (site site' : Site) (family : String) (limit : LimitRule)
    (methods setters : List Method) (constants : List ConstantDescription)
    (fields : List FieldDescription) (required : List String) :
    ({ (site.reader family limit).withMethods methods with constants, fields }.withBuilder setters
        required).SameButName
      ({ (site'.reader family limit).withMethods methods with constants, fields }.withBuilder
        setters required) := by
  refine .withBuilder (.fill ?_ constants fields none) (Method.sameButName_refl setters) required
  exact (sameButName_reader site site' family limit).withMethods (Method.sameButName_refl methods)

variable {site site' : Site}

/-- A struct is described alike if its members are laid out alike. -/
theorem alike_describeStruct {d : StructDecl}
    (hlayout : Alike (List.Forall₂ fun a b => a.1.SameView b.1 ∧ a.2 = b.2)
      (layout site d) (layout site' d)) :
    Alike TypeDescription.SameButName (describeStruct site d) (describeStruct site' d) := by
  refine hlayout.bind fun members members' hmembers => ?_
  refine (alike_describeMembers hmembers (some 0)).bind ?_
  rintro fields _ rfl
  exact .ok (Site.sameButName_ofFields site site' _ _ _ _ _ _ _)

variable (h : site.SameReading site')

include h

theorem Site.SameReading.alike_describeListDecl (d : ListDecl) :
    Alike TypeDescription.SameButName (describeListDecl site d) (describeListDecl site' d) := by
  refine (Site.alike_prefixSize site site' d.width _).bind ?_
  rintro size _ rfl
  refine alike_ite (fun _ => .error _ _) fun _ => ?_
  refine (alike_mapM (fun m => h.alike_field_self m none) d.members).bind ?_
  rintro fields _ rfl
  exact .ok (Site.sameButName_ofFields site site' _ _ _ _ _ _ _)

theorem Site.SameReading.alike_describeMapDecl (d : MapDecl) :
    Alike TypeDescription.SameButName (describeMapDecl site d) (describeMapDecl site' d) := by
  refine (Site.alike_prefixSize site site' d.width _).bind ?_
  rintro size _ rfl
  refine (h.alike_identityOf d.key.agrees_self).bind ?_
  rintro key _ rfl
  refine (h.alike_identityOf d.value.agrees_self).bind ?_
  rintro value _ rfl
  refine .ok (.fill (.withBuilder ?_ (Method.sameButName_refl _) _) _ _ none)
  exact (Site.sameButName_reader site site' _ _).withMethods (Method.sameButName_refl _)

theorem Site.SameReading.alike_describeUnion (d : UnionDecl) :
    Alike TypeDescription.SameButName (describeUnion site d) (describeUnion site' d) := by
  refine (h.alike_unionKindSize d.kind.agrees_self).bind ?_
  rintro size _ rfl
  refine (h.alike_valueIdentityOf d.kind.agrees_self).bind ?_
  rintro kind _ rfl
  refine (alike_mapM (fun c : UnionCase => h.alike_field_self
    { name := c.name, type := c.type } (some size)) d.cases).bind ?_
  rintro fields _ rfl
  exact .ok (Site.sameButName_ofFields site site' _ _ _ _ _ _ _)

theorem Site.SameReading.alike_describeVariant (d : VariantDecl) :
    Alike TypeDescription.SameButName (describeVariant site d) (describeVariant site' d) := by
  refine (h.alike_discriminatingConstants d.kind.agrees_self).bind ?_
  rintro constants _ rfl
  dsimp only
  -- the constants are the same, so a case is refused at both sites or at none
  cases d.cases.find? (!isDiscriminator constants ·.kind) with
  | some c => exact .error _ _
  | none =>
      refine (Site.alike_commonType site site' (WireType.agreesTo_optional d.of 1)
        (List.forall₂_same.mpr fun _ _ => ⟨.same _, .same _⟩)).bind fun _ _ hcommon => ?_
      refine (h.alike_valueIdentityOf hcommon).bind ?_
      rintro value _ rfl
      refine (h.alike_identityOf d.kind.agrees_self).bind ?_
      rintro kind _ rfl
      refine (h.alike_fixedSize d.kind.agrees_self).bind ?_
      rintro size _ rfl
      refine (alike_mapM (fun c : VariantCase => h.alike_field_self
        { name := caseName c.kind, type := c.type } size) d.cases).bind ?_
      rintro fields _ rfl
      exact .ok (Site.sameButName_ofFields site site' _ _ _ _ _ _ _)

/-- An enum is read and set as itself, so its methods have the name in them. -/
theorem Site.SameReading.alike_describeEnum (d : EnumDecl) :
    Alike TypeDescription.SameButName (describeEnum site d) (describeEnum site' d) := by
  have htype := WireType.agreesTo_optional d.valueType 1
  refine (Site.alike_constantValues site site' htype 0 d.constants).bind ?_
  rintro values _ rfl
  refine (h.alike_enumEncoding htype).bind ?_
  rintro ⟨limit, value⟩ _ rfl
  refine .ok (.withBuilder (.fill (.withMethods (Site.sameButName_reader site site' _ _) ?_) _ _ _)
    ?_ _)
  · refine .cons ⟨rfl, rfl, .nil, .option⟩ (.cons (.refl _) (.cons ⟨rfl, rfl, ?_, .option⟩ .nil))
    exact .cons ⟨rfl, .inl rfl⟩ .nil
  · exact .cons ⟨rfl, rfl, .cons ⟨rfl, .name⟩ .nil, .inl rfl⟩ .nil

/-- A declaration is described as the same but for its name, if as a struct its
    members are laid out alike. -/
theorem Site.SameReading.alike_describeShape {d : Declaration}
    (hlayout : ∀ s, d = .struct s →
      Alike (List.Forall₂ fun a b => a.1.SameView b.1 ∧ a.2 = b.2) (layout site s)
        (layout site' s)) :
    Alike TypeDescription.SameButName (describeShape site d) (describeShape site' d) := by
  cases d with
  | struct d => exact alike_describeStruct (hlayout d rfl)
  | enum d => exact h.alike_describeEnum d
  | list d => exact h.alike_describeListDecl d
  | map d => exact h.alike_describeMapDecl d
  | union d => exact h.alike_describeUnion d
  | variant d => exact h.alike_describeVariant d
  | typedef d => exact .error _ _

end Shapes

section Tables

/-- The site with another table. -/
def Site.withTable (site : Site) (table : NameTable) : Site :=
  { site with table }

variable {site : Site} {table : NameTable} (h : site.table.SameNames table)

include h

theorem Site.sameView_withTable : site.SameView (site.withTable table) :=
  ⟨h, rfl⟩

/-- With another table, a declaration has the same name and identity too. -/
theorem alike_describeShape_withTable (d : Declaration) :
    Alike Eq (describeShape site d) (describeShape (site.withTable table) d) := by
  have hview := Site.sameView_withTable h
  have hmembers : ∀ s s' : StructDecl, Declaration.struct s = .struct s' →
      List.Forall₂ Eq s.members s'.members := by
    rintro s _ ⟨⟩
    exact List.forall₂_same.mpr fun _ _ => rfl
  have hsame := Site.SameReading.alike_describeShape hview.reading (d := d) fun s _ =>
    hview.alike_layout sameReading_of_eq rfl hmembers rfl
  refine (hsame.ensures (describeShape_describesAt site d)
    (describeShape_describesAt (site.withTable table) d)).mono ?_
  rintro made made' ⟨hmade, ⟨hname, hbears⟩, hname', hbears'⟩
  exact hmade.eq (hname.trans hname'.symm) (hbears.identity_eq.trans hbears'.identity_eq.symm)

/-- A declaration is described alike with another table in which every name means
    the same. -/
theorem alike_describeDeclaration (d : Declaration) :
    Alike Eq (describeDeclaration site d) (describeDeclaration (site.withTable table) d) := by
  have hshape : ∀ scope d d', d = d' → Alike Eq (describeShape (site.inScope scope) d)
      (describeShape ((site.withTable table).inScope scope) d') := by
    rintro scope d _ rfl
    have hinner : (site.inScope scope).table.SameNames table := h
    exact alike_describeShape_withTable hinner d
  exact (Site.sameView_withTable h).alike_describeDeclaration sameReading_of_eq rfl rfl
    (fun _ => rfl) hshape rfl

end Tables

end Wireform
