import Wireform.Proofs.Supertypes
import Wireform.Proofs.Views

/-!
# Inherited Members

A struct starts with its supertype.

A reader of the supertype can be used on any struct that extends it, and a builder
that was written for the supertype sets the same members by the same positions.
Both rest on the description of the struct starting with the fields of the supertype,
offsets and sizes included.

The members that two structs share are laid out from the top, so they come first in
both. They are described twice, at different sites: under the name of the one struct
and under that of the other. Each member is resolved from the scope of the struct that
declares it, and not from the scope of the one that inherits it, so it is seen the
same way both times. Nothing that the scope of the heir declares gets in between.

## Main definitions

* `DescribesFields`: The description of a struct with given fields.

## Theorems

* `describeMembers_append`: The first of several members are described first.
* `membersOf_sameView`: Members are seen the same way under any name.
* `describeStruct_of_layout`: A struct is described by the fields of its layout.
* `inherited_fields_first`: The fields of a supertype come first.
-/

namespace Wireform

/-- The first of several members are described as they are by themselves. -/
theorem describeMembers_append {offset : Option Nat} {first second : List (Site × Member)}
    {fields : List FieldDescription} (h : describeMembers offset (first ++ second) = .ok fields) :
    ∃ before, describeMembers offset first = .ok before ∧ before <+: fields := by
  induction first generalizing offset fields with
  | nil => exact ⟨[], rfl, List.nil_prefix⟩
  | cons member rest ih =>
      rcases member with ⟨owner, m⟩
      rw [List.cons_append, describeMembers] at h
      rcases Checked.bind_eq_ok.mp h with ⟨field, hfield, h⟩
      rcases Checked.bind_eq_ok.mp h with ⟨next, hnext, h⟩
      rcases Checked.bind_eq_ok.mp h with ⟨after, hafter, h⟩
      rcases ih hafter with ⟨before, hbefore, hprefix⟩
      -- the offset of a member depends on those before it alone
      rw [← Except.ok.inj h]
      refine ⟨field :: before, ?_, List.cons_prefix_cons.mpr ⟨rfl, hprefix⟩⟩
      rw [describeMembers]
      refine Checked.bind_eq_ok.mpr ⟨field, hfield, ?_⟩
      refine Checked.bind_eq_ok.mpr ⟨next, hnext, ?_⟩
      exact Checked.bind_eq_ok.mpr ⟨before, hbefore, rfl⟩

/-- The members of the same structs, seen under two names. -/
theorem membersOf_sameView {site site' : Site} (h : site.table.SameNames site'.table)
    (structs : List Located) :
    List.Forall₂ (fun a b => a.1.SameView b.1 ∧ a.2 = b.2) (site.membersOf structs)
      (site'.membersOf structs) := by
  induction structs with
  | nil => exact .nil
  | cons l rest ih =>
      refine List.rel_append ?_ ih
      rw [List.forall₂_map_left_iff, List.forall₂_map_right_iff, List.forall₂_same]
      exact fun m _ => ⟨⟨h, rfl⟩, rfl⟩

section Structs

/-- A description with the fields, a builder that sets them in their order and ends
    with one more method, and the required ones among them. -/
def DescribesFields (fields : List FieldDescription) (d : TypeDescription) : Prop :=
  d.fields = fields ∧ ∃ name build,
    d.builder = some { name, methods := settersOf fields ++ [build], required := requiredOf fields }

theorem describeStruct_of_layout {site : Site} {d : StructDecl} {members : List (Site × Member)}
    {fields : List FieldDescription} (hlayout : layout site d = .ok members)
    (hfields : describeMembers (some 0) members = .ok fields) :
    ∃ description, describeStruct site d = .ok description ∧
      DescribesFields fields description := by
  rw [describeStruct, hlayout, Checked.ok_bind, hfields, Checked.ok_bind]
  exact ⟨_, rfl, rfl, _, _, rfl⟩

theorem getElem?_settersOf (fields : List FieldDescription) (i : Nat) :
    (settersOf fields)[i]? = fields[i]?.map (setterOf · i) := by
  rw [settersOf, List.getElem?_map, List.getElem?_zipIdx, Option.map_map, Nat.zero_add]
  rfl

theorem settersOf_isPrefix {fields fields' : List FieldDescription} (h : fields <+: fields') :
    settersOf fields <+: settersOf fields' := by
  rcases h with ⟨rest, rfl⟩
  rw [settersOf, settersOf, List.zipIdx_append, List.map_append]
  exact List.prefix_append _ _

theorem requiredOf_isPrefix {fields fields' : List FieldDescription} (h : fields <+: fields') :
    requiredOf fields <+: requiredOf fields' :=
  (h.filter _).map _

/-- In a builder that starts with the setters of some fields, each of these stands at
    the position of its field. -/
theorem getElem?_of_settersOf {fields : List FieldDescription} {methods : List Method}
    (h : settersOf fields <+: methods) {i : Nat} {f : FieldDescription}
    (hf : fields[i]? = some f) : methods[i]? = some (setterOf f i) := by
  have hsetter : (settersOf fields)[i]? = some (setterOf f i) := by
    rw [getElem?_settersOf, hf]
    rfl
  rcases h with ⟨rest, rfl⟩
  rcases List.getElem?_eq_some_iff.mp hsetter with ⟨hlt, _⟩
  rw [List.getElem?_append_left hlt, hsetter]

/-- Every field has a setter of its name. -/
theorem exists_find?_settersOf {fields : List FieldDescription} {f : FieldDescription}
    (hf : f ∈ fields) : ∃ setter, (settersOf fields).find? (·.name = f.name) = some setter := by
  rcases List.mem_iff_getElem?.mp hf with ⟨i, hi⟩
  have hmem := List.mem_of_getElem? (getElem?_of_settersOf List.prefix_rfl hi)
  refine Option.isSome_iff_exists.mp (List.find?_isSome.mpr ⟨_, hmem, ?_⟩)
  exact decide_eq_true rfl

/-- If one struct is laid out like another one with more behind it, and is described,
    then so is the other one, with the first of its fields. -/
theorem describeStruct_of_shared {site site' : Site} {d e : StructDecl} {shared own : List Located}
    (hnames : site.table.SameNames site'.table)
    (hlayout : layout site d = .ok (site.membersOf (shared ++ own)))
    (hlayout' : layout site' e = .ok (site'.membersOf shared)) {description : TypeDescription}
    (h : describeStruct site d = .ok description) :
    ∃ fields fields' description', describeStruct site' e = .ok description' ∧ fields' <+: fields ∧
      DescribesFields fields description ∧ DescribesFields fields' description' := by
  have hfields := h
  rw [describeStruct, hlayout, Checked.ok_bind] at hfields
  rcases Checked.bind_eq_ok.mp hfields with ⟨fields, hfields, _⟩
  rcases describeStruct_of_layout hlayout hfields with ⟨_, hd, hdescribes⟩
  cases h.symm.trans hd
  -- the shared members are described by themselves, and as seen from the other site
  rw [Site.membersOf_append] at hfields
  rcases describeMembers_append hfields with ⟨before, hbefore, hprefix⟩
  have hsame := alike_describeMembers (membersOf_sameView hnames shared) (some 0)
  rw [hbefore] at hsame
  rcases hsame.exists_ok with ⟨_, hbefore', rfl⟩
  rcases describeStruct_of_layout hlayout' hbefore' with ⟨description', he, hdescribes'⟩
  exact ⟨fields, before, description', he, hprefix, hdescribes, hdescribes'⟩

end Structs

variable {spec : Specification} {options : Options}

/-- The chain of a struct goes on with the chain of what its supertype stands
    for. -/
theorem Specification.Ancestors.of_supertype
    (hunique : (spec.located.map Located.qualifiedName).Nodup) {l parent : Located}
    {ancestors : List Located} (h : spec.Ancestors l ancestors) {d : StructDecl}
    (hd : l.declaration = .struct d) {name : String} (hsuper : d.supertype = some name)
    (hparent : parent ∈ spec.located)
    (hresolves : Resolves spec.Defines name l.path parent.qualifiedName) :
    ∃ rest, ancestors = parent :: rest ∧ spec.Ancestors parent rest := by
  cases h with
  | root he hnone =>
      -- the last struct of a chain has no supertype
      cases hd.symm.trans he
      exact nomatch hsuper.symm.trans hnone
  | @step _ other _ _ rest he hsome hother hname hrest =>
      cases hd.symm.trans he
      cases hsuper.symm.trans hsome
      have hsame := hresolves.unique hname
      cases List.inj_on_of_nodup_map hunique hparent hother hsame
      exact ⟨rest, rfl, hrest⟩

/-- Under its own name, a struct is laid out with its ancestors. -/
theorem layout_site (hunique : (spec.located.map Located.qualifiedName).Nodup)
    (hpaths : ∀ l ∈ spec.located, ∀ name ∈ l.path, IsIdentifier name) {l : Located}
    {ancestors : List Located} {d : StructDecl} (hl : l ∈ spec.located)
    (hd : l.declaration = .struct d) (hchain : spec.Ancestors l ancestors)
    (hnodup : ((l :: ancestors).map Located.qualifiedName).Nodup) :
    layout (l.site spec options) d =
      .ok ((l.site spec options).membersOf (l :: ancestors).reverse) := by
  have hfresh : Fresh [(l.site spec options).qualifiedName]
      (ancestors.map Located.qualifiedName) := fresh_singleton.mpr hnodup
  exact (layout_of_ancestors hunique hpaths rfl hl hd rfl hchain hfresh).2

/-- A struct is described with the fields of its supertype first, wherever the two of
    them stand and whatever is declared around them, and the supertype is described as
    well. The builders of both start with the setters of these fields, each at the
    same position, and the fields that the supertype requires are required first. -/
theorem inherited_fields_first (hverify : spec.verify = .ok ()) {heir parent : Located}
    (hheir : heir ∈ spec.located) (hparent : parent ∈ spec.located) {d : StructDecl}
    (hd : heir.declaration = .struct d) {name : String} (hsuper : d.supertype = some name)
    (hresolves : (NameTable.ofSpecification spec options).qualify? heir.scope name =
      some parent.qualifiedName) {description : TypeDescription}
    (h : describeEntry (NameTable.ofSpecification spec options) (heir.entry options) =
      .ok description) :
    ∃ inherited builder parentBuilder,
      describeEntry (NameTable.ofSpecification spec options) (parent.entry options) =
        .ok inherited ∧
      description.builder = some builder ∧ inherited.builder = some parentBuilder ∧
      inherited.fields <+: description.fields ∧
      parentBuilder.required <+: builder.required ∧
      (∀ (i : Nat) f, inherited.fields[i]? = some f →
        parentBuilder.methods[i]? = some (setterOf f i) ∧
        builder.methods[i]? = some (setterOf f i)) ∧
      ∀ f ∈ inherited.fields, ∃ setter,
        parentBuilder.method? f.name = some setter ∧ builder.method? f.name = some setter := by
  rcases Specification.located_of_verify hverify with ⟨hpaths, _, hunique⟩
  rcases Specification.ancestors_of_verify hverify hheir hd with ⟨ancestors, hchain, hnodup⟩
  rw [qualify?_ofSpecification hpaths hheir] at hresolves
  rcases hchain.of_supertype hunique hd hsuper hparent hresolves with ⟨rest, rfl, hrest⟩
  rcases hrest.isStruct with ⟨e, he⟩
  -- both layouts start with the supertype and its ancestors
  have hlayout : layout (heir.site spec options) d = .ok
      ((heir.site spec options).membersOf ((parent :: rest).reverse ++ [heir])) := by
    rw [← List.reverse_cons]
    exact layout_site hunique hpaths hheir hd hchain hnodup
  have hlayout' : layout (parent.site spec options) e = .ok
      ((parent.site spec options).membersOf (parent :: rest).reverse) :=
    layout_site hunique hpaths hparent he hrest (List.nodup_cons.mp hnodup).2
  have hnames : (heir.site spec options).table.SameNames (parent.site spec options).table :=
    NameTable.sameNames_refl _
  rw [describeEntry_entry hunique hheir, hd] at h
  rcases describeStruct_of_shared hnames hlayout hlayout' h with
    ⟨fields, fields', inherited, hinherited, hprefix, ⟨rfl, _, build, hbuilder⟩,
      ⟨rfl, _, build', hbuilder'⟩⟩
  -- what ends a builder stands behind all setters
  have hsetters : settersOf inherited.fields <+: settersOf description.fields ++ [build] :=
    (settersOf_isPrefix hprefix).trans (List.prefix_append _ _)
  have hsetters' : settersOf inherited.fields <+: settersOf inherited.fields ++ [build'] :=
    List.prefix_append _ _
  refine ⟨inherited, _, _, ?_, hbuilder, hbuilder', hprefix, requiredOf_isPrefix hprefix, ?_, ?_⟩
  · rw [describeEntry_entry hunique hparent, he]
    exact hinherited
  · exact fun i f hf => ⟨getElem?_of_settersOf hsetters' hf,
      getElem?_of_settersOf hsetters hf⟩
  · intro f hf
    rcases exists_find?_settersOf hf with ⟨setter, hsetter⟩
    exact ⟨setter, hsetters'.find?_eq_some hsetter, hsetters.find?_eq_some hsetter⟩

/-- An event, which extends a record. -/
def event : Located where
  path := ["example", "log"]
  declaration := .struct
    { name := "Event", supertype := some "Record"
      members := [{ name := "time", type := .named "Id" }] }

/-- A login, which extends an event. -/
def login : Located where
  path := ["example", "log", "access"]
  declaration := .struct
    { name := "Login", supertype := some "Event"
      members := [{ name := "user", type := .named "Id", default := some (.integer 0) }] }

/-- A schema in which each struct stands further inside than its supertype, and next
    to another type of the name that all of them use. -/
def logs : Specification where
  scope := .mk "example"
    [.mk "log"
      [.mk "access" []
        [.typedef { name := "Id", aliased := .fixed .int64 }, login.declaration]]
      [.typedef { name := "Id", aliased := .fixed .uint32 }, event.declaration]]
    [.typedef { name := "Id", aliased := .fixed .uint8 },
      .struct { name := "Record", members := [{ name := "id", type := .named "Id" }] }]

theorem inherited_fields_first_logs :
    logs.verify = .ok () ∧ ∃ description inherited builder parentBuilder,
      describeEntry (NameTable.ofSpecification logs {}) (login.entry {}) = .ok description ∧
      describeEntry (NameTable.ofSpecification logs {}) (event.entry {}) = .ok inherited ∧
      description.builder = some builder ∧ inherited.builder = some parentBuilder ∧
      inherited.fields <+: description.fields ∧ parentBuilder.required <+: builder.required := by
  have hverify : logs.verify = .ok () := by decide +kernel
  have hheir : login ∈ logs.located :=
    List.mem_of_getElem? (show logs.located[5]? = some login from rfl)
  have hparent : event ∈ logs.located :=
    List.mem_of_getElem? (show logs.located[3]? = some event from rfl)
  have hresolves : (NameTable.ofSpecification logs {}).qualify? login.scope "Event" =
      some event.qualifiedName := by decide +kernel
  have hdescribed : (describeEntry (NameTable.ofSpecification logs {}) (login.entry {})).isOk =
      true := by decide +kernel
  rcases Checked.exists_of_isOk hdescribed with ⟨description, h⟩
  rcases inherited_fields_first hverify hheir hparent rfl rfl hresolves h with
    ⟨inherited, builder, parentBuilder, hinherited, hbuilder, hbuilder', hfields, hrequired, _⟩
  exact ⟨hverify, description, inherited, builder, parentBuilder, h, hinherited, hbuilder,
    hbuilder', hfields, hrequired⟩

end Wireform
