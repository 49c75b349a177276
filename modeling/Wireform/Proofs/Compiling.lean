import Wireform.Output.Compilation
import Wireform.Proofs.Checked
import Wireform.Proofs.WellFormed

/-!
# What a Compilation Has Done

A compilation that succeeded, taken apart.

Compiling verifies the schema, puts its declarations into a table of names and
describes those that are targeted. The table is a list that is searched from its
end, and names are looked up as text. Since the schema was verified, none of this
matters: qualified names are unique and the names on a path are identifiers, so
the table holds what the schema declares, and a name is found where `Resolves`
says it stands. The lemmas here say so once, and what is proved about a
description further on speaks of declarations and not of entries.

## Main definitions

* `Located.site`: Where a declaration of a schema is described.
* `TypeDescription.Bears`: The identity of a description and of its builder.
* `DescribesAs`, `DescribesAt`: A description under a given name, or at a site, if there
  is one.
* `builtinNames`: The names of what is built in.
* `targeted`: The declarations of a schema that are described.

## Theorems

* `Checked.mapM_eq_ok`: A list that was gone through without a failure.
* `Checked.Alike.mapM`: Two lists that are gone through alike.
* `Specification.located_of_verify`: What verification says of declarations.
* `Specification.ancestors_of_verify`: What verification says of supertypes.
* `lookup?_ofSpecification`: The table holds the declarations of the schema.
* `qualify?_ofSpecification`: Names are qualified as they resolve.
* `Site.resolve_eq_ok`: A reference that was resolved.
* `describeEntry_entry`: An entry of the table is described as its declaration.
* `compile_eq_ok`: Every targeted declaration has been described.
* `compile_of_described`: A schema compiles if its declarations are described.
* `describeDeclaration_describesAt`: A description has the name and the identity of its
  site.
* `describeBuiltins_bears`: What is built in has names in the namespace.
* `Compilation.find?_of_compile`: The description of a declaration is found.
* `Compilation.declarations_of_compile`: The descriptions of the declarations follow
  what is built in.
* `Compilation.mem_types_of_compile`: What the types of a compilation are.
-/

namespace Wireform

section Sequencing

variable {ε α β : Type}

/-- A list is gone through without a failure if each element is, and the results
    stand in the order of the elements. -/
theorem Checked.mapM_eq_ok {f : α → Checked ε β} {xs : List α} {ys : List β} :
    xs.mapM f = .ok ys ↔ List.Forall₂ (fun x y => f x = .ok y) xs ys := by
  induction xs generalizing ys with
  | nil =>
      rw [List.mapM_nil, List.forall₂_nil_left_iff]
      exact ⟨fun h => (Except.ok.inj h).symm, fun h => h ▸ rfl⟩
  | cons x xs ih =>
      rw [List.mapM_cons, Checked.bind_eq_ok, List.forall₂_cons_left_iff]
      constructor
      · rintro ⟨y, hy, h⟩
        rcases Checked.bind_eq_ok.mp h with ⟨rest, hrest, h⟩
        exact ⟨y, rest, hy, ih.mp hrest, (Except.ok.inj h).symm⟩
      · rintro ⟨y, rest, hy, hrest, rfl⟩
        exact ⟨y, hy, Checked.bind_eq_ok.mpr ⟨rest, ih.mpr hrest, rfl⟩⟩

/-- Two lists are gone through alike if their elements are, one by one. -/
theorem Checked.Alike.mapM {γ δ : Type} {R : β → δ → Prop} {f : α → Checked ε β}
    {g : γ → Checked ε δ} {xs : List α} {ys : List γ}
    (h : List.Forall₂ (fun x y => Checked.Alike R (f x) (g y)) xs ys) :
    Checked.Alike (List.Forall₂ R) (xs.mapM f) (ys.mapM g) := by
  induction h with
  | nil => exact .ok .nil
  | cons hfirst _ ih =>
      rw [List.mapM_cons, List.mapM_cons]
      refine hfirst.bind fun a b hab => ?_
      exact ih.bind fun as bs habs => .ok (.cons hab habs)

theorem Checked.exists_of_isOk {x : Checked ε α} (h : x.isOk = true) : ∃ a, x = .ok a := by
  cases x with
  | error fault => exact nomatch h
  | ok a => exact ⟨a, rfl⟩

theorem exists_of_forall₂ {R : α → β → Prop} {xs : List α} {ys : List β}
    (h : List.Forall₂ R xs ys) {x : α} (hx : x ∈ xs) : ∃ y ∈ ys, R x y := by
  induction h with
  | nil => exact absurd hx List.not_mem_nil
  | @cons _ y _ _ hfirst _ ih =>
      rcases List.mem_cons.mp hx with rfl | hx
      · exact ⟨y, List.mem_cons_self, hfirst⟩
      · rcases ih hx with ⟨z, hz, hrel⟩
        exact ⟨z, List.mem_cons_of_mem y hz, hrel⟩

/-- Lists that are related one by one have the same values under functions that agree
    on what is related. -/
theorem map_eq_map_of_forall₂ {γ : Type} {R : α → β → Prop} {f : α → γ} {g : β → γ}
    {xs : List α} {ys : List β} (h : List.Forall₂ R xs ys) (hfg : ∀ x y, R x y → f x = g y) :
    xs.map f = ys.map g := by
  rw [← List.forall₂_eq_eq_eq, List.forall₂_map_left_iff, List.forall₂_map_right_iff]
  exact h.imp fun x y => hfg x y

end Sequencing

/-- A schema that was verified stands in scopes with proper names, and its
    declarations are well formed and have names of their own. -/
theorem Specification.located_of_verify {spec : Specification} (h : spec.verify = .ok ()) :
    (∀ l ∈ spec.located, ∀ name ∈ l.path, IsIdentifier name) ∧
      (∀ l ∈ spec.located, l.declaration.WellFormed) ∧
      (spec.located.map Located.qualifiedName).Nodup := by
  rw [Specification.verify, except_bind_eq_ok] at h
  rcases h with ⟨defined, hverify, _⟩
  rcases (Scope.verify_eq_ok [] [] defined spec.scope).mp hverify with
    ⟨hscopes, hdecls, hfresh, _⟩
  have hpaths := Scope.path_of_mem_locate [] (List.forall_mem_nil IsIdentifier) spec.scope hscopes
  exact ⟨hpaths, hdecls, fresh_empty.mp hfresh⟩

/-- The names that the verifier has collected are those that the schema
    defines. -/
theorem Specification.defined_of_verify {spec : Specification} (h : spec.verify = .ok ()) :
    ∃ defined, spec.scope.verify [] [] = .ok defined ∧ ∀ q, q ∈ defined ↔ spec.Defines q := by
  rw [Specification.verify, except_bind_eq_ok] at h
  rcases h with ⟨defined, hverify, _⟩
  refine ⟨defined, hverify, fun q => ?_⟩
  rcases (Scope.verify_eq_ok [] [] defined spec.scope).mp hverify with ⟨_, _, _, rfl⟩
  rw [List.append_nil, List.mem_reverse, Defines]
  rfl

/-- In a schema that was verified, the supertypes of every struct are structs, and
    end without repeating. -/
theorem Specification.ancestors_of_verify {spec : Specification} (h : spec.verify = .ok ())
    {l : Located} (hl : l ∈ spec.located) {d : StructDecl} (hd : l.declaration = .struct d) :
    ∃ ancestors, spec.Ancestors l ancestors ∧
      ((l :: ancestors).map Located.qualifiedName).Nodup := by
  rcases Specification.located_of_verify h with ⟨hpaths, _, hunique⟩
  rcases Specification.defined_of_verify h with ⟨defined, hscope, hdefined⟩
  rw [Specification.verify, hscope] at h
  exact (verifySupertypes_all hunique hpaths hdefined).mp (forM_eq_ok.mp h) l hl d hd

section Table

variable {spec : Specification} {options : Options}

theorem isDefined_ofSpecification (q : String) :
    (NameTable.ofSpecification spec options).isDefined q = true ↔ spec.Defines q := by
  simp only [NameTable.isDefined, NameTable.ofSpecification, List.any_map, List.any_eq_true,
    Function.comp_apply, decide_eq_true_eq, Specification.Defines, List.mem_map]
  exact Iff.rfl

/-- A qualified name belongs to one declaration, so it does not matter that the
    table is searched from its end. -/
theorem lookup?_ofSpecification (hunique : (spec.located.map Located.qualifiedName).Nodup)
    {q : String} {entry : NameEntry} :
    (NameTable.ofSpecification spec options).lookup? q = some entry ↔
      ∃ l ∈ spec.located, l.qualifiedName = q ∧ entry = l.entry options := by
  have hfound : ∀ e, (NameTable.ofSpecification spec options).lookup? q = some e →
      ∃ l ∈ spec.located, l.qualifiedName = q ∧ e = l.entry options := by
    intro e hfind
    have hname : e.qualifiedName = q := by
      simpa only [decide_eq_true_eq] using List.find?_some hfind
    have hmem := List.mem_reverse.mp (List.mem_of_find?_eq_some hfind)
    rcases List.mem_map.mp hmem with ⟨l, hl, rfl⟩
    exact ⟨l, hl, hname, rfl⟩
  refine ⟨hfound entry, ?_⟩
  rintro ⟨l, hl, rfl, rfl⟩
  cases hfind : (NameTable.ofSpecification spec options).lookup? l.qualifiedName with
  | none =>
      have hmem : l.entry options ∈ (NameTable.ofSpecification spec options).entries.reverse :=
        List.mem_reverse.mpr (List.mem_map.mpr ⟨l, hl, rfl⟩)
      exact absurd (decide_eq_true rfl) (List.find?_eq_none.mp hfind _ hmem)
  | some e =>
      rcases hfound e hfind with ⟨k, hk, hname, rfl⟩
      cases List.inj_on_of_nodup_map hunique hk hl hname
      rfl

/-- From the scope of a declaration, a name is qualified as what it stands for. -/
theorem qualify?_ofSpecification
    (hpaths : ∀ l ∈ spec.located, ∀ name ∈ l.path, IsIdentifier name) {l : Located}
    (hl : l ∈ spec.located) (name q : String) :
    (NameTable.ofSpecification spec options).qualify? l.scope name = some q ↔
      Resolves spec.Defines name l.path q := by
  have hsame : (fun q => (NameTable.ofSpecification spec options).isDefined q = true) =
      spec.Defines := by
    funext q
    rw [isDefined_ofSpecification]
  rw [← hsame]
  exact searchOutward_eq_some_iff _ (hpaths l hl) name q

/-- What a name stands for is defined. -/
theorem Resolves.defined {Defined : String → Prop} {name q : String} {path : List String}
    (h : Resolves Defined name path q) : Defined q := by
  induction h with
  | here h => exact h
  | outward _ _ ih => exact ih

end Table

section Sites

variable {spec : Specification} {options : Options}

/-- Where a declaration of a schema is described: under its own names, with
    references resolved from the scope it stands in. -/
def Located.site (spec : Specification) (options : Options) (l : Located) : Site where
  table := NameTable.ofSpecification spec options
  scope := l.scope
  qualifiedName := l.qualifiedName
  identity := (l.entry options).identity

theorem Site.of?_qualifiedName (hunique : (spec.located.map Located.qualifiedName).Nodup)
    {l : Located} (hl : l ∈ spec.located) :
    Site.of? (NameTable.ofSpecification spec options) l.qualifiedName =
      some (l.site spec options) := by
  rw [Site.of?, (lookup?_ofSpecification hunique).mpr ⟨l, hl, rfl, rfl⟩]
  rfl

theorem Site.resolve_eq_ok {site : Site} {name : String} {entry : NameEntry} :
    site.resolve name = .ok entry ↔
      ∃ q, site.table.qualify? site.scope name = some q ∧ site.table.lookup? q = some entry := by
  rw [Site.resolve]
  cases hq : site.table.qualify? site.scope name with
  | none => exact ⟨nofun, fun ⟨_, h, _⟩ => nomatch h⟩
  | some q =>
      cases hentry : site.table.lookup? q with
      | none => simp [hentry, Site.unresolved, Checked.refuse]
      | some e => simp [hentry]

/-- An entry of the table is described as the declaration it was made for. -/
theorem describeEntry_entry (hunique : (spec.located.map Located.qualifiedName).Nodup)
    {l : Located} (hl : l ∈ spec.located) :
    describeEntry (NameTable.ofSpecification spec options) (l.entry options) =
      describeDeclaration (l.site spec options) l.declaration := by
  rw [describeEntry, show (l.entry options).qualifiedName = l.qualifiedName from rfl,
    Site.of?_qualifiedName hunique hl]
  rfl

theorem verified_eq_ok : verified spec = .ok () ↔ spec.verify = .ok () := by
  rw [verified]
  cases spec.verify with
  | error violation => exact ⟨nofun, nofun⟩
  | ok _ => exact ⟨fun _ => rfl, fun _ => rfl⟩

/-- The entries of the table are those of the declarations, in the same order, so
    describing the targeted ones is describing the targeted declarations. -/
theorem describe_targeted (hunique : (spec.located.map Located.qualifiedName).Nodup)
    {described : List TypeDescription} :
    ((NameTable.ofSpecification spec options).entries.filter fun entry =>
        options.targets entry.scope).mapM
          (describeEntry (NameTable.ofSpecification spec options)) = .ok described ↔
      List.Forall₂
        (fun l d => describeDeclaration (l.site spec options) l.declaration = .ok d)
        (spec.located.filter fun l => options.targets l.scope) described := by
  rw [Checked.mapM_eq_ok, NameTable.ofSpecification, List.filter_map, List.forall₂_map_left_iff]
  have hmem : ∀ l ∈ spec.located.filter fun l => options.targets l.scope, l ∈ spec.located :=
    fun l hl => (List.mem_filter.mp hl).1
  constructor
  · intro h
    refine ((List.forall₂_and_left _ _).mpr ⟨hmem, h⟩).imp ?_
    rintro l d ⟨hl, hd⟩
    rw [← describeEntry_entry hunique hl]
    exact hd
  · intro h
    refine ((List.forall₂_and_left _ _).mpr ⟨hmem, h⟩).imp ?_
    rintro l d ⟨hl, hd⟩
    rw [← describeEntry_entry hunique hl] at hd
    exact hd

/-- A schema that compiles was verified, and each of its targeted declarations
    was described where it stands. -/
theorem compile_eq_ok {c : Compilation} (h : compile spec options = .ok c) :
    spec.verify = .ok () ∧ ∃ described,
      c.types = describeBuiltins options.nameSpace ++ described ∧
        List.Forall₂
          (fun l d => describeDeclaration (l.site spec options) l.declaration = .ok d)
          (spec.located.filter fun l => options.targets l.scope) described := by
  rcases Checked.bind_eq_ok.mp h with ⟨_, hverified, h⟩
  have hverify := verified_eq_ok.mp hverified
  have hunique := (Specification.located_of_verify hverify).2.2
  rcases Checked.bind_eq_ok.mp h with ⟨described, hdescribed, h⟩
  refine ⟨hverify, described, ?_, (describe_targeted hunique).mp hdescribed⟩
  rw [← Except.ok.inj h]
  rfl

/-- A verified schema compiles if each of its targeted declarations is described
    where it stands. -/
theorem compile_of_described (hverify : spec.verify = .ok ())
    {described : List TypeDescription}
    (h : List.Forall₂
      (fun l d => describeDeclaration (l.site spec options) l.declaration = .ok d)
      (spec.located.filter fun l => options.targets l.scope) described) :
    compile spec options = .ok
      { nameSpace := options.nameSpace
        types := describeBuiltins options.nameSpace ++ described } := by
  have hunique := (Specification.located_of_verify hverify).2.2
  refine Checked.bind_eq_ok.mpr ⟨(), verified_eq_ok.mpr hverify, ?_⟩
  exact Checked.bind_eq_ok.mpr ⟨described, (describe_targeted hunique).mpr h, rfl⟩

end Sites

section Names

/-- The description of a type under an identity, with a builder named after it. -/
structure TypeDescription.Bears (d : TypeDescription) (identity : Identity) : Prop where
  identity_eq : d.identity = identity
  builder_eq : d.builder.map (·.name) = some (builderName identity.simpleName)

theorem describeBuiltin?_qualifiedName {identity : Identity} {type : WireType}
    {d : TypeDescription} (h : describeBuiltin? identity type = some d) :
    d.qualifiedName = none := by
  rcases Option.bind_eq_some_iff.mp h with ⟨family, _, h⟩
  rcases Option.bind_eq_some_iff.mp h with ⟨limit, _, h⟩
  split at h <;> cases h <;> rfl

theorem describeBuiltin?_bears {identity : Identity} {type : WireType} {d : TypeDescription}
    (h : describeBuiltin? identity type = some d) : d.Bears identity := by
  rcases Option.bind_eq_some_iff.mp h with ⟨family, _, h⟩
  rcases Option.bind_eq_some_iff.mp h with ⟨limit, _, h⟩
  split at h <;> cases h <;> exact ⟨rfl, rfl⟩

/-- What is built in has no qualified name. -/
theorem describeBuiltins_qualifiedName {nameSpace : String} {d : TypeDescription}
    (h : d ∈ describeBuiltins nameSpace) : d.qualifiedName = none := by
  rcases List.mem_filterMap.mp h with ⟨type, _, h⟩
  rcases Option.bind_eq_some_iff.mp h with ⟨name, _, h⟩
  exact describeBuiltin?_qualifiedName h

/-- If it succeeds, the computation describes something under the given name. -/
def DescribesAs (q : String) (x : Compiled TypeDescription) : Prop :=
  x.Ensures fun d => d.qualifiedName = some q

/-- If it succeeds, the computation describes something under the name and the
    identity of the site. -/
def DescribesAt (site : Site) (x : Compiled TypeDescription) : Prop :=
  x.Ensures fun d => d.qualifiedName = some site.qualifiedName ∧ d.Bears site.identity

theorem describeListDecl_describesAt (site : Site) (d : ListDecl) :
    DescribesAt site (describeListDecl site d) := by
  refine Checked.ensures_bind fun size => ?_
  by_cases hlong : d.members.length > maskSize * 8
  · rw [if_pos hlong]
    exact Checked.ensures_error _ _
  · rw [if_neg hlong]
    exact Checked.ensures_bind fun _ => Checked.ensures_ok ⟨rfl, rfl, rfl⟩

theorem describeVariant_describesAt (site : Site) (d : VariantDecl) :
    DescribesAt site (describeVariant site d) := by
  refine Checked.ensures_bind fun constants => ?_
  cases d.cases.find? (!isDiscriminator constants ·.kind) with
  | some c => exact Checked.ensures_error _ _
  | none =>
      refine Checked.ensures_bind fun common => Checked.ensures_bind fun value => ?_
      refine Checked.ensures_bind fun kind => Checked.ensures_bind fun size => ?_
      exact Checked.ensures_bind fun fields => Checked.ensures_ok ⟨rfl, rfl, rfl⟩

/-- A description has the name and the identity of the site it is made at, whatever it
    describes. -/
theorem describeShape_describesAt (site : Site) (d : Declaration) :
    DescribesAt site (describeShape site d) := by
  cases d with
  | struct d =>
      exact Checked.ensures_bind fun members => Checked.ensures_bind fun fields =>
        Checked.ensures_ok ⟨rfl, rfl, rfl⟩
  | enum d =>
      exact Checked.ensures_bind fun values => Checked.ensures_bind fun encoding =>
        Checked.ensures_ok ⟨rfl, rfl, rfl⟩
  | list d => exact describeListDecl_describesAt site d
  | map d =>
      exact Checked.ensures_bind fun size => Checked.ensures_bind fun key =>
        Checked.ensures_bind fun value => Checked.ensures_ok ⟨rfl, rfl, rfl⟩
  | union d =>
      exact Checked.ensures_bind fun size => Checked.ensures_bind fun kind =>
        Checked.ensures_bind fun fields => Checked.ensures_ok ⟨rfl, rfl, rfl⟩
  | variant d => exact describeVariant_describesAt site d
  | typedef d => exact Checked.ensures_error _ _

/-- The name of a struct is no part of its layout. -/
theorem layout_renamed (site : Site) (d : StructDecl) (name : String) :
    layout site { d with name } = layout site d := by
  unfold layout
  rw [supertypeChain.eq_def, supertypeChain.eq_def]
  dsimp only
  cases d.supertype with
  | none => rfl
  | some supertype =>
      dsimp only
      cases site.resolve supertype with
      | error fault => rfl
      | ok entry =>
          cases hentry : entry.declaration with
          | struct parent =>
              by_cases hseen : entry.qualifiedName ∈ [site.qualifiedName]
              · simp only [hentry, Checked.ok_bind, if_pos hseen]
              · simp only [hentry, Checked.ok_bind, if_neg hseen]
                cases site.table.entries.length with
                | zero => rfl
                | succ steps =>
                    dsimp only
                    cases supertypeChain site steps [entry.qualifiedName, site.qualifiedName]
                      (site.inScope entry.scope) parent with
                    | error fault => rfl
                    | ok chain =>
                        -- the chains differ in the struct itself, which has the same members
                        simp only [Checked.ok_bind, pure, Except.pure, List.reverse_cons,
                          List.flatMap_append]
                        rfl
          | _ => simp only [hentry, Checked.ok_bind]

/-- The name of a declaration is no part of its description, which has the names of
    the place where it is described. -/
theorem describeShape_renamed (site : Site) (d : Declaration) (name : String) :
    describeShape site (d.renamed name) = describeShape site d := by
  cases d with
  | struct d =>
      simp only [Declaration.renamed, describeShape, describeStruct, layout_renamed]
  | _ => rfl

theorem describeTypedef_describesAt (site : Site) (d : TypedefDecl) :
    DescribesAt site (describeTypedef site d) := by
  refine Checked.ensures_bind fun target => ?_
  cases target with
  | declared scope d =>
      -- references are resolved from another scope, the name stays
      exact describeShape_describesAt (site.inScope scope) _
  | builtin type =>
      cases hbuiltin : describeBuiltin? site.identity type with
      | some d =>
          have hbears := describeBuiltin?_bears hbuiltin
          simp only [hbuiltin]
          exact Checked.ensures_ok ⟨rfl, hbears.identity_eq, hbears.builder_eq⟩
      | none =>
          simp only [hbuiltin]
          exact Checked.ensures_error _ _

theorem describeDeclaration_describesAt (site : Site) (d : Declaration) :
    DescribesAt site (describeDeclaration site d) := by
  unfold describeDeclaration
  split
  · exact describeTypedef_describesAt site _
  · exact describeShape_describesAt site d

theorem describeDeclaration_describesAs (site : Site) (d : Declaration) :
    DescribesAs site.qualifiedName (describeDeclaration site d) :=
  fun made hmade => (describeDeclaration_describesAt site d made hmade).1

/-- The names of the built-in types that are described. -/
def builtinNames : List String :=
  builtinTypes.filterMap builtinName?

theorem describeBuiltin?_of_name {type : WireType} {name : String}
    (h : builtinName? type = some name) (identity : Identity) :
    ∃ d, describeBuiltin? identity type = some d := by
  cases type with
  | fixed kind => cases h
  | varint kind => cases kind <;> exact ⟨_, rfl⟩
  | octets => exact ⟨_, rfl⟩
  | boundedOctets width bound => cases width <;> exact ⟨_, rfl⟩
  | string width => cases width <;> exact ⟨_, rfl⟩
  | varstring => exact ⟨_, rfl⟩
  | list width => cases width <;> exact ⟨_, rfl⟩
  | array width item => exact ⟨_, rfl⟩
  | map width key value => exact ⟨_, rfl⟩
  | named name => cases h

/-- The built-in types are described under their names in the namespace. -/
theorem describeBuiltins_bears (nameSpace : String) :
    List.Forall₂ TypeDescription.Bears (describeBuiltins nameSpace)
      (builtinNames.map (Identity.generated nameSpace)) := by
  unfold describeBuiltins builtinNames
  induction builtinTypes with
  | nil => exact .nil
  | cons type types ih =>
      cases hname : builtinName? type with
      | none =>
          rw [List.filterMap_cons_none hname, List.filterMap_cons_none (by rw [hname]; rfl)]
          exact ih
      | some name =>
          rcases describeBuiltin?_of_name hname (.generated nameSpace name) with ⟨d, hd⟩
          rw [List.filterMap_cons_some hname, List.filterMap_cons_some (by rw [hname]; exact hd)]
          exact .cons (describeBuiltin?_bears hd) ih

end Names

section Finding

variable {spec : Specification} {options : Options} {c : Compilation}

/-- Among things with names of their own, searching for the name of one finds what
    it is related to. -/
theorem find?_of_forall₂ {R : Located → TypeDescription → Prop} {ls : List Located}
    {ds : List TypeDescription} (h : List.Forall₂ R ls ds)
    (hname : ∀ l d, R l d → d.qualifiedName = some l.qualifiedName)
    (hunique : (ls.map Located.qualifiedName).Nodup) {l : Located} (hl : l ∈ ls) :
    ∃ d, ds.find? (·.qualifiedName = some l.qualifiedName) = some d ∧ R l d := by
  induction h with
  | nil => exact absurd hl List.not_mem_nil
  | @cons first d rest ds hfirst _ ih =>
      rcases List.nodup_cons.mp hunique with ⟨hfresh, hunique⟩
      have hd := hname first d hfirst
      rcases List.mem_cons.mp hl with rfl | hl
      · exact ⟨d, List.find?_cons_of_pos (decide_eq_true hd), hfirst⟩
      · have hne : ¬ d.qualifiedName = some l.qualifiedName := by
          rw [hd, Option.some.injEq]
          intro hsame
          exact hfresh (hsame ▸ List.mem_map_of_mem hl)
        rw [List.find?_cons_of_neg (by rw [decide_eq_true_eq]; exact hne)]
        exact ih hunique hl

/-- In a schema that compiles, a targeted declaration is found under its name,
    and what is found was described where it stands. -/
theorem Compilation.find?_of_compile (h : compile spec options = .ok c) {l : Located}
    (hl : l ∈ spec.located) (htargets : options.targets l.scope = true) :
    ∃ d, c.find? l.qualifiedName = some d ∧
      describeDeclaration (l.site spec options) l.declaration = .ok d := by
  rcases compile_eq_ok h with ⟨hverify, described, htypes, hdescribed⟩
  have hunique := (Specification.located_of_verify hverify).2.2
  have htargeted : ((spec.located.filter fun l => options.targets l.scope).map
      Located.qualifiedName).Nodup :=
    hunique.sublist (List.filter_sublist.map _)
  have hbuiltins : (describeBuiltins options.nameSpace).find?
      (·.qualifiedName = some l.qualifiedName) = none := by
    rw [List.find?_eq_none]
    intro d hd
    rw [describeBuiltins_qualifiedName hd]
    exact fun hname => nomatch of_decide_eq_true hname
  rw [Compilation.find?, htypes, List.find?_append, hbuiltins, Option.none_or]
  have hnames (l : Located) :=
    describeDeclaration_describesAs (l.site spec options) l.declaration
  exact find?_of_forall₂ hdescribed hnames htargeted (List.mem_filter.mpr ⟨hl, htargets⟩)

theorem Compilation.nameSpace_of_compile (h : compile spec options = .ok c) :
    c.nameSpace = options.nameSpace := by
  rcases Checked.bind_eq_ok.mp h with ⟨_, _, h⟩
  rcases Checked.bind_eq_ok.mp h with ⟨_, _, h⟩
  rw [← Except.ok.inj h]

/-- The descriptions are told apart by their names: those that have none are built
    in and come first, and those that follow were made for the targeted
    declarations, in their order. -/
theorem Compilation.declarations_of_compile (h : compile spec options = .ok c) :
    c.types = describeBuiltins options.nameSpace ++ c.declarations ∧
      List.Forall₂ (fun l d => describeDeclaration (l.site spec options) l.declaration = .ok d)
        (spec.located.filter fun l => options.targets l.scope) c.declarations := by
  rcases compile_eq_ok h with ⟨_, described, htypes, hdescribed⟩
  have hbuiltins : (describeBuiltins options.nameSpace).filter (·.qualifiedName.isSome) = [] := by
    rw [List.filter_eq_nil_iff]
    intro d hd
    rw [describeBuiltins_qualifiedName hd]
    exact nofun
  have hnamed : ∀ d ∈ described, d.qualifiedName.isSome = true := by
    intro d hd
    rcases exists_of_forall₂ hdescribed.flip hd with ⟨l, _, hl⟩
    rw [describeDeclaration_describesAs _ _ d hl]
    rfl
  have hdeclarations : c.declarations = described := by
    rw [Compilation.declarations, htypes, List.filter_append, hbuiltins, List.nil_append,
      List.filter_eq_self.mpr hnamed]
  rw [hdeclarations]
  exact ⟨htypes, hdescribed⟩

/-- The declarations of a schema that are described. -/
def targeted (spec : Specification) (options : Options) : List Located :=
  spec.located.filter fun l => options.targets l.scope

theorem mem_located_of_targeted {l : Located} (h : l ∈ targeted spec options) :
    l ∈ spec.located :=
  (List.mem_filter.mp h).1

/-- Every type of a compilation is built in or was described for a targeted
    declaration, and each of these has been described. -/
theorem Compilation.mem_types_of_compile (h : compile spec options = .ok c) :
    (∀ d ∈ c.types, d ∈ describeBuiltins options.nameSpace ∨ ∃ l ∈ targeted spec options,
      describeDeclaration (l.site spec options) l.declaration = .ok d) ∧
    (∀ d ∈ describeBuiltins options.nameSpace, d ∈ c.types) ∧
    ∀ l ∈ targeted spec options, ∃ d ∈ c.types,
      describeDeclaration (l.site spec options) l.declaration = .ok d := by
  rcases Compilation.declarations_of_compile h with ⟨htypes, hdescribed⟩
  rw [htypes]
  refine ⟨fun d hd => ?_, fun d hd => List.mem_append_left _ hd, fun l hl => ?_⟩
  · rcases List.mem_append.mp hd with hd | hd
    · exact .inl hd
    · exact .inr (exists_of_forall₂ hdescribed.flip hd)
  · rcases exists_of_forall₂ hdescribed hl with ⟨d, hd, hdescribes⟩
    exact ⟨d, List.mem_append_right _ hd, hdescribes⟩

end Finding

end Wireform
