import Wireform.Proofs.Renaming

/-!
# References That Are Looked Up

Which references a compilation has looked up, and which it has not.

No pass goes over a schema to check its references. Each description looks up
what it needs: the identity of every type that a declaration refers to, and for
the types of its fields the identities of their elements. An identity says which
array or map it is and nothing of what it holds, so a reference further inside is
not looked up by anything. `Declaration.LooksUp` is what is, on the declaration
alone.

A schema that compiles therefore resolves what it looks up. Of the references
deeper inside nothing follows, since a compilation does not depend on them: an
array of arrays of a type that nobody declares compiles.

## Main definitions

* `WireType.elements`: The types right inside an array or a map.
* `Declaration.LooksUp`: The references that describing a declaration looks up.
* `Specification.Resolvable`: A reference stands for a declaration.
* `Site.Finds`: A reference is found from a site.

## Theorems

* `Site.finds_of_field`: A field looks up its type and the elements of it.
* `finds_of_describeDeclaration`: A description looks up what it should.
* `Declaration.looksUp_or_renamed`: What is not looked up is what is renamed.
* `resolvable_of_compile`: Looked up references resolve, the others are free.
* `unresolved_element_compiles`: A reference that is not looked up.
-/

namespace Wireform

/-- The types right inside an array or a map. -/
def WireType.elements : WireType → List WireType
  | .array _ item => [item]
  | .map _ key value => [key, value]
  | _ => []

/-- The references that describing the declaration looks up: types that it
    refers to, and types right inside those of its fields. -/
def Declaration.LooksUp (d : Declaration) (name : String) : Prop :=
  .named name ∈ d.referencedTypes ∨ ∃ t ∈ d.fieldTypes, .named name ∈ t.elements

/-- A reference in a declaration stands for a declaration of the schema. -/
def Specification.Resolvable (spec : Specification) (l : Located) (name : String) : Prop :=
  ∃ target ∈ spec.located, Resolves spec.Defines name l.path target.qualifiedName

/-- A reference is found from a site. -/
def Site.Finds (site : Site) (name : String) : Prop :=
  ∃ q, site.table.qualify? site.scope name = some q

namespace Site

variable {site : Site} {name : String}

theorem finds_of_identityIn? {identity : Identity}
    (h : site.table.identityIn? site.scope (.named name) = some identity) : site.Finds name := by
  rcases Option.bind_eq_some_iff.mp h with ⟨q, hq, _⟩
  exact ⟨q, hq⟩

theorem finds_of_identityOf {identity : Identity}
    (h : site.identityOf (.named name) = .ok identity) : site.Finds name := by
  rw [identityOf] at h
  cases hfound : site.table.identityIn? site.scope (.named name) with
  | none =>
      rw [hfound] at h
      exact nomatch h
  | some identity => exact finds_of_identityIn? hfound

theorem finds_of_valueIdentityOf {identity : Identity}
    (h : site.valueIdentityOf (.named name) = .ok identity) : site.Finds name :=
  -- a reference has no wider identity, so the two lookups are one
  finds_of_identityOf h

theorem finds_of_resolve {entry : NameEntry} (h : site.resolve name = .ok entry) :
    site.Finds name := by
  rcases resolve_eq_ok.mp h with ⟨q, hq, _⟩
  exact ⟨q, hq⟩

theorem finds_of_parameters {type : WireType} {parameters : List Identity}
    (h : site.parameters type = .ok parameters) (hname : .named name ∈ type.elements) :
    site.Finds name := by
  cases type with
  | array width item =>
      rcases Checked.bind_eq_ok.mp h with ⟨identity, hitem, _⟩
      rw [WireType.elements, List.mem_singleton] at hname
      subst hname
      exact finds_of_identityOf hitem
  | map width key value =>
      rcases Checked.bind_eq_ok.mp h with ⟨_, hkey, h⟩
      rcases Checked.bind_eq_ok.mp h with ⟨_, hvalue, _⟩
      rw [WireType.elements, List.mem_pair] at hname
      rcases hname with rfl | rfl
      · exact finds_of_identityOf hkey
      · exact finds_of_identityOf hvalue
  | _ => exact nomatch hname

/-- Describing a field looks up its type and what stands right inside. -/
theorem finds_of_field {m : Member} {offset : Option Nat} {f : FieldDescription}
    (h : site.field m offset = .ok f)
    (hname : m.type = .named name ∨ .named name ∈ m.type.elements) : site.Finds name := by
  rcases Checked.bind_eq_ok.mp h with ⟨_, hparameters, h⟩
  rcases Checked.bind_eq_ok.mp h with ⟨_, _, h⟩
  rcases Checked.bind_eq_ok.mp h with ⟨_, hidentity, _⟩
  rcases hname with hname | hname
  · rw [hname] at hidentity
    exact finds_of_identityOf hidentity
  · exact finds_of_parameters hparameters hname

/-- Describing fields one by one looks up all of theirs. -/
theorem finds_of_fields {α : Type} (asMember : α → Member) {offset : Option Nat} {xs : List α}
    {fields : List FieldDescription}
    (h : xs.mapM (fun x => site.field (asMember x) offset) = .ok fields) {x : α} (hx : x ∈ xs)
    (hname : (asMember x).type = .named name ∨ .named name ∈ (asMember x).type.elements) :
    site.Finds name := by
  rcases exists_of_forall₂ (Checked.mapM_eq_ok.mp h) hx with ⟨f, _, hf⟩
  exact finds_of_field hf hname

end Site

section Descriptions

variable {site : Site} {name : String} {description : TypeDescription}

/-- The chain of supertypes starts with the struct itself, seen from its site. -/
theorem supertypeChain_starts {current : Site} {d : StructDecl} {steps : Nat}
    {seen : List String} {chain : List (Site × StructDecl)}
    (h : supertypeChain site steps seen current d = .ok chain) : (current, d) ∈ chain := by
  unfold supertypeChain at h
  split at h
  · rw [← Except.ok.inj h]
    exact List.mem_singleton_self _
  · rcases Checked.bind_eq_ok.mp h with ⟨entry, _, h⟩
    split at h
    · by_cases hseen : entry.qualifiedName ∈ seen
      · rw [if_pos hseen] at h
        cases h
      · rw [if_neg hseen] at h
        cases steps with
        | zero => cases h
        | succ steps =>
            -- the supertypes only follow the struct
            rcases Checked.bind_eq_ok.mp h with ⟨rest, _, h⟩
            rw [← Except.ok.inj h]
            exact List.mem_cons_self
    · cases h

/-- Each member of a layout is described at some offset. -/
theorem field_of_describeMembers {members : List (Site × Member)} {offset : Option Nat}
    {fields : List FieldDescription} (h : describeMembers offset members = .ok fields)
    {owner : Site} {m : Member} (hm : (owner, m) ∈ members) :
    ∃ offset f, owner.field m offset = .ok f := by
  induction members generalizing offset fields with
  | nil => exact absurd hm List.not_mem_nil
  | cons first rest ih =>
      rcases first with ⟨site, first⟩
      rw [describeMembers] at h
      rcases Checked.bind_eq_ok.mp h with ⟨f, hf, h⟩
      rcases Checked.bind_eq_ok.mp h with ⟨next, _, h⟩
      rcases Checked.bind_eq_ok.mp h with ⟨_, hrest, _⟩
      rcases List.mem_cons.mp hm with heq | hm
      · cases heq
        exact ⟨offset, f, hf⟩
      · exact ih hrest hm

theorem finds_of_describeStruct {d : StructDecl} (h : describeStruct site d = .ok description)
    {m : Member} (hm : m ∈ d.members)
    (hname : m.type = .named name ∨ .named name ∈ m.type.elements) : site.Finds name := by
  rcases Checked.bind_eq_ok.mp h with ⟨members, hlayout, h⟩
  rcases Checked.bind_eq_ok.mp h with ⟨fields, hfields, _⟩
  rcases Checked.bind_eq_ok.mp hlayout with ⟨chain, hchain, hlayout⟩
  have hmem : (site, m) ∈ members := by
    rw [← Except.ok.inj hlayout, List.mem_flatMap]
    exact ⟨(site, d), List.mem_reverse.mpr (supertypeChain_starts hchain),
      List.mem_map.mpr ⟨m, hm, rfl⟩⟩
  rcases field_of_describeMembers hfields hmem with ⟨offset, f, hf⟩
  exact Site.finds_of_field hf hname

theorem finds_of_describeListDecl {d : ListDecl}
    (h : describeListDecl site d = .ok description) {m : Member} (hm : m ∈ d.members)
    (hname : m.type = .named name ∨ .named name ∈ m.type.elements) : site.Finds name := by
  rcases Checked.bind_eq_ok.mp h with ⟨size, _, h⟩
  by_cases hlong : d.members.length > maskSize * 8
  · rw [if_pos hlong] at h
    exact nomatch h
  · rw [if_neg hlong] at h
    rcases Checked.bind_eq_ok.mp h with ⟨fields, hfields, _⟩
    exact Site.finds_of_fields id hfields hm hname

theorem finds_of_describeMapDecl {d : MapDecl} (h : describeMapDecl site d = .ok description)
    (hname : .named name ∈ [d.key, d.value]) : site.Finds name := by
  rcases Checked.bind_eq_ok.mp h with ⟨_, _, h⟩
  rcases Checked.bind_eq_ok.mp h with ⟨_, hkey, h⟩
  rcases Checked.bind_eq_ok.mp h with ⟨_, hvalue, _⟩
  rcases List.mem_pair.mp hname with hname | hname
  · rw [← hname] at hkey
    exact Site.finds_of_identityOf hkey
  · rw [← hname] at hvalue
    exact Site.finds_of_identityOf hvalue

theorem finds_of_describeUnion {d : UnionDecl} (h : describeUnion site d = .ok description) :
    (d.kind = .named name → site.Finds name) ∧
      ∀ c ∈ d.cases, c.type = .named name ∨ .named name ∈ c.type.elements → site.Finds name := by
  rcases Checked.bind_eq_ok.mp h with ⟨size, _, h⟩
  rcases Checked.bind_eq_ok.mp h with ⟨_, hkind, h⟩
  rcases Checked.bind_eq_ok.mp h with ⟨fields, hfields, _⟩
  refine ⟨fun hname => ?_, fun c hc hname => ?_⟩
  · rw [hname] at hkind
    exact Site.finds_of_valueIdentityOf hkind
  · exact Site.finds_of_fields (fun c => { name := c.name, type := c.type })
      hfields hc hname

/-- A variant looks up its discriminator, its common type and its cases. -/
theorem finds_of_describeVariant {d : VariantDecl}
    (h : describeVariant site d = .ok description) :
    (d.kind = .named name ∨ d.of = some (.named name) → site.Finds name) ∧
      ∀ c ∈ d.cases, c.type = .named name ∨ .named name ∈ c.type.elements → site.Finds name := by
  rcases Checked.bind_eq_ok.mp h with ⟨constants, _, h⟩
  cases hmismatch : d.cases.find? (!isDiscriminator constants ·.kind) with
  | some c =>
      simp only [hmismatch] at h
      exact nomatch h
  | none =>
      simp only [hmismatch] at h
      rcases Checked.bind_eq_ok.mp h with ⟨common, hcommon, h⟩
      rcases Checked.bind_eq_ok.mp h with ⟨_, hvalue, h⟩
      rcases Checked.bind_eq_ok.mp h with ⟨_, hkind, h⟩
      rcases Checked.bind_eq_ok.mp h with ⟨size, _, h⟩
      rcases Checked.bind_eq_ok.mp h with ⟨fields, hfields, _⟩
      refine ⟨fun hname => ?_, fun c hc hname => ?_⟩
      · rcases hname with hname | hname
        · rw [hname] at hkind
          exact Site.finds_of_identityOf hkind
        · -- a common type that is given is the one whose values are read
          rw [commonType, hname] at hcommon
          rw [← Except.ok.inj hcommon] at hvalue
          exact Site.finds_of_valueIdentityOf hvalue
      · exact Site.finds_of_fields (fun c => { name := caseName c.kind, type := c.type })
          hfields hc hname

theorem finds_of_describeEnum {d : EnumDecl} (h : describeEnum site d = .ok description)
    (hname : d.valueType = some (.named name)) : site.Finds name := by
  rcases Checked.bind_eq_ok.mp h with ⟨values, _, h⟩
  rcases Checked.bind_eq_ok.mp h with ⟨encoding, hencoding, _⟩
  rw [hname, enumEncoding] at hencoding
  rcases Checked.bind_eq_ok.mp hencoding with ⟨_, hvalue, _⟩
  exact Site.finds_of_valueIdentityOf hvalue

theorem finds_of_describeTypedef {d : TypedefDecl}
    (h : describeTypedef site d = .ok description) (hname : d.aliased = .named name) :
    site.Finds name := by
  rcases Checked.bind_eq_ok.mp h with ⟨target, htarget, _⟩
  rw [hname, aliasTarget.eq_def] at htarget
  rcases Checked.bind_eq_ok.mp htarget with ⟨entry, hentry, _⟩
  exact Site.finds_of_resolve hentry

/-- A description that was made has found every reference that it looks up. -/
theorem finds_of_describeDeclaration {d : Declaration}
    (h : describeDeclaration site d = .ok description) (hname : d.LooksUp name) :
    site.Finds name := by
  cases d with
  | struct d =>
      rcases hname with hname | ⟨t, ht, hname⟩
      · rcases List.mem_map.mp hname with ⟨m, hm, hname⟩
        exact finds_of_describeStruct h hm (.inl hname)
      · rcases List.mem_map.mp ht with ⟨m, hm, rfl⟩
        exact finds_of_describeStruct h hm (.inr hname)
  | enum d =>
      rcases hname with hname | ⟨t, ht, _⟩
      · exact finds_of_describeEnum h (Option.mem_toList.mp hname)
      · exact absurd ht List.not_mem_nil
  | list d =>
      rcases hname with hname | ⟨t, ht, hname⟩
      · rcases List.mem_map.mp hname with ⟨m, hm, hname⟩
        exact finds_of_describeListDecl h hm (.inl hname)
      · rcases List.mem_map.mp ht with ⟨m, hm, rfl⟩
        exact finds_of_describeListDecl h hm (.inr hname)
  | map d =>
      rcases hname with hname | ⟨t, ht, _⟩
      · exact finds_of_describeMapDecl h hname
      · exact absurd ht List.not_mem_nil
  | union d =>
      rcases hname with hname | ⟨t, ht, hname⟩
      · rcases List.mem_cons.mp hname with hname | hname
        · exact (finds_of_describeUnion h).1 hname.symm
        · rcases List.mem_map.mp hname with ⟨c, hc, hname⟩
          exact (finds_of_describeUnion h).2 c hc (.inl hname)
      · rcases List.mem_map.mp ht with ⟨c, hc, rfl⟩
        exact (finds_of_describeUnion h).2 c hc (.inr hname)
  | variant d =>
      rcases hname with hname | ⟨t, ht, hname⟩
      · rcases List.mem_cons.mp hname with hname | hname
        · exact (finds_of_describeVariant h).1 (.inl hname.symm)
        · rcases List.mem_append.mp hname with hname | hname
          · exact (finds_of_describeVariant h).1 (.inr (Option.mem_toList.mp hname))
          · rcases List.mem_map.mp hname with ⟨c, hc, hname⟩
            exact (finds_of_describeVariant h).2 c hc (.inl hname)
      · rcases List.mem_map.mp ht with ⟨c, hc, rfl⟩
        exact (finds_of_describeVariant h).2 c hc (.inr hname)
  | typedef d =>
      rcases hname with hname | ⟨t, ht, _⟩
      · exact finds_of_describeTypedef h (List.mem_singleton.mp hname).symm
      · exact absurd ht List.not_mem_nil

end Descriptions

section Renaming

variable (f : String → String)

theorem WireType.occursIn_renameInside_zero {t : WireType} {name : String}
    (h : (named name).OccursIn (t.renameInside f 0)) : ∃ other, name = f other := by
  induction t with
  | named other =>
      cases h
      exact ⟨other, rfl⟩
  | array width item ih =>
      cases h with
      | item h => exact ih h
  | map width key value ihkey ihvalue =>
      cases h with
      | key h => exact ihkey h
      | value h => exact ihvalue h
  | _ => exact nomatch h

/-- A reference in a type that is renamed further inside is the type itself, or
    stands in an element that is renamed one level less deep. -/
theorem WireType.occursIn_renameInside_succ {t : WireType} {depth : Nat} {name : String}
    (h : (named name).OccursIn (t.renameInside f (depth + 1))) :
    named name = t.renameInside f (depth + 1) ∨
      ∃ e : WireType, e.renameInside f depth ∈ (t.renameInside f (depth + 1)).elements ∧
        (named name).OccursIn (e.renameInside f depth) := by
  cases t with
  | named other =>
      cases h
      exact .inl rfl
  | array width item =>
      cases h with
      | item h => exact .inr ⟨item, List.mem_cons_self, h⟩
  | map width key value =>
      cases h with
      | key h => exact .inr ⟨key, List.mem_cons_self, h⟩
      | value h => exact .inr ⟨value, List.mem_cons_of_mem _ List.mem_cons_self, h⟩
  | _ => exact nomatch h

/-- Every reference of a renamed declaration is looked up or has been renamed. -/
theorem Declaration.looksUp_or_renamed {d : Declaration} {t : WireType} {name : String}
    (ht : t ∈ (d.renameHidden f).referencedTypes) (h : (WireType.named name).OccursIn t) :
    (d.renameHidden f).LooksUp name ∨ ∃ other, name = f other := by
  rcases exists_of_forall₂ (d.referencedTypes_renameHidden f).flip ht with
    ⟨t₀, _, rfl | ⟨rfl, hfield⟩⟩
  · rcases WireType.occursIn_renameInside_succ f h with hself | ⟨e, _, h⟩
    · exact .inl (.inl (hself ▸ ht))
    · exact .inr (WireType.occursIn_renameInside_zero f h)
  · rcases WireType.occursIn_renameInside_succ f h with hself | ⟨e, he, h⟩
    · exact .inl (.inl (hself ▸ ht))
    · -- the elements of a field are looked up, and no more than these
      rcases WireType.occursIn_renameInside_succ f h with hself | ⟨e', _, h⟩
      · exact .inl (.inr ⟨_, hfield, hself ▸ he⟩)
      · exact .inr (WireType.occursIn_renameInside_zero f h)

end Renaming

section Schemas

variable {spec : Specification} {options : Options} {c : Compilation}

/-- What a declaration of a verified schema finds from where it stands is a
    declaration. -/
theorem Specification.resolvable_of_finds (hverify : spec.verify = .ok ()) {l : Located}
    (hl : l ∈ spec.located) {name : String} (h : (l.site spec options).Finds name) :
    spec.Resolvable l name := by
  rcases h with ⟨q, hq⟩
  have hpaths := (Specification.located_of_verify hverify).1
  have hresolves := (qualify?_ofSpecification hpaths hl name q).mp hq
  rcases List.mem_map.mp hresolves.defined with ⟨target, htarget, rfl⟩
  exact ⟨target, htarget, hresolves⟩

/-- In a schema that compiles, every reference that a targeted declaration looks
    up stands for a declaration. None of the others matters: whatever names stand
    in their place, the schema compiles, and no reference is left that is neither
    looked up nor one of these. -/
theorem resolvable_of_compile (h : compile spec options = .ok c) (f : String → String) :
    (∀ l ∈ spec.located, options.targets l.scope = true →
      ∀ name, l.declaration.LooksUp name → spec.Resolvable l name) ∧
    (∃ c', compile (spec.renameHidden f) options = .ok c') ∧
    ∀ l ∈ (spec.renameHidden f).located, ∀ t ∈ l.declaration.referencedTypes, ∀ name,
      (WireType.named name).OccursIn t →
        l.declaration.LooksUp name ∨ ∃ other, name = f other := by
  refine ⟨?_, compile_renameHidden f h, ?_⟩
  · intro l hl htargets name hname
    rcases Compilation.find?_of_compile h hl htargets with ⟨d, _, hd⟩
    exact Specification.resolvable_of_finds (compile_eq_ok h).1 hl
      (finds_of_describeDeclaration hd hname)
  · intro l hl t ht name hoccurs
    rw [Specification.located_renameHidden] at hl
    rcases List.mem_map.mp hl with ⟨l, _, rfl⟩
    exact Declaration.looksUp_or_renamed f ht hoccurs

/-- A schema with points, and with paths that refer to them twice: where they
    start, and two arrays inside. -/
def pointPath (inner : String) : Specification where
  scope := .mk "example" [.mk "geometry" [] [.struct { name := "Path", members := [
      { name := "start", type := .named "Point" },
      { name := "points", type := .array .eight (.array .eight (.named inner)) }] }]]
    [.struct { name := "Point", members := [{ name := "x", type := .fixed .int32 }] }]

theorem resolvable_of_compile_pointPath :
    (∃ c, compile (pointPath "Point") {} = .ok c) ∧
      (∃ l ∈ (pointPath "Point").located, Options.targets {} l.scope = true ∧
        l.declaration.LooksUp "Point" ∧ (pointPath "Point").Resolvable l "Point") ∧
      ∃ c', compile (pointPath "Missing") {} = .ok c' := by
  rcases Checked.exists_of_isOk
    (by decide +kernel : (compile (pointPath "Point") {}).isOk = true) with ⟨c, hc⟩
  rcases resolvable_of_compile hc (fun _ => "Missing") with ⟨hresolvable, hrenamed, _⟩
  refine ⟨⟨c, hc⟩, ⟨_, List.mem_cons_of_mem _ List.mem_cons_self, rfl, ?_, ?_⟩, hrenamed⟩
  · exact .inl List.mem_cons_self
  · exact hresolvable _ (List.mem_cons_of_mem _ List.mem_cons_self) rfl "Point"
      (.inl List.mem_cons_self)

/-- Two arrays inside a member stands a name that nobody declares, and the schema
    compiles all the same. -/
theorem unresolved_element_compiles :
    (∃ c, compile (pointPath "Missing") {} = .ok c) ∧
      ∃ l ∈ (pointPath "Missing").located, Options.targets {} l.scope = true ∧
        ∃ t ∈ l.declaration.referencedTypes, (WireType.named "Missing").OccursIn t ∧
          ¬ (pointPath "Missing").Resolvable l "Missing" := by
  refine ⟨Checked.exists_of_isOk (by decide +kernel), _,
    List.mem_cons_of_mem _ List.mem_cons_self, rfl, _,
    List.mem_cons_of_mem _ List.mem_cons_self, .item (.item .self), ?_⟩
  rintro ⟨target, _, hresolves⟩
  have hverify : (pointPath "Missing").verify = .ok () := rfl
  -- a name that resolves would be found by the search, which comes back empty
  have hfound : (NameTable.ofSpecification (pointPath "Missing") {}).qualify?
      "example::geometry" "Missing" = some target.qualifiedName :=
    (qualify?_ofSpecification (Specification.located_of_verify hverify).1
      (List.mem_cons_of_mem _ List.mem_cons_self) "Missing" _).mpr hresolves
  exact nomatch hfound.symm.trans
    (rfl : (NameTable.ofSpecification (pointPath "Missing") {}).qualify?
      "example::geometry" "Missing" = none)

end Schemas

end Wireform
