import Mathlib.Logic.Relation
import Wireform.Proofs.Inheritance
import Wireform.Proofs.Supertypes

/-!
# Where Typedefs Lead

What a typedef is described as, whatever it leads to.

A typedef of a name leads to the declaration that the name stands for, and on from
there if that is a typedef as well. `Aliases` is one such step. Names are unique, so
there is at most one step from a declaration, and what typedefs lead to is fixed. It
is one of four things. They lead in a circle, which need not go through the typedef
they were followed from. A name on the way stands for nothing. Or they end, in a
built-in type or in a declaration that is no typedef. `EndsIn` is this relation.

The walk that describes a typedef keeps the names that it has met and a number of
steps that is left. Both are read as facts about `Aliases`: a name was met if its
declaration leads to the one that is being looked at, and the steps run out only
when there are more names than declarations. So the walk ends as `EndsIn` says.

A declaration at the end is described under the name and the identity of the
typedef, but seen from its own scope. What is described does not depend on the name
it is described under (`TypeDescription.SameButName`).

## Main definitions

* `Specification.Aliases`: One step from a typedef.
* `AliasEnd`, `Specification.EndsIn`: What typedefs lead to.

## Theorems

* `Specification.EndsIn.unique`: Typedefs lead to one thing.
* `aliasTarget_ends`: The walk ends in what they lead to.
* `describeBuiltin?_sameButName`: A built-in type is described alike under all
  identities.
* `alike_describeDeclaration_standsFor`: So is a declaration behind typedefs.
* `typedef_described`: What a typedef is described as.
-/

namespace Wireform

open Relation (ReflTransGen TransGen)

/-- A typedef of a name leads to the declaration that the name stands for. -/
def Specification.Aliases (spec : Specification) (l next : Located) : Prop :=
  ∃ d name, l.declaration = .typedef d ∧ d.aliased = .named name ∧ next ∈ spec.located ∧
    Resolves spec.Defines name l.path next.qualifiedName

/-- What a chain of typedefs leads to. -/
inductive AliasEnd where
  /-- Typedefs that were met before. -/
  | cycle
  /-- A name that stands for nothing. -/
  | unresolved (name : String)
  /-- A built-in type. -/
  | builtin (type : WireType)
  /-- A declaration that is no typedef. -/
  | declared (l : Located)

/-- The declarations that lead nowhere else, with what is found there. -/
inductive Specification.Stops (spec : Specification) (l : Located) : AliasEnd → Prop where
  | unresolved {d : TypedefDecl} {name : String} (hl : l.declaration = .typedef d)
      (hname : d.aliased = .named name) (h : ∀ q, ¬ Resolves spec.Defines name l.path q) :
      spec.Stops l (.unresolved name)
  | builtin {d : TypedefDecl} (hl : l.declaration = .typedef d)
      (h : ∀ name, d.aliased ≠ .named name) : spec.Stops l (.builtin d.aliased)
  | declared (h : ∀ d, l.declaration ≠ .typedef d) : spec.Stops l (.declared l)

/-- What following typedefs from a declaration leads to: a circle, or a place from
    which they lead nowhere else. -/
inductive Specification.EndsIn (spec : Specification) (l : Located) : AliasEnd → Prop where
  | cycle {a : Located} (h : ReflTransGen spec.Aliases l a) (hcycle : TransGen spec.Aliases a a) :
      spec.EndsIn l .cycle
  | stops {last : Located} {found : AliasEnd} (h : ReflTransGen spec.Aliases l last)
      (hstops : spec.Stops last found) : spec.EndsIn l found

namespace Specification

variable {spec : Specification} {l next last : Located} {found found' : AliasEnd}

theorem Aliases.mem_located (h : spec.Aliases l next) : next ∈ spec.located := by
  rcases h with ⟨_, _, _, _, hnext, _⟩
  exact hnext

theorem Stops.not_aliases (h : spec.Stops l found) : ¬ spec.Aliases l next := by
  rintro ⟨d, name, hd, hname, _, hresolves⟩
  cases h with
  | unresolved hd' hname' hnone =>
      cases hd.symm.trans hd'
      cases hname.symm.trans hname'
      exact hnone _ hresolves
  | builtin hd' hnot =>
      cases hd.symm.trans hd'
      exact hnot name hname
  | declared hnot => exact hnot d hd

theorem Stops.unique (h : spec.Stops l found) (h' : spec.Stops l found') : found = found' := by
  cases h with
  | unresolved hd hname hnone =>
      cases h' with
      | unresolved hd' hname' _ =>
          cases hd.symm.trans hd'
          cases hname.symm.trans hname'
          rfl
      | builtin hd' hnot =>
          cases hd.symm.trans hd'
          exact absurd hname (hnot _)
      | declared hnot => exact absurd hd (hnot _)
  | builtin hd hnot =>
      cases h' with
      | unresolved hd' hname _ =>
          cases hd.symm.trans hd'
          exact absurd hname (hnot _)
      | builtin hd' _ =>
          cases hd.symm.trans hd'
          rfl
      | declared hnot => exact absurd hd (hnot _)
  | declared hnot =>
      cases h' with
      | unresolved hd _ _ => exact absurd hd (hnot _)
      | builtin hd _ => exact absurd hd (hnot _)
      | declared _ => rfl

/-- From where typedefs lead nowhere else, there is nothing else to reach. -/
theorem Stops.eq_of_reaches (h : spec.Stops last found)
    (hreaches : ReflTransGen spec.Aliases last next) : next = last := by
  rcases hreaches.cases_head with heq | ⟨a, hstep, _⟩
  · exact heq.symm
  · exact absurd hstep h.not_aliases

theorem EndsIn.head (hstep : spec.Aliases l next) (h : spec.EndsIn next found) :
    spec.EndsIn l found := by
  cases h with
  | cycle h hcycle => exact .cycle (.head hstep h) hcycle
  | stops h hstops => exact .stops (.head hstep h) hstops

/-- A chain of typedefs that ends in a declaration is one that stands for it. -/
theorem StandsFor.of_reaches (h : ReflTransGen spec.Aliases l last)
    (hlast : ∀ d, last.declaration ≠ .typedef d) : spec.StandsFor l last := by
  induction h using ReflTransGen.head_induction_on with
  | refl => exact .self hlast
  | head hstep _ ih =>
      rcases hstep with ⟨d, name, hd, hname, hnext, hresolves⟩
      exact .through hd hname hnext hresolves ih

section Unique

variable (hunique : (spec.located.map Located.qualifiedName).Nodup)

include hunique

/-- There is one way to follow typedefs. -/
theorem aliases_rightUnique : Relator.RightUnique spec.Aliases := by
  rintro l a b ⟨d, name, hd, hname, ha, hresolves⟩ ⟨d', name', hd', hname', hb, hresolves'⟩
  cases hd.symm.trans hd'
  cases hname.symm.trans hname'
  exact List.inj_on_of_nodup_map hunique ha hb (hresolves.unique hresolves')

/-- Typedefs that lead to a place where they stop do not lead back. -/
theorem Stops.not_cycle (hstops : spec.Stops last found)
    (h : ReflTransGen spec.Aliases l last) : ¬ TransGen spec.Aliases l l := by
  induction h using ReflTransGen.head_induction_on with
  | refl =>
      intro hcycle
      rcases TransGen.head'_iff.mp hcycle with ⟨a, hstep, _⟩
      exact hstops.not_aliases hstep
  | head hstep _ ih =>
      intro hcycle
      rcases TransGen.head'_iff.mp hcycle with ⟨a, hstep', hrest⟩
      -- the circle takes the only step there is, so it goes through the next one too
      cases aliases_rightUnique hunique hstep hstep'
      exact ih (TransGen.tail' hrest hstep)

/-- Typedefs lead to one thing. -/
theorem EndsIn.unique (h : spec.EndsIn l found) (h' : spec.EndsIn l found') : found = found' := by
  -- of two declarations that are reached, one is reached from the other
  have hnot : ∀ {a last : Located} {found : AliasEnd}, ReflTransGen spec.Aliases l a →
      TransGen spec.Aliases a a → ReflTransGen spec.Aliases l last → ¬ spec.Stops last found := by
    intro a last found ha hcycle hlast hstops
    rcases ha.total_of_right_unique (aliases_rightUnique hunique) hlast with hreach | hreach
    · exact hstops.not_cycle hunique hreach hcycle
    · cases hstops.eq_of_reaches hreach
      exact hstops.not_cycle hunique .refl hcycle
  cases h with
  | cycle ha hcycle =>
      cases h' with
      | cycle _ _ => rfl
      | stops hlast hstops => exact absurd hstops (hnot ha hcycle hlast)
  | stops hlast hstops =>
      cases h' with
      | cycle ha hcycle => exact absurd hstops (hnot ha hcycle hlast)
      | stops hlast' hstops' =>
          rcases hlast.total_of_right_unique (aliases_rightUnique hunique) hlast' with
            hreach | hreach
          · cases hstops.eq_of_reaches hreach
            exact hstops.unique hstops'
          · cases hstops'.eq_of_reaches hreach
            exact hstops.unique hstops'

end Unique

end Specification

/-- The names that a walk has met when it comes to a declaration: different ones, of
    declarations that lead there. -/
structure Specification.Met (spec : Specification) (seen : List String) (l : Located) : Prop where
  nodup : seen.Nodup
  leads : ∀ q ∈ seen, ∃ a ∈ spec.located, a.qualifiedName = q ∧ ReflTransGen spec.Aliases a l

namespace Specification.Met

variable {spec : Specification} {seen : List String} {l next : Located}

theorem singleton (hl : l ∈ spec.located) : spec.Met [l.qualifiedName] l :=
  ⟨List.nodup_singleton _, List.forall_mem_singleton.mpr ⟨l, hl, rfl, .refl⟩⟩

theorem step (h : spec.Met seen l) (hstep : spec.Aliases l next)
    (hnew : next.qualifiedName ∉ seen) : spec.Met (next.qualifiedName :: seen) next := by
  refine ⟨h.nodup.cons hnew, List.forall_mem_cons.mpr
    ⟨⟨next, hstep.mem_located, rfl, .refl⟩, fun q hq => ?_⟩⟩
  rcases h.leads q hq with ⟨a, ha, hname, hreaches⟩
  exact ⟨a, ha, hname, hreaches.tail hstep⟩

/-- No more names are met than there are declarations. -/
theorem length_le (h : spec.Met seen l) : seen.length ≤ spec.located.length := by
  have hsub : seen ⊆ spec.located.map Located.qualifiedName := by
    intro q hq
    rcases h.leads q hq with ⟨a, ha, hname, _⟩
    exact List.mem_map.mpr ⟨a, ha, hname⟩
  have hlength := h.nodup.length_le_of_subset hsub
  rwa [List.length_map] at hlength

/-- A step to a name that was met closes a circle: what was met leads here, and from
    here back to it. -/
theorem cycle (hunique : (spec.located.map Located.qualifiedName).Nodup)
    (h : spec.Met seen l) (hstep : spec.Aliases l next) (hmet : next.qualifiedName ∈ seen) :
    spec.EndsIn l .cycle := by
  rcases h.leads _ hmet with ⟨a, ha, hname, hreaches⟩
  cases List.inj_on_of_nodup_map hunique ha hstep.mem_located hname
  exact .cycle (.single hstep) (TransGen.tail' hreaches hstep)

end Specification.Met

/-- The answer of a walk over typedefs that leads there. -/
def AliasEnd.target (site : Site) : AliasEnd → Compiled AliasTarget
  | .cycle => site.invalid .typedefCycle
  | .unresolved name => site.unresolved (.named name)
  | .builtin type => .ok (.builtin type)
  | .declared l => .ok (.declared l.scope l.declaration)

section Walking

variable {spec : Specification} {options : Options} {site : Site}
  (hunique : (spec.located.map Located.qualifiedName).Nodup)
  (hpaths : ∀ l ∈ spec.located, ∀ name ∈ l.path, IsIdentifier name)
  (htable : site.table = NameTable.ofSpecification spec options)

include hpaths htable in
theorem Site.resolve_of_not_resolves {l : Located} (hl : l ∈ spec.located) {name : String}
    (h : ∀ q, ¬ Resolves spec.Defines name l.path q) :
    (site.inScope l.scope).resolve name = site.unresolved (.named name) := by
  have hnone : (site.inScope l.scope).table.qualify? (site.inScope l.scope).scope name = none := by
    refine Option.eq_none_iff_forall_ne_some.mpr fun q hq => h q ?_
    change site.table.qualify? l.scope name = some q at hq
    rw [htable] at hq
    exact (qualify?_ofSpecification hpaths hl name q).mp hq
  rw [Site.resolve, hnone]
  rfl

include hunique hpaths htable

/-- The walk ends in what typedefs lead to, if there are enough steps for all names
    that it has not met. -/
theorem aliasTarget_ends {l : Located} {d : TypedefDecl} {seen : List String} {steps : Nat}
    (hl : l ∈ spec.located) (hd : l.declaration = .typedef d) (hmet : spec.Met seen l)
    (hsteps : spec.located.length < seen.length + steps) :
    ∃ found, spec.EndsIn l found ∧
      aliasTarget site steps seen l.scope d.aliased = found.target site := by
  induction steps using Nat.strongRecOn generalizing l d seen with
  | ind steps ih =>
      rw [aliasTarget.eq_def]
      cases haliased : d.aliased with
      | named name =>
          by_cases hresolves : ∃ q, Resolves spec.Defines name l.path q
          · rcases hresolves with ⟨q, hresolves⟩
            rcases List.mem_map.mp hresolves.defined with ⟨next, hnext, rfl⟩
            have hstep : spec.Aliases l next := ⟨d, name, hd, haliased, hnext, hresolves⟩
            have hentry := Site.resolve_of_resolves hunique hpaths htable hl hnext hresolves
            simp only [hentry, Checked.ok_bind]
            rw [show (next.entry options).qualifiedName = next.qualifiedName from rfl,
              show (next.entry options).declaration = next.declaration from rfl]
            by_cases hseen : next.qualifiedName ∈ seen
            · refine ⟨.cycle, hmet.cycle hunique hstep hseen, ?_⟩
              rw [if_pos hseen]
              rfl
            · rw [if_neg hseen]
              have hnew := hmet.step hstep hseen
              cases hdecl : next.declaration with
              | typedef e =>
                  -- one more name was met, so not all steps were taken
                  have hlength := hnew.length_le
                  rw [List.length_cons] at hlength
                  obtain ⟨k, rfl⟩ : ∃ k, steps = k + 1 := Nat.exists_eq_add_one.mpr (by omega)
                  have hleft : spec.located.length < (next.qualifiedName :: seen).length + k := by
                    rw [List.length_cons]
                    omega
                  rcases ih k (Nat.lt_succ_self k) hnext hdecl hnew hleft with
                    ⟨found, hends, htarget⟩
                  exact ⟨found, hends.head hstep, htarget⟩
              | _ =>
                  have hnot : ∀ e, next.declaration ≠ .typedef e := by
                    rw [hdecl]
                    intro e he
                    cases he
                  refine ⟨.declared next, .stops (.single hstep) (.declared hnot), ?_⟩
                  rw [AliasEnd.target, hdecl]
                  rfl
          · rw [not_exists] at hresolves
            refine ⟨.unresolved name, .stops .refl (.unresolved hd haliased hresolves), ?_⟩
            simp only [Site.resolve_of_not_resolves hpaths htable hl hresolves]
            rfl
      | _ =>
          have hnot : ∀ name, d.aliased ≠ .named name := by
            rw [haliased]
            intro name hname
            cases hname
          refine ⟨.builtin d.aliased, .stops .refl (.builtin hd hnot), ?_⟩
          rw [haliased]
          rfl

end Walking

section Builtin

/-- Octets may be written from another reader of the same name. -/
theorem octetWriters_sameButName (n n' stem : String) (role : Role) :
    List.Forall₂ (Method.SameButName n n') (octetWriters n stem role)
      (octetWriters n' stem role) :=
  .cons ⟨rfl, rfl, .cons ⟨rfl, .reference⟩ .nil, .inl rfl⟩ (Method.sameButName_refl _)

/-- A built-in type is described alike under all identities. -/
theorem describeBuiltin?_sameButName (i i' : Identity) (type : WireType) :
    Option.Rel TypeDescription.SameButName (describeBuiltin? i type)
      (describeBuiltin? i' type) := by
  unfold describeBuiltin?
  cases type.family? with
  | none => exact .none
  | some family =>
      cases type.limitRule? with
      | none => exact .none
      | some limit =>
          have hreader := TypeDescription.sameButName_reader family limit i i'
          have hadded : ∀ methods, ((TypeDescription.reader family i limit).withMethods
              methods).SameButName
                ((TypeDescription.reader family i' limit).withMethods methods) := fun _ =>
            hreader.withMethods (Method.sameButName_refl _)
          have hsame : ∀ methods writers required, TypeDescription.SameButName
              (((TypeDescription.reader family i limit).withMethods methods).withBuilder writers
                required)
              (((TypeDescription.reader family i' limit).withMethods methods).withBuilder writers
                required) := fun _ _ _ => (hadded _).withBuilder (Method.sameButName_refl _) _
          have hwriters := List.rel_append
            (octetWriters_sameButName i.simpleName i'.simpleName "set" .set)
            (octetWriters_sameButName i.simpleName i'.simpleName "put" .put)
          cases type with
          | fixed kind => exact .some ((hsame _ _ _).fill _ [] none)
          | varint kind => exact .some ((hsame _ _ _).fill _ [] none)
          | octets => exact .some ((hadded _).withBuilder hwriters _)
          | boundedOctets width bound =>
              exact .some ((hadded _).withBuilder (.cons (.refl _) hwriters) _)
          | string width => exact .some (hsame _ _ _)
          | varstring => exact .some (hsame _ _ _)
          | list width =>
              cases width with
              | zero => exact .some (hsame _ _ _)
              | _ => exact .some (hsame _ _ _)
          | array width item => exact .some (hsame _ _ _)
          | map width key value => exact .some (hsame _ _ _)
          | named name => exact .none

theorem exists_describeBuiltin? (i : Identity) {type : WireType}
    (h : ∀ name, type ≠ .named name) : ∃ d, describeBuiltin? i type = some d := by
  cases type with
  | named name => exact absurd rfl (h name)
  | fixed kind => cases kind <;> exact ⟨_, rfl⟩
  | varint kind => cases kind <;> exact ⟨_, rfl⟩
  | boundedOctets width bound => cases width <;> exact ⟨_, rfl⟩
  | string width => cases width <;> exact ⟨_, rfl⟩
  | list width => cases width <;> exact ⟨_, rfl⟩
  | _ => exact ⟨_, rfl⟩

end Builtin

section Describing

variable {spec : Specification} {options : Options}

/-- A declaration that stands for another one is described as the same but for the
    name, or cannot be described either. -/
theorem alike_describeDeclaration_standsFor (hverify : spec.verify = .ok ()) (options : Options)
    {l k : Located} (hl : l ∈ spec.located) (hstands : spec.StandsFor l k)
    (hk : ∀ d, k.declaration ≠ .typedef d) :
    Checked.Alike TypeDescription.SameButName
      (describeDeclaration (k.site spec options) k.declaration)
      (describeDeclaration (l.site spec options) l.declaration) := by
  rcases Specification.located_of_verify hverify with ⟨hpaths, _, hunique⟩
  have hmem := hstands.mem_located hl
  rw [describeDeclaration_eq_describeShape hverify hl hstands,
    describeDeclaration_eq_describeShape hverify hmem (.self hk)]
  have hnames := NameTable.sameNames_refl (NameTable.ofSpecification spec options)
  have hview : ((k.site spec options).inScope k.scope).SameView
      ((l.site spec options).inScope k.scope) := ⟨hnames, rfl⟩
  refine Site.SameReading.alike_describeShape hview.reading fun d hd => ?_
  -- neither name is one of the supertypes, so both walks go through all of them
  rcases Specification.ancestors_of_verify hverify hmem hd with ⟨ancestors, hchain, hnodup⟩
  have hlaidOut : ∀ {a : Located}, a ∈ spec.located → spec.StandsFor a k →
      layout (a.siteFor spec options k) d =
        .ok ((a.siteFor spec options k).membersOf (k :: ancestors).reverse) := by
    intro a ha hstands
    have hfresh := fresh_of_standsFor hunique ha hstands hchain hnodup
    exact (layout_of_ancestors hunique hpaths rfl hmem hd rfl hchain hfresh).2
  have hown := hlaidOut hmem (.self hk)
  have hother := hlaidOut hl hstands
  rw [Located.siteFor] at hown hother
  rw [hown, hother]
  exact .ok (membersOf_sameView hnames _)

/-- The walk from a typedef has a step for every declaration of the schema, so it ends
    in what the typedef leads to. -/
theorem aliasTarget_site (hverify : spec.verify = .ok ()) (options : Options) {l : Located}
    {d : TypedefDecl} (hl : l ∈ spec.located) (hd : l.declaration = .typedef d) :
    (∃ found, spec.EndsIn l found) ∧ ∀ found, spec.EndsIn l found →
      aliasTarget (l.site spec options) (l.site spec options).table.entries.length
        [l.qualifiedName] l.scope d.aliased = found.target (l.site spec options) := by
  rcases Specification.located_of_verify hverify with ⟨hpaths, _, hunique⟩
  have htable : (l.site spec options).table = NameTable.ofSpecification spec options := rfl
  have hsteps : spec.located.length <
      [l.qualifiedName].length + (l.site spec options).table.entries.length := by
    change spec.located.length < 1 + (spec.located.map (Located.entry options)).length
    rw [List.length_map]
    omega
  rcases aliasTarget_ends hunique hpaths htable hl hd (.singleton hl) hsteps with
    ⟨found, hends, htarget⟩
  refine ⟨⟨found, hends⟩, fun found' hends' => ?_⟩
  cases hends.unique hunique hends'
  exact htarget

theorem describeTypedef_of_builtin {site : Site} {d : TypedefDecl} {type : WireType}
    {b : TypeDescription}
    (htarget : aliasTarget site site.table.entries.length [site.qualifiedName] site.scope
      d.aliased = .ok (.builtin type))
    (hb : describeBuiltin? site.identity type = some b) :
    describeTypedef site d = .ok { b with qualifiedName := some site.qualifiedName } := by
  rw [describeTypedef, htarget, Checked.ok_bind]
  simp only [hb]
  rfl

/-- A typedef of a verified schema leads to one of four ends, and is described by it.
    If it leads in a circle, whether it is part of it or not, or to a name that stands
    for nothing, this is the error. A built-in type is described under the name and the
    identity of the typedef. A declaration is described as the same that it is described
    as by itself, but for the name and the identity, or cannot be described either. -/
theorem typedef_described (hverify : spec.verify = .ok ()) (options : Options) {l : Located}
    {d : TypedefDecl} (hl : l ∈ spec.located) (hd : l.declaration = .typedef d) :
    (∃ found, spec.EndsIn l found) ∧
    (spec.EndsIn l .cycle → ∃ defect,
      describeEntry (NameTable.ofSpecification spec options) (l.entry options) =
        Checked.refuse (.invalid l.qualifiedName defect) ∧
      defect.message = "typedef refers to itself") ∧
    (∀ name, spec.EndsIn l (.unresolved name) →
      describeEntry (NameTable.ofSpecification spec options) (l.entry options) =
        Checked.refuse (.unresolved name l.qualifiedName)) ∧
    (∀ type, spec.EndsIn l (.builtin type) → ∃ b,
      describeBuiltin? (l.entry options).identity type = some b ∧
      describeEntry (NameTable.ofSpecification spec options) (l.entry options) =
        .ok { b with qualifiedName := some l.qualifiedName } ∧
      ∀ i b', describeBuiltin? i type = some b' → b'.SameButName b) ∧
    ∀ k, spec.EndsIn l (.declared k) →
      Checked.Alike (fun own t => own.SameButName t ∧ t.qualifiedName = some l.qualifiedName ∧
          t.identity = (l.entry options).identity)
        (describeEntry (NameTable.ofSpecification spec options) (k.entry options))
        (describeEntry (NameTable.ofSpecification spec options) (l.entry options)) := by
  rcases Specification.located_of_verify hverify with ⟨_, _, hunique⟩
  rcases aliasTarget_site hverify options hl hd with ⟨hexists, htarget⟩
  have hdescribe : describeEntry (NameTable.ofSpecification spec options) (l.entry options) =
      describeTypedef (l.site spec options) d := by
    rw [describeEntry_entry hunique hl, hd]
    rfl
  refine ⟨hexists, fun hends => ?_, fun name hends => ?_, fun type hends => ?_, fun k hends => ?_⟩
  · refine ⟨.typedefCycle, ?_, rfl⟩
    rw [hdescribe]
    exact congrArg (· >>= _) (htarget _ hends)
  · rw [hdescribe]
    exact congrArg (· >>= _) (htarget _ hends)
  · have hbuiltin : ∀ name, type ≠ .named name := by
      cases hends with
      | stops _ hstops =>
          cases hstops with
          | builtin _ h => exact h
    rcases exists_describeBuiltin? (l.entry options).identity hbuiltin with ⟨b, hb⟩
    refine ⟨b, hb, ?_, fun i b' hb' => ?_⟩
    · rw [hdescribe]
      exact describeTypedef_of_builtin (htarget _ hends) hb
    · have hsame := describeBuiltin?_sameButName i (l.entry options).identity type
      rw [hb, hb'] at hsame
      cases hsame with
      | some h => exact h
  · cases hends with
    | stops hreaches hstops =>
        cases hstops with
        | declared hnot =>
            have hstands : spec.StandsFor l k := .of_reaches hreaches hnot
            rw [describeEntry_entry hunique hl,
              describeEntry_entry hunique (hstands.mem_located hl)]
            have hsame := alike_describeDeclaration_standsFor hverify options hl hstands hnot
            refine (hsame.ensures (describeDeclaration_describesAt _ _)
              (describeDeclaration_describesAt _ _)).mono ?_
            rintro own t ⟨hsame, _, hname, hbears⟩
            exact ⟨hsame, hname, hbears.identity_eq⟩

/-- A struct with a supertype in the scope around. -/
def parcel : Located where
  path := ["example", "inner"]
  declaration := .struct
    { name := "Parcel", supertype := some "Base", members := [{ name := "size", type := .octets }] }

/-- A typedef of it, beside it. -/
def parcelAlias : Located where
  path := ["example", "inner"]
  declaration := .typedef { name := "Alias", aliased := .named "Parcel" }

/-- A typedef of the typedef, from the scope around. -/
def delivery : Located where
  path := ["example"]
  declaration := .typedef { name := "Delivery", aliased := .named "inner::Alias" }

/-- A typedef of itself. -/
def roundabout : Located where
  path := ["example", "inner"]
  declaration := .typedef { name := "Roundabout", aliased := .named "Roundabout" }

/-- A typedef that leads there without being part of it. -/
def detour : Located where
  path := ["example"]
  declaration := .typedef { name := "Detour", aliased := .named "inner::Roundabout" }

/-- A schema with typedefs across scopes. -/
def deliveries : Specification where
  scope := .mk "example"
    [.mk "inner" [] [parcel.declaration, parcelAlias.declaration, roundabout.declaration]]
    [.struct { name := "Base", members := [{ name := "id", type := .fixed .int32 }] },
      delivery.declaration, detour.declaration]

-- The struct is described under the name of the typedef, with the member that it
-- inherits in its own scope.
theorem typedef_described_deliveries :
    deliveries.verify = .ok () ∧ deliveries.EndsIn delivery (.declared parcel) ∧
      (∃ own t,
        describeEntry (NameTable.ofSpecification deliveries {}) (parcel.entry {}) = .ok own ∧
        describeEntry (NameTable.ofSpecification deliveries {}) (delivery.entry {}) = .ok t ∧
        own.SameButName t ∧ t.qualifiedName = some "example::Delivery" ∧
        t.fields.map (·.name) = ["id", "size"]) ∧
      deliveries.EndsIn detour .cycle ∧
      ∃ defect, describeEntry (NameTable.ofSpecification deliveries {}) (detour.entry {}) =
          Checked.refuse (.invalid "example::Detour" defect) ∧
        defect.message = "typedef refers to itself" := by
  have hverify : deliveries.verify = .ok () := by decide +kernel
  have hparcel : parcel ∈ deliveries.located :=
    List.mem_of_getElem? (show deliveries.located[3]? = some parcel from rfl)
  have halias : parcelAlias ∈ deliveries.located :=
    List.mem_of_getElem? (show deliveries.located[4]? = some parcelAlias from rfl)
  have hdelivery : delivery ∈ deliveries.located :=
    List.mem_of_getElem? (show deliveries.located[1]? = some delivery from rfl)
  have hroundabout : roundabout ∈ deliveries.located :=
    List.mem_of_getElem? (show deliveries.located[5]? = some roundabout from rfl)
  have hdetour : detour ∈ deliveries.located :=
    List.mem_of_getElem? (show deliveries.located[2]? = some detour from rfl)
  have hdeclared : deliveries.EndsIn delivery (.declared parcel) := by
    have hnot : ∀ d, parcel.declaration ≠ .typedef d := by
      intro d hd
      cases hd
    have hfirst : deliveries.Aliases delivery parcelAlias :=
      ⟨_, _, rfl, rfl, halias, .here (List.mem_map_of_mem halias)⟩
    have hsecond : deliveries.Aliases parcelAlias parcel :=
      ⟨_, _, rfl, rfl, hparcel, .here (List.mem_map_of_mem hparcel)⟩
    exact .head hfirst (.stops (.single hsecond) (.declared hnot))
  have hcycle : deliveries.EndsIn detour .cycle := by
    have hfirst : deliveries.Aliases detour roundabout :=
      ⟨_, _, rfl, rfl, hroundabout, .here (List.mem_map_of_mem hroundabout)⟩
    have hround : deliveries.Aliases roundabout roundabout :=
      ⟨_, _, rfl, rfl, hroundabout, .here (List.mem_map_of_mem hroundabout)⟩
    exact .cycle (.single hfirst) (.single hround)
  have hfields : (describeEntry (NameTable.ofSpecification deliveries {})
      (delivery.entry {})).toOption.map (·.fields.map (·.name)) = some ["id", "size"] := by
    decide +kernel
  rcases typedef_described hverify {} hdelivery rfl with ⟨_, _, _, _, hdescribed⟩
  rcases typedef_described hverify {} hdetour rfl with ⟨_, hrefused, _⟩
  refine ⟨hverify, hdeclared, ?_, hcycle, hrefused hcycle⟩
  have hsame := hdescribed parcel hdeclared
  rcases Checked.exists_of_isOk (by decide +kernel :
    (describeEntry (NameTable.ofSpecification deliveries {}) (parcel.entry {})).isOk = true) with
    ⟨own, hown⟩
  rw [hown] at hsame
  rcases hsame.exists_ok with ⟨t, ht, hbut, hname, _⟩
  rw [ht] at hfields
  exact ⟨own, t, hown, ht, hbut, hname, Option.some.inj hfields⟩

end Describing

end Wireform
