import Wireform.Proofs.Compiling

/-!
# What Typedefs Stand For

A typedef of a name is described as what that name stands for.

`StandsFor` follows typedefs from one declaration to the next, as a relation. It
ends, so it says nothing of typedefs that lead back to themselves. The description
of a typedef follows them with a list of names that it has met, and gives up when
it meets one again or has followed too many. Neither happens where `StandsFor`
holds: a typedef leads to one declaration, so one that led back to itself would
have to be followed for ever. `Leads` keeps the declarations on the way, and the
one with fewer of them left cannot be the one with more.

## Main definitions

* `Specification.StandsFor`: What a declaration stands for behind typedefs.
* `Specification.Leads`: The declarations on the way there.

## Theorems

* `Site.resolve_of_resolves`, `Site.exists_of_resolve`: A reference gives the entry of
  what it stands for.
* `Specification.Leads.nodup`: Typedefs that end do not repeat.
* `aliasTarget_of_leads`: Typedefs are followed to what they stand for.
* `describeDeclaration_eq_describeShape`: A declaration is described as what it
  stands for.
-/

namespace Wireform

/-- What a declaration stands for: itself, or if it is a typedef of a name, what
    the declaration of that name stands for. -/
inductive Specification.StandsFor (spec : Specification) : Located → Located → Prop where
  | self {l : Located} (h : ∀ d, l.declaration ≠ .typedef d) : spec.StandsFor l l
  | through {l next target : Located} {d : TypedefDecl} {name : String}
      (hl : l.declaration = .typedef d) (hname : d.aliased = .named name)
      (hnext : next ∈ spec.located)
      (hresolves : Resolves spec.Defines name l.path next.qualifiedName)
      (hrest : spec.StandsFor next target) : spec.StandsFor l target

/-- The declarations that following typedefs leads through, with what is stood for
    at the end. From anything but a typedef there is nothing to follow. -/
inductive Specification.Leads (spec : Specification) : Located → List Located → Located → Prop where
  | ends {l : Located} (h : ∀ d, l.declaration ≠ .typedef d) : spec.Leads l [] l
  | through {l next target : Located} {d : TypedefDecl} {name : String} {via : List Located}
      (hl : l.declaration = .typedef d) (hname : d.aliased = .named name)
      (hnext : next ∈ spec.located)
      (hresolves : Resolves spec.Defines name l.path next.qualifiedName)
      (hrest : spec.Leads next via target) : spec.Leads l (next :: via) target

namespace Specification

variable {spec : Specification}

theorem StandsFor.mem_located {l k : Located} (h : spec.StandsFor l k)
    (hl : l ∈ spec.located) : k ∈ spec.located := by
  induction h with
  | self _ => exact hl
  | through _ _ hnext _ _ ih => exact ih hnext

theorem StandsFor.leads {l k : Located} (h : spec.StandsFor l k) : ∃ via, spec.Leads l via k := by
  induction h with
  | self hnot => exact ⟨[], .ends hnot⟩
  | @through l next k d name hl hname hnext hresolves _ ih =>
      rcases ih with ⟨via, hrest⟩
      exact ⟨next :: via, .through hl hname hnext hresolves hrest⟩

theorem Leads.mem_located {l k : Located} {via : List Located} (h : spec.Leads l via k) :
    ∀ a ∈ via, a ∈ spec.located := by
  induction h with
  | ends _ => exact nofun
  | through _ _ hnext _ _ ih => exact List.forall_mem_cons.mpr ⟨hnext, ih⟩

/-- From a declaration on the way, fewer declarations are left. -/
theorem Leads.shorter {l k a : Located} {via : List Located} (h : spec.Leads l via k)
    (ha : a ∈ via) : ∃ rest, spec.Leads a rest k ∧ rest.length < via.length := by
  induction h with
  | ends _ => exact absurd ha List.not_mem_nil
  | @through l next k d name via _ _ _ _ hrest ih =>
      rcases List.mem_cons.mp ha with rfl | ha
      · exact ⟨via, hrest, Nat.lt_succ_self _⟩
      · rcases ih ha with ⟨rest, hleads, hlength⟩
        exact ⟨rest, hleads, Nat.lt_succ_of_lt hlength⟩

section Unique

variable (hunique : (spec.located.map Located.qualifiedName).Nodup)

include hunique

/-- There is only one way to follow typedefs. -/
theorem Leads.unique {l k k' : Located} {via via' : List Located} (h : spec.Leads l via k)
    (h' : spec.Leads l via' k') : via = via' := by
  induction h generalizing via' with
  | ends hnot =>
      cases h' with
      | ends _ => rfl
      | through hl _ _ _ _ => exact absurd hl (hnot _)
  | @through l next k d name via hl hname hnext hresolves _ ih =>
      cases h' with
      | ends hnot => exact absurd hl (hnot _)
      | through hl' hname' hnext' hresolves' hrest' =>
          cases hl.symm.trans hl'
          cases hname.symm.trans hname'
          have hsame := hresolves.unique hresolves'
          cases List.inj_on_of_nodup_map hunique hnext hnext' hsame
          rw [ih hrest']

/-- Following typedefs to their end meets no declaration twice. -/
theorem Leads.nodup {l k : Located} {via : List Located} (h : spec.Leads l via k)
    (hl : l ∈ spec.located) : ((l :: via).map Located.qualifiedName).Nodup := by
  induction h with
  | ends _ => exact List.nodup_singleton _
  | @through l next k d name via hd hname hnext hresolves hrest ih =>
      refine List.nodup_cons.mpr ⟨fun hmem => ?_, ih hnext⟩
      have hleads : spec.Leads l (next :: via) k := .through hd hname hnext hresolves hrest
      -- a declaration that is met again has both more and fewer left
      rcases List.mem_map.mp hmem with ⟨a, ha, hname⟩
      cases List.inj_on_of_nodup_map hunique (hleads.mem_located a ha) hl hname
      rcases hleads.shorter ha with ⟨rest, hrest, hlength⟩
      rw [hrest.unique hunique hleads] at hlength
      exact absurd hlength (Nat.lt_irrefl _)

end Unique

end Specification

section Following

variable {spec : Specification} {options : Options} {site : Site}
  (hunique : (spec.located.map Located.qualifiedName).Nodup)
  (hpaths : ∀ l ∈ spec.located, ∀ name ∈ l.path, IsIdentifier name)
  (htable : site.table = NameTable.ofSpecification spec options)

include hunique hpaths htable

/-- From the scope of a declaration, a reference gives the entry of what it stands
    for. -/
theorem Site.resolve_of_resolves {l next : Located} {name : String} (hl : l ∈ spec.located)
    (hnext : next ∈ spec.located)
    (hresolves : Resolves spec.Defines name l.path next.qualifiedName) :
    (site.inScope l.scope).resolve name = .ok (next.entry options) := by
  refine Site.resolve_eq_ok.mpr ⟨next.qualifiedName, ?_, ?_⟩
  · change site.table.qualify? l.scope name = _
    rw [htable]
    exact (qualify?_ofSpecification hpaths hl name _).mpr hresolves
  · change site.table.lookup? next.qualifiedName = _
    rw [htable]
    exact (lookup?_ofSpecification hunique).mpr ⟨next, hnext, rfl, rfl⟩

/-- A reference that was resolved gave the entry of the declaration it stands for. -/
theorem Site.exists_of_resolve {l : Located} (hl : l ∈ spec.located) {name : String}
    {entry : NameEntry} (h : (site.inScope l.scope).resolve name = .ok entry) :
    ∃ next ∈ spec.located, Resolves spec.Defines name l.path next.qualifiedName ∧
      entry = next.entry options := by
  rcases Site.resolve_eq_ok.mp h with ⟨q, hq, hentry⟩
  change site.table.qualify? l.scope name = some q at hq
  change site.table.lookup? q = some entry at hentry
  rw [htable] at hq hentry
  rcases (lookup?_ofSpecification hunique).mp hentry with ⟨next, hnext, rfl, hsame⟩
  exact ⟨next, hnext, (qualify?_ofSpecification hpaths hl name _).mp hq, hsame⟩

/-- Typedefs are followed to their end, if none of the names that were met is on
    the way and enough steps are left. -/
theorem aliasTarget_of_leads {l k : Located} {d : TypedefDecl} {via : List Located}
    {seen : List String} {steps : Nat} (hl : l ∈ spec.located)
    (hd : l.declaration = .typedef d) (hleads : spec.Leads l via k)
    (hfresh : Fresh seen (via.map Located.qualifiedName)) (hlength : via.length ≤ steps) :
    aliasTarget site steps seen l.scope d.aliased = .ok (.declared k.scope k.declaration) := by
  induction hleads generalizing d seen steps with
  | ends hnot => exact absurd hd (hnot _)
  | @through l next k e name via he hname hnext hresolves hrest ih =>
      cases hd.symm.trans he
      rcases fresh_cons.mp hfresh with ⟨hseen, hfresh⟩
      have hentry := Site.resolve_of_resolves hunique hpaths htable hl hnext hresolves
      rw [hname, aliasTarget.eq_def]
      simp only [hentry, Checked.ok_bind]
      rw [if_neg (show (next.entry options).qualifiedName ∉ seen from hseen),
        show (next.entry options).declaration = next.declaration from rfl]
      cases hdecl : next.declaration with
      | typedef f =>
          -- going on behind a typedef takes one of the steps
          obtain ⟨k, rfl⟩ : ∃ k, steps = k + 1 := Nat.exists_eq_add_one.mpr
            (Nat.lt_of_lt_of_le (Nat.zero_lt_succ _) hlength)
          exact ih hnext hdecl hfresh (Nat.le_of_succ_le_succ hlength)
      | _ =>
          cases hrest with
          | ends _ =>
              rw [hdecl]
              rfl
          | through hl _ _ _ _ => exact nomatch hdecl.symm.trans hl

end Following

section Describing

variable {spec : Specification} {options : Options}

/-- In a verified schema a declaration is described as what it stands for, under its
    own name. -/
theorem describeDeclaration_eq_describeShape (hverify : spec.verify = .ok ()) {l k : Located}
    (hl : l ∈ spec.located) (hstands : spec.StandsFor l k) :
    describeDeclaration (l.site spec options) l.declaration =
      describeShape ((l.site spec options).inScope k.scope) k.declaration := by
  rcases Specification.located_of_verify hverify with ⟨hpaths, _, hunique⟩
  rcases hstands.leads with ⟨via, hleads⟩
  have hfresh := fresh_singleton.mpr (hleads.nodup hunique hl)
  -- the declarations on the way are different ones of the schema
  have hlength : via.length ≤ (l.site spec options).table.entries.length := by
    have hsub : via.map Located.qualifiedName ⊆ spec.located.map Located.qualifiedName :=
      List.map_subset _ hleads.mem_located
    have hle := hfresh.1.length_le_of_subset hsub
    rw [List.length_map, List.length_map] at hle
    change via.length ≤ (spec.located.map (Located.entry options)).length
    rw [List.length_map]
    exact hle
  cases hstands with
  | self hnot =>
      unfold describeDeclaration
      split
      · exact absurd ‹_› (hnot _)
      · rfl
  | @through _ next _ d name hd hname hnext hresolves hrest =>
      have htable : (l.site spec options).table = NameTable.ofSpecification spec options := rfl
      have htarget : aliasTarget (l.site spec options) (l.site spec options).table.entries.length
          [(l.site spec options).qualifiedName] (l.site spec options).scope d.aliased = _ :=
        aliasTarget_of_leads hunique hpaths htable hl hd hleads hfresh hlength
      rw [hd, describeDeclaration, describeTypedef, htarget]
      exact describeShape_renamed _ k.declaration d.name

/-- What a declaration was described as is the description of what it stands
    for. -/
theorem describeDeclaration_standsFor (hverify : spec.verify = .ok ()) {l k : Located}
    (hl : l ∈ spec.located) (hstands : spec.StandsFor l k) {d : TypeDescription}
    (h : describeDeclaration (l.site spec options) l.declaration = .ok d) :
    describeShape ((l.site spec options).inScope k.scope) k.declaration = .ok d := by
  rw [← describeDeclaration_eq_describeShape hverify hl hstands]
  exact h

end Describing

end Wireform
