import Mathlib.Data.List.Perm.Basic
import Wireform.Proofs.Views

/-!
# Reordered Schemas

The order of a schema does not matter.

Declarations may stand in any order in their scope, and scopes in any order in the
scope around them. The descriptions come in the order of the declarations, and that
is all that another order changes: no description becomes another one, and none
fails that was made before.

What a reordered schema declares is a permutation of what the schema declared, each
declaration on the path it had. Qualified names stay unique, so both tables of names
hold one entry for each name and it is the same entry, although they are searched
from the end. `alike_describeDeclaration` says that such tables give the same
descriptions.

The verifier goes through the schema in its order and collects names as it goes. What
it accepts is not a matter of order, since names that are pairwise different are so
in any order, and the supertypes of a struct are found by name.

## Main definitions

* `Scope.Reordered`: The same scope in another order.

## Theorems

* `Scope.Reordered.locate_perm`: The same declarations stand on the same paths.
* `Specification.sameNames_of_perm`: Names mean the same.
* `Specification.verify_of_reordered`: A reordered schema is accepted.
* `compile_reordered`: A reordered schema has the same descriptions.
-/

namespace Wireform

/-- The scope with its declarations or its nested scopes in another order, and the
    same for the scopes in it, at any depth. -/
inductive Scope.Reordered : Scope → Scope → Prop where
  | declarations {name : String} {scopes : List Scope} {ds ds' : List Declaration}
      (h : ds.Perm ds') : Reordered (.mk name scopes ds) (.mk name scopes ds')
  | scopes {name : String} {ss ss' : List Scope} {ds : List Declaration} (h : ss.Perm ss') :
      Reordered (.mk name ss ds) (.mk name ss' ds)
  | nested {name : String} {before after : List Scope} {inner inner' : Scope}
      {ds : List Declaration} (h : Reordered inner inner') :
      Reordered (.mk name (before ++ inner :: after) ds) (.mk name (before ++ inner' :: after) ds)
  | trans {a b c : Scope} (h : Reordered a b) (h' : Reordered b c) : Reordered a c

namespace Scope

theorem locateAll_eq_flatMap (path : List String) (scopes : List Scope) :
    locateAll path scopes = scopes.flatMap (locate path) := by
  induction scopes with
  | nil => rfl
  | cons scope rest ih => rw [locateAll, ih, List.flatMap_cons]

namespace Reordered

/-- A reordered scope has the same declarations on the same paths. -/
theorem locate_perm {s s' : Scope} (h : s.Reordered s') (path : List String) :
    (s.locate path).Perm (s'.locate path) := by
  induction h generalizing path with
  | declarations h =>
      rw [locate, locate]
      exact (h.map _).append_right _
  | scopes h =>
      rw [locate, locate, locateAll_eq_flatMap, locateAll_eq_flatMap]
      exact (h.flatMap_right _).append_left _
  | @nested name _ _ _ _ _ _ ih =>
      -- what stands in the one scope moves, between what stands before and after it
      simp only [locate, locateAll_eq_flatMap, List.flatMap_append, List.flatMap_cons]
      exact (((ih (path ++ [name])).append_right _).append_left _).append_left _
  | trans _ _ ih ih' => exact (ih path).trans (ih' path)

/-- The scopes in a reordered scope have the same names. -/
theorem forall_inside_name {P : String → Prop} {s s' : Scope} (h : s.Reordered s')
    (hs : ∀ inner : Scope, inner.Inside s → P inner.name) :
    ∀ inner : Scope, inner.Inside s' → P inner.name := by
  induction h with
  | declarations _ =>
      rcases forall_inside.mp hs with ⟨hname, hinner⟩
      exact forall_inside.mpr ⟨hname, hinner⟩
  | scopes h =>
      rcases forall_inside.mp hs with ⟨hname, hinner⟩
      exact forall_inside.mpr ⟨hname, fun inner hmem => hinner inner (h.mem_iff.mpr hmem)⟩
  | nested _ ih =>
      rcases forall_inside.mp hs with ⟨hname, hinner⟩
      simp only [List.forall_mem_append, List.forall_mem_cons] at hinner
      rcases hinner with ⟨hbefore, hinner, hafter⟩
      refine forall_inside.mpr ⟨hname, ?_⟩
      simp only [List.forall_mem_append, List.forall_mem_cons]
      exact ⟨hbefore, ih hinner, hafter⟩
  | trans _ _ ih ih' => exact ih' (ih hs)

end Reordered

end Scope

namespace Specification

section Permuted

variable {spec spec' : Specification} (h : spec.located.Perm spec'.located)

include h

theorem defines_of_perm : spec.Defines = spec'.Defines := by
  funext q
  exact propext (h.map _).mem_iff

/-- The supertypes of a struct are found by name, in whatever order structs are
    declared. -/
theorem Ancestors.of_perm {l : Located} {ancestors : List Located}
    (hchain : spec.Ancestors l ancestors) : spec'.Ancestors l ancestors := by
  induction hchain with
  | root hl hnone => exact .root hl hnone
  | step hl hsuper hparent hname _ ih =>
      rw [defines_of_perm h] at hname
      exact .step hl hsuper (h.mem_iff.mp hparent) hname ih

/-- The tables of both schemas have the same entry for each name. -/
theorem sameNames_of_perm (hunique : (spec.located.map Located.qualifiedName).Nodup)
    (options : Options) :
    (NameTable.ofSpecification spec options).SameNames
      (NameTable.ofSpecification spec' options) := by
  have hunique' := (h.map Located.qualifiedName).nodup_iff.mp hunique
  refine NameTable.sameNames_of_lookup rfl (fun q => Option.ext fun entry => ?_) ?_
  · rw [lookup?_ofSpecification hunique, lookup?_ofSpecification hunique']
    simp only [h.mem_iff]
  · rw [NameTable.ofSpecification, NameTable.ofSpecification, List.length_map, List.length_map,
      h.length_eq]

end Permuted

/-- A schema that was accepted is accepted in any order. -/
theorem verify_of_reordered {spec spec' : Specification} (hverify : spec.verify = .ok ())
    (h : spec.scope.Reordered spec'.scope) : spec'.verify = .ok () := by
  have hperm : spec.located.Perm spec'.located := h.locate_perm []
  rcases located_of_verify hverify with ⟨_, hdecls, hunique⟩
  have hsupers : ∀ l ∈ spec'.located, ∀ d, l.declaration = .struct d →
      ∃ ancestors, spec'.Ancestors l ancestors ∧
        ((l :: ancestors).map Located.qualifiedName).Nodup := by
    intro l hl d hd
    rcases ancestors_of_verify hverify (hperm.mem_iff.mpr hl) hd with ⟨ancestors, hchain, hnodup⟩
    exact ⟨ancestors, hchain.of_perm hperm, hnodup⟩
  rcases defined_of_verify hverify with ⟨_, hscope, _⟩
  rcases (Scope.verify_eq_ok _ _ _ _).mp hscope with ⟨hscopes, _⟩
  -- the names are collected in another order, and are as different as before
  exact verify_of_wellFormed
    { scopeNames := h.forall_inside_name hscopes
      declarations := fun l hl => hdecls l (hperm.mem_iff.mpr hl)
      uniqueNames := (hperm.map Located.qualifiedName).nodup_iff.mp hunique
      supertypes := hsupers }

end Specification

/-- A declaration of both schemas is described the same in both. -/
theorem describeDeclaration_of_perm {spec spec' : Specification} {options : Options}
    (h : spec.located.Perm spec'.located)
    (hunique : (spec.located.map Located.qualifiedName).Nodup) {l : Located}
    {d : TypeDescription}
    (hd : describeDeclaration (l.site spec options) l.declaration = .ok d) :
    describeDeclaration (l.site spec' options) l.declaration = .ok d := by
  have hnames : (l.site spec options).table.SameNames
      (NameTable.ofSpecification spec' options) :=
    Specification.sameNames_of_perm h hunique options
  have hsame := alike_describeDeclaration hnames l.declaration
  rw [hd] at hsame
  rcases hsame.exists_ok with ⟨_, hd', rfl⟩
  exact hd'

/-- A schema that compiles does so in any order. What is built in stays as it is, and
    the declarations have the same descriptions, in their own order. -/
theorem compile_reordered {spec spec' : Specification} {options : Options} {c : Compilation}
    (hcompile : compile spec options = .ok c) (h : spec.scope.Reordered spec'.scope) :
    ∃ c', compile spec' options = .ok c' ∧ c'.nameSpace = c.nameSpace ∧
      c.types = describeBuiltins options.nameSpace ++ c.declarations ∧
      c'.types = describeBuiltins options.nameSpace ++ c'.declarations ∧
      c.declarations.Perm c'.declarations := by
  have hverify := (compile_eq_ok hcompile).1
  have hunique := (Specification.located_of_verify hverify).2.2
  have hperm : spec.located.Perm spec'.located := h.locate_perm []
  rcases Compilation.declarations_of_compile hcompile with ⟨htypes, hdescribed⟩
  have hdescribed' := hdescribed.imp fun l d => describeDeclaration_of_perm hperm hunique
  -- the descriptions follow the declarations into their new order
  rcases List.perm_comp_forall₂ (hperm.filter fun l => options.targets l.scope).symm hdescribed'
    with ⟨described, hreordered, hsame⟩
  have hcompile' := compile_of_described (Specification.verify_of_reordered hverify h) hreordered
  have htypes' := (Compilation.declarations_of_compile hcompile').1
  refine ⟨_, hcompile', (Compilation.nameSpace_of_compile hcompile).symm, htypes, htypes', ?_⟩
  rw [← List.append_cancel_left htypes']
  exact hsame.symm

/-- An item, which extends a thing. -/
def item : Declaration := .struct
  { name := "Item", supertype := some "Thing"
    members := [{ name := "size", type := .named "Size" }] }

/-- The type of the size of an item. -/
def itemSize : Declaration := .typedef { name := "Size", aliased := .fixed .uint16 }

/-- A schema with the scopes in its root scope. -/
def inventory (scopes : List Scope) : Specification where
  scope := .mk "example" scopes
    [.struct { name := "Thing", members := [{ name := "id", type := .fixed .int64 }] }]

/-- The scope of those who own items. -/
def owners : Scope :=
  .mk "owners" [] [.map
    { name := "Owners", width := .sixteen, key := .fixed .int64, value := .named "stock::Item" }]

theorem compile_reordered_inventory :
    ∃ c c', compile (inventory [.mk "stock" [] [item, itemSize], owners]) {} = .ok c ∧
      compile (inventory [owners, .mk "stock" [] [itemSize, item]]) {} = .ok c' ∧
      c.declarations.Perm c'.declarations := by
  have hcompiles : (compile (inventory [.mk "stock" [] [item, itemSize], owners]) {}).isOk =
      true := by decide +kernel
  rcases Checked.exists_of_isOk hcompiles with ⟨c, hcompile⟩
  have hstock : Scope.Reordered (.mk "stock" [] [item, itemSize])
      (.mk "stock" [] [itemSize, item]) := .declarations (.swap _ _ [])
  have hreordered : (inventory [.mk "stock" [] [item, itemSize], owners]).scope.Reordered
      (inventory [owners, .mk "stock" [] [itemSize, item]]).scope :=
    .trans (@Scope.Reordered.nested _ [] _ _ _ _ hstock) (.scopes (.swap _ _ []))
  rcases compile_reordered hcompile hreordered with ⟨c', hcompile', _, _, _, hperm⟩
  exact ⟨c, c', hcompile, hcompile', hperm⟩

end Wireform
