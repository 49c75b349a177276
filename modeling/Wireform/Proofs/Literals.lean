import Wireform.Proofs.OutlinedSchemas
import Wireform.Proofs.StructLayout

/-!
# Literals That Nobody Checks

What becomes of the values of cases and of the defaults of members.

A union has a value for each of its cases and an integer type that these values are
written as, a variant has integers in the same way, and a member may have a default.
Each of these literals has a type that it is to fit. The verifier looks at them once,
to tell that no two cases of a declaration have the same one, and the generator does
not look at them at all: it copies them into constants and into the roles of methods.
Enums are the only declarations whose values are compared with a range.

So a schema that compiles goes on compiling with any other literals in it, as long as
cases are told apart. A value that the type of its union cannot hold is one of these,
and so is a text for the default of an integer.

## Main definitions

* `Declaration.Discriminated`: What selects the cases is an integer where it has to be.
* `TypeDescription.Copies`: A description with the literals of a declaration.
* `Declaration.literalsFit`: The literals of a declaration are in range.

## Theorems

* `describeDeclaration_copies`: Literals are described as they are written.
* `compile_outline_iff`: A schema of the same outline compiles if its cases are told
  apart.
* `literals_out_of_range`: A schema that compiles with literals that do not fit.
-/

namespace Wireform

open Checked

section Copies

/-- The union is discriminated by an integer of fixed width, and a variant that is
    discriminated by an integer has integers for all of its cases. -/
def Declaration.Discriminated : Declaration → Prop
  | .union d => ∃ kind, d.kind = .fixed kind
  | .variant d => d.kind.isInteger = true → ∀ c ∈ d.cases, ∃ i, c.kind = .integer i
  | _ => True

/-- The description has the literals of the declaration as they are written. -/
structure TypeDescription.Copies (made : TypeDescription) (d : Declaration) : Prop where
  defaults : ∀ m ∈ d.members, ∀ v, m.default = some v →
    ⟨constantName "DEFAULT_" m.name, v⟩ ∈ made.constants
  values : ∀ c ∈ d.unionCases, ⟨constantName "KIND_" c.name, .integer c.value⟩ ∈ made.constants
  kinds : ∀ c ∈ d.variantCases, ∃ method ∈ made.methods,
    method.role = .case c.kind (caseName c.kind)

theorem mem_optionalConstant (name : String) {value : Option Literal} {v : Literal}
    (h : value = some v) : ⟨name, v⟩ ∈ optionalConstant name value := by
  rw [h]
  exact List.mem_singleton_self _

/-- A struct stands in the chain of its supertypes. -/
theorem supertypeChain_ensures_mem (site : Site) (steps : Nat) (seen : List String)
    (current : Site) (d : StructDecl) :
    (supertypeChain site steps seen current d).Ensures fun chain => (current, d) ∈ chain := by
  rw [supertypeChain.eq_def]
  cases d.supertype with
  | none => exact ensures_ok (List.mem_singleton_self _)
  | some supertype =>
      refine ensures_bind fun entry => ?_
      cases entry.declaration with
      | struct parent =>
          dsimp only
          split
          · exact ensures_error _ _
          · cases steps with
            | zero => exact ensures_error _ _
            | succ steps => exact ensures_bind fun chain => ensures_ok List.mem_cons_self
      | _ => exact ensures_error _ _

/-- The defaults of the members of a struct are constants of its description. -/
theorem describeStruct_default_mem {site : Site} {d : StructDecl} {made : TypeDescription}
    (h : describeStruct site d = .ok made) {m : Member} (hm : m ∈ d.members) {v : Literal}
    (hv : m.default = some v) : ⟨constantName "DEFAULT_" m.name, v⟩ ∈ made.constants := by
  rcases Checked.bind_eq_ok.mp h with ⟨members, hlayout, h⟩
  rcases Checked.bind_eq_ok.mp h with ⟨fields, hfields, h⟩
  rcases Checked.bind_eq_ok.mp hlayout with ⟨chain, hchain, hmembers⟩
  have hmem : (site, m) ∈ members := by
    rw [← Except.ok.inj hmembers]
    refine List.mem_flatMap.mpr ⟨(site, d), List.mem_reverse.mpr ?_, List.mem_map_of_mem hm⟩
    exact supertypeChain_ensures_mem _ _ _ _ _ chain hchain
  rcases exists_of_forall₂ (fields_of_describeMembers hfields) hmem with ⟨f, hf, _, hfield⟩
  rcases Site.field_eq_ok hfield with ⟨_, _, _, _, _, _, _, _, rfl⟩
  rw [← Except.ok.inj h]
  refine List.mem_append_right _ (List.mem_flatMap.mpr ⟨_, hf, List.mem_append_right _ ?_⟩)
  exact mem_optionalConstant _ hv

theorem describeListDecl_default_mem {site : Site} {d : ListDecl} {made : TypeDescription}
    (h : describeListDecl site d = .ok made) {m : Member} (hm : m ∈ d.members) {v : Literal}
    (hv : m.default = some v) : ⟨constantName "DEFAULT_" m.name, v⟩ ∈ made.constants := by
  rcases Checked.bind_eq_ok.mp h with ⟨size, _, h⟩
  by_cases hlong : d.members.length > maskSize * 8
  · rw [if_pos hlong] at h
    cases h
  · rw [if_neg hlong] at h
    rcases Checked.bind_eq_ok.mp h with ⟨fields, hfields, h⟩
    rcases exists_of_forall₂ (mapM_eq_ok.mp hfields) hm with ⟨f, hf, hfield⟩
    rcases Site.field_eq_ok hfield with ⟨_, _, _, _, _, _, _, _, rfl⟩
    rcases List.mem_iff_getElem?.mp hf with ⟨index, hindex⟩
    rw [← Except.ok.inj h]
    refine List.mem_append_right _
      (List.mem_flatMap.mpr ⟨(_, index), List.mem_zipIdx_iff_getElem?.mpr hindex, ?_⟩)
    exact List.mem_cons_of_mem _ (mem_optionalConstant _ hv)

/-- A union is discriminated by an integer of fixed width, and has a constant for the
    value of each case. -/
theorem describeUnion_copies {site : Site} {d : UnionDecl} {made : TypeDescription}
    (h : describeUnion site d = .ok made) :
    (Declaration.union d).Discriminated ∧ made.Copies (.union d) := by
  rcases Checked.bind_eq_ok.mp h with ⟨size, hsize, h⟩
  rcases Checked.bind_eq_ok.mp h with ⟨kind, _, h⟩
  rcases Checked.bind_eq_ok.mp h with ⟨fields, _, h⟩
  have hfixed : ∃ kind, d.kind = .fixed kind := by
    rcases Checked.bind_eq_ok.mp hsize with ⟨own, hown, hsize⟩
    generalize d.kind = kind at hown hsize
    cases kind with
    | fixed kind => exact ⟨kind, rfl⟩
    | varint kind =>
        -- an integer whose size varies
        have hvaries : site.fixedSize (.varint kind) = .ok none := by
          rw [Site.fixedSize, Site.fixedSizeWithin.eq_def]
          rfl
        cases hown.symm.trans hvaries
        cases hsize
    | _ => cases hsize
  refine ⟨hfixed, List.forall_mem_nil _, ?_, List.forall_mem_nil _⟩
  intro c hc
  rw [← Except.ok.inj h]
  exact List.mem_cons_of_mem _ (List.mem_cons_of_mem _ (List.mem_map_of_mem hc))

/-- All cases of a variant are selected by integers, or all by constants. -/
theorem describeVariant_discriminates {site : Site} {d : VariantDecl} {made : TypeDescription}
    (h : describeVariant site d = .ok made) :
    ∃ constants, discriminatingConstants site d.kind = .ok constants ∧
      ∀ c ∈ d.cases, isDiscriminator constants c.kind = true := by
  rcases Checked.bind_eq_ok.mp h with ⟨constants, hconstants, h⟩
  dsimp only at h
  refine ⟨constants, hconstants, fun c hc => ?_⟩
  cases hfind : d.cases.find? (!isDiscriminator constants ·.kind) with
  | some c =>
      rw [hfind] at h
      cases h
  | none => simpa using List.find?_eq_none.mp hfind c hc

/-- A variant has a method for each case, with the literal that selects it. -/
theorem describeVariant_copies {site : Site} {d : VariantDecl} {made : TypeDescription}
    (h : describeVariant site d = .ok made) :
    (Declaration.variant d).Discriminated ∧ made.Copies (.variant d) := by
  refine ⟨fun hinteger c hc => ?_, List.forall_mem_nil _, List.forall_mem_nil _, fun c hc => ?_⟩
  · rcases describeVariant_discriminates h with ⟨constants, hconstants, hkinds⟩
    unfold discriminatingConstants at hconstants
    rw [if_pos hinteger] at hconstants
    cases hconstants
    have hkind := hkinds c hc
    generalize c.kind = v at hkind
    cases v with
    | integer i => exact ⟨i, rfl⟩
    | text name => cases hkind
  · rcases Checked.bind_eq_ok.mp h with ⟨constants, _, h⟩
    dsimp only at h
    split at h
    · cases h
    rcases Checked.bind_eq_ok.mp h with ⟨common, _, h⟩
    rcases Checked.bind_eq_ok.mp h with ⟨value, _, h⟩
    rcases Checked.bind_eq_ok.mp h with ⟨kind, _, h⟩
    rcases Checked.bind_eq_ok.mp h with ⟨size, _, h⟩
    rcases Checked.bind_eq_ok.mp h with ⟨fields, hfields, h⟩
    have hcases := mapM_eq_ok.mp hfields
    rw [Declaration.variantCases, ← List.map_fst_zip (Nat.le_of_eq hcases.length_eq)] at hc
    rcases List.mem_map.mp hc with ⟨⟨c, f⟩, hzip, rfl⟩
    rcases Site.field_eq_ok (List.forall₂_zip hcases hzip) with ⟨_, _, _, _, _, _, _, _, hf⟩
    rw [← Except.ok.inj h]
    refine ⟨_, List.mem_append_right _ (List.mem_append_right _ (List.mem_map_of_mem hzip)), ?_⟩
    rw [hf]

/-- Literals go into a description as they are written. -/
theorem describeDeclaration_copies {site : Site} {d : Declaration} {made : TypeDescription}
    (h : describeDeclaration site d = .ok made) : d.Discriminated ∧ made.Copies d := by
  cases d with
  | struct d =>
      exact ⟨trivial, fun m hm v hv => describeStruct_default_mem h hm hv,
        List.forall_mem_nil _, List.forall_mem_nil _⟩
  | list d =>
      exact ⟨trivial, fun m hm v hv => describeListDecl_default_mem h hm hv,
        List.forall_mem_nil _, List.forall_mem_nil _⟩
  | union d => exact describeUnion_copies h
  | variant d => exact describeVariant_copies h
  | _ =>
      exact ⟨trivial, List.forall_mem_nil _, List.forall_mem_nil _, List.forall_mem_nil _⟩

end Copies

/-- The literals of a schema are not compared with their types. Of a schema that
    compiles, any other with the same outline compiles exactly if its cases are told
    apart. Unions have an integer of fixed width to discriminate them then, variants
    with an integer have integers for their cases, and all literals are described as
    they are written, whether they fit or not. -/
theorem compile_outline_iff {spec spec' : Specification} {options : Options} {c : Compilation}
    (hcompile : compile spec options = .ok c) (h : spec.SameOutline spec') :
    (∃ c', compile spec' options = .ok c' ∧ ∀ l ∈ targeted spec' options,
        l.declaration.Discriminated ∧
          ∃ made, c'.find? l.qualifiedName = some made ∧ made.Copies l.declaration) ↔
      ∀ l ∈ spec'.located, l.declaration.CasesApart := by
  rcases compile_eq_ok hcompile with ⟨hverify, described, _, hdescribed⟩
  rw [← Specification.verify_outline_iff hverify h]
  constructor
  · rintro ⟨c', hcompile', _⟩
    exact (compile_eq_ok hcompile').1
  · intro hverify'
    rcases Specification.exists_described h.sameReading hdescribed with ⟨described', hdescribed'⟩
    have hcompile' := compile_of_described hverify' hdescribed'
    refine ⟨_, hcompile', fun l hl => ?_⟩
    rcases List.mem_filter.mp hl with ⟨hmem, htargets⟩
    rcases Compilation.find?_of_compile hcompile' hmem htargets with ⟨made, hfound, hmade⟩
    have hcopies := describeDeclaration_copies hmade
    exact ⟨hcopies.1, made, hfound, hcopies.2⟩

/-- A schema with a literal in a union, in a variant and in a struct, each of them for
    an unsigned byte. -/
def signals (value kind : Int) (default : Literal) : Specification where
  scope := .mk "example"
    [.mk "inner" [] [.union
      { name := "Choice"
        cases := [⟨0, "small", .fixed .int32⟩, ⟨value, "large", .string .eight⟩] }]]
    [.variant
      { name := "Amount", kind := .fixed .uint8
        cases := [⟨.integer 0, .fixed .int8⟩, ⟨.integer kind, .fixed .int32⟩] },
      .struct
        { name := "Level"
          members := [{ name := "height", type := .fixed .uint8, default := some default }] }]

theorem compile_outline_iff_signals :
    ∃ c, compile (signals 1 1 (.integer 0)) {} = .ok c ∧
      (signals 1 1 (.integer 0)).SameOutline (signals 300 (-1) (.text "ten")) ∧
      ∃ c', compile (signals 300 (-1) (.text "ten")) {} = .ok c' ∧
        ∀ l ∈ targeted (signals 300 (-1) (.text "ten")) {}, l.declaration.Discriminated ∧
          ∃ made, c'.find? l.qualifiedName = some made ∧ made.Copies l.declaration := by
  have hcompiles : (compile (signals 1 1 (.integer 0)) {}).isOk = true := by decide +kernel
  rcases Checked.exists_of_isOk hcompiles with ⟨c, hcompile⟩
  have hunion : List.Forall₂ UnionCase.SameOutline
      [⟨0, "small", .fixed .int32⟩, ⟨1, "large", .string .eight⟩]
      [⟨0, "small", .fixed .int32⟩, ⟨300, "large", .string .eight⟩] :=
    .cons ⟨rfl, rfl⟩ (.cons ⟨rfl, rfl⟩ .nil)
  have hvariant : List.Forall₂ VariantCase.SameOutline
      [⟨.integer 0, .fixed .int8⟩, ⟨.integer 1, .fixed .int32⟩]
      [⟨.integer 0, .fixed .int8⟩, ⟨.integer (-1), .fixed .int32⟩] :=
    .cons ⟨.same _, rfl⟩ (.cons ⟨.integers 1 (-1), rfl⟩ .nil)
  have houtline : (signals 1 1 (.integer 0)).SameOutline (signals 300 (-1) (.text "ten")) :=
    .mk (.cons (.mk .nil (.cons (.union hunion) .nil)) .nil)
      (.cons (.variant hvariant) (.cons (.struct (.cons ⟨rfl, rfl, rfl, rfl, rfl⟩ .nil)) .nil))
  exact ⟨c, hcompile, houtline, (compile_outline_iff hcompile houtline).mpr (by decide +kernel)⟩

/-- The literal is an integer in the range of the type. -/
def WireType.fits (type : WireType) : Literal → Bool
  | .integer value =>
      type.valueRange?.any fun range => decide (range.1 ≤ value ∧ value ≤ range.2)
  | .text _ => false

/-- The literals of a declaration that are to fit a type do so: the defaults of members
    with an integer type, the values of the cases of a union, and the integers that select
    the cases of a variant. -/
def Declaration.literalsFit (d : Declaration) : Bool :=
  d.members.all (fun m => !m.type.isInteger || m.default.all m.type.fits) &&
    match d with
    | .union u => u.cases.all fun c => u.kind.fits (.integer c.value)
    | .variant v => v.cases.all fun c => c.kind.integer?.isNone || v.kind.fits c.kind
    | _ => true

/-- A schema compiles although a union, a variant and a struct of it have literals that
    do not fit. -/
theorem literals_out_of_range :
    (compile (signals 300 (-1) (.integer 256)) {}).isOk = true ∧
      ∀ l ∈ (signals 300 (-1) (.integer 256)).located, l.declaration.literalsFit = false := by
  decide +kernel

end Wireform
