import Wireform.Proofs.DescribedTogether

/-!
# Schemas of the Same Outline

What verification and description make of two schemas that differ in literals.

The outline of a schema is all of it but its literals: the values of the cases of a
union, the integers that select the cases of a variant, and the defaults of members.
Texts that select cases are names of constants and belong to the outline, and so does
which members have a default at all. Descriptions read the outline only, so the
declarations of schemas of the same outline are described together.

The verifier reads the names of a schema, which belong to the outline. Literals it only
compares with each other, so that no two cases of a declaration are selected by the
same one.

## Main definitions

* `Declaration.SameOutline`: Declarations that differ in literals only.
* `Specification.SameOutline`: Schemas that do.
* `Declaration.CasesApart`: No two cases are selected by the same literal.

## Theorems

* `Declaration.SameOutline.reading`: Declarations of the same outline read the same.
* `Scope.SameOutline.locate`: Declarations of the same outline stand on the same paths.
* `Specification.verify_outline_iff`: A schema of the same outline is accepted if its
  cases are told apart.
* `Specification.SameOutline.sameReading`: The declarations of such schemas read the
  same.
-/

namespace Wireform

section Declarations

/-- Two members that may differ in their defaults, if they have them. -/
structure Member.SameOutline (m m' : Member) : Prop where
  name : m.name = m'.name
  type : m.type = m'.type
  default : m.default.isSome = m'.default.isSome
  size : m.size = m'.size
  byteOrder : m.byteOrder = m'.byteOrder

/-- Two cases that may be selected by different values. -/
structure UnionCase.SameOutline (c c' : UnionCase) : Prop where
  name : c.name = c'.name
  type : c.type = c'.type

/-- Two cases that may be selected by different integers. -/
structure VariantCase.SameOutline (c c' : VariantCase) : Prop where
  kind : c.kind.SameOutline c'.kind
  type : c.type = c'.type

/-- Two declarations that differ in literals only. The values of constants are no
    literals in this sense: they are what an enum is. -/
inductive Declaration.SameOutline : Declaration → Declaration → Prop where
  | struct {name : String} {supertype : Option String} {typeId : Option Nat}
      {members members' : List Member} (h : List.Forall₂ Member.SameOutline members members') :
      SameOutline (.struct ⟨name, supertype, typeId, members⟩)
        (.struct ⟨name, supertype, typeId, members'⟩)
  | list {name : String} {width : Width} {members members' : List Member}
      (h : List.Forall₂ Member.SameOutline members members') :
      SameOutline (.list ⟨name, width, members⟩) (.list ⟨name, width, members'⟩)
  | union {name : String} {kind : WireType} {cases cases' : List UnionCase}
      (h : List.Forall₂ UnionCase.SameOutline cases cases') :
      SameOutline (.union ⟨name, kind, cases⟩) (.union ⟨name, kind, cases'⟩)
  | variant {name : String} {kind : WireType} {of : Option WireType}
      {cases cases' : List VariantCase} (h : List.Forall₂ VariantCase.SameOutline cases cases') :
      SameOutline (.variant ⟨name, kind, of, cases⟩) (.variant ⟨name, kind, of, cases'⟩)
  | enum (d : EnumDecl) : SameOutline (.enum d) (.enum d)
  | map (d : MapDecl) : SameOutline (.map d) (.map d)
  | typedef (d : TypedefDecl) : SameOutline (.typedef d) (.typedef d)

/-- Nothing that descriptions read differs between declarations of the same outline. -/
theorem Declaration.SameOutline.reading {d d' : Declaration} (h : d.SameOutline d') :
    d.SameReading d' := by
  have hmember : ∀ m m' : Member, m.SameOutline m' → m.SameReading m' :=
    fun m m' hm => ⟨hm.type ▸ .same _, hm.size⟩
  cases h with
  | struct hmembers => exact .struct rfl (hmembers.imp hmember)
  | list hmembers => exact .list rfl (hmembers.imp hmember)
  | union hcases => exact .union (.same _) (hcases.imp fun _ _ hc => hc.type ▸ .same _)
  | variant hcases =>
      exact .variant (.same _) (WireType.agreesTo_optional _ 1)
        (hcases.imp fun _ _ hc => ⟨hc.kind, hc.type ▸ .same _⟩)
  | enum d => exact .refl _
  | map d => exact .refl _
  | typedef d => exact .refl _

end Declarations

section Tree

/-- Two declarations on the same path that differ in literals only. -/
structure Located.SameOutline (l l' : Located) : Prop where
  path : l.path = l'.path
  declaration : l.declaration.SameOutline l'.declaration

mutual

/-- Two scopes that differ in the literals of their declarations only, at any depth. -/
inductive Scope.SameOutline : Scope → Scope → Prop where
  | mk {name : String} {scopes scopes' : List Scope} {declarations declarations' : List Declaration}
      (hscopes : Scope.SameOutlineAll scopes scopes')
      (hdeclarations : List.Forall₂ Declaration.SameOutline declarations declarations') :
      Scope.SameOutline (.mk name scopes declarations) (.mk name scopes' declarations')

/-- Scopes that differ so one by one. -/
inductive Scope.SameOutlineAll : List Scope → List Scope → Prop where
  | nil : Scope.SameOutlineAll [] []
  | cons {scope scope' : Scope} {rest rest' : List Scope} (hscope : scope.SameOutline scope')
      (hrest : Scope.SameOutlineAll rest rest') :
      Scope.SameOutlineAll (scope :: rest) (scope' :: rest')

end

/-- Two schemas that differ in literals only. -/
def Specification.SameOutline (spec spec' : Specification) : Prop :=
  spec.scope.SameOutline spec'.scope

mutual

/-- Declarations of the same outline stand on the same paths. -/
theorem Scope.SameOutline.locate {s s' : Scope} (h : s.SameOutline s') (path : List String) :
    List.Forall₂ Located.SameOutline (s.locate path) (s'.locate path) :=
  match h with
  | .mk hscopes hdeclarations => by
      rw [Scope.locate, Scope.locate]
      refine List.rel_append ?_ (Scope.SameOutlineAll.locateAll hscopes _)
      rw [List.forall₂_map_left_iff, List.forall₂_map_right_iff]
      exact hdeclarations.imp fun _ _ hd => ⟨rfl, hd⟩

theorem Scope.SameOutlineAll.locateAll {ss ss' : List Scope} (h : Scope.SameOutlineAll ss ss')
    (path : List String) :
    List.Forall₂ Located.SameOutline (Scope.locateAll path ss) (Scope.locateAll path ss') :=
  match h with
  | .nil => .nil
  | .cons hscope hrest => by
      rw [Scope.locateAll, Scope.locateAll]
      exact List.rel_append (Scope.SameOutline.locate hscope path)
        (Scope.SameOutlineAll.locateAll hrest path)

end

mutual

/-- The scopes in scopes of the same outline have the same names. -/
theorem Scope.SameOutline.forall_inside_name {P : String → Prop} {s s' : Scope}
    (h : s.SameOutline s') (hs : ∀ inner : Scope, inner.Inside s → P inner.name) :
    ∀ inner : Scope, inner.Inside s' → P inner.name :=
  match h with
  | .mk hscopes _ => by
      rcases Scope.forall_inside.mp hs with ⟨hname, hinner⟩
      exact Scope.forall_inside.mpr
        ⟨hname, Scope.SameOutlineAll.forall_inside_name hscopes hinner⟩

theorem Scope.SameOutlineAll.forall_inside_name {P : String → Prop} {ss ss' : List Scope}
    (h : Scope.SameOutlineAll ss ss')
    (hs : ∀ outer ∈ ss, ∀ inner : Scope, inner.Inside outer → P inner.name) :
    ∀ outer ∈ ss', ∀ inner : Scope, inner.Inside outer → P inner.name :=
  match h with
  | .nil => List.forall_mem_nil _
  | .cons hscope hrest => by
      rcases List.forall_mem_cons.mp hs with ⟨hfirst, hs⟩
      exact List.forall_mem_cons.mpr ⟨Scope.SameOutline.forall_inside_name hscope hfirst,
        Scope.SameOutlineAll.forall_inside_name hrest hs⟩

end

end Tree

section Verification

namespace Declaration

/-- No two cases of a union or of a variant are selected by the same literal. -/
def CasesApart (d : Declaration) : Prop :=
  (d.unionCases.map (·.value)).Nodup ∧ (d.variantCases.map (·.kind)).Nodup

instance (d : Declaration) : Decidable d.CasesApart :=
  inferInstanceAs (Decidable (_ ∧ _))

namespace SameOutline

variable {d d' : Declaration} (h : d.SameOutline d')

include h

theorem name : d.name = d'.name := by
  cases h <;> rfl

theorem constants : d.constants = d'.constants := by
  cases h <;> rfl

theorem memberNames : d.members.map (·.name) = d'.members.map (·.name) := by
  cases h with
  | struct hmembers | list hmembers => exact map_eq_map_of_forall₂ hmembers fun _ _ hm => hm.name
  | _ => rfl

theorem caseNames : d.unionCases.map (·.name) = d'.unionCases.map (·.name) := by
  cases h with
  | union hcases => exact map_eq_map_of_forall₂ hcases fun _ _ hc => hc.name
  | _ => rfl

theorem referencedTypes : d.referencedTypes = d'.referencedTypes := by
  cases h with
  | struct hmembers | list hmembers => exact map_eq_map_of_forall₂ hmembers fun _ _ hm => hm.type
  | union hcases =>
      exact congrArg (_ :: ·) (map_eq_map_of_forall₂ hcases fun _ _ hc => hc.type)
  | variant hcases =>
      exact congrArg (_ :: _ ++ ·) (map_eq_map_of_forall₂ hcases fun _ _ hc => hc.type)
  | _ => rfl

/-- All that verification asks of the literals of a declaration is that they tell its
    cases apart. -/
theorem wellFormed_iff (hd : d.WellFormed) : d'.WellFormed ↔ d'.CasesApart := by
  refine ⟨fun h' => ⟨h'.uniqueCaseValues, h'.uniqueCaseKinds⟩, ?_⟩
  rintro ⟨hvalues, hkinds⟩
  have hmembers := List.forall_mem_map.mpr hd.memberNames
  have hcases := List.forall_mem_map.mpr hd.caseNames
  rw [h.memberNames] at hmembers
  rw [h.caseNames] at hcases
  exact
    { name := h.name ▸ hd.name
      memberNames := List.forall_mem_map.mp hmembers
      constantNames := h.constants ▸ hd.constantNames
      caseNames := List.forall_mem_map.mp hcases
      uniqueMembers := h.memberNames ▸ hd.uniqueMembers
      uniqueConstants := h.constants ▸ hd.uniqueConstants
      uniqueConstantValues := h.constants ▸ hd.uniqueConstantValues
      uniqueCaseValues := hvalues
      uniqueCaseKinds := hkinds
      bounds := h.referencedTypes ▸ hd.bounds }

end SameOutline

end Declaration

namespace Located.SameOutline

variable {l l' : Located} (h : l.SameOutline l')

include h

theorem reading : l.SameReading l' :=
  ⟨h.path, h.declaration.name, h.declaration.reading⟩

theorem qualifiedName : l.qualifiedName = l'.qualifiedName :=
  h.reading.qualifiedName

end Located.SameOutline

namespace Specification

variable {spec spec' : Specification}
  (h : List.Forall₂ Located.SameOutline spec.located spec'.located)

include h

theorem qualifiedNames_outline :
    spec.located.map Located.qualifiedName = spec'.located.map Located.qualifiedName :=
  map_eq_map_of_forall₂ h fun _ _ hl => hl.qualifiedName

/-- Structs of the same outline have supertypes of the same names. -/
theorem Ancestors.outline {l l' : Located} (hl : l.SameOutline l') {ancestors : List Located}
    (hchain : spec.Ancestors l ancestors) :
    ∃ ancestors', spec'.Ancestors l' ancestors' ∧
      ancestors.map Located.qualifiedName = ancestors'.map Located.qualifiedName := by
  induction hchain generalizing l' with
  | root hstruct hnone =>
      have hd := hl.declaration
      rw [hstruct] at hd
      generalize hstruct' : l'.declaration = d' at hd
      cases hd with
      | struct _ => exact ⟨[], .root hstruct' hnone, rfl⟩
  | @step l parent _ _ _ hstruct hsuper hparent hname _ ih =>
      have hd := hl.declaration
      rw [hstruct] at hd
      generalize hstruct' : l'.declaration = d' at hd
      cases hd with
      | struct _ =>
          rcases exists_of_forall₂ h hparent with ⟨parent', hparent', hsame⟩
          rcases ih hsame with ⟨rest', hrest', hnames⟩
          -- the names that are defined are the same, so the supertype is found there
          have hdefines : spec.Defines = spec'.Defines := by
            unfold Defines
            rw [qualifiedNames_outline h]
          rw [hdefines, hl.path, hsame.qualifiedName] at hname
          refine ⟨parent' :: rest', .step hstruct' hsuper hparent' hname hrest', ?_⟩
          rw [List.map_cons, List.map_cons, hsame.qualifiedName, hnames]

end Specification

/-- A schema with the outline of one that was accepted is accepted exactly if its cases
    are told apart. -/
theorem Specification.verify_outline_iff {spec spec' : Specification}
    (hverify : spec.verify = .ok ()) (h : spec.SameOutline spec') :
    spec'.verify = .ok () ↔ ∀ l ∈ spec'.located, l.declaration.CasesApart := by
  have hlocated : List.Forall₂ Located.SameOutline spec.located spec'.located := h.locate []
  rcases located_of_verify hverify with ⟨_, hdecls, hunique⟩
  have hwell : ∀ l' ∈ spec'.located, l'.declaration.WellFormed ↔ l'.declaration.CasesApart := by
    intro l' hl'
    rcases exists_of_forall₂ hlocated.flip hl' with ⟨l, hl, hsame⟩
    exact hsame.declaration.wellFormed_iff (hdecls l hl)
  constructor
  · intro hverify' l' hl'
    exact (hwell l' hl').mp ((located_of_verify hverify').2.1 l' hl')
  · intro hcases
    rcases defined_of_verify hverify with ⟨_, hscope, _⟩
    rcases (Scope.verify_eq_ok _ _ _ _).mp hscope with ⟨hscopes, _⟩
    have hsupers : ∀ l' ∈ spec'.located, ∀ d', l'.declaration = .struct d' →
        ∃ ancestors', spec'.Ancestors l' ancestors' ∧
          ((l' :: ancestors').map Located.qualifiedName).Nodup := by
      intro l' hl' d' hd'
      rcases exists_of_forall₂ hlocated.flip hl' with ⟨l, hl, hsame⟩
      have hstruct : ∃ d, l.declaration = .struct d := by
        have hd := hsame.declaration
        rw [hd'] at hd
        generalize l.declaration = d at hd
        cases hd with
        | struct _ => exact ⟨_, rfl⟩
      rcases hstruct with ⟨d, hd⟩
      rcases ancestors_of_verify hverify hl hd with ⟨ancestors, hchain, hnodup⟩
      rcases hchain.outline hlocated hsame with ⟨ancestors', hchain', hnames⟩
      refine ⟨ancestors', hchain', ?_⟩
      rw [List.map_cons, ← hnames, ← hsame.qualifiedName]
      exact hnodup
    exact verify_of_wellFormed
      { scopeNames := h.forall_inside_name hscopes
        declarations := fun l' hl' => (hwell l' hl').mpr (hcases l' hl')
        uniqueNames := qualifiedNames_outline hlocated ▸ hunique
        supertypes := hsupers }

end Verification

/-- The declarations of schemas of the same outline read the same. -/
theorem Specification.SameOutline.sameReading {spec spec' : Specification}
    (h : spec.SameOutline spec') :
    List.Forall₂ Located.SameReading spec.located spec'.located :=
  (Scope.SameOutline.locate h []).imp fun _ _ hl => hl.reading

end Wireform
