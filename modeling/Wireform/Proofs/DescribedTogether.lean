import Wireform.Proofs.Readings

/-!
# Schemas That Are Described Together

What a description does not read may be changed without making it fail.

Two declarations of the same reading are described together: the layout of one is the
layout of the other, a discriminator has its size from its type, and whether a case is
refused depends on whether it is selected by an integer and not on which. One can be
described exactly if the other one can, although the descriptions are not the same.
Schemas whose declarations agree in this way, one by one and on the same paths, have
tables that agree, so all their declarations are described together.

## Main definitions

* `Together`: Computations of which both succeed or both fail.
* `Located.SameReading`: Declarations of the same reading under the same names.

## Theorems

* `Site.SameReading.together_describeShape`: Shapes of the same reading are described
  together.
* `Specification.exists_described`: The declarations of a schema are described if those
  of another one are that reads the same.
-/

namespace Wireform

open Checked

/-- Two computations that succeed or fail together. -/
def Together {α β : Type} (x : Compiled α) (y : Compiled β) : Prop :=
  Alike (fun _ _ => True) x y

/-- In related lists, related elements are found by tests that agree on them. -/
theorem rel_find? {α β : Type} {R : α → β → Prop} {p : α → Bool} {q : β → Bool}
    (hpq : ∀ a b, R a b → p a = q b) {xs : List α} {ys : List β} (h : List.Forall₂ R xs ys) :
    Option.Rel R (xs.find? p) (ys.find? q) := by
  induction h with
  | nil => exact .none
  | @cons a b _ _ hab _ ih =>
      rw [List.find?_cons, List.find?_cons, hpq a b hab]
      cases q b with
      | true => exact .some hab
      | false => exact ih

/-- Integers discriminate the cases of a variant together. -/
theorem isDiscriminator_outline {v v' : Literal} (hv : v.SameOutline v')
    (constants : Option (List String)) :
    isDiscriminator constants v = isDiscriminator constants v' := by
  cases hv with
  | same _ => rfl
  | integers i j => cases constants <;> rfl

section Shapes

variable {site site' : Site} (h : site.SameReading site')

include h

/-- Fields are described together if the members that they are made for read the
    same. -/
theorem Site.SameReading.together_fields {α : Type} {R : α → α → Prop} (member : α → Member)
    (hmember : ∀ a b, R a b → (member a).SameReading (member b)) {xs ys : List α}
    (hxs : List.Forall₂ R xs ys) (offset : Option Nat) :
    Together (xs.mapM fun x => site.field (member x) offset)
      (ys.mapM fun y => site'.field (member y) offset) := by
  have hitems := hxs.imp fun a b hab =>
    (h.alike_field (hmember a b hab) offset).mono fun _ _ _ => trivial
  exact (Alike.mapM hitems).mono fun _ _ _ => trivial

theorem Site.SameReading.together_describeStruct
    (hname : site.qualifiedName = site'.qualifiedName) {d d' : StructDecl}
    (hd : (Declaration.struct d).SameReading (.struct d')) :
    Together (describeStruct site d) (describeStruct site' d') := by
  have hmembers : ∀ s s' : StructDecl, (Declaration.struct s).SameReading (.struct s') →
      List.Forall₂ Member.SameReading s.members s'.members := by
    intro s s' hs
    cases hs with
    | struct _ hmembers => exact hmembers
  have hfield : ∀ (a b : Site × Member) offset, a.1.SameReading b.1 ∧ a.2.SameReading b.2 →
      Alike (fun f f' => True ∧ f.size = f'.size) (a.1.field a.2 offset)
        (b.1.field b.2 offset) := by
    rintro a b offset ⟨howner, hm⟩
    refine (howner.alike_field hm offset).mono ?_
    rintro _ _ ⟨field, rfl, rfl⟩
    exact ⟨trivial, rfl⟩
  refine (h.alike_layout (fun _ _ hs => hs) hname hmembers hd).bind fun members members' hms => ?_
  exact (alike_describeMembers_of_fields hfield hms (some 0)).bind fun _ _ _ => .ok trivial

theorem Site.SameReading.together_describeEnum {d d' : EnumDecl}
    (htype : Option.Rel (WireType.AgreesTo 1) d.valueType d'.valueType)
    (hconstants : d.constants = d'.constants) :
    Together (describeEnum site d) (describeEnum site' d') := by
  unfold describeEnum
  rw [hconstants]
  refine (Site.alike_constantValues site site' htype 0 d'.constants).bind fun _ _ _ => ?_
  exact (h.alike_enumEncoding htype).bind fun _ _ _ => .ok trivial

theorem Site.SameReading.together_describeListDecl {d d' : ListDecl} (hwidth : d.width = d'.width)
    (hmembers : List.Forall₂ Member.SameReading d.members d'.members) :
    Together (describeListDecl site d) (describeListDecl site' d') := by
  unfold describeListDecl
  rw [hwidth, hmembers.length_eq]
  refine (Site.alike_prefixSize site site' d'.width _).bind fun _ _ _ => ?_
  refine alike_ite (fun _ => .error _ _) fun _ => ?_
  exact (h.together_fields (fun m => m) (fun _ _ hm => hm) hmembers none).bind
    fun _ _ _ => .ok trivial

theorem Site.SameReading.together_describeMapDecl {d d' : MapDecl} (hwidth : d.width = d'.width)
    (hkey : d.key.AgreesTo 1 d'.key) (hvalue : d.value.AgreesTo 1 d'.value) :
    Together (describeMapDecl site d) (describeMapDecl site' d') := by
  unfold describeMapDecl
  rw [hwidth]
  refine (Site.alike_prefixSize site site' d'.width _).bind fun _ _ _ => ?_
  refine (h.alike_identityOf hkey).bind fun _ _ _ => ?_
  exact (h.alike_identityOf hvalue).bind fun _ _ _ => .ok trivial

/-- Cases are described by their types, whatever selects them. -/
theorem Site.SameReading.together_describeUnion {d d' : UnionDecl}
    (hkind : d.kind.AgreesTo 1 d'.kind)
    (hcases : List.Forall₂ (fun c c' => c.type.AgreesTo 2 c'.type) d.cases d'.cases) :
    Together (describeUnion site d) (describeUnion site' d') := by
  refine (h.alike_unionKindSize hkind).bind ?_
  rintro size _ rfl
  refine (h.alike_valueIdentityOf hkind).bind fun _ _ _ => ?_
  exact (h.together_fields (fun c : UnionCase => { name := c.name, type := c.type })
    (fun _ _ hc => ⟨hc, rfl⟩) hcases (some size)).bind fun _ _ _ => .ok trivial

theorem Site.SameReading.together_describeVariant {d d' : VariantDecl}
    (hkind : d.kind.AgreesTo 1 d'.kind) (hof : Option.Rel (WireType.AgreesTo 1) d.of d'.of)
    (hcases : List.Forall₂ VariantCase.SameReading d.cases d'.cases) :
    Together (describeVariant site d) (describeVariant site' d') := by
  refine (h.alike_discriminatingConstants hkind).bind ?_
  rintro constants _ rfl
  -- a case is refused in both declarations or in none
  have hfind := rel_find? (fun c c' (hc : VariantCase.SameReading c c') =>
    congrArg (!·) (isDiscriminator_outline hc.kind constants)) hcases
  dsimp only
  generalize d.cases.find? (!isDiscriminator constants ·.kind) = found at hfind ⊢
  generalize d'.cases.find? (!isDiscriminator constants ·.kind) = found' at hfind ⊢
  cases hfind with
  | some _ => exact .error _ _
  | none =>
      refine (Site.alike_commonType site site' hof hcases).bind fun common common' hcommon => ?_
      refine (h.alike_valueIdentityOf hcommon).bind fun _ _ _ => ?_
      refine (h.alike_identityOf hkind).bind fun _ _ _ => ?_
      refine (h.alike_fixedSize hkind).bind ?_
      rintro size _ rfl
      exact (h.together_fields
        (fun c : VariantCase => { name := caseName c.kind, type := c.type })
        (fun _ _ hc => ⟨hc.type, rfl⟩) hcases size).bind fun _ _ _ => .ok trivial

/-- Shapes of the same reading are described together under one name. -/
theorem Site.SameReading.together_describeShape
    (hname : site.qualifiedName = site'.qualifiedName) {d d' : Declaration}
    (hd : d.SameReading d') : Together (describeShape site d) (describeShape site' d') := by
  have hsame := hd
  cases hd with
  | struct _ _ => exact h.together_describeStruct hname hsame
  | enum htype hconstants => exact h.together_describeEnum htype hconstants
  | list hwidth hmembers => exact h.together_describeListDecl hwidth hmembers
  | map hwidth hkey hvalue => exact h.together_describeMapDecl hwidth hkey hvalue
  | union hkind hcases => exact h.together_describeUnion hkind hcases
  | variant hkind hof hcases => exact h.together_describeVariant hkind hof hcases
  | typedef _ => exact .error _ _

end Shapes

section Schemas

/-- Two declarations of the same reading, with the same name on the same path. -/
structure Located.SameReading (l l' : Located) : Prop where
  path : l.path = l'.path
  name : l.declaration.name = l'.declaration.name
  declaration : l.declaration.SameReading l'.declaration

namespace Located.SameReading

variable {l l' : Located} (h : l.SameReading l')

include h

theorem scope : l.scope = l'.scope :=
  congrArg qualify h.path

theorem qualifiedName : l.qualifiedName = l'.qualifiedName := by
  rw [Located.qualifiedName, Located.qualifiedName, h.path, h.name]

theorem entry (options : Options) :
    (l.entry options).SameUpTo Declaration.SameReading (l'.entry options) where
  qualifiedName := h.qualifiedName
  scope := h.scope
  declaration := h.declaration
  identity := by
    rw [Located.entry, Located.entry, h.path, h.name]

end Located.SameReading

namespace Specification

variable {spec spec' : Specification}
  (h : List.Forall₂ Located.SameReading spec.located spec'.located)

include h

/-- Every name reads the same in the tables of both schemas. -/
theorem sameReading_ofSpecification (options : Options) :
    (NameTable.ofSpecification spec options).SameUpTo Declaration.SameReading
      (NameTable.ofSpecification spec' options) where
  nameSpace := rfl
  lookup q := by
    have hentries := List.forall₂_map_left_iff.mpr
      (List.forall₂_map_right_iff.mpr (h.imp fun _ _ hl => hl.entry options))
    refine rel_find? (fun e e' he => ?_) (List.forall₂_reverse_iff.mpr hentries)
    rw [he.qualifiedName]
  length := by
    rw [NameTable.ofSpecification, NameTable.ofSpecification, List.length_map, List.length_map,
      h.length_eq]

/-- The targeted declarations of both schemas are described together. -/
theorem exists_described {options : Options} {described : List TypeDescription}
    (hdescribed : List.Forall₂
      (fun l d => describeDeclaration (l.site spec options) l.declaration = .ok d)
      (spec.located.filter fun l => options.targets l.scope) described) :
    ∃ described', List.Forall₂
      (fun l d => describeDeclaration (l.site spec' options) l.declaration = .ok d)
      (spec'.located.filter fun l => options.targets l.scope) described' := by
  have htargeted : List.Forall₂ Located.SameReading
      (spec.located.filter fun l => options.targets l.scope)
      (spec'.located.filter fun l => options.targets l.scope) :=
    List.rel_filter (fun _ _ hl => iff_of_eq (congrArg (options.targets · = true) hl.scope)) h
  have hitems : List.Forall₂ (fun l l' : Located =>
      Together (describeDeclaration (l.site spec options) l.declaration)
        (describeDeclaration (l'.site spec' options) l'.declaration))
      (spec.located.filter fun l => options.targets l.scope)
      (spec'.located.filter fun l => options.targets l.scope) := by
    refine htargeted.imp fun l l' hl => ?_
    have hsite : (l.site spec options).SameReading (l'.site spec' options) :=
      ⟨sameReading_ofSpecification h options, hl.scope⟩
    refine hsite.alike_describeDeclaration (fun _ _ hd => hd) hl.qualifiedName
      (hl.entry options).identity (fun _ => trivial) (fun scope d d' hd => ?_) hl.declaration
    exact Site.SameReading.together_describeShape (hsite.inScope scope) hl.qualifiedName hd
  have htogether := Alike.mapM hitems
  rw [mapM_eq_ok.mpr hdescribed] at htogether
  rcases htogether.exists_ok with ⟨described', hdescribed', _⟩
  exact ⟨described', mapM_eq_ok.mp hdescribed'⟩

end Specification

end Schemas

end Wireform
