import Wireform.Proofs.DescribedTogether

/-!
# References Under Other Names

A schema with other references wherever describing it looks up none.

Describing a declaration takes a type apart once, if it is the type of a field,
and otherwise not at all. `Specification.renameHidden` puts other names in the place
of every reference that stands deeper, and leaves all else as it is. Verification
gives the same answer on the result: it looks at names and bounds, and of
references only at those to supertypes. What is renamed is copied into the text of
descriptions and goes into nothing else, so that a renamed schema still compiles.

## Main definitions

* `WireType.renameInside`: Other references from a depth on.
* `Declaration.fieldTypes`: The types that are described as fields.
* `Declaration.renameHidden`, `Specification.renameHidden`: Other references
  wherever none are looked up.

## Theorems

* `WireType.agreesTo_renameInside`: Down to the depth the type stays as it is.
* `Declaration.referencedTypes_renameHidden`: How deep each type is renamed.
* `Specification.located_renameHidden`: The declarations stay where they are.
* `Specification.verify_renameHidden`: Verification gives the same answer.
* `Declaration.sameReading_renameHidden`: A renamed declaration reads the same.
* `compile_renameHidden`: A renamed schema compiles if the schema does.
-/

namespace Wireform

variable (f : String → String)

namespace WireType

/-- The type with other references, from so many arrays and maps inside on. -/
def renameInside : WireType → Nat → WireType
  | .named name, 0 => .named (f name)
  | .array width item, depth => .array width (item.renameInside (depth - 1))
  | .map width key value, depth =>
      .map width (key.renameInside (depth - 1)) (value.renameInside (depth - 1))
  | type, _ => type

/-- Down to the depth from which on references are renamed, a type stays as it is. -/
theorem agreesTo_renameInside (t : WireType) (depth : Nat) :
    t.AgreesTo depth (t.renameInside f depth) := by
  induction t generalizing depth with
  | named name =>
      cases depth with
      | zero => exact .hidden _ _
      | succ depth => exact .same _
  | array width item ih =>
      cases depth with
      | zero => exact .hidden _ _
      | succ depth => exact .array (ih depth)
  | map width key value ihkey ihvalue =>
      cases depth with
      | zero => exact .hidden _ _
      | succ depth => exact .map (ihkey depth) (ihvalue depth)
  | _ => exact .same _

theorem verifyBounds_renameInside (owner : String) (t : WireType) (depth : Nat) :
    (t.renameInside f depth).verifyBounds owner = t.verifyBounds owner := by
  induction t generalizing depth with
  | array width item ih => exact ih _
  | map width key value ihkey ihvalue =>
      simp only [renameInside, verifyBounds, ihkey, ihvalue]
  | named name => cases depth <;> rfl
  | _ => rfl

end WireType

/-- The types that a declaration describes as its fields: those of members and
    of cases. -/
def Declaration.fieldTypes : Declaration → List WireType
  | .struct d => d.members.map (·.type)
  | .list d => d.members.map (·.type)
  | .union d => d.cases.map (·.type)
  | .variant d => d.cases.map (·.type)
  | _ => []

/-- The member with other references, except for its type and the elements of
    it. -/
def Member.renameHidden (m : Member) : Member :=
  { m with type := m.type.renameInside f 2 }

/-- The case with other references, except for its type and the elements of it. -/
def UnionCase.renameHidden (c : UnionCase) : UnionCase :=
  { c with type := c.type.renameInside f 2 }

@[inherit_doc UnionCase.renameHidden]
def VariantCase.renameHidden (c : VariantCase) : VariantCase :=
  { c with type := c.type.renameInside f 2 }

-- Types that are not those of fields are not taken apart at all.

def StructDecl.renameHidden (d : StructDecl) : StructDecl :=
  { d with members := d.members.map (Member.renameHidden f) }

def EnumDecl.renameHidden (d : EnumDecl) : EnumDecl :=
  { d with valueType := d.valueType.map (·.renameInside f 1) }

def ListDecl.renameHidden (d : ListDecl) : ListDecl :=
  { d with members := d.members.map (Member.renameHidden f) }

def MapDecl.renameHidden (d : MapDecl) : MapDecl :=
  { d with key := d.key.renameInside f 1, value := d.value.renameInside f 1 }

def UnionDecl.renameHidden (d : UnionDecl) : UnionDecl :=
  { d with kind := d.kind.renameInside f 1, cases := d.cases.map (UnionCase.renameHidden f) }

def VariantDecl.renameHidden (d : VariantDecl) : VariantDecl :=
  { d with
    kind := d.kind.renameInside f 1
    of := d.of.map (·.renameInside f 1)
    cases := d.cases.map (VariantCase.renameHidden f) }

def TypedefDecl.renameHidden (d : TypedefDecl) : TypedefDecl :=
  { d with aliased := d.aliased.renameInside f 1 }

/-- The declaration with other references wherever describing it looks up
    none. -/
def Declaration.renameHidden : Declaration → Declaration
  | .struct d => .struct (d.renameHidden f)
  | .enum d => .enum (d.renameHidden f)
  | .list d => .list (d.renameHidden f)
  | .map d => .map (d.renameHidden f)
  | .union d => .union (d.renameHidden f)
  | .variant d => .variant (d.renameHidden f)
  | .typedef d => .typedef (d.renameHidden f)

mutual

/-- The scope with other references wherever none are looked up. -/
def Scope.renameHidden : Scope → Scope
  | .mk name scopes declarations =>
      .mk name (Scope.renameHiddenAll scopes) (declarations.map (Declaration.renameHidden f))

@[inherit_doc Scope.renameHidden]
def Scope.renameHiddenAll : List Scope → List Scope
  | [] => []
  | scope :: rest => scope.renameHidden :: Scope.renameHiddenAll rest

end

/-- The schema with other references wherever none are looked up. -/
def Specification.renameHidden (spec : Specification) : Specification where
  scope := spec.scope.renameHidden f

def Located.renameHidden (l : Located) : Located :=
  { l with declaration := l.declaration.renameHidden f }

section Verification

theorem Declaration.name_renameHidden (d : Declaration) : (d.renameHidden f).name = d.name := by
  cases d <;> rfl

theorem Declaration.kind_renameHidden (d : Declaration) : (d.renameHidden f).kind = d.kind := by
  cases d <;> rfl

mutual

theorem Scope.locate_renameHidden (path : List String) : (scope : Scope) →
    (scope.renameHidden f).locate path = (scope.locate path).map (Located.renameHidden f)
  | .mk name scopes declarations => by
      rw [Scope.renameHidden, Scope.locate, Scope.locate,
        Scope.locateAll_renameHidden (path ++ [name]) scopes, List.map_append, List.map_map,
        List.map_map]
      rfl

theorem Scope.locateAll_renameHidden (path : List String) : (scopes : List Scope) →
    Scope.locateAll path (Scope.renameHiddenAll f scopes) =
      (Scope.locateAll path scopes).map (Located.renameHidden f)
  | [] => rfl
  | scope :: rest => by
      rw [Scope.renameHiddenAll, Scope.locateAll, Scope.locateAll,
        Scope.locate_renameHidden path scope, Scope.locateAll_renameHidden path rest,
        List.map_append]

end

theorem verifyMembers_renameHidden (owner : String) (seen : List String)
    (members : List Member) :
    verifyMembers owner seen (members.map (Member.renameHidden f)) =
      verifyMembers owner seen members := by
  induction members generalizing seen with
  | nil => rfl
  | cons m rest ih =>
      rw [List.map_cons, verifyMembers, verifyMembers, ih]
      rfl

theorem verifyUnionCases_renameHidden (owner : String) (values : List Int)
    (cases : List UnionCase) :
    verifyUnionCases owner values (cases.map (UnionCase.renameHidden f)) =
      verifyUnionCases owner values cases := by
  induction cases generalizing values with
  | nil => rfl
  | cons c rest ih =>
      rw [List.map_cons, verifyUnionCases, verifyUnionCases, ih]
      rfl

theorem verifyVariantCases_renameHidden (owner : String) (kinds : List Literal)
    (cases : List VariantCase) :
    verifyVariantCases owner kinds (cases.map (VariantCase.renameHidden f)) =
      verifyVariantCases owner kinds cases := by
  induction cases generalizing kinds with
  | nil => rfl
  | cons c rest ih =>
      rw [List.map_cons, verifyVariantCases, verifyVariantCases, ih]
      rfl

/-- Each type that a declaration refers to is renamed right inside, or is the type
    of a field and renamed one level deeper. -/
theorem Declaration.referencedTypes_renameHidden (d : Declaration) :
    List.Forall₂ (fun t t' => t' = t.renameInside f 1 ∨
        t' = t.renameInside f 2 ∧ t' ∈ (d.renameHidden f).fieldTypes)
      d.referencedTypes (d.renameHidden f).referencedTypes := by
  have hfields {α : Type} (g : α → α) (typeOf : α → WireType)
      (hg : ∀ x, typeOf (g x) = (typeOf x).renameInside f 2) (xs : List α) :
      List.Forall₂ (fun t t' => t' = t.renameInside f 1 ∨
          t' = t.renameInside f 2 ∧ t' ∈ (xs.map g).map typeOf)
        (xs.map typeOf) ((xs.map g).map typeOf) := by
    rw [List.map_map, List.forall₂_map_left_iff, List.forall₂_map_right_iff, List.forall₂_same]
    exact fun x hx => .inr ⟨hg x, List.mem_map_of_mem hx⟩
  cases d with
  | struct d => exact hfields (Member.renameHidden f) (·.type) (fun _ => rfl) d.members
  | list d => exact hfields (Member.renameHidden f) (·.type) (fun _ => rfl) d.members
  | enum d =>
      rcases d with ⟨name, _ | type, constants⟩
      · exact .nil
      · exact .cons (.inl rfl) .nil
  | map d => exact .cons (.inl rfl) (.cons (.inl rfl) .nil)
  | union d =>
      have hcases := hfields (UnionCase.renameHidden f) (·.type) (fun _ => rfl) d.cases
      exact .cons (.inl rfl) hcases
  | variant d =>
      have hcases := hfields (VariantCase.renameHidden f) (·.type) (fun _ => rfl) d.cases
      rcases d with ⟨name, kind, _ | common, cases⟩
      · exact .cons (.inl rfl) hcases
      · exact .cons (.inl rfl) (.cons (.inl rfl) hcases)
  | typedef d => exact .cons (.inl rfl) .nil

/-- The bounds of all types of a declaration, at any depth, are what they were. -/
theorem Declaration.verifyBounds_renameHidden (owner : String) (d : Declaration) :
    (d.renameHidden f).referencedTypes.forM (WireType.verifyBounds owner) =
      d.referencedTypes.forM (WireType.verifyBounds owner) := by
  have hrenamed : List.Forall₂ (fun t t' => ∃ depth, t' = t.renameInside f depth)
      d.referencedTypes (d.renameHidden f).referencedTypes :=
    (d.referencedTypes_renameHidden f).imp fun _ _ h => h.elim (⟨1, ·⟩) fun h => ⟨2, h.1⟩
  generalize d.referencedTypes = types at hrenamed ⊢
  generalize (d.renameHidden f).referencedTypes = types' at hrenamed ⊢
  induction hrenamed with
  | nil => rfl
  | cons h _ ih =>
      rcases h with ⟨depth, rfl⟩
      rw [List.forM, List.forM, ih, WireType.verifyBounds_renameInside]

theorem Declaration.verify_renameHidden (d : Declaration) (q : String) :
    (d.renameHidden f).verify q = d.verify q := by
  unfold Declaration.verify
  rw [Declaration.verifyBounds_renameHidden]
  cases d with
  | struct d => exact congrArg (· >>= _) (verifyMembers_renameHidden f q [] d.members)
  | list d => exact congrArg (· >>= _) (verifyMembers_renameHidden f q [] d.members)
  | union d =>
      simp only [renameHidden, UnionDecl.renameHidden, verifyUnionCases_renameHidden]
      rfl
  | variant d =>
      simp only [renameHidden, VariantDecl.renameHidden, verifyVariantCases_renameHidden]
      rfl
  | _ => rfl

theorem verifyDeclarations_renameHidden (path defined : List String)
    (declarations : List Declaration) :
    verifyDeclarations path defined (declarations.map (Declaration.renameHidden f)) =
      verifyDeclarations path defined declarations := by
  induction declarations generalizing defined with
  | nil => rfl
  | cons d rest ih =>
      simp only [List.map_cons, verifyDeclarations, Declaration.name_renameHidden,
        Declaration.kind_renameHidden, Declaration.verify_renameHidden, ih]

mutual

theorem Scope.verify_renameHidden (path defined : List String) : (scope : Scope) →
    (scope.renameHidden f).verify path defined = scope.verify path defined
  | .mk name scopes declarations => by
      simp only [Scope.renameHidden, Scope.verify, verifyDeclarations_renameHidden,
        Scope.verifyAll_renameHidden _ _ scopes]

theorem Scope.verifyAll_renameHidden (path defined : List String) : (scopes : List Scope) →
    Scope.verifyAll path defined (Scope.renameHiddenAll f scopes) =
      Scope.verifyAll path defined scopes
  | [] => rfl
  | scope :: rest => by
      simp only [Scope.renameHiddenAll, Scope.verifyAll, Scope.verify_renameHidden _ _ scope,
        Scope.verifyAll_renameHidden _ _ rest]

end

def LocatedStruct.renameHidden (s : LocatedStruct) : LocatedStruct :=
  { s with struct := s.struct.renameHidden f }

theorem structsAmong_renameHidden (located : List Located) :
    structsAmong (located.map (Located.renameHidden f)) =
      (structsAmong located).map (LocatedStruct.renameHidden f) := by
  induction located with
  | nil => rfl
  | cons l rest ih =>
      rcases l with ⟨path, d⟩
      unfold structsAmong at ih ⊢
      cases d <;> simp only [List.map_cons, List.filterMap_cons, ih] <;> rfl

/-- Supertypes are followed by name, and the names of structs and of their
    supertypes stay. -/
theorem verifySupertypes_renameHidden (defined : List String) (structs : List LocatedStruct)
    (owner : String) (steps : Nat) (seen : List String) (current : LocatedStruct) :
    verifySupertypes defined (structs.map (LocatedStruct.renameHidden f)) owner steps seen
        (current.renameHidden f) =
      verifySupertypes defined structs owner steps seen current := by
  have hfind (q : String) :
      (structs.map (LocatedStruct.renameHidden f)).find? (·.qualifiedName = q) =
        (structs.find? (·.qualifiedName = q)).map (LocatedStruct.renameHidden f) :=
    List.find?_map
  induction steps using Nat.strongRecOn generalizing seen current with
  | ind steps ih =>
      have hsuper : (current.renameHidden f).struct.supertype = current.struct.supertype := rfl
      have hscope : (current.renameHidden f).scope = current.scope := rfl
      rw [verifySupertypes, verifySupertypes, hsuper, hscope]
      cases current.struct.supertype with
      | none => rfl
      | some supertype =>
          dsimp only
          cases searchOutward (· ∈ defined) current.scope supertype with
          | none => rfl
          | some q =>
              dsimp only
              rw [hfind]
              cases structs.find? (·.qualifiedName = q) with
              | none => rfl
              | some parent =>
                  cases steps with
                  | zero => rfl
                  | succ k =>
                      dsimp only [Option.map_some]
                      rw [ih k (Nat.lt_succ_self k)]

theorem Specification.located_renameHidden (spec : Specification) :
    (spec.renameHidden f).located = spec.located.map (Located.renameHidden f) :=
  Scope.locate_renameHidden f [] spec.scope

/-- Verification does not see what is renamed. -/
theorem Specification.verify_renameHidden (spec : Specification) :
    (spec.renameHidden f).verify = spec.verify := by
  unfold Specification.verify
  rw [Specification.located_renameHidden, structsAmong_renameHidden]
  simp only [Specification.renameHidden, Scope.verify_renameHidden, List.length_map,
    List.forM_eq_forM, List.forM_map, verifySupertypes_renameHidden]
  rfl

end Verification

section Descriptions

/-- Nothing that descriptions read is renamed. -/
theorem Declaration.sameReading_renameHidden (d : Declaration) :
    d.SameReading (d.renameHidden f) := by
  have hmembers (members : List Member) :
      List.Forall₂ Member.SameReading members (members.map (Member.renameHidden f)) :=
    List.forall₂_map_right_iff.mpr (List.forall₂_same.mpr fun m _ =>
      ⟨m.type.agreesTo_renameInside f 2, rfl⟩)
  have hoptional (t : Option WireType) :
      Option.Rel (WireType.AgreesTo 1) t (t.map (·.renameInside f 1)) := by
    cases t with
    | none => exact .none
    | some t => exact .some (t.agreesTo_renameInside f 1)
  cases d with
  | struct d => exact .struct rfl (hmembers d.members)
  | enum d => exact .enum (hoptional d.valueType) rfl
  | list d => exact .list rfl (hmembers d.members)
  | map d => exact .map rfl (d.key.agreesTo_renameInside f 1) (d.value.agreesTo_renameInside f 1)
  | union d =>
      refine .union (d.kind.agreesTo_renameInside f 1) ?_
      exact List.forall₂_map_right_iff.mpr (List.forall₂_same.mpr fun c _ =>
        c.type.agreesTo_renameInside f 2)
  | variant d =>
      refine .variant (d.kind.agreesTo_renameInside f 1) (hoptional d.of) ?_
      exact List.forall₂_map_right_iff.mpr (List.forall₂_same.mpr fun c _ =>
        ⟨.same _, c.type.agreesTo_renameInside f 2⟩)
  | typedef d => exact .typedef (d.aliased.agreesTo_renameInside f 1)

/-- A schema that compiles still does with other references wherever none are
    looked up. -/
theorem compile_renameHidden {spec : Specification} {options : Options} {c : Compilation}
    (h : compile spec options = .ok c) :
    ∃ c', compile (spec.renameHidden f) options = .ok c' := by
  rcases compile_eq_ok h with ⟨hverify, described, _, hdescribed⟩
  have hlocated : List.Forall₂ Located.SameReading spec.located
      (spec.renameHidden f).located := by
    rw [Specification.located_renameHidden, List.forall₂_map_right_iff, List.forall₂_same]
    exact fun l _ => ⟨rfl, (l.declaration.name_renameHidden f).symm,
      l.declaration.sameReading_renameHidden f⟩
  rcases Specification.exists_described hlocated hdescribed with ⟨described', hdescribed'⟩
  have hverify' := (Specification.verify_renameHidden f spec).trans hverify
  exact ⟨_, compile_of_described hverify' hdescribed'⟩

end Descriptions

end Wireform
