import Mathlib.Data.List.Nodup
import Wireform.Proofs.Resolution
import Wireform.Schema.Verification

/-!
# Well-Formed Schemas

The verifier accepts exactly the well-formed schemas.

The verifier walks over the tree once and carries what it has met along: names
in a struct, values in an enum, qualified names through all scopes. Being well
formed does not mention a walk. It is a list of conditions on the declarations
of the tree, on each by itself and on their qualified names together. What
connects the two is `Fresh`, which says for a list what the walk says for one
element after the other, so every loop with a list of names already seen is one
induction.

Supertypes need a bound. The verifier follows them at most as often as there are
structs, and meets a name twice otherwise. `Ancestors` is the chain itself, and
it is short enough because its names are those of different structs.

## Main definitions

* `WireType.OccursIn`: One type stands in another, at any depth.
* `Declaration.WellFormed`: The conditions on a declaration by itself.
* `Scope.Inside`: A scope is nested in another, at any depth.
* `Specification.Ancestors`: The chain of supertypes of a struct.
* `Specification.WellFormed`: The conditions on a schema.
* `Fresh`: No element is repeated, and none was seen before.
* `Collects`: Taking declarations into the list of defined names.

## Theorems

* `Declaration.verify_eq_ok`: A declaration passes if it is well formed.
* `Scope.verify_eq_ok`: A scope passes if what it holds is well formed.
* `verifySupertypes_eq_ok`: A struct passes if its chain of supertypes ends.
* `Specification.verify_of_wellFormed`: A well-formed schema passes.
* `Specification.verify_iff_wellFormed`: A schema passes if and only if it is
  well formed.
-/

namespace Wireform

/-- The type is the other one, or stands in its items, keys or values, at any
    depth. -/
inductive WireType.OccursIn (t : WireType) : WireType → Prop where
  | self : t.OccursIn t
  | item {width : Width} {item : WireType} (h : t.OccursIn item) :
      t.OccursIn (.array width item)
  | key {width : Width} {key value : WireType} (h : t.OccursIn key) :
      t.OccursIn (.map width key value)
  | value {width : Width} {key value : WireType} (h : t.OccursIn value) :
      t.OccursIn (.map width key value)

/-- Every bound behind a prefix, at any depth, is a length that the prefix can
    hold. -/
def WireType.BoundsFit (t : WireType) : Prop :=
  ∀ width max, (WireType.boundedOctets width (some max)).OccursIn t → width ≠ .zero →
    max ≤ width.maxValue

namespace Declaration

/-- The constants of an enum. -/
def constants : Declaration → List EnumConstant
  | .enum d => d.constants
  | _ => []

/-- The cases of a union. -/
def unionCases : Declaration → List UnionCase
  | .union d => d.cases
  | _ => []

/-- The cases of a variant. -/
def variantCases : Declaration → List VariantCase
  | .variant d => d.cases
  | _ => []

/-- What a declaration has to keep by itself: its names are identifiers, what
    tells its parts apart is not used twice, and its bounds fit. -/
structure WellFormed (d : Declaration) : Prop where
  name : IsIdentifier d.name
  memberNames : ∀ m ∈ d.members, IsIdentifier m.name
  constantNames : ∀ c ∈ d.constants, IsIdentifier c.name
  caseNames : ∀ c ∈ d.unionCases, IsIdentifier c.name
  uniqueMembers : (d.members.map (·.name)).Nodup
  uniqueConstants : (d.constants.map (·.name)).Nodup
  uniqueConstantValues : (d.constants.filterMap (·.value)).Nodup
  uniqueCaseValues : (d.unionCases.map (·.value)).Nodup
  uniqueCaseKinds : (d.variantCases.map (·.kind)).Nodup
  bounds : ∀ t ∈ d.referencedTypes, t.BoundsFit

end Declaration

/-- The scope is the other one or nested in it, at any depth. -/
inductive Scope.Inside (s : Scope) : Scope → Prop where
  | self : s.Inside s
  | nested {outer inner : Scope} (hinner : inner ∈ outer.scopes) (h : s.Inside inner) :
      s.Inside outer

namespace Specification

/-- A declaration has the qualified name. -/
def Defines (spec : Specification) (q : String) : Prop :=
  q ∈ spec.located.map Located.qualifiedName

/-- The chain of supertypes of a struct, its own supertype first. Each is a
    struct, and is what the name that the one before gives stands for in the
    scope of the one before. The last one has no supertype. -/
inductive Ancestors (spec : Specification) : Located → List Located → Prop where
  | root {l : Located} {d : StructDecl} (hl : l.declaration = .struct d)
      (h : d.supertype = none) : spec.Ancestors l []
  | step {l parent : Located} {d : StructDecl} {name : String} {rest : List Located}
      (hl : l.declaration = .struct d) (h : d.supertype = some name)
      (hparent : parent ∈ spec.located)
      (hname : Resolves spec.Defines name l.path parent.qualifiedName)
      (hrest : spec.Ancestors parent rest) : spec.Ancestors l (parent :: rest)

/-- What a schema has to keep. -/
structure WellFormed (spec : Specification) : Prop where
  scopeNames : ∀ s : Scope, s.Inside spec.scope → IsIdentifier s.name
  declarations : ∀ l ∈ spec.located, l.declaration.WellFormed
  uniqueNames : (spec.located.map Located.qualifiedName).Nodup
  supertypes : ∀ l ∈ spec.located, ∀ d, l.declaration = .struct d →
    ∃ ancestors, spec.Ancestors l ancestors ∧
      ((l :: ancestors).map Located.qualifiedName).Nodup

end Specification

section Fresh

variable {α : Type}

/-- No element is repeated, and none was seen before. -/
def Fresh (seen xs : List α) : Prop :=
  xs.Nodup ∧ ∀ x ∈ xs, x ∉ seen

theorem fresh_nil (seen : List α) : Fresh seen [] :=
  ⟨List.nodup_nil, fun _ hx => absurd hx List.not_mem_nil⟩

/-- An element is taken if it was not seen, and is seen from then on. -/
theorem fresh_cons {seen xs : List α} {x : α} :
    Fresh seen (x :: xs) ↔ x ∉ seen ∧ Fresh (x :: seen) xs := by
  constructor
  · rintro ⟨hnodup, hseen⟩
    rcases List.nodup_cons.mp hnodup with ⟨hx, hxs⟩
    refine ⟨hseen x List.mem_cons_self, hxs, fun y hy hmem => ?_⟩
    rcases List.mem_cons.mp hmem with rfl | hmem
    · exact hx hy
    · exact hseen y (List.mem_cons_of_mem x hy) hmem
  · rintro ⟨hx, hxs, hseen⟩
    refine ⟨List.nodup_cons.mpr ⟨fun hmem => hseen x hmem List.mem_cons_self, hxs⟩, ?_⟩
    intro y hy hmem
    rcases List.mem_cons.mp hy with rfl | hy
    · exact hx hmem
    · exact hseen y hy (List.mem_cons_of_mem x hmem)

theorem fresh_empty {xs : List α} : Fresh [] xs ↔ xs.Nodup :=
  ⟨fun h => h.1, fun h => ⟨h, fun _ _ => List.not_mem_nil⟩⟩

theorem fresh_singleton {xs : List α} {x : α} : Fresh [x] xs ↔ (x :: xs).Nodup := by
  rw [← fresh_empty, fresh_cons]
  exact ⟨fun h => ⟨List.not_mem_nil, h⟩, fun h => h.2⟩

end Fresh

section Checks

variable {α : Type}

theorem except_bind_eq_ok {β : Type} {x : Except Violation α} {f : α → Except Violation β}
    {b : β} : x >>= f = .ok b ↔ ∃ a, x = .ok a ∧ f a = .ok b := by
  cases x with
  | error violation => exact ⟨nofun, fun ⟨_, h, _⟩ => nomatch h⟩
  | ok a => exact ⟨fun h => ⟨a, rfl, h⟩, fun ⟨_, ha, h⟩ => by cases ha; exact h⟩

/-- One check after the other passes if both do. -/
theorem check_bind_eq_ok {x : Verified} {f : Unit → Except Violation α} {a : α} :
    x >>= f = .ok a ↔ x = .ok () ∧ f () = .ok a := by
  rw [except_bind_eq_ok]
  exact ⟨fun ⟨_, h⟩ => h, fun h => ⟨(), h⟩⟩

theorem require_eq_ok {condition : Bool} {violation : Violation} :
    require condition violation = .ok () ↔ condition = true := by
  cases condition with
  | false => exact ⟨nofun, nofun⟩
  | true => exact ⟨fun _ => rfl, fun _ => rfl⟩

theorem verifyIdentifier_eq_ok {kind name : String} :
    verifyIdentifier kind name = .ok () ↔ IsIdentifier name := by
  rw [verifyIdentifier, require_eq_ok, isIdentifier_iff]

theorem forM_eq_ok {f : α → Verified} {xs : List α} :
    xs.forM f = .ok () ↔ ∀ x ∈ xs, f x = .ok () := by
  induction xs with
  | nil => exact ⟨fun _ _ hx => absurd hx List.not_mem_nil, fun _ => rfl⟩
  | cons x xs ih => rw [List.forM, check_bind_eq_ok, ih, List.forall_mem_cons]

theorem verifyMembers_eq_ok {owner : String} {seen : List String} {members : List Member} :
    verifyMembers owner seen members = .ok () ↔
      (∀ m ∈ members, IsIdentifier m.name) ∧ Fresh seen (members.map (·.name)) := by
  induction members generalizing seen with
  | nil => exact ⟨fun _ => ⟨nofun, fresh_nil seen⟩, fun _ => rfl⟩
  | cons m rest ih =>
      simp only [verifyMembers, check_bind_eq_ok, verifyIdentifier_eq_ok, require_eq_ok, ih,
        decide_eq_true_eq, List.forall_mem_cons, List.map_cons, fresh_cons]
      tauto

theorem verifyConstants_eq_ok {owner : String} {names : List String} {values : List Literal}
    {constants : List EnumConstant} :
    verifyConstants owner names values constants = .ok () ↔
      (∀ c ∈ constants, IsIdentifier c.name) ∧ Fresh names (constants.map (·.name)) ∧
        Fresh values (constants.filterMap (·.value)) := by
  induction constants generalizing names values with
  | nil => exact ⟨fun _ => ⟨nofun, fresh_nil names, fresh_nil values⟩, fun _ => rfl⟩
  | cons c rest ih =>
      -- a constant without a value only takes its name
      cases hvalue : c.value with
      | none =>
          simp only [verifyConstants, hvalue, check_bind_eq_ok, verifyIdentifier_eq_ok,
            require_eq_ok, ih, decide_eq_true_eq, List.forall_mem_cons, List.map_cons, fresh_cons,
            List.filterMap_cons]
          tauto
      | some value =>
          simp only [verifyConstants, hvalue, check_bind_eq_ok, verifyIdentifier_eq_ok,
            require_eq_ok, ih, decide_eq_true_eq, List.forall_mem_cons, List.map_cons, fresh_cons,
            List.filterMap_cons]
          tauto

theorem verifyUnionCases_eq_ok {owner : String} {values : List Int} {cases : List UnionCase} :
    verifyUnionCases owner values cases = .ok () ↔
      (∀ c ∈ cases, IsIdentifier c.name) ∧ Fresh values (cases.map (·.value)) := by
  induction cases generalizing values with
  | nil => exact ⟨fun _ => ⟨nofun, fresh_nil values⟩, fun _ => rfl⟩
  | cons c rest ih =>
      simp only [verifyUnionCases, check_bind_eq_ok, verifyIdentifier_eq_ok, require_eq_ok, ih,
        decide_eq_true_eq, List.forall_mem_cons, List.map_cons, fresh_cons]
      tauto

theorem verifyVariantCases_eq_ok {owner : String} {kinds : List Literal}
    {cases : List VariantCase} :
    verifyVariantCases owner kinds cases = .ok () ↔ Fresh kinds (cases.map (·.kind)) := by
  induction cases generalizing kinds with
  | nil => exact ⟨fun _ => fresh_nil kinds, fun _ => rfl⟩
  | cons c rest ih =>
      simp only [verifyVariantCases, check_bind_eq_ok, require_eq_ok, ih, decide_eq_true_eq,
        List.map_cons, fresh_cons]

/-- A bound of its own fits, and so do those deeper inside. -/
theorem WireType.verifyBounds_eq_ok {owner : String} {t : WireType} :
    t.verifyBounds owner = .ok () ↔ t.BoundsFit := by
  induction t with
  | boundedOctets width max =>
      cases max with
      | none => exact ⟨fun _ _ _ hoccurs => (nomatch hoccurs), fun _ => rfl⟩
      | some max =>
          have hbits : width.bits = 0 ↔ width = .zero := by cases width <;> decide
          simp only [verifyBounds, require_eq_ok, Bool.or_eq_true, decide_eq_true_eq, hbits,
            Width.greatest_eq_maxValue]
          constructor
          · intro h w m hoccurs hw
            cases hoccurs with
            | self => exact h.resolve_left hw
          · intro h
            by_cases hw : width = .zero
            · exact .inl hw
            · exact .inr (h width max .self hw)
  | array width item ih =>
      rw [verifyBounds, ih]
      constructor
      · intro h w max hoccurs
        cases hoccurs with
        | item hitem => exact h w max hitem
      · exact fun h w max hitem => h w max (.item hitem)
  | map width key value ihk ihv =>
      rw [verifyBounds, check_bind_eq_ok, ihk, ihv]
      constructor
      · rintro ⟨hk, hv⟩ w max hoccurs
        cases hoccurs with
        | key hkey => exact hk w max hkey
        | value hvalue => exact hv w max hvalue
      · exact fun h => ⟨fun w max hk => h w max (.key hk), fun w max hv => h w max (.value hv)⟩
  | _ => exact ⟨fun _ _ _ hoccurs => (nomatch hoccurs), fun _ => rfl⟩

/-- A declaration with a proper name passes if it is well formed. -/
theorem Declaration.verify_eq_ok {d : Declaration} {q : String} :
    IsIdentifier d.name ∧ d.verify q = .ok () ↔ d.WellFormed := by
  have hparts : d.verify q = .ok () ↔
      ((∀ m ∈ d.members, IsIdentifier m.name) ∧ (d.members.map (·.name)).Nodup) ∧
        (∀ t ∈ d.referencedTypes, t.BoundsFit) ∧
        (∀ c ∈ d.constants, IsIdentifier c.name) ∧ (d.constants.map (·.name)).Nodup ∧
        (d.constants.filterMap (·.value)).Nodup ∧
        (∀ c ∈ d.unionCases, IsIdentifier c.name) ∧ (d.unionCases.map (·.value)).Nodup ∧
        (d.variantCases.map (·.kind)).Nodup := by
    unfold Declaration.verify
    simp only [check_bind_eq_ok, verifyMembers_eq_ok, forM_eq_ok, WireType.verifyBounds_eq_ok,
      fresh_empty]
    refine and_congr_right fun _ => and_congr_right fun _ => ?_
    -- only one of the views is not empty, and only that one is walked over
    cases d <;> simp [constants, unionCases, variantCases, verifyConstants_eq_ok,
      verifyUnionCases_eq_ok, verifyVariantCases_eq_ok, fresh_empty]
  rw [hparts]
  constructor
  · rintro ⟨hname, ⟨hm, hum⟩, hb, hc, huc, hucv, hu, huu, huv⟩
    exact ⟨hname, hm, hc, hu, hum, huc, hucv, huu, huv, hb⟩
  · intro h
    exact ⟨h.name, ⟨h.memberNames, h.uniqueMembers⟩, h.bounds, h.constantNames,
      h.uniqueConstants, h.uniqueConstantValues, h.caseNames, h.uniqueCaseValues,
      h.uniqueCaseKinds⟩

end Checks

section Tree

/-- Taking well-formed declarations into the qualified names that are defined,
    without defining one of them twice. -/
def Collects (defined : List String) (located : List Located) (out : List String) : Prop :=
  (∀ l ∈ located, l.declaration.WellFormed) ∧
    Fresh defined (located.map Located.qualifiedName) ∧
    out = (located.map Located.qualifiedName).reverse ++ defined

theorem collects_nil {defined out : List String} : Collects defined [] out ↔ out = defined :=
  ⟨fun h => h.2.2, fun h => ⟨nofun, fresh_nil defined, h⟩⟩

theorem collects_cons {defined out : List String} {l : Located} {rest : List Located} :
    Collects defined (l :: rest) out ↔ l.declaration.WellFormed ∧ l.qualifiedName ∉ defined ∧
      Collects (l.qualifiedName :: defined) rest out := by
  simp only [Collects, List.forall_mem_cons, List.map_cons, fresh_cons, List.reverse_cons,
    List.append_assoc, List.singleton_append]
  tauto

theorem collects_append {defined out : List String} {first second : List Located} :
    Collects defined (first ++ second) out ↔
      ∃ mid, Collects defined first mid ∧ Collects mid second out := by
  induction first generalizing defined with
  | nil => simp only [List.nil_append, collects_nil, exists_eq_left]
  | cons l rest ih => simp only [List.cons_append, collects_cons, ih, and_assoc, exists_and_left]

theorem verifyDeclarations_eq_ok {path defined out : List String}
    {declarations : List Declaration} :
    verifyDeclarations path defined declarations = .ok out ↔
      Collects defined (declarations.map (Located.mk path)) out := by
  induction declarations generalizing defined with
  | nil =>
      rw [verifyDeclarations, List.map_nil, collects_nil, Except.ok.injEq, eq_comm]
  | cons d rest ih =>
      simp only [verifyDeclarations, check_bind_eq_ok, verifyIdentifier_eq_ok, require_eq_ok, ih,
        decide_eq_true_eq, List.map_cons, collects_cons, Located.qualifiedName]
      rw [← Declaration.verify_eq_ok (q := qualify (path ++ [d.name]))]
      tauto

theorem Scope.forall_inside {name : String} {scopes : List Scope}
    {declarations : List Declaration} {P : Scope → Prop} :
    (∀ s : Scope, s.Inside (.mk name scopes declarations) → P s) ↔
      P (.mk name scopes declarations) ∧ ∀ inner ∈ scopes, ∀ s : Scope, s.Inside inner → P s := by
  constructor
  · intro h
    exact ⟨h _ .self, fun inner hinner s hs => h s (.nested hinner hs)⟩
  · rintro ⟨hself, hinner⟩ s hs
    cases hs with
    | self => exact hself
    | nested hmem hs => exact hinner _ hmem s hs

mutual

/-- A scope passes if all scopes in it have proper names and its declarations can
    be taken one after the other. -/
theorem Scope.verify_eq_ok (path defined out : List String) : (scope : Scope) →
    (scope.verify path defined = .ok out ↔
      (∀ s : Scope, s.Inside scope → IsIdentifier s.name) ∧
        Collects defined (scope.locate path) out)
  | .mk name scopes declarations => by
      rw [Scope.verify, Scope.locate, check_bind_eq_ok, except_bind_eq_ok, Scope.forall_inside,
        collects_append, verifyIdentifier_eq_ok]
      simp only [verifyDeclarations_eq_ok, Scope.verifyAll_eq_ok _ _ _ scopes]
      constructor
      · rintro ⟨hname, mid, hown, hinner, hrest⟩
        exact ⟨⟨hname, hinner⟩, mid, hown, hrest⟩
      · rintro ⟨⟨hname, hinner⟩, mid, hown, hrest⟩
        exact ⟨hname, mid, hown, hinner, hrest⟩

/-- Several scopes pass if they do one after the other. -/
theorem Scope.verifyAll_eq_ok (path defined out : List String) : (scopes : List Scope) →
    (Scope.verifyAll path defined scopes = .ok out ↔
      (∀ inner ∈ scopes, ∀ s : Scope, s.Inside inner → IsIdentifier s.name) ∧
        Collects defined (Scope.locateAll path scopes) out)
  | [] => by
      rw [Scope.verifyAll, Scope.locateAll, collects_nil, Except.ok.injEq, eq_comm]
      exact ⟨fun h => ⟨nofun, h⟩, fun h => h.2⟩
  | scope :: rest => by
      rw [Scope.verifyAll, Scope.locateAll, except_bind_eq_ok, collects_append,
        List.forall_mem_cons]
      simp only [Scope.verify_eq_ok _ _ _ scope, Scope.verifyAll_eq_ok _ _ _ rest]
      constructor
      · rintro ⟨mid, ⟨hname, hfirst⟩, hnames, hrest⟩
        exact ⟨⟨hname, hnames⟩, mid, hfirst, hrest⟩
      · rintro ⟨⟨hname, hnames⟩, mid, hfirst, hrest⟩
        exact ⟨mid, ⟨hname, hfirst⟩, hnames, hrest⟩

end

mutual

/-- A declaration stands below the path of its scope, and the names that follow
    are those of nested scopes. -/
theorem Scope.path_of_mem_locate {P : String → Prop} (path : List String)
    (hpath : ∀ name ∈ path, P name) : (scope : Scope) →
    (∀ s : Scope, s.Inside scope → P s.name) → ∀ l ∈ scope.locate path, ∀ name ∈ l.path, P name
  | .mk name scopes declarations => by
      intro hscope l hl
      rcases Scope.forall_inside.mp hscope with ⟨hname, hinner⟩
      have hlonger : ∀ n ∈ path ++ [name], P n := by
        intro n hn
        rcases List.mem_append.mp hn with hn | hn
        · exact hpath n hn
        · rw [List.mem_singleton.mp hn]
          exact hname
      rw [Scope.locate, List.mem_append] at hl
      rcases hl with hl | hl
      · rcases List.mem_map.mp hl with ⟨d, _, rfl⟩
        exact hlonger
      · exact Scope.path_of_mem_locateAll _ hlonger scopes hinner l hl

theorem Scope.path_of_mem_locateAll {P : String → Prop} (path : List String)
    (hpath : ∀ name ∈ path, P name) : (scopes : List Scope) →
    (∀ inner ∈ scopes, ∀ s : Scope, s.Inside inner → P s.name) →
    ∀ l ∈ Scope.locateAll path scopes, ∀ name ∈ l.path, P name
  | [] => fun _ l hl => absurd hl List.not_mem_nil
  | scope :: rest => by
      intro hscopes l hl
      rcases List.forall_mem_cons.mp hscopes with ⟨hscope, hrest⟩
      rw [Scope.locateAll, List.mem_append] at hl
      rcases hl with hl | hl
      · exact Scope.path_of_mem_locate path hpath scope hscope l hl
      · exact Scope.path_of_mem_locateAll path hpath rest hrest l hl

end

end Tree

section Supertypes

variable {spec : Specification}

/-- A located struct as the verifier keeps it. -/
def Located.asStruct (l : Located) (d : StructDecl) : LocatedStruct :=
  ⟨l.qualifiedName, l.scope, d⟩

theorem Located.asStruct_struct (l : Located) (d : StructDecl) : (l.asStruct d).struct = d :=
  rfl

theorem Located.asStruct_scope (l : Located) (d : StructDecl) : (l.asStruct d).scope = l.scope :=
  rfl

theorem mem_structsAmong {located : List Located} {s : LocatedStruct} :
    s ∈ structsAmong located ↔
      ∃ l ∈ located, ∃ d, l.declaration = .struct d ∧ s = l.asStruct d := by
  rw [structsAmong, List.mem_filterMap]
  refine exists_congr fun l => and_congr_right fun _ => ?_
  cases hl : l.declaration with
  | struct d =>
      simp only [Option.some.injEq, Declaration.struct.injEq, exists_eq_left']
      exact eq_comm
  | _ => simp only [reduceCtorEq, false_and, exists_false]

/-- A struct is found by its qualified name, which no other declaration has. -/
theorem find?_structsAmong {located : List Located}
    (hunique : (located.map Located.qualifiedName).Nodup) {q : String} {s : LocatedStruct} :
    (structsAmong located).find? (·.qualifiedName = q) = some s ↔
      ∃ l ∈ located, ∃ d, l.declaration = .struct d ∧ l.qualifiedName = q ∧ s = l.asStruct d := by
  have hfound : ∀ s, (structsAmong located).find? (·.qualifiedName = q) = some s →
      ∃ l ∈ located, ∃ d, l.declaration = .struct d ∧ l.qualifiedName = q ∧
        s = l.asStruct d := by
    intro s hfind
    have hname : s.qualifiedName = q := by
      simpa only [decide_eq_true_eq] using List.find?_some hfind
    rcases mem_structsAmong.mp (List.mem_of_find?_eq_some hfind) with ⟨l, hl, d, hd, rfl⟩
    exact ⟨l, hl, d, hd, hname, rfl⟩
  refine ⟨hfound s, ?_⟩
  rintro ⟨l, hl, d, hd, rfl, rfl⟩
  cases hfind : (structsAmong located).find? (·.qualifiedName = l.qualifiedName) with
  | none =>
      have hno := List.find?_eq_none.mp hfind _ (mem_structsAmong.mpr ⟨l, hl, d, hd, rfl⟩)
      exact absurd (decide_eq_true rfl) hno
  | some s =>
      rcases hfound s hfind with ⟨k, hk, e, he, hname, rfl⟩
      -- the name belongs to one declaration only
      cases List.inj_on_of_nodup_map hunique hk hl hname
      cases hd.symm.trans he
      rfl

theorem Specification.Ancestors.isStruct {l : Located} {ancestors : List Located}
    (h : spec.Ancestors l ancestors) : ∃ d, l.declaration = .struct d := by
  cases h with
  | root hl _ => exact ⟨_, hl⟩
  | step hl _ _ _ _ => exact ⟨_, hl⟩

/-- The ancestors of a struct are structs of the schema. -/
theorem Specification.Ancestors.mem_structs {l : Located} {ancestors : List Located}
    (h : spec.Ancestors l ancestors) :
    ∀ k ∈ ancestors, ∃ d, k.asStruct d ∈ structsAmong spec.located := by
  induction h with
  | root hl h => exact nofun
  | @step l parent d name rest hl h hparent hname hrest ih =>
      rcases hrest.isStruct with ⟨e, he⟩
      exact List.forall_mem_cons.mpr
        ⟨⟨e, mem_structsAmong.mpr ⟨parent, hparent, e, he, rfl⟩⟩, ih⟩

/-- A chain that does not repeat is no longer than there are structs. -/
theorem Specification.Ancestors.length_le {l : Located} {ancestors : List Located}
    (h : spec.Ancestors l ancestors) (hnodup : (ancestors.map Located.qualifiedName).Nodup) :
    ancestors.length ≤ (structsAmong spec.located).length := by
  -- different names of structs, so no more than there are structs
  have hsub : ancestors.map Located.qualifiedName ⊆
      (structsAmong spec.located).map LocatedStruct.qualifiedName := by
    intro q hq
    rcases List.mem_map.mp hq with ⟨k, hk, rfl⟩
    rcases h.mem_structs k hk with ⟨d, hd⟩
    exact List.mem_map.mpr ⟨k.asStruct d, hd, rfl⟩
  have hlength := hnodup.length_le_of_subset hsub
  rwa [List.length_map, List.length_map] at hlength

section Following

variable {defined seen : List String} {owner : String} {steps : Nat} {l : Located}
  {d : StructDecl} (hunique : (spec.located.map Located.qualifiedName).Nodup)
  (hpaths : ∀ l ∈ spec.located, ∀ name ∈ l.path, IsIdentifier name)
  (hdefined : ∀ q, q ∈ defined ↔ spec.Defines q)

include hpaths hdefined in
theorem searchOutward_located (hl : l ∈ spec.located) (name q : String) :
    searchOutward (· ∈ defined) l.scope name = some q ↔ Resolves spec.Defines name l.path q := by
  have hsame : (fun q => decide (q ∈ defined) = true) = spec.Defines := by
    funext q
    rw [decide_eq_true_eq, hdefined]
  rw [← hsame]
  exact searchOutward_eq_some_iff _ (hpaths l hl) name q

include hunique hpaths hdefined

/-- A struct without a supertype passes. Any other one passes if its supertype is
    a struct that was not seen, and that one passes with a step less. -/
theorem verifySupertypes_step (hl : l ∈ spec.located) :
    verifySupertypes defined (structsAmong spec.located) owner steps seen (l.asStruct d) =
        .ok () ↔
      d.supertype = none ∨ ∃ name parent e k, d.supertype = some name ∧ parent ∈ spec.located ∧
        parent.declaration = .struct e ∧
        Resolves spec.Defines name l.path parent.qualifiedName ∧
        parent.qualifiedName ∉ seen ∧ steps = k + 1 ∧
        verifySupertypes defined (structsAmong spec.located) owner k
          (parent.qualifiedName :: seen) (parent.asStruct e) = .ok () := by
  have hsearch := searchOutward_located hpaths hdefined hl
  rw [verifySupertypes, Located.asStruct_struct, Located.asStruct_scope]
  cases hsuper : d.supertype with
  | none => simp only [true_or]
  | some name =>
      simp only [reduceCtorEq, false_or]
      constructor
      · intro h
        cases hq : searchOutward (· ∈ defined) l.scope name with
        | none =>
            rw [hq] at h
            exact nomatch h
        | some q =>
            cases hfind : (structsAmong spec.located).find? (·.qualifiedName = q) with
            | none =>
                simp only [hq, hfind] at h
                exact nomatch h
            | some s =>
                simp only [hq, hfind] at h
                rcases (find?_structsAmong hunique).mp hfind with
                  ⟨parent, hparent, e, he, rfl, rfl⟩
                by_cases hseen : parent.qualifiedName ∈ seen
                · rw [if_pos hseen] at h
                  exact nomatch h
                · rw [if_neg hseen] at h
                  cases steps with
                  | zero => exact nomatch h
                  | succ k =>
                      exact ⟨name, parent, e, k, rfl, hparent, he, (hsearch _ _).mp hq, hseen,
                        rfl, h⟩
      · rintro ⟨_, parent, e, k, hname, hparent, he, hresolves, hseen, rfl, h⟩
        cases hname
        have hq := (hsearch _ _).mpr hresolves
        have hfind := (find?_structsAmong hunique).mpr ⟨parent, hparent, e, he, rfl, rfl⟩
        simp only [hq, hfind]
        rw [if_neg hseen]
        exact h

/-- A struct passes if it has a chain of supertypes that ends within the given
    number of steps, without a name that was seen before. -/
theorem verifySupertypes_eq_ok (hl : l ∈ spec.located) (hd : l.declaration = .struct d) :
    verifySupertypes defined (structsAmong spec.located) owner steps seen (l.asStruct d) =
        .ok () ↔
      ∃ ancestors, spec.Ancestors l ancestors ∧
        Fresh seen (ancestors.map Located.qualifiedName) ∧ ancestors.length ≤ steps := by
  constructor
  · intro h
    -- what is left of the bound decreases along the chain
    induction steps generalizing seen l d with
    | zero =>
        rcases (verifySupertypes_step hunique hpaths hdefined hl).mp h with
          hsuper | ⟨_, _, _, k, _, _, _, _, _, hsteps, _⟩
        · exact ⟨[], .root hd hsuper, fresh_nil seen, Nat.le_refl 0⟩
        · exact absurd hsteps (Nat.zero_ne_add_one k)
    | succ steps ih =>
        rcases (verifySupertypes_step hunique hpaths hdefined hl).mp h with
          hsuper | ⟨name, parent, e, k, hsuper, hparent, he, hresolves, hseen, hsteps, hrest⟩
        · exact ⟨[], .root hd hsuper, fresh_nil seen, Nat.zero_le _⟩
        · cases hsteps
          rcases ih hparent he hrest with ⟨ancestors, hchain, hfresh, hlength⟩
          exact ⟨parent :: ancestors, .step hd hsuper hparent hresolves hchain,
            fresh_cons.mpr ⟨hseen, hfresh⟩, Nat.succ_le_succ hlength⟩
  · rintro ⟨ancestors, hchain, hfresh, hlength⟩
    induction hchain generalizing steps seen d with
    | root hroot hsuper =>
        cases hd.symm.trans hroot
        exact (verifySupertypes_step hunique hpaths hdefined hl).mpr (.inl hsuper)
    | @step l parent e name rest hstep hsuper hparent hresolves hrest ih =>
        cases hd.symm.trans hstep
        rcases hrest.isStruct with ⟨f, hf⟩
        -- each ancestor takes one of the steps that are left
        rcases fresh_cons.mp hfresh with ⟨hseen, hfresh⟩
        rcases Nat.exists_eq_add_of_le' hlength with ⟨k, hk⟩
        refine (verifySupertypes_step hunique hpaths hdefined hl).mpr
          (.inr ⟨name, parent, f, rest.length + k, hsuper, hparent, hf, hresolves, hseen, ?_, ?_⟩)
        · rw [hk, List.length_cons]
          omega
        · exact ih hparent hf hfresh (Nat.le_add_right _ _)

/-- All structs pass if the chains of all of them end without repeating. -/
theorem verifySupertypes_all :
    (∀ s ∈ structsAmong spec.located, verifySupertypes defined (structsAmong spec.located)
        s.qualifiedName (structsAmong spec.located).length [s.qualifiedName] s = .ok ()) ↔
      ∀ l ∈ spec.located, ∀ d, l.declaration = .struct d →
        ∃ ancestors, spec.Ancestors l ancestors ∧
          ((l :: ancestors).map Located.qualifiedName).Nodup := by
  constructor
  · intro h l hl d hd
    have hpasses := h (l.asStruct d) (mem_structsAmong.mpr ⟨l, hl, d, hd, rfl⟩)
    rcases (verifySupertypes_eq_ok hunique hpaths hdefined hl hd).mp hpasses with
      ⟨ancestors, hchain, hfresh, _⟩
    exact ⟨ancestors, hchain, fresh_singleton.mp hfresh⟩
  · intro h s hs
    rcases mem_structsAmong.mp hs with ⟨l, hl, d, hd, rfl⟩
    rcases h l hl d hd with ⟨ancestors, hchain, hnodup⟩
    have hfresh := fresh_singleton.mpr hnodup
    exact (verifySupertypes_eq_ok hunique hpaths hdefined hl hd).mpr
      ⟨ancestors, hchain, hfresh, hchain.length_le hfresh.1⟩

end Following

end Supertypes

/-- A well-formed schema is accepted. -/
theorem Specification.verify_of_wellFormed {spec : Specification} (h : spec.WellFormed) :
    spec.verify = .ok () := by
  have hcollects := (Scope.verify_eq_ok [] [] _ spec.scope).mpr
    ⟨h.scopeNames, h.declarations, fresh_empty.mpr h.uniqueNames, rfl⟩
  rw [Specification.verify, except_bind_eq_ok]
  refine ⟨_, hcollects,
    forM_eq_ok.mpr ((verifySupertypes_all h.uniqueNames ?_ ?_).mpr h.supertypes)⟩
  · exact Scope.path_of_mem_locate [] (List.forall_mem_nil IsIdentifier) spec.scope h.scopeNames
  · intro q
    rw [List.append_nil, List.mem_reverse, Defines]
    rfl

/-- A schema is accepted exactly when it is well formed: its names are
    identifiers, what has to be unique is, bounds fit their prefixes, and from
    every struct the chain of supertypes consists of structs and ends without
    repeating. -/
theorem Specification.verify_iff_wellFormed (spec : Specification) :
    spec.verify = .ok () ↔ spec.WellFormed := by
  have hdefined : ∀ q, q ∈ (spec.located.map Located.qualifiedName).reverse ++ [] ↔
      spec.Defines q := by
    intro q
    rw [List.append_nil, List.mem_reverse, Defines]
  have hpaths : (∀ s : Scope, s.Inside spec.scope → IsIdentifier s.name) →
      ∀ l ∈ spec.located, ∀ name ∈ l.path, IsIdentifier name :=
    Scope.path_of_mem_locate [] nofun spec.scope
  rw [Specification.verify, except_bind_eq_ok]
  simp only [Scope.verify_eq_ok, forM_eq_ok]
  constructor
  · rintro ⟨_, ⟨hscopes, hdecls, hfresh, rfl⟩, hsupers⟩
    have hunique := fresh_empty.mp hfresh
    exact ⟨hscopes, hdecls, hunique,
      (verifySupertypes_all hunique (hpaths hscopes) hdefined).mp hsupers⟩
  · intro h
    exact ⟨_, ⟨h.scopeNames, h.declarations, fresh_empty.mpr h.uniqueNames, rfl⟩,
      (verifySupertypes_all h.uniqueNames (hpaths h.scopeNames) hdefined).mpr h.supertypes⟩

end Wireform
