import Wireform.Proofs.EnumLookup
import Wireform.Proofs.StructLayout

/-!
# The Names in a Description

Where the names of methods and of constants come from.

A description has methods and constants of its own kind, and others for each of its
fields. The methods of a field are called like the field, those of a variant with
another word before it. The constants of a field are called like it in upper case, with
a stem before it that says what they are. A list has one more method for each member
that may be left out.

`Spells` says this for all kinds of declarations at once, so that what follows from it
is asked about lists of texts and not about descriptions.

## Main definitions

* `Declaration.reservedReaders`, `Declaration.reservedSetters`,
  `Declaration.reservedConstants`: Names that a description has whatever its fields are
  called.
* `Declaration.readerName`, `Declaration.setterName`: The methods of a field.
* `Declaration.stems`: What stands before the names of fields in those of constants.
* `TypeDescription.Spells`: Where the names of a description come from.

## Theorems

* `names_of_mapM_field`: Fields have the names of members.
* `spells_of_filled`: The names of a description that is filled with fields.
* `describeStruct_spells`, `describeListDecl_spells`, `describeUnion_spells`,
  `describeVariant_spells`, `describeEnum_spells`, `describeMapDecl_spells`: The names of
  a description, by the kind of what is described.
-/

namespace Wireform

open Checked

/-- The methods of the builder, if there is one. -/
def TypeDescription.builderMethods (made : TypeDescription) : List Method :=
  match made.builder with
  | some builder => builder.methods
  | none => []

namespace Declaration

/-- The reader methods that a description has whatever its fields are called. A list has
    methods that tell whether a member is present, for those that may be left out. -/
def reservedReaders (d : Declaration) : List String :=
  ["try_wrap", "wrap", "limit", "sizeof"] ++
    match d with
    | .struct d => if d.typeId.isSome then ["type_id"] else []
    | .enum _ => ["get", "value", "value_of"]
    | .list d =>
        ["length", "field_count"] ++ (d.members.filter (·.default.isSome)).map ("has_" ++ ·.name)
    | .map _ => ["length", "field_count", "is_empty", "for_each"]
    | .union _ => ["kind"]
    | .variant _ => ["kind", "get"]
    | .typedef _ => []

/-- The builder methods that a description has whatever its fields are called. -/
def reservedSetters : Declaration → List String
  | .enum _ | .variant _ => ["set", "build"]
  | .map _ => ["entry", "build"]
  | _ => ["build"]

/-- The reader method of a field. -/
def readerName (d : Declaration) (name : String) : String :=
  match d with
  | .variant _ => "get_" ++ name
  | _ => name

/-- The builder method of a field. -/
def setterName (d : Declaration) (name : String) : String :=
  match d with
  | .variant _ => "set_" ++ name
  | _ => name

/-- The constants that a description has whatever its fields are called. -/
def reservedConstants : Declaration → List String
  | .struct d => if d.typeId.isSome then ["TYPE_ID"] else []
  | .enum d => d.constants.map (·.name)
  | .list _ => ["FIELD_OFFSET_BIT_MASK", "FIELD_SIZE_BIT_MASK"]
  | .map _ => ["KEY_TYPE", "VALUE_TYPE"]
  | .union _ => ["FIELD_OFFSET_KIND", "FIELD_SIZE_KIND"]
  | _ => []

/-- What stands before the name of a field in the names of its constants. -/
def stems (d : Declaration) (f : FieldDescription) : List String :=
  match d with
  | .struct _ =>
      (if f.offset.isSome then ["FIELD_OFFSET_"] else []) ++
        ((if f.size.isSome then ["FIELD_SIZE_"] else []) ++
          if f.default.isSome then ["DEFAULT_"] else [])
  | .list _ => "INDEX_" :: if f.default.isSome then ["DEFAULT_"] else []
  | .union _ => ["KIND_"]
  | _ => []

end Declaration

/-- The names of a description of fields with the given names. -/
structure TypeDescription.Spells (made : TypeDescription) (d : Declaration)
    (names : List String) : Prop where
  fields : made.fields.map (·.name) = names
  readers : (made.methods.map (·.name)).Perm (d.reservedReaders ++ names.map d.readerName)
  setters : (made.builderMethods.map (·.name)).Perm (d.reservedSetters ++ names.map d.setterName)
  constants : made.constants.map (·.name) =
    d.reservedConstants ++ made.fields.flatMap fun f => (d.stems f).map (constantName · f.name)

/-- But for a variant, methods are called like the fields they are for. -/
theorem Declaration.map_methodNames {d : Declaration} (h : ∀ v, d ≠ .variant v)
    (names : List String) : names.map d.readerName = names ∧ names.map d.setterName = names := by
  cases d with
  | variant v => exact absurd rfl (h v)
  | _ => exact ⟨List.map_id names, List.map_id names⟩

/-- Fields have the names of the members that they describe. -/
theorem names_of_mapM_field {α : Type} {site : Site} (member : α → Member) {offset : Option Nat}
    {xs : List α} {fields : List FieldDescription}
    (h : xs.mapM (fun x => site.field (member x) offset) = .ok fields) :
    fields.map (·.name) = xs.map fun x => (member x).name := by
  refine map_eq_map_of_forall₂ (mapM_eq_ok.mp h).flip fun f x hfield => ?_
  rcases Site.field_eq_ok hfield with ⟨_, _, _, _, _, _, _, _, rfl⟩
  rfl

theorem names_settersOf (fields : List FieldDescription) :
    (settersOf fields).map (·.name) = fields.map (·.name) := by
  calc (settersOf fields).map (·.name)
      = (fields.zipIdx.map Prod.fst).map (·.name) := by
        rw [settersOf, List.map_map, List.map_map]
        rfl
    _ = fields.map (·.name) := by rw [List.zipIdx_map_fst]

theorem names_optionalConstant (name : String) (value : Option Literal) :
    (optionalConstant name value).map (·.name) = if value.isSome then [name] else [] := by
  cases value <;> rfl

theorem names_layoutConstants (f : FieldDescription) (d : StructDecl) :
    (layoutConstants f).map (·.name) =
      ((Declaration.struct d).stems f).map (constantName · f.name) := by
  rw [layoutConstants, List.append_assoc]
  simp only [List.map_append, names_optionalConstant, Option.isSome_map, Declaration.stems]
  split <;> split <;> split <;> rfl

theorem names_indexConstants (fields : List FieldDescription) (d : ListDecl) :
    (fields.zipIdx.flatMap fun (f, index) => indexConstants f index).map (·.name) =
      fields.flatMap fun f => ((Declaration.list d).stems f).map (constantName · f.name) := by
  have hfield : ∀ f index, (indexConstants f index).map (·.name) =
      ((Declaration.list d).stems f).map (constantName · f.name) := by
    intro f index
    rw [indexConstants, List.map_cons, names_optionalConstant, Declaration.stems]
    split <;> rfl
  -- where a member stands is no part of its name
  have hfst := List.flatMap_map Prod.fst
    (fun f => ((Declaration.list d).stems f).map (constantName · f.name)) fields.zipIdx
  rw [List.zipIdx_map_fst] at hfst
  rw [List.map_flatMap, hfst]
  simp only [hfield]

/-- The names of a description that has been filled with fields. -/
theorem spells_of_filled (site : Site) (family : String) (limit : LimitRule) {d : Declaration}
    {methods setters : List Method} {constants : List ConstantDescription}
    {fields : List FieldDescription} {required names : List String}
    (hfields : fields.map (·.name) = names)
    (hreaders : (["try_wrap", "wrap", "limit", "sizeof"] ++ methods.map (·.name)).Perm
      (d.reservedReaders ++ names.map d.readerName))
    (hsetters : (setters.map (·.name) ++ ["build"]).Perm
      (d.reservedSetters ++ names.map d.setterName))
    (hconstants : constants.map (·.name) =
      d.reservedConstants ++ fields.flatMap fun f => (d.stems f).map (constantName · f.name)) :
    TypeDescription.Spells
      (TypeDescription.withBuilder
        { (site.reader family limit).withMethods methods with constants, fields }
        setters required) d names where
  fields := hfields
  readers := by
    rw [TypeDescription.withBuilder, TypeDescription.withMethods, List.map_append]
    exact hreaders
  setters := by
    rw [TypeDescription.builderMethods, TypeDescription.withBuilder, List.map_append]
    exact hsetters
  constants := hconstants

theorem describeStruct_spells {site : Site} {d : StructDecl} {made : TypeDescription}
    (h : describeStruct site d = .ok made) {names : List String}
    (hnames : made.fields.map (·.name) = names) : made.Spells (.struct d) names := by
  rcases Checked.bind_eq_ok.mp h with ⟨members, _, h⟩
  rcases Checked.bind_eq_ok.mp h with ⟨fields, _, h⟩
  cases h
  change fields.map (·.name) = names at hnames
  have hreaders : (fields.map accessorOf).map (·.name) = names := by
    rw [List.map_map, ← hnames]
    rfl
  have hmethods := Declaration.map_methodNames (d := .struct d) (fun _ => Declaration.noConfusion)
    names
  refine spells_of_filled site "struct" .members hnames ?_ ?_ ?_
  · rw [hmethods.1, List.map_append, hreaders, Declaration.reservedReaders]
    cases d.typeId <;> exact .refl _
  · rw [hmethods.2, names_settersOf, hnames]
    exact List.perm_append_comm
  · simp only [List.map_append, List.map_flatMap, names_optionalConstant,
      names_layoutConstants _ d, Declaration.reservedConstants]
    cases d.typeId <;> rfl

/-- Every member of a list has a method, and those that may be left out have another
    one. -/
theorem names_presentAccessors (fields : List FieldDescription) :
    ((fields.flatMap presentAccessors).map (·.name)).Perm
      ((fields.filter (!·.required)).map ("has_" ++ ·.name) ++ fields.map (·.name)) := by
  induction fields with
  | nil => exact .refl _
  | cons f rest ih =>
      have hfirst := (ih.cons f.name).trans List.perm_middle.symm
      rw [List.flatMap_cons, List.map_append, presentAccessors, List.filter_cons]
      cases f.required with
      | true => exact hfirst
      | false => exact (List.Perm.swap _ _ _).trans (hfirst.cons ("has_" ++ f.name))

theorem describeListDecl_spells {site : Site} {d : ListDecl} {made : TypeDescription}
    (h : describeListDecl site d = .ok made) :
    made.Spells (.list d) (d.members.map (·.name)) := by
  rcases Checked.bind_eq_ok.mp h with ⟨size, _, h⟩
  by_cases hlong : d.members.length > maskSize * 8
  · rw [if_pos hlong] at h
    cases h
  rw [if_neg hlong] at h
  rcases Checked.bind_eq_ok.mp h with ⟨fields, hfields, h⟩
  have hnames := names_of_mapM_field (fun m => m) hfields
  -- a member may be left out exactly if it has a default
  have hpresences : (fields.filter (!·.required)).map ("has_" ++ ·.name) =
      (d.members.filter (·.default.isSome)).map ("has_" ++ ·.name) := by
    have hdescribed := (mapM_eq_ok.mp hfields).flip
    have hsame : ∀ (f : FieldDescription) (m : Member), site.field m none = .ok f →
        f.name = m.name ∧ f.required = m.default.isNone := by
      intro f m hfield
      rcases Site.field_eq_ok hfield with ⟨_, _, _, _, _, _, _, _, rfl⟩
      exact ⟨rfl, rfl⟩
    refine map_eq_map_of_forall₂ (List.rel_filter ?_ hdescribed) fun f m hfield => ?_
    · intro f m hfield
      dsimp only
      rw [(hsame f m hfield).2, Option.not_isNone]
    · rw [(hsame f m hfield).1]
  have hmethods := Declaration.map_methodNames (d := .list d) (fun _ => Declaration.noConfusion)
    (d.members.map (·.name))
  cases h
  refine spells_of_filled site "list" (.sequence size) hnames ?_ ?_ ?_
  · rw [hmethods.1, List.map_append, Declaration.reservedReaders, ← hpresences, ← hnames]
    exact ((names_presentAccessors fields).append_left ["length", "field_count"]).append_left
      ["try_wrap", "wrap", "limit", "sizeof"]
  · rw [hmethods.2, names_settersOf, hnames]
    exact List.perm_append_comm
  · rw [List.map_append, names_indexConstants fields d]
    rfl

theorem names_zip_fst {α : Type} (name : α → String) {xs : List α}
    {fields : List FieldDescription} (h : xs.length = fields.length) :
    (xs.zip fields).map (fun p => name p.1) = xs.map name := by
  calc (xs.zip fields).map (fun p => name p.1)
      = ((xs.zip fields).map Prod.fst).map name := (List.map_map ..).symm
    _ = xs.map name := by rw [List.map_fst_zip (Nat.le_of_eq h)]

theorem names_zip_snd {α : Type} (name : FieldDescription → String) {xs : List α}
    {fields : List FieldDescription} (h : xs.length = fields.length) :
    (xs.zip fields).map (fun p => name p.2) = fields.map name := by
  calc (xs.zip fields).map (fun p => name p.2)
      = ((xs.zip fields).map Prod.snd).map name := (List.map_map ..).symm
    _ = fields.map name := by rw [List.map_snd_zip (Nat.le_of_eq h.symm)]

theorem describeUnion_spells {site : Site} {d : UnionDecl} {made : TypeDescription}
    (h : describeUnion site d = .ok made) :
    made.Spells (.union d) (d.cases.map (·.name)) := by
  rcases Checked.bind_eq_ok.mp h with ⟨size, _, h⟩
  rcases Checked.bind_eq_ok.mp h with ⟨kind, _, h⟩
  rcases Checked.bind_eq_ok.mp h with ⟨fields, hfields, h⟩
  have hnames : fields.map (·.name) = d.cases.map (·.name) :=
    names_of_mapM_field (fun c : UnionCase => { name := c.name, type := c.type }) hfields
  have hcases := names_zip_fst UnionCase.name (mapM_eq_ok.mp hfields).length_eq
  have hmethods := Declaration.map_methodNames (d := .union d) (fun _ => Declaration.noConfusion)
    (d.cases.map (·.name))
  cases h
  refine spells_of_filled site "union" (.dispatch kind) hnames ?_ ?_ ?_
  · rw [hmethods.1, List.map_cons, List.map_map]
    exact .of_eq (congrArg (_ ++ _ :: ·) hcases)
  · rw [hmethods.2, List.map_map]
    exact (List.perm_append_comm).trans (.of_eq (congrArg (_ ++ ·) hcases))
  · have hconstants : (d.cases.map fun c => constantName "KIND_" c.name) =
        fields.flatMap fun f => [constantName "KIND_" f.name] := by
      calc (d.cases.map fun c => constantName "KIND_" c.name)
          = (d.cases.map (·.name)).map (constantName "KIND_") := by
            rw [List.map_map]
            rfl
        _ = fields.map fun f => constantName "KIND_" f.name := by
            rw [← hnames, List.map_map]
            rfl
        _ = fields.flatMap fun f => [constantName "KIND_" f.name] := List.map_eq_flatMap
    rw [unionConstants, List.map_cons, List.map_cons, List.map_map]
    exact congrArg (_ :: _ :: ·) hconstants

/-- The fields of a variant are read and written by methods with other names. -/
theorem describeVariant_spells {site : Site} {d : VariantDecl} {made : TypeDescription}
    (h : describeVariant site d = .ok made) :
    made.Spells (.variant d) (d.cases.map (caseName ·.kind)) := by
  rcases Checked.bind_eq_ok.mp h with ⟨constants, _, h⟩
  dsimp only at h
  split at h
  · cases h
  rcases Checked.bind_eq_ok.mp h with ⟨common, _, h⟩
  rcases Checked.bind_eq_ok.mp h with ⟨value, _, h⟩
  rcases Checked.bind_eq_ok.mp h with ⟨kind, _, h⟩
  rcases Checked.bind_eq_ok.mp h with ⟨size, _, h⟩
  rcases Checked.bind_eq_ok.mp h with ⟨fields, hfields, h⟩
  have hnames : fields.map (·.name) = d.cases.map (caseName ·.kind) :=
    names_of_mapM_field (fun c : VariantCase => { name := caseName c.kind, type := c.type }) hfields
  have hcases (stem : String) : (d.cases.zip fields).map (fun p => stem ++ p.2.name) =
      (d.cases.map (caseName ·.kind)).map (stem ++ ·) := by
    rw [names_zip_snd (stem ++ ·.name) (mapM_eq_ok.mp hfields).length_eq, ← hnames, List.map_map]
    rfl
  cases h
  refine spells_of_filled site "variant" (.dispatch kind) hnames ?_ ?_ ?_
  · rw [List.map_append, List.map_map]
    exact .of_eq
      (congrArg (["try_wrap", "wrap", "limit", "sizeof", "kind", "get"] ++ ·) (hcases "get_"))
  · rw [List.map_cons, List.map_map]
    have hsetters := congrArg (· ++ ["build"]) (hcases "set_")
    exact (List.Perm.of_eq hsetters |>.trans List.perm_append_comm).cons "set"
  · exact (List.flatMap_eq_nil_iff.mpr fun f _ => rfl).symm

theorem describeEnum_spells {site : Site} {d : EnumDecl} {made : TypeDescription}
    (h : describeEnum site d = .ok made) : made.Spells (.enum d) [] := by
  have hconstants := (describeEnum_eq_ok h).2.1
  rcases Checked.bind_eq_ok.mp h with ⟨values, _, h⟩
  rcases Checked.bind_eq_ok.mp h with ⟨encoding, _, h⟩
  cases h
  refine ⟨rfl, .refl _, .refl _, ?_⟩
  rw [hconstants, d.map_name_assigned]
  exact (List.append_nil _).symm

theorem describeMapDecl_spells {site : Site} {d : MapDecl} {made : TypeDescription}
    (h : describeMapDecl site d = .ok made) : made.Spells (.map d) [] := by
  rcases Checked.bind_eq_ok.mp h with ⟨size, _, h⟩
  rcases Checked.bind_eq_ok.mp h with ⟨key, _, h⟩
  rcases Checked.bind_eq_ok.mp h with ⟨value, _, h⟩
  cases h
  exact ⟨rfl, .refl _, .refl _, rfl⟩

end Wireform
