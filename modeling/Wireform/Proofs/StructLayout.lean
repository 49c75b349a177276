import Wireform.Proofs.FixedSizes
import Wireform.Proofs.Inheritance
import Wireform.Proofs.References

/-!
# How Structs Are Laid Out

The description of a struct against the declarations it was made from.

The fields are the members of the struct and of its ancestors, from the top, and a
member is described as it is seen by the struct that declares it. `Describes` says
what that means for one member, with names that are resolved on paths and sizes
that are read off declarations, so that it mentions no table, no site and no number
of steps.

All that is counted is counted in one pass. An offset is there as long as everything
before it has a size, and then is the sum of these sizes: the pass carries the sum
along and drops it at the first size that is missing. The constants follow the
fields in the same pass, up to three of them for each, and are told apart by their
stems, which are not the beginning of one another.

## Main definitions

* `Specification.Identifies`, `Specification.IdentifiesValue`: What a type, and what its
  values are called, with names seen from a path.
* `Specification.SizesMember`: The bytes of a member; absent where they vary.
* `Specification.Describes`: A field describes a member of a struct.
* `declaredMembers`: The members of several structs, with the struct of each.
* `ConstantDescription.hasStem`: The name of a constant starts in a certain way.

## Theorems

* `Site.describes_of_field`: A field describes its member.
* `offset_eq_some_iff`: The offset of a field is the sum of the sizes before it.
* `filter_layoutConstants`: The constants with a stem, field by field.
* `struct_laid_out`: Fields, offsets, constants, setters and required members.
-/

namespace Wireform

/-! ## What a field says about its member -/

/-- The identity of a type, with names seen from a path. -/
def Specification.Identifies (spec : Specification) (options : Options) (path : List String) :
    WireType → Identity → Prop
  | .named name, identity =>
      ∃ l ∈ spec.located, Resolves spec.Defines name path l.qualifiedName ∧
        identity = (l.entry options).identity
  | type, identity =>
      (NameTable.ofSpecification spec options).builtinIdentity? type = some identity

/-- The identity of the values of a type, with names seen from a path. It is wider for
    unsigned types. -/
def Specification.IdentifiesValue (spec : Specification) (options : Options) (path : List String)
    (type : WireType) (identity : Identity) : Prop :=
  match (NameTable.ofSpecification spec options).unsignedIdentity? type with
  | some wide => identity = wide
  | none => spec.Identifies options path type identity

/-- The bytes of a member, with names seen from a path; absent where they vary. They
    are those of its type, or of an array with a declared number of items. -/
def Specification.SizesMember (spec : Specification) (path : List String) (m : Member)
    (size : Option Nat) : Prop :=
  ∃ own, spec.SizesType path m.type own ∧
    match own, m.type, m.size with
    | some n, _, _ => size = some n
    | none, .array width item, some count =>
        ∃ each, spec.SizesType path item each ∧
          size = each.map fun n => 2 * width.size + count * n
    | none, _, _ => size = none

/-- The field describes a member of the struct, with the names in it seen from where
    the struct stands. -/
structure Specification.Describes (spec : Specification) (options : Options) (owner : Located)
    (m : Member) (f : FieldDescription) : Prop where
  name : f.name = m.name
  wireType : f.wireType = m.type.display
  identity : spec.Identifies options owner.path m.type f.identity
  valueIdentity : spec.IdentifiesValue options owner.path m.type f.valueIdentity
  parameters : List.Forall₂ (spec.Identifies options owner.path) m.type.elements f.parameters
  size : spec.SizesMember owner.path m f.size
  required : f.required = m.default.isNone
  default : f.default = m.default
  byteOrder : f.byteOrder = m.byteOrder

section Members

theorem Site.identityIn?_of_identityOf {site : Site} {type : WireType} {identity : Identity}
    (h : site.identityOf type = .ok identity) :
    site.table.identityIn? site.scope type = some identity := by
  rw [identityOf] at h
  cases hfound : site.table.identityIn? site.scope type with
  | none =>
      rw [hfound] at h
      cases h
  | some found =>
      rw [hfound] at h
      exact congrArg some (Except.ok.inj h)

theorem Site.valueIdentityIn?_of_valueIdentityOf {site : Site} {type : WireType}
    {identity : Identity} (h : site.valueIdentityOf type = .ok identity) :
    site.table.valueIdentityIn? site.scope type = some identity := by
  rw [valueIdentityOf] at h
  cases hfound : site.table.valueIdentityIn? site.scope type with
  | none =>
      rw [hfound] at h
      cases h
  | some found =>
      rw [hfound] at h
      exact congrArg some (Except.ok.inj h)

variable {spec : Specification} {options : Options} {site : Site}
  (hunique : (spec.located.map Located.qualifiedName).Nodup)
  (hpaths : ∀ l ∈ spec.located, ∀ name ∈ l.path, IsIdentifier name)
  (htable : site.table = NameTable.ofSpecification spec options) {l : Located}
  (hl : l ∈ spec.located)

include hunique hpaths htable hl

theorem Site.identifies_of_identityIn? {type : WireType} {identity : Identity}
    (h : site.table.identityIn? l.scope type = some identity) :
    spec.Identifies options l.path type identity := by
  rw [htable] at h
  cases type with
  | named name =>
      rcases Option.bind_eq_some_iff.mp h with ⟨q, hq, h⟩
      rcases Option.bind_eq_some_iff.mp h with ⟨entry, hentry, h⟩
      rcases (lookup?_ofSpecification hunique).mp hentry with ⟨k, hk, rfl, rfl⟩
      have hresolves := (qualify?_ofSpecification hpaths hl name _).mp hq
      exact ⟨k, hk, hresolves, (Option.some.inj h).symm⟩
  | _ => exact h

theorem Site.identifies_of_identityOf {type : WireType} {identity : Identity}
    (h : (site.inScope l.scope).identityOf type = .ok identity) :
    spec.Identifies options l.path type identity :=
  Site.identifies_of_identityIn? hunique hpaths htable hl (Site.identityIn?_of_identityOf h)

theorem Site.identifiesValue_of_valueIdentityOf {type : WireType} {identity : Identity}
    (h : (site.inScope l.scope).valueIdentityOf type = .ok identity) :
    spec.IdentifiesValue options l.path type identity := by
  have hfound : (site.table.unsignedIdentity? type <|> site.table.identityIn? l.scope type) =
      some identity := Site.valueIdentityIn?_of_valueIdentityOf h
  rw [Specification.IdentifiesValue, ← htable]
  -- the wider identity comes first, where there is one
  cases hwide : site.table.unsignedIdentity? type with
  | some wide =>
      rw [hwide] at hfound
      exact (Option.some.inj hfound).symm
  | none =>
      rw [hwide] at hfound
      exact Site.identifies_of_identityIn? hunique hpaths htable hl hfound

theorem Site.identifies_of_parameters {type : WireType} {parameters : List Identity}
    (h : (site.inScope l.scope).parameters type = .ok parameters) :
    List.Forall₂ (spec.Identifies options l.path) type.elements parameters := by
  cases type with
  | array width item =>
      rcases Checked.bind_eq_ok.mp h with ⟨identity, hitem, h⟩
      cases h
      exact .cons (Site.identifies_of_identityOf hunique hpaths htable hl hitem) .nil
  | map width key value =>
      rcases Checked.bind_eq_ok.mp h with ⟨keyIdentity, hkey, h⟩
      rcases Checked.bind_eq_ok.mp h with ⟨valueIdentity, hvalue, h⟩
      cases h
      exact .cons (Site.identifies_of_identityOf hunique hpaths htable hl hkey)
        (.cons (Site.identifies_of_identityOf hunique hpaths htable hl hvalue) .nil)
  | _ =>
      cases h
      exact .nil

theorem Site.sizesMember_of_memberSize {m : Member} {size : Option Nat}
    (h : (site.inScope l.scope).memberSize m = .ok size) : spec.SizesMember l.path m size := by
  rcases Checked.bind_eq_ok.mp h with ⟨own, hown, h⟩
  refine ⟨own, sizesType_of_fixedSize hunique hpaths htable hl hown, ?_⟩
  -- items are counted only where the type itself has no size
  cases own with
  | some n =>
      cases h
      rfl
  | none =>
      rcases m with ⟨name, type, default, count, order⟩
      cases type with
      | array width item =>
          cases count with
          | none =>
              cases h
              rfl
          | some count =>
              rcases Checked.bind_eq_ok.mp h with ⟨each, heach, h⟩
              refine ⟨each, sizesType_of_fixedSize hunique hpaths htable hl heach, ?_⟩
              cases each with
              | none =>
                  cases h
                  rfl
              | some n =>
                  rcases Checked.bind_eq_ok.mp h with ⟨items, hitems, h⟩
                  rcases Checked.bind_eq_ok.mp h with ⟨total, htotal, h⟩
                  rw [← Except.ok.inj h, Word.add_eq_ok htotal, Word.mul_eq_ok hitems,
                    Width.bytes_eq_size]
                  rfl
      | _ =>
          cases h
          rfl

/-- A field describes its member, whatever offset it is given. -/
theorem Site.describes_of_field {m : Member} {offset : Option Nat} {f : FieldDescription}
    (h : (site.inScope l.scope).field m offset = .ok f) : spec.Describes options l m f := by
  rcases Site.field_eq_ok h with
    ⟨parameters, size, identity, valueIdentity, hparameters, hsize, hidentity, hvalue, rfl⟩
  exact {
    name := rfl
    wireType := rfl
    identity := Site.identifies_of_identityOf hunique hpaths htable hl hidentity
    valueIdentity := Site.identifiesValue_of_valueIdentityOf hunique hpaths htable hl hvalue
    parameters := Site.identifies_of_parameters hunique hpaths htable hl hparameters
    size := Site.sizesMember_of_memberSize hunique hpaths htable hl hsize
    required := rfl
    default := rfl
    byteOrder := rfl }

end Members

/-! ## Offsets -/

section Offsets

theorem Site.offset_of_field {site : Site} {m : Member} {offset : Option Nat}
    {f : FieldDescription} (h : site.field m offset = .ok f) : f.offset = offset := by
  rcases Site.field_eq_ok h with ⟨_, _, _, _, _, _, _, _, rfl⟩
  rfl

/-- The offset behind a field is there if its own offset and its size are. -/
theorem nextOffset_eq_ok {offset size next : Option Nat} (h : nextOffset offset size = .ok next)
    {n : Nat} :
    next = some n ↔
      ∃ start width, offset = some start ∧ size = some width ∧ n = start + width := by
  constructor
  · rintro rfl
    cases offset with
    | none => cases h
    | some start =>
        cases size with
        | none => cases h
        | some width =>
            rcases Checked.map_eq_ok.mp h with ⟨total, htotal, hn⟩
            cases hn
            exact ⟨start, width, rfl, rfl, Word.add_eq_ok htotal⟩
  · rintro ⟨start, width, rfl, rfl, rfl⟩
    rcases Checked.map_eq_ok.mp h with ⟨total, htotal, rfl⟩
    rw [Word.add_eq_ok htotal]

variable {members : List (Site × Member)} {offset : Option Nat} {fields : List FieldDescription}

/-- Each member has a field, in the same order. -/
theorem fields_of_describeMembers (h : describeMembers offset members = .ok fields) :
    List.Forall₂ (fun a f => ∃ at', a.1.field a.2 at' = .ok f) members fields := by
  induction members generalizing offset fields with
  | nil =>
      cases h
      exact .nil
  | cons first rest ih =>
      rcases first with ⟨owner, m⟩
      rw [describeMembers] at h
      rcases Checked.bind_eq_ok.mp h with ⟨field, hfield, h⟩
      rcases Checked.bind_eq_ok.mp h with ⟨next, _, h⟩
      rcases Checked.bind_eq_ok.mp h with ⟨after, hafter, h⟩
      cases h
      exact .cons ⟨offset, hfield⟩ (ih hafter)

/-- A field has an offset if all fields before it have a size, and then it is the sum
    of these sizes, counted from where the first field starts. -/
theorem offset_eq_some_iff (h : describeMembers offset members = .ok fields) {i : Nat}
    {f : FieldDescription} (hf : fields[i]? = some f) {n : Nat} :
    f.offset = some n ↔ ∃ (start : Nat) (sizes : List Nat), offset = some start ∧
      (fields.take i).map (·.size) = sizes.map some ∧ n = start + sizes.foldr (· + ·) 0 := by
  -- on the members, since the ones behind the first are counted from the next offset
  induction members generalizing offset fields i n with
  | nil =>
      cases h
      cases hf
  | cons first rest ih =>
      rcases first with ⟨owner, m⟩
      rw [describeMembers] at h
      rcases Checked.bind_eq_ok.mp h with ⟨field, hfield, h⟩
      rcases Checked.bind_eq_ok.mp h with ⟨next, hnext, h⟩
      rcases Checked.bind_eq_ok.mp h with ⟨after, hafter, h⟩
      cases h
      cases i with
      | zero =>
          cases hf
          rw [Site.offset_of_field hfield]
          constructor
          · rintro rfl
            exact ⟨n, [], rfl, rfl, rfl⟩
          · rintro ⟨start, sizes, rfl, hsizes, rfl⟩
            cases List.map_eq_nil_iff.mp hsizes.symm
            rfl
      | succ i =>
          rw [List.getElem?_cons_succ] at hf
          rw [ih hafter hf, List.take_succ_cons, List.map_cons]
          -- the size of the first field is the first of the sizes
          constructor
          · rintro ⟨behind, sizes, hbehind, hsizes, rfl⟩
            rcases (nextOffset_eq_ok hnext).mp hbehind with ⟨start, width, hstart, hwidth, rfl⟩
            refine ⟨start, width :: sizes, hstart, ?_, ?_⟩
            · rw [hwidth, hsizes, List.map_cons]
            · rw [List.foldr_cons, Nat.add_assoc]
          · rintro ⟨start, sizes, hstart, hsizes, rfl⟩
            cases sizes with
            | nil => cases hsizes
            | cons width sizes =>
                rw [List.map_cons, List.cons.injEq] at hsizes
                refine ⟨start + width, sizes, ?_, hsizes.2, ?_⟩
                · exact (nextOffset_eq_ok hnext).mpr ⟨start, width, hstart, hsizes.1, rfl⟩
                · rw [List.foldr_cons, Nat.add_assoc]

end Offsets

/-! ## Constants -/

/-- The name of the constant starts with the stem. -/
def ConstantDescription.hasStem (stem : String) (c : ConstantDescription) : Bool :=
  stem.toList.isPrefixOf c.name.toList

section Constants

theorem toList_constantName (stem name : String) :
    (constantName stem name).toList = stem.toList ++ constantChars false name.toList := by
  rw [constantName, String.toList_append, String.toList_ofList]

theorem hasStem_constantName (stem name : String) (value : Literal) :
    ConstantDescription.hasStem stem ⟨constantName stem name, value⟩ = true := by
  rw [ConstantDescription.hasStem, List.isPrefixOf_iff_prefix, toList_constantName]
  exact List.prefix_append _ _

theorem filter_optionalConstant_of_true {p : ConstantDescription → Bool} {name : String}
    (h : ∀ value, p ⟨name, value⟩ = true) (value : Option Literal) :
    (optionalConstant name value).filter p = optionalConstant name value := by
  cases value with
  | none => rfl
  | some value => exact List.filter_cons_of_pos (h value)

theorem filter_optionalConstant_of_false {p : ConstantDescription → Bool} {name : String}
    (h : ∀ value, p ⟨name, value⟩ = false) (value : Option Literal) :
    (optionalConstant name value).filter p = [] := by
  cases value with
  | none => rfl
  | some value => exact List.filter_cons_of_neg (Bool.eq_false_iff.mp (h value))

/-- No stem is the beginning of another one, so a constant has the stem that it was
    named with and no other. -/
theorem stems_apart (name : String) (value : Literal) :
    ConstantDescription.hasStem "FIELD_OFFSET_" ⟨constantName "FIELD_SIZE_" name, value⟩ = false ∧
      ConstantDescription.hasStem "FIELD_OFFSET_" ⟨constantName "DEFAULT_" name, value⟩ = false ∧
      ConstantDescription.hasStem "FIELD_SIZE_" ⟨constantName "FIELD_OFFSET_" name, value⟩ = false ∧
      ConstantDescription.hasStem "FIELD_SIZE_" ⟨constantName "DEFAULT_" name, value⟩ = false := by
  simp only [ConstantDescription.hasStem, toList_constantName]
  -- the letters of the stems differ before either of them ends
  exact ⟨rfl, rfl, rfl, rfl⟩

/-- The constants that one field has under the two stems. -/
theorem filter_layoutConstants (f : FieldDescription) :
    (layoutConstants f).filter (·.hasStem "FIELD_OFFSET_") =
        (f.offset.map fun n =>
          ⟨constantName "FIELD_OFFSET_" f.name, .integer (signedWord n)⟩).toList ∧
      (layoutConstants f).filter (·.hasStem "FIELD_SIZE_") =
        (f.size.map fun n =>
          ⟨constantName "FIELD_SIZE_" f.name, .integer (signedWord n)⟩).toList := by
  have hmap : ∀ (name : String) (n : Option Nat),
      optionalConstant name (n.map fun n => .integer (signedWord n)) =
        (n.map fun n => ⟨name, .integer (signedWord n)⟩).toList := by
    intro name n
    cases n <;> rfl
  rw [layoutConstants]
  constructor
  · rw [List.filter_append, List.filter_append,
      filter_optionalConstant_of_true (hasStem_constantName _ _),
      filter_optionalConstant_of_false fun value => (stems_apart f.name value).1,
      filter_optionalConstant_of_false fun value => (stems_apart f.name value).2.1,
      List.append_nil, List.append_nil, hmap]
  · rw [List.filter_append, List.filter_append,
      filter_optionalConstant_of_false fun value => (stems_apart f.name value).2.2.1,
      filter_optionalConstant_of_true (hasStem_constantName _ _),
      filter_optionalConstant_of_false fun value => (stems_apart f.name value).2.2.2,
      List.append_nil, List.nil_append, hmap]

/-- The constants of a struct under the two stems, field by field. -/
theorem filter_structConstants (typeId : Option Literal) (fields : List FieldDescription) :
    (optionalConstant "TYPE_ID" typeId ++ fields.flatMap layoutConstants).filter
        (·.hasStem "FIELD_OFFSET_") =
        fields.filterMap (fun f => f.offset.map fun n =>
          ⟨constantName "FIELD_OFFSET_" f.name, .integer (signedWord n)⟩) ∧
      (optionalConstant "TYPE_ID" typeId ++ fields.flatMap layoutConstants).filter
        (·.hasStem "FIELD_SIZE_") =
        fields.filterMap (fun f => f.size.map fun n =>
          ⟨constantName "FIELD_SIZE_" f.name, .integer (signedWord n)⟩) := by
  have hoffset : "FIELD_OFFSET_".toList.isPrefixOf "TYPE_ID".toList = false := by decide
  have hsize : "FIELD_SIZE_".toList.isPrefixOf "TYPE_ID".toList = false := by decide
  constructor
  · rw [List.filter_append, filter_optionalConstant_of_false fun _ => hoffset, List.nil_append,
      List.filter_flatMap, List.filterMap_eq_flatMap_toList]
    simp only [(filter_layoutConstants _).1]
  · rw [List.filter_append, filter_optionalConstant_of_false fun _ => hsize, List.nil_append,
      List.filter_flatMap, List.filterMap_eq_flatMap_toList]
    simp only [(filter_layoutConstants _).2]

theorem signedWord_of_lt {n : Nat} (h : n < 2 ^ (63 : Nat)) : signedWord n = n := by
  refine Int.bmod_eq_of_le ?_ ?_ <;> omega

end Constants

/-! ## Structs -/

/-- The members of structs, one struct after the other, each with its struct. -/
def declaredMembers (structs : List Located) : List (Located × Member) :=
  structs.flatMap fun l => l.declaration.members.map (l, ·)

theorem Site.membersOf_eq_map (site : Site) (structs : List Located) :
    site.membersOf structs =
      (declaredMembers structs).map fun a => (site.inScope a.1.scope, a.2) := by
  rw [declaredMembers, List.map_flatMap]
  simp only [List.map_map]
  rfl

theorem mem_of_declaredMembers {structs : List Located} {a : Located × Member}
    (h : a ∈ declaredMembers structs) : a.1 ∈ structs := by
  rcases List.mem_flatMap.mp h with ⟨l, hl, ha⟩
  rcases List.mem_map.mp ha with ⟨m, _, rfl⟩
  exact hl

theorem Specification.Ancestors.mem_located {spec : Specification} {l : Located}
    {ancestors : List Located} (h : spec.Ancestors l ancestors) :
    ∀ a ∈ ancestors, a ∈ spec.located := by
  induction h with
  | root _ _ => exact List.forall_mem_nil _
  | step _ _ hparent _ _ ih => exact List.forall_mem_cons.mpr ⟨hparent, ih⟩

section Structs

variable {spec : Specification} {options : Options}

/-- The members of located structs are described by the fields that were made of
    them. -/
theorem fields_describe_declaredMembers
    (hunique : (spec.located.map Located.qualifiedName).Nodup)
    (hpaths : ∀ l ∈ spec.located, ∀ name ∈ l.path, IsIdentifier name) {site : Site}
    (htable : site.table = NameTable.ofSpecification spec options) {structs : List Located}
    (hstructs : ∀ l ∈ structs, l ∈ spec.located) {offset : Option Nat}
    {fields : List FieldDescription}
    (h : describeMembers offset (site.membersOf structs) = .ok fields) :
    List.Forall₂ (fun a f => spec.Describes options a.1 a.2 f) (declaredMembers structs)
      fields := by
  have hfields := fields_of_describeMembers h
  rw [Site.membersOf_eq_map, List.forall₂_map_left_iff] at hfields
  -- each member is looked at from the scope of its own struct
  have hmem : ∀ a ∈ declaredMembers structs, a.1 ∈ spec.located :=
    fun a ha => hstructs a.1 (mem_of_declaredMembers ha)
  refine ((List.forall₂_and_left _ _).mpr ⟨hmem, hfields⟩).imp ?_
  rintro a f ⟨ha, at', hf⟩
  exact Site.describes_of_field hunique hpaths htable ha hf

theorem requiredOf_of_describes {members : List (Located × Member)}
    {fields : List FieldDescription}
    (h : List.Forall₂ (fun a f => spec.Describes options a.1 a.2 f) members fields) :
    requiredOf fields = (members.filter fun a => a.2.default.isNone).map (·.2.name) := by
  induction h with
  | nil => rfl
  | @cons a f members fields hfirst _ ih =>
      rw [requiredOf] at ih ⊢
      simp only [List.filter_cons, hfirst.required]
      cases a.2.default.isNone with
      | true => simp only [↓reduceIte, List.map_cons, ih, hfirst.name]
      | false => exact ih

/-- A struct of a verified schema, or a typedef of one, that is described is laid out
    as it is declared. The fields are the members of its ancestors from the top and
    then its own, each seen from the struct that declares it. A field has an offset
    exactly if all fields before it have a size, and it is the sum of these sizes.
    Offsets and sizes have constants, which carry them as signed words. The setter at
    a position of the builder sets the field at that position, and the builder
    requires the members without a default. -/
theorem struct_laid_out (hverify : spec.verify = .ok ()) {l k : Located} (hl : l ∈ spec.located)
    (hstands : spec.StandsFor l k) {d : StructDecl} (hd : k.declaration = .struct d)
    {description : TypeDescription}
    (h : describeEntry (NameTable.ofSpecification spec options) (l.entry options) =
      .ok description) :
    ∃ ancestors builder, spec.Ancestors k ancestors ∧ description.builder = some builder ∧
      List.Forall₂ (fun a f => spec.Describes options a.1 a.2 f)
        (declaredMembers (k :: ancestors).reverse) description.fields ∧
      (∀ (i : Nat) f, description.fields[i]? = some f → ∀ n, f.offset = some n ↔
        ∃ sizes : List Nat, (description.fields.take i).map (·.size) = sizes.map some ∧
          n = sizes.foldr (· + ·) 0) ∧
      description.constants.filter (·.hasStem "FIELD_OFFSET_") =
        description.fields.filterMap (fun f => f.offset.map fun n =>
          ⟨constantName "FIELD_OFFSET_" f.name, .integer (signedWord n)⟩) ∧
      description.constants.filter (·.hasStem "FIELD_SIZE_") =
        description.fields.filterMap (fun f => f.size.map fun n =>
          ⟨constantName "FIELD_SIZE_" f.name, .integer (signedWord n)⟩) ∧
      (∀ n, n < 2 ^ (63 : Nat) → signedWord n = n) ∧
      builder.methods.length = description.fields.length + 1 ∧
      (∀ (i : Nat) f, description.fields[i]? = some f → ∃ setter,
        builder.methods[i]? = some setter ∧ setter.name = f.name ∧
        setter.role = .setter f.name i) ∧
      (∃ build, builder.methods.getLast? = some build ∧ build.role = .build) ∧
      builder.required = ((declaredMembers (k :: ancestors).reverse).filter
        fun a => a.2.default.isNone).map (·.2.name) := by
  rcases Specification.located_of_verify hverify with ⟨hpaths, _, hunique⟩
  have hk := hstands.mem_located hl
  rcases Specification.ancestors_of_verify hverify hk hd with ⟨ancestors, hchain, hnodup⟩
  have hfresh := fresh_of_standsFor hunique hl hstands hchain hnodup
  have htable : (l.siteFor spec options k).table = NameTable.ofSpecification spec options := rfl
  have hlayout := (layout_of_ancestors hunique hpaths htable hk hd rfl hchain hfresh).2
  have hstructs : ∀ a ∈ (k :: ancestors).reverse, a ∈ spec.located := by
    intro a ha
    exact List.forall_mem_cons.mpr ⟨hk, hchain.mem_located⟩ a (List.mem_reverse.mp ha)
  -- described under whatever name, it is the description of the struct
  rw [describeEntry_entry hunique hl, describeDeclaration_eq_describeShape hverify hl hstands, hd]
    at h
  change describeStruct (l.siteFor spec options k) d = .ok description at h
  rw [describeStruct, hlayout, Checked.ok_bind] at h
  rcases Checked.bind_eq_ok.mp h with ⟨fields, hfields, h⟩
  have hdescribes := fields_describe_declaredMembers hunique hpaths htable hstructs hfields
  have hlength : (settersOf fields).length = fields.length := by
    rw [settersOf, List.length_map, List.length_zipIdx]
  cases h
  refine ⟨ancestors, _, hchain, rfl, hdescribes, ?_, (filter_structConstants _ fields).1,
    (filter_structConstants _ fields).2, fun n hn => signedWord_of_lt hn, ?_, ?_, ?_,
    requiredOf_of_describes hdescribes⟩
  · intro i f hf n
    rw [offset_eq_some_iff hfields hf]
    -- the first field starts at zero
    constructor
    · rintro ⟨start, sizes, hstart, hsizes, rfl⟩
      cases hstart
      exact ⟨sizes, hsizes, Nat.zero_add _⟩
    · rintro ⟨sizes, hsizes, rfl⟩
      exact ⟨0, sizes, rfl, hsizes, (Nat.zero_add _).symm⟩
  · change (settersOf fields ++ [_]).length = fields.length + 1
    rw [List.length_append, hlength]
    rfl
  · intro i f hf
    exact ⟨setterOf f i, getElem?_of_settersOf (List.prefix_append _ _) hf, rfl, rfl⟩
  · exact ⟨_, List.getLast?_concat, rfl⟩

/-- A frame, which extends a header. -/
def frame : Located where
  path := ["example", "inner"]
  declaration := .struct
    { name := "Frame", supertype := some "Header"
      members := [{ name := "marks", type := .array .eight (.named "Level"), size := some 2 },
        { name := "note", type := .string .eight },
        { name := "checkSum", type := .fixed .uint32, default := some (.integer 0) }] }

/-- A packet is a frame. -/
def packet : Located where
  path := ["example", "inner"]
  declaration := .typedef { name := "Packet", aliased := .named "Frame" }

/-- A schema in which the levels of a header are an enum, and those of a frame are not:
    it stands next to a typedef of that name. -/
def frames : Specification where
  scope := .mk "example"
    [.mk "inner" []
      [.typedef { name := "Level", aliased := .fixed .int64 }, frame.declaration,
        packet.declaration]]
    [.enum
      { name := "Level", valueType := some (.fixed .uint16), constants := [{ name := "LOW" }] },
      .struct { name := "Header", members := [{ name := "level", type := .named "Level" }] }]

-- The note has an offset but no size, and the check sum a size but no offset.
theorem struct_laid_out_frames :
    frames.verify = .ok () ∧ frames.StandsFor packet frame ∧
      ∃ description ancestors builder,
        describeEntry (NameTable.ofSpecification frames {}) (packet.entry {}) = .ok description ∧
        frames.Ancestors frame ancestors ∧ description.builder = some builder ∧
        List.Forall₂ (fun a f => frames.Describes {} a.1 a.2 f)
          (declaredMembers (frame :: ancestors).reverse) description.fields ∧
        description.fields.map (fun f => (f.offset, f.size)) =
          [(some 0, some 2), (some 2, some 18), (some 20, none), (none, some 4)] ∧
        builder.required = ["level", "marks", "note"] := by
  have hverify : frames.verify = .ok () := by decide +kernel
  have hframe : frame ∈ frames.located :=
    List.mem_of_getElem? (show frames.located[3]? = some frame from rfl)
  have hpacket : packet ∈ frames.located :=
    List.mem_of_getElem? (show frames.located[4]? = some packet from rfl)
  have hstands : frames.StandsFor packet frame :=
    .through rfl rfl hframe (.here (List.mem_map_of_mem hframe)) (.self nofun)
  have hfacts : (describeEntry (NameTable.ofSpecification frames {}) (packet.entry {})).toOption.map
      (fun d => (d.fields.map (fun f => (f.offset, f.size)), d.builder.map (·.required))) =
        some ([(some 0, some 2), (some 2, some 18), (some 20, none), (none, some 4)],
          some ["level", "marks", "note"]) := by decide +kernel
  rcases Checked.exists_of_isOk (by decide +kernel :
    (describeEntry (NameTable.ofSpecification frames {}) (packet.entry {})).isOk = true) with
    ⟨description, h⟩
  rw [h] at hfacts
  rcases struct_laid_out hverify hpacket hstands rfl h with
    ⟨ancestors, builder, hchain, hbuilder, hdescribes, _⟩
  rcases Prod.mk.inj (Option.some.inj hfacts) with ⟨hoffsets, hrequired⟩
  rw [hbuilder] at hrequired
  exact ⟨hverify, hstands, description, ancestors, builder, h, hchain, hbuilder, hdescribes,
    hoffsets, Option.some.inj hrequired⟩

end Structs

end Wireform
