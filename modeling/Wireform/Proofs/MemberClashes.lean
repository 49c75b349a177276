import Wireform.Proofs.Literals
import Wireform.Proofs.SpeltNames
import Wireform.Proofs.TypedefChains

/-!
# Members That Clash

When two methods or two constants of one description have the same name.

The verifier compares the names of the members of one declaration, and that is not
enough to tell the methods and the constants of a description apart. A member may have
the name of a method that every reader has, or of a member that is inherited. The cases
of a union are never compared by name, and those of a variant are told apart by texts
that are written in lower case later on. Constants are named in upper case, with
underscores where a name has an upper case letter, so that `maxAge` and `max_age` have
the same ones.

With `TypeDescription.Spells` all this is a question about lists of texts. Names behind
different stems are different since no stem starts with another one, so all that can
clash is names behind the same stem, and names behind none.

## Main definitions

* `TypeDescription.ReadersApart`, `TypeDescription.BuildersApart`,
  `TypeDescription.ConstantsApart`: No name is used twice.
* `Specification.NamesFields`: The names that a declaration gives to its fields.
* `Declaration.UpperCaseApart`, `VariantDecl.LowerCaseApart`: Names that stay different
  when their case is changed.

## Theorems

* `TypeDescription.Spells.readersApart_iff`, `TypeDescription.Spells.buildersApart_iff`,
  `TypeDescription.Spells.constantsApart_iff`: When names are different.
* `nodup_caseNames_iff`: When the cases of a variant have different names.
* `describeBuiltin?_apart`: The names of what is built in are different.
* `exists_spells`: The names of a description come from what is declared.
* `members_apart_iff`: When the names of a description in a compilation are different.
* `members_clash`: Descriptions with names that are not.
-/

namespace Wireform

open Checked

namespace TypeDescription

/-- The names of the reader methods are pairwise different. -/
def ReadersApart (made : TypeDescription) : Prop :=
  (made.methods.map (·.name)).Nodup

/-- The names of the builder methods are pairwise different. -/
def BuildersApart (made : TypeDescription) : Prop :=
  (made.builderMethods.map (·.name)).Nodup

/-- The names of the constants are pairwise different. -/
def ConstantsApart (made : TypeDescription) : Prop :=
  (made.constants.map (·.name)).Nodup

instance (made : TypeDescription) : Decidable made.ReadersApart :=
  inferInstanceAs (Decidable (List.Nodup _))

instance (made : TypeDescription) : Decidable made.BuildersApart :=
  inferInstanceAs (Decidable (List.Nodup _))

instance (made : TypeDescription) : Decidable made.ConstantsApart :=
  inferInstanceAs (Decidable (List.Nodup _))

end TypeDescription

/-- The names that a declaration gives to its fields, in the order of its description: of
    the members of a struct and of its ancestors from the top, of the members of a list, and
    of the cases of a union or a variant. -/
def Specification.NamesFields (spec : Specification) (k : Located) (names : List String) : Prop :=
  match k.declaration with
  | .struct _ => ∃ ancestors, spec.Ancestors k ancestors ∧
      names = (declaredMembers (k :: ancestors).reverse).map (·.2.name)
  | .list d => names = d.members.map (·.name)
  | .union d => names = d.cases.map (·.name)
  | .variant d => names = d.cases.map (caseName ·.kind)
  | _ => names = []

/-- No two fields that have constants behind the same stem have names that are the same in
    upper case. -/
def Declaration.UpperCaseApart (d : Declaration) (fields : List FieldDescription) : Prop :=
  fields.Pairwise fun f g => ∀ stem ∈ d.stems f, stem ∈ d.stems g →
    constantName "" f.name ≠ constantName "" g.name

/-- No two constants that select cases of the variant are the same in lower case. -/
def VariantDecl.LowerCaseApart (d : VariantDecl) : Prop :=
  d.cases.Pairwise fun a b => ∀ s t, a.kind = .text s → b.kind = .text t →
    Text.lowercaseText s ≠ Text.lowercaseText t

section Apart

/-- What does not start with a stem is no name behind it. -/
theorem append_notMem {stem : String} {fixed : List String}
    (h : ∀ n ∈ fixed, ¬ stem.toList <+: n.toList) (rest : String) : stem ++ rest ∉ fixed := by
  intro hmem
  refine h _ hmem ?_
  rw [String.toList_append]
  exact List.prefix_append _ _

theorem nodup_map_append_iff (stem : String) (names : List String) :
    (names.map (stem ++ ·)).Nodup ↔ names.Nodup :=
  List.nodup_map_iff fun _ _ h => (String.append_right_inj stem).mp h

/-- Names behind a list that is free of clashes are to be different from each other and
    from those of the list. -/
theorem nodup_behind_iff {fixed names : List String} (hfixed : fixed.Nodup) :
    (fixed ++ names).Nodup ↔ names.Nodup ∧ ∀ n ∈ names, n ∉ fixed := by
  rw [List.nodup_append]
  constructor
  · rintro ⟨_, hnames, hapart⟩
    exact ⟨hnames, fun n hn hmem => hapart n hmem n hn rfl⟩
  · rintro ⟨hnames, hapart⟩
    exact ⟨hfixed, hnames, fun n hn m hm heq => hapart m hm (heq ▸ hn)⟩

/-- Nothing is to be feared from a stem that no fixed name starts with, neither for the
    names behind it nor for names that start in yet another way. -/
theorem behind_stem_iff {stem start : String} {fixed names : List String}
    (hstem : ∀ n ∈ fixed, ¬ stem.toList <+: n.toList)
    (hstart : ∀ n ∈ fixed, ¬ start.toList <+: n.toList)
    (hnames : ∀ n ∈ names, start.toList <+: n.toList) :
    ((names.map (stem ++ ·)).Nodup ∧ ∀ n ∈ names.map (stem ++ ·), n ∉ fixed) ↔
      names.Nodup ∧ ∀ n ∈ names, n ∉ fixed := by
  refine and_congr (nodup_map_append_iff stem names) (iff_of_true ?_ ?_)
  · intro n hn
    rcases List.mem_map.mp hn with ⟨name, _, rfl⟩
    exact append_notMem hstem name
  · exact fun n hn hmem => hstart n hmem (hnames n hn)

namespace Declaration

theorem WellFormed.nodup_reservedReaders {d : Declaration} (h : d.WellFormed) :
    d.reservedReaders.Nodup := by
  cases d with
  | struct d =>
      simp only [reservedReaders]
      split <;> simp
  | list d =>
      have hpresent : ((d.members.filter (·.default.isSome)).map (·.name)).Nodup :=
        h.uniqueMembers.sublist (List.filter_sublist.map _)
      rw [← nodup_map_append_iff "has_", List.map_map] at hpresent
      -- the methods of all lists do not start like those that tell what is present
      rw [reservedReaders, ← List.append_assoc, nodup_behind_iff (by decide)]
      refine ⟨hpresent, fun n hn => ?_⟩
      rcases List.mem_map.mp hn with ⟨m, _, rfl⟩
      exact append_notMem (by decide) m.name
  | _ => simp [reservedReaders]

theorem nodup_reservedSetters (d : Declaration) : d.reservedSetters.Nodup := by
  cases d <;> simp [reservedSetters]

theorem WellFormed.nodup_reservedConstants {d : Declaration} (h : d.WellFormed) :
    d.reservedConstants.Nodup := by
  cases d with
  | struct d =>
      simp only [reservedConstants]
      split <;> simp
  | enum d => exact h.uniqueConstants
  | _ => simp [reservedConstants]

end Declaration

theorem caseName_integer (i : Int) :
    caseName (.integer i) = "as_" ++ if i < 0 then "minus_" ++ i.natAbs.repr else i.repr := by
  rw [caseName]
  split
  · rw [← String.append_assoc]
    rfl
  · rfl

/-- The name of a case of a variant starts with a text that no method does. -/
theorem isPrefix_caseName (v : Literal) : "as_".toList <+: (caseName v).toList := by
  cases v with
  | integer i =>
      rw [caseName_integer, String.toList_append]
      exact List.prefix_append _ _
  | text name =>
      rw [caseName, String.toList_append]
      exact List.prefix_append _ _

/-- A negative number is spelt with a letter, and no other number is. -/
theorem minus_append_ne_repr (rest : String) (n : Nat) : "minus_" ++ rest ≠ n.repr := by
  intro h
  have hm : 'm' ∈ ("minus_" ++ rest).toList := by
    rw [String.toList_append]
    exact List.mem_append_left _ (by decide)
  rw [h, Nat.toList_repr] at hm
  exact absurd (Nat.isDigit_of_mem_toDigits (by decide) (by decide) hm) (by decide)

/-- A number can be read back from its digits. -/
theorem repr_inj {m n : Nat} (h : m.repr = n.repr) : m = n := by
  have hdigits : Nat.toDigits 10 m = Nat.toDigits 10 n := by
    rw [← Nat.toList_repr, ← Nat.toList_repr, h]
  have hread (k : Nat) : Nat.ofDigitChars 10 (Nat.toDigits 10 k) 0 = k :=
    Nat.ofDigitChars_toDigits (by decide) (by decide)
  rw [← hread m, hdigits, hread n]

/-- Cases that are selected by different integers have different names. -/
theorem caseName_integer_inj {i j : Int} (h : caseName (.integer i) = caseName (.integer j)) :
    i = j := by
  rw [caseName_integer, caseName_integer, String.append_right_inj] at h
  rcases Int.lt_or_le i 0 with hi | hi
  · rw [if_pos hi] at h
    rcases Int.lt_or_le j 0 with hj | hj
    · rw [if_pos hj, String.append_right_inj] at h
      have habs := repr_inj h
      omega
    · obtain ⟨n, rfl⟩ := Int.eq_ofNat_of_zero_le hj
      rw [if_neg (Int.not_lt.mpr hj)] at h
      exact absurd h (minus_append_ne_repr _ n)
  · obtain ⟨m, rfl⟩ := Int.eq_ofNat_of_zero_le hi
    rw [if_neg (Int.not_lt.mpr hi)] at h
    rcases Int.lt_or_le j 0 with hj | hj
    · rw [if_pos hj] at h
      exact absurd h.symm (minus_append_ne_repr _ m)
    · obtain ⟨n, rfl⟩ := Int.eq_ofNat_of_zero_le hj
      rw [if_neg (Int.not_lt.mpr hj)] at h
      exact congrArg Int.ofNat (repr_inj h)

/-- The cases of a variant have different names exactly if no two constants that select
    them are the same in lower case. -/
theorem nodup_caseNames_iff {d : VariantDecl} (hkinds : (d.cases.map (·.kind)).Nodup)
    {constants : Option (List String)}
    (hconstants : ∀ c ∈ d.cases, isDiscriminator constants c.kind = true) :
    (d.cases.map (caseName ·.kind)).Nodup ↔ d.LowerCaseApart := by
  rw [List.Nodup, List.pairwise_map] at hkinds ⊢
  constructor
  · intro h
    refine h.imp fun {a b} hne s t ha hb hsame => hne ?_
    rw [ha, hb, caseName, caseName, hsame]
  · intro h
    refine (hkinds.and h).imp_of_mem fun {a b} hmema hmemb => ?_
    rintro ⟨hne, hlower⟩ hsame
    have hconstant := hconstants a hmema
    have hconstant' := hconstants b hmemb
    generalize a.kind = v at hne hlower hsame hconstant
    generalize b.kind = w at hne hlower hsame hconstant'
    -- integers are told apart by their names, and do not occur among constants
    cases v with
    | integer i =>
        cases w with
        | integer j => exact hne (congrArg Literal.integer (caseName_integer_inj hsame))
        | text t =>
            cases constants with
            | none => cases hconstant'
            | some names => cases hconstant
    | text s =>
        cases w with
        | integer j =>
            cases constants with
            | none => cases hconstant
            | some names => cases hconstant'
        | text t => exact hlower s t rfl rfl ((String.append_right_inj "as_").mp hsame)

/-- All that stands before the names of fields in the names of constants. -/
def constantStems : List String :=
  ["FIELD_OFFSET_", "FIELD_SIZE_", "INDEX_", "DEFAULT_", "KIND_"]

namespace Declaration

theorem stems_sublist (d : Declaration) (f : FieldDescription) :
    (d.stems f).Sublist constantStems := by
  cases d with
  | struct d =>
      simp only [stems]
      cases f.offset.isSome <;> cases f.size.isSome <;> cases f.default.isSome <;> decide
  | list d =>
      simp only [stems]
      cases f.default.isSome <;> decide
  | union d => exact (by decide : ["KIND_"].Sublist constantStems)
  | _ => exact List.nil_sublist _

/-- No constant that a description has of its own starts like those of its fields. -/
theorem not_isPrefix_reservedConstants (d : Declaration) (f : FieldDescription) :
    ∀ stem ∈ d.stems f, ∀ n ∈ d.reservedConstants, ¬ stem.toList <+: n.toList := by
  cases d with
  | struct d =>
      intro stem hstem n hn
      have hfixed : n = "TYPE_ID" := by
        simp only [reservedConstants] at hn
        split at hn
        · exact List.mem_singleton.mp hn
        · cases hn
      rw [hfixed]
      have hall : ∀ stem ∈ constantStems, ¬ stem.toList <+: "TYPE_ID".toList := by decide
      exact hall stem ((stems_sublist _ f).subset hstem)
  | list d =>
      simp only [stems, reservedConstants]
      cases f.default.isSome <;> decide
  | union d => simp only [stems, reservedConstants]; decide
  | _ => exact List.forall_mem_nil _

end Declaration

theorem constantName_eq_append (stem name : String) :
    constantName stem name = stem ++ constantName "" name := by
  rw [constantName, constantName, String.empty_append]

/-- Names of constants are the same if their stems are and the names of fields are in
    upper case. -/
theorem constantName_eq_iff {stem stem' : String} (hstem : stem ∈ constantStems)
    (hstem' : stem' ∈ constantStems) (name name' : String) :
    constantName stem name = constantName stem' name' ↔
      stem = stem' ∧ constantName "" name = constantName "" name' := by
  rw [constantName_eq_append stem, constantName_eq_append stem']
  constructor
  · intro h
    have hstems : ∀ a ∈ constantStems, ∀ b ∈ constantStems, a.toList <+: b.toList → a = b := by
      decide
    have hlist := congrArg String.toList h
    rw [String.toList_append, String.toList_append] at hlist
    -- one of two stems of a name starts with the other one
    have hsame : stem = stem' := by
      rcases List.prefix_or_prefix_of_prefix (List.prefix_append _ _)
        (hlist ▸ List.prefix_append _ _) with hprefix | hprefix
      · exact (hstems stem' hstem' stem hstem hprefix).symm
      · exact hstems stem hstem stem' hstem' hprefix
    rw [hsame, String.append_right_inj] at h
    exact ⟨hsame, h⟩
  · rintro ⟨rfl, h⟩
    rw [h]

namespace Declaration

/-- The constants of one field are different. -/
theorem nodup_constantNames (d : Declaration) (f : FieldDescription) :
    ((d.stems f).map (constantName · f.name)).Nodup := by
  have hstems := d.stems_sublist f
  refine List.Nodup.map_on (fun stem hs stem' hs' hsame => ?_) (hstems.nodup (by decide))
  exact ((constantName_eq_iff (hstems.subset hs) (hstems.subset hs') _ _).mp hsame).1

/-- The constants of two fields are different unless they have one of the same kind and
    names that are the same in upper case. -/
theorem disjoint_constantNames_iff (d : Declaration) (f g : FieldDescription) :
    List.Disjoint ((d.stems f).map (constantName · f.name))
        ((d.stems g).map (constantName · g.name)) ↔
      ∀ stem ∈ d.stems f, stem ∈ d.stems g → constantName "" f.name ≠ constantName "" g.name := by
  constructor
  · intro hdisjoint stem hf hg hsame
    refine hdisjoint (List.mem_map.mpr ⟨stem, hf, rfl⟩) (List.mem_map.mpr ⟨stem, hg, ?_⟩)
    rw [constantName_eq_append, ← hsame, ← constantName_eq_append]
  · intro hne c hcf hcg
    rcases List.mem_map.mp hcf with ⟨stem, hf, rfl⟩
    rcases List.mem_map.mp hcg with ⟨stem', hg, hsame⟩
    rcases (constantName_eq_iff ((d.stems_sublist g).subset hg) ((d.stems_sublist f).subset hf)
      _ _).mp hsame with ⟨rfl, hupper⟩
    exact hne stem' hf hg hupper.symm

end Declaration

namespace TypeDescription.Spells

variable {made : TypeDescription} {d : Declaration} {names : List String}
  (h : made.Spells d names) (hd : d.WellFormed)

include h hd

/-- Constants are different exactly if fields that have one of the same kind have names
    that are different in upper case. -/
theorem constantsApart_iff : made.ConstantsApart ↔ d.UpperCaseApart made.fields := by
  have hfixed : ∀ n ∈ d.reservedConstants, ∀ c ∈ made.fields.flatMap fun f =>
      (d.stems f).map (constantName · f.name), n ≠ c := by
    rintro n hn c hc rfl
    rcases List.mem_flatMap.mp hc with ⟨f, _, hc⟩
    rcases List.mem_map.mp hc with ⟨stem, hstem, rfl⟩
    rw [constantName_eq_append] at hn
    exact append_notMem (d.not_isPrefix_reservedConstants f stem hstem) _ hn
  rw [ConstantsApart, h.constants, List.nodup_append, List.nodup_flatMap]
  constructor
  · rintro ⟨_, ⟨_, hpairs⟩, _⟩
    exact hpairs.imp fun {f g} => (d.disjoint_constantNames_iff f g).mp
  · intro hpairs
    refine ⟨hd.nodup_reservedConstants, ⟨fun f _ => d.nodup_constantNames f, ?_⟩, hfixed⟩
    exact hpairs.imp fun {f g} => (d.disjoint_constantNames_iff f g).mpr

variable (hvariant : ∀ v, d = .variant v → ∀ n ∈ names, "as_".toList <+: n.toList)

include hvariant

/-- Reader methods are different exactly if the names of fields are, from each other and
    from those that such a reader has anyway. -/
theorem readersApart_iff :
    made.ReadersApart ↔ names.Nodup ∧ ∀ n ∈ names, n ∉ d.reservedReaders := by
  rw [ReadersApart, h.readers.nodup_iff, nodup_behind_iff hd.nodup_reservedReaders]
  by_cases hv : ∃ v, d = .variant v
  · rcases hv with ⟨v, rfl⟩
    exact behind_stem_iff (by simp [Declaration.reservedReaders])
      (by simp [Declaration.reservedReaders]) (hvariant v rfl)
  · rw [(Declaration.map_methodNames (not_exists.mp hv) names).1]

omit hd in
/-- Builder methods are different exactly if the names of fields are, from each other and
    from those that such a builder has anyway. -/
theorem buildersApart_iff :
    made.BuildersApart ↔ names.Nodup ∧ ∀ n ∈ names, n ∉ d.reservedSetters := by
  rw [BuildersApart, h.setters.nodup_iff, nodup_behind_iff d.nodup_reservedSetters]
  by_cases hv : ∃ v, d = .variant v
  · rcases hv with ⟨v, rfl⟩
    exact behind_stem_iff (by simp [Declaration.reservedSetters])
      (by simp [Declaration.reservedSetters]) (hvariant v rfl)
  · rw [(Declaration.map_methodNames (not_exists.mp hv) names).2]

end TypeDescription.Spells

end Apart

section Builtin

/-- The methods of a reader that are added to those of every reader, and those of a
    builder before the one that ends it. -/
theorem apart_withBuilder {family : String} {identity : Identity} {limit : LimitRule}
    {methods writers : List Method} {required : List String}
    (hreaders : (["try_wrap", "wrap", "limit", "sizeof"] ++ methods.map (·.name)).Nodup)
    (hwriters : (writers.map (·.name) ++ ["build"]).Nodup) :
    (((TypeDescription.reader family identity limit).withMethods methods).withBuilder
        writers required).ReadersApart ∧
      (((TypeDescription.reader family identity limit).withMethods methods).withBuilder
        writers required).BuildersApart := by
  constructor
  · rw [TypeDescription.ReadersApart, TypeDescription.withBuilder, TypeDescription.withMethods,
      List.map_append]
    exact hreaders
  · rw [TypeDescription.BuildersApart, TypeDescription.builderMethods, TypeDescription.withBuilder,
      List.map_append]
    exact hwriters

/-- The names of what is built in are different. -/
theorem describeBuiltin?_apart {identity : Identity} {type : WireType} {b : TypeDescription}
    (h : describeBuiltin? identity type = some b) :
    b.ReadersApart ∧ b.BuildersApart ∧ b.ConstantsApart := by
  rcases Option.bind_eq_some_iff.mp h with ⟨family, _, h⟩
  rcases Option.bind_eq_some_iff.mp h with ⟨limit, _, h⟩
  have hconstants : b.ConstantsApart := by
    split at h <;> cases h
    · exact List.nodup_singleton _
    · simp [describeVarint, TypeDescription.ConstantsApart]
    all_goals exact List.nodup_nil
  rw [← and_assoc]
  refine ⟨?_, hconstants⟩
  -- none of the names depends on the identity, or on what an array or a map holds
  split at h <;> cases h
  · exact apart_withBuilder (by simp) (by simp)
  · exact apart_withBuilder (by simp) (by simp)
  · exact apart_withBuilder (by simp) (by simp [octetWriters])
  · exact apart_withBuilder (by simp [withBoundMethod]) (by simp [withBoundMethod, octetWriters])
  · refine apart_withBuilder (by simp) ?_
    split <;> simp [stringWriters]
  · refine apart_withBuilder (by simp) ?_
    split <;> simp [stringWriters]
  · exact apart_withBuilder (by simp [sequenceReaders, fieldsReader])
      (by simp [visitedFieldWriters])
  · exact apart_withBuilder (by simp [sequenceReaders, fieldsReader])
      (by simp [visitedFieldWriters, copiedFieldsWriter])
  · exact apart_withBuilder (by simp [sequenceReaders]) (by simp)
  · exact apart_withBuilder (by simp [sequenceReaders]) (by simp)

end Builtin

section Described

variable {spec : Specification} {options : Options}

/-- The names of a description come from the declaration that is stood for. -/
theorem exists_spells (hverify : spec.verify = .ok ()) {l k : Located} (hl : l ∈ spec.located)
    (hstands : spec.StandsFor l k) {made : TypeDescription}
    (h : describeDeclaration (l.site spec options) l.declaration = .ok made) :
    ∃ names, spec.NamesFields k names ∧ made.Spells k.declaration names := by
  have hshape := describeDeclaration_standsFor hverify hl hstands h
  unfold Specification.NamesFields
  cases hd : k.declaration with
  | struct d =>
      rw [hd] at hshape
      have hk := hstands.mem_located hl
      rcases Specification.located_of_verify hverify with ⟨hpaths, _, hunique⟩
      rcases Specification.ancestors_of_verify hverify hk hd with ⟨ancestors, hchain, hnodup⟩
      have hfresh := fresh_of_standsFor hunique hl hstands hchain hnodup
      have htable : (l.siteFor spec options k).table = NameTable.ofSpecification spec options := rfl
      have hlayout := (layout_of_ancestors hunique hpaths htable hk hd rfl hchain hfresh).2
      have hstructs : ∀ a ∈ (k :: ancestors).reverse, a ∈ spec.located := by
        intro a ha
        exact List.forall_mem_cons.mpr ⟨hk, hchain.mem_located⟩ a (List.mem_reverse.mp ha)
      change describeStruct (l.siteFor spec options k) d = .ok made at hshape
      refine ⟨_, ⟨ancestors, hchain, rfl⟩, describeStruct_spells hshape ?_⟩
      rw [describeStruct, hlayout, Checked.ok_bind] at hshape
      rcases Checked.bind_eq_ok.mp hshape with ⟨fields, hfields, hmade⟩
      cases hmade
      have hdescribes := fields_describe_declaredMembers hunique hpaths htable hstructs hfields
      exact map_eq_map_of_forall₂ hdescribes.flip fun f a hf => hf.name
  | list d =>
      rw [hd] at hshape
      exact ⟨_, rfl, describeListDecl_spells hshape⟩
  | union d =>
      rw [hd] at hshape
      exact ⟨_, rfl, describeUnion_spells hshape⟩
  | variant d =>
      rw [hd] at hshape
      exact ⟨_, rfl, describeVariant_spells hshape⟩
  | enum d =>
      rw [hd] at hshape
      exact ⟨_, rfl, describeEnum_spells hshape⟩
  | map d =>
      rw [hd] at hshape
      exact ⟨_, rfl, describeMapDecl_spells hshape⟩
  | typedef d =>
      rw [hd] at hshape
      cases hshape

/-- A declaration that stands for no other one, and not for itself, is described as
    something built in. -/
theorem exists_builtin (hverify : spec.verify = .ok ()) {l : Located} (hl : l ∈ spec.located)
    (hnone : ∀ k, ¬ spec.StandsFor l k) {made : TypeDescription}
    (h : describeDeclaration (l.site spec options) l.declaration = .ok made) :
    ∃ type b, describeBuiltin? (l.site spec options).identity type = some b ∧
      made = { b with qualifiedName := some l.qualifiedName } := by
  cases hd : l.declaration with
  | typedef d =>
      rw [hd] at h
      rcases aliasTarget_site hverify options hl hd with ⟨⟨found, hends⟩, htarget⟩
      rcases Checked.bind_eq_ok.mp h with ⟨target, hfound, h⟩
      have hsame := (htarget found hends).symm.trans hfound
      cases found with
      | cycle => cases hsame
      | unresolved name => cases hsame
      | builtin type =>
          cases hsame
          dsimp only at h
          cases hb : describeBuiltin? (l.site spec options).identity type with
          | none =>
              rw [hb] at h
              cases h
          | some b =>
              rw [hb] at h
              exact ⟨type, b, hb, (Except.ok.inj h).symm⟩
      | declared k =>
          cases hends with
          | stops hreaches hstops =>
              cases hstops with
              | declared hnot => exact absurd (.of_reaches hreaches hnot) (hnone k)
  | _ =>
      refine absurd (.self fun d h => ?_) (hnone l)
      rw [hd] at h
      cases h

end Described

/-- The names of a description of a compilation are free of clashes under conditions on
    the schema, which it need not meet. What is built in, under whatever name, always is.
    Any other description has fields whose names are declared. Its reader methods are
    different exactly if these names are different, those of inherited members included,
    and none of them is the name of a method that such a reader has anyway, and its
    builder methods in the same way. Its constants are different exactly if no two fields
    that have the same kind of constant have the same name in upper case. The cases of a
    variant have the same name only if they are selected by constants that are the same
    in lower case. -/
theorem members_apart_iff {spec : Specification} {options : Options} {c : Compilation}
    (hcompile : compile spec options = .ok c) {l : Located} (hl : l ∈ targeted spec options) :
    ∃ made, c.find? l.qualifiedName = some made ∧
      ((∀ k, ¬ spec.StandsFor l k) →
        made.ReadersApart ∧ made.BuildersApart ∧ made.ConstantsApart) ∧
      ∀ k, spec.StandsFor l k → ∃ names, spec.NamesFields k names ∧
        made.fields.map (·.name) = names ∧
        (made.ReadersApart ↔
          names.Nodup ∧ ∀ n ∈ names, n ∉ k.declaration.reservedReaders) ∧
        (made.BuildersApart ↔
          names.Nodup ∧ ∀ n ∈ names, n ∉ k.declaration.reservedSetters) ∧
        (made.ConstantsApart ↔ k.declaration.UpperCaseApart made.fields) ∧
        ∀ d, k.declaration = .variant d → (names.Nodup ↔ d.LowerCaseApart) := by
  have hverify := (compile_eq_ok hcompile).1
  rcases List.mem_filter.mp hl with ⟨hmem, htargets⟩
  rcases Compilation.find?_of_compile hcompile hmem htargets with ⟨made, hfound, hmade⟩
  refine ⟨made, hfound, fun hnone => ?_, fun k hstands => ?_⟩
  · rcases exists_builtin hverify hmem hnone hmade with ⟨type, b, hb, rfl⟩
    -- the qualified name is no part of what is asked
    have hapart := describeBuiltin?_apart hb
    exact hapart
  · have hwf := (Specification.located_of_verify hverify).2.1 k (hstands.mem_located hmem)
    rcases exists_spells hverify hmem hstands hmade with ⟨names, hnames, hspells⟩
    have hvariant : ∀ d, k.declaration = .variant d → names = d.cases.map (caseName ·.kind) := by
      intro d hd
      rw [Specification.NamesFields, hd] at hnames
      exact hnames
    have hstart : ∀ d, k.declaration = .variant d → ∀ n ∈ names, "as_".toList <+: n.toList := by
      intro d hd n hn
      rw [hvariant d hd] at hn
      rcases List.mem_map.mp hn with ⟨c, _, rfl⟩
      exact isPrefix_caseName c.kind
    refine ⟨names, hnames, hspells.fields, hspells.readersApart_iff hwf hstart,
      hspells.buildersApart_iff hstart, hspells.constantsApart_iff hwf, fun d hd => ?_⟩
    have hshape := describeDeclaration_standsFor hverify hmem hstands hmade
    rw [hd] at hshape hwf
    rcases describeVariant_discriminates hshape with ⟨constants, _, hkinds⟩
    rw [hvariant d hd]
    exact nodup_caseNames_iff hwf.uniqueCaseKinds hkinds

/-- Savings, which extend an account and have a member of their own with the name of one
    that is inherited. -/
def savings : Located where
  path := ["example"]
  declaration := .struct
    { name := "Savings", supertype := some "Account"
      members := [{ name := "id", type := .fixed .int64 }] }

/-- Another name for savings. -/
def deposit : Located where
  path := ["example"]
  declaration := .typedef { name := "Deposit", aliased := .named "Savings" }

/-- A schema with names that clash, one way in each declaration. -/
def ledger : Specification where
  scope := .mk "example" []
    [.struct { name := "Account", members := [{ name := "id", type := .fixed .int32 }] },
      savings.declaration, deposit.declaration,
      .union
        { name := "Booking"
          cases := [⟨0, "amount", .fixed .int32⟩, ⟨1, "amount", .fixed .int64⟩] },
      .struct { name := "Letter", members := [{ name := "wrap", type := .octets }] },
      .struct { name := "Plan", members := [{ name := "build", type := .octets }] },
      .struct
        { name := "Limits"
          members := [{ name := "maxAge", type := .fixed .uint8 },
            { name := "max_age", type := .fixed .uint8 }] },
      .list
        { name := "Entry", width := .eight
          members := [{ name := "note", type := .string .eight, default := some (.text "") },
            { name := "has_note", type := .fixed .uint8 }] },
      .enum { name := "Unit", constants := [{ name := "g" }, { name := "G" }] },
      .variant
        { name := "Weight", kind := .named "Unit"
          cases := [⟨.text "g", .fixed .int32⟩, ⟨.text "G", .fixed .int64⟩] },
      .typedef { name := "Total", aliased := .fixed .int64 }]

theorem members_apart_iff_ledger :
    ∃ c, compile ledger {} = .ok c ∧ deposit ∈ targeted ledger {} ∧
      ledger.StandsFor deposit savings ∧
      ∃ made names, c.find? deposit.qualifiedName = some made ∧
        ledger.NamesFields savings names ∧ made.fields.map (·.name) = names ∧
        (made.ReadersApart ↔
          names.Nodup ∧ ∀ n ∈ names, n ∉ savings.declaration.reservedReaders) ∧
        (made.BuildersApart ↔
          names.Nodup ∧ ∀ n ∈ names, n ∉ savings.declaration.reservedSetters) ∧
        (made.ConstantsApart ↔ savings.declaration.UpperCaseApart made.fields) := by
  have hcompiles : (compile ledger {}).isOk = true := by decide +kernel
  rcases Checked.exists_of_isOk hcompiles with ⟨c, hcompile⟩
  have hsavings : savings ∈ ledger.located :=
    List.mem_of_getElem? (show ledger.located[1]? = some savings from rfl)
  have hdeposit : deposit ∈ targeted ledger {} :=
    List.mem_of_getElem? (show (targeted ledger {})[2]? = some deposit from rfl)
  have hresolves : Resolves ledger.Defines "Savings" deposit.path savings.qualifiedName :=
    .here (List.mem_map_of_mem hsavings)
  have hself : ledger.StandsFor savings savings := .self fun d hd => by cases hd
  have hstands : ledger.StandsFor deposit savings := .through rfl rfl hsavings hresolves hself
  rcases members_apart_iff hcompile hdeposit with ⟨made, hfound, _, hclashes⟩
  rcases hclashes savings hstands with
    ⟨names, hnames, hfields, hreaders, hbuilders, hconstants, _⟩
  exact ⟨c, hcompile, hdeposit, hstands, made, names, hfound, hnames, hfields, hreaders,
    hbuilders, hconstants⟩

/-- A schema compiles to descriptions in which reader methods, builder methods or constants
    clash, by themselves or together. -/
theorem members_clash :
    ((compile ledger {}).toOption.map fun c => c.declarations.map fun made =>
      (made.qualifiedName, decide made.ReadersApart, decide made.BuildersApart,
        decide made.ConstantsApart)) =
    some [(some "example::Account", true, true, true),
      (some "example::Savings", false, false, false),
      (some "example::Deposit", false, false, false),
      (some "example::Booking", false, false, false),
      (some "example::Letter", false, true, true),
      (some "example::Plan", true, false, true),
      (some "example::Limits", true, true, false),
      (some "example::Entry", false, true, true),
      (some "example::Unit", true, true, true),
      (some "example::Weight", false, false, true),
      (some "example::Total", true, true, true)] := by
  decide +kernel

end Wireform
