import Wireform.Proofs.MemberClashes
import Wireform.Proofs.Overruns

/-!
# What Constants Measure

Which constants hold an offset or a size, and what becomes of it when it is too large.

Constants whose names start with `FIELD_` measure something: where a field of a struct
starts and what it takes, or the same for the integer that discriminates a union and for
the mask of a list. They are listed by `Declaration.measured`, each with the number that
it stands for. A constant holds a number as a signed word, and that is another one from
`2 ^ 63` on.

Beyond the 64-bit range there is no word at all. Then the description has stopped before
there were any constants (`Overruns`), and with it the compilation, unless it was refused
for an earlier declaration.

## Main definitions

* `FieldDescription.measured`, `Declaration.measured`: Names of constants, with what they
  measure.
* `measuring`: The constant for a measure.

## Theorems

* `signedWord_eq_iff`: When a signed word holds a number.
* `describeShape_measures`: The constants of a description that measure something.
* `lt_of_describeMembers`, `measured_lt`: What is measured is a 64-bit number.
* `Checked.mapM_eq_stopped_iff`, `compile_eq_stopped_iff`: When a compilation stops.
* `compile_overruns_iff`: When it does, and what its constants hold otherwise.
* `sizes_leave_range`: Schemas that stop, and one with a negative size.
-/

namespace Wireform

open Checked

/-- The constants of a field that measure it, each with what it measures. -/
def FieldDescription.measured (f : FieldDescription) : List (String × Nat) :=
  (f.offset.map (constantName "FIELD_OFFSET_" f.name, ·)).toList ++
    (f.size.map (constantName "FIELD_SIZE_" f.name, ·)).toList

/-- The constants of a declaration that measure something, each with what it measures. A
    struct has those of its fields. A union has the offset and the size of the integer
    that discriminates it, and a list those of its mask. -/
def Declaration.measured (fields : List FieldDescription) : Declaration → List (String × Nat)
  | .struct _ => fields.flatMap (·.measured)
  | .union d =>
      ("FIELD_OFFSET_KIND", 0) :: (d.kind.fixedWidth?.map ("FIELD_SIZE_KIND", ·)).toList
  | .list d =>
      [("FIELD_OFFSET_BIT_MASK", 2 * d.width.size), ("FIELD_SIZE_BIT_MASK", maskSize)]
  | _ => []

/-- The constant that holds a measure as a signed word. -/
def measuring (m : String × Nat) : ConstantDescription :=
  ⟨m.1, .integer (signedWord m.2)⟩

theorem signedWord_of_le {n : Nat} (h : 2 ^ (63 : Nat) ≤ n) (h' : n < 2 ^ (64 : Nat)) :
    signedWord n = n - (2 ^ (64 : Nat) : Nat) := by
  have hlow : -(((2 ^ (64 : Nat) : Nat) : Int) / 2) ≤ (n : Int) - (2 ^ (64 : Nat) : Nat) := by omega
  have hhigh : (n : Int) - (2 ^ (64 : Nat) : Nat) < (((2 ^ (64 : Nat) : Nat) : Int) + 1) / 2 := by
    omega
  have hwrapped := Int.bmod_eq_of_le hlow hhigh
  rw [Int.sub_bmod_right] at hwrapped
  exact hwrapped

/-- A 64-bit number is held by its signed word exactly if it is less than `2 ^ 63`. What
    is held otherwise is negative. -/
theorem signedWord_eq_iff {n : Nat} (h : n < 2 ^ (64 : Nat)) :
    (signedWord n = n ↔ n < 2 ^ (63 : Nat)) ∧ (0 ≤ signedWord n ↔ n < 2 ^ (63 : Nat)) := by
  by_cases hsmall : n < 2 ^ (63 : Nat)
  · rw [signedWord_of_lt hsmall]
    omega
  · rw [signedWord_of_le (Nat.not_lt.mp hsmall) h]
    omega

/-! ## Constants -/

section Constants

theorem hasStem_field (name : String) (value : Literal) :
    ConstantDescription.hasStem "FIELD_" ⟨constantName "FIELD_OFFSET_" name, value⟩ = true ∧
      ConstantDescription.hasStem "FIELD_" ⟨constantName "FIELD_SIZE_" name, value⟩ = true ∧
      ConstantDescription.hasStem "FIELD_" ⟨constantName "DEFAULT_" name, value⟩ = false ∧
      ConstantDescription.hasStem "FIELD_" ⟨constantName "INDEX_" name, value⟩ = false ∧
      ConstantDescription.hasStem "FIELD_" ⟨constantName "KIND_" name, value⟩ = false := by
  simp only [ConstantDescription.hasStem, toList_constantName]
  exact ⟨rfl, rfl, rfl, rfl, rfl⟩

theorem filter_layoutConstants_field (f : FieldDescription) :
    (layoutConstants f).filter (·.hasStem "FIELD_") = f.measured.map measuring := by
  have hmap : ∀ (name : String) (n : Option Nat),
      optionalConstant name (n.map fun n => .integer (signedWord n)) =
        (n.map (name, ·)).toList.map measuring := by
    intro name n
    cases n <;> rfl
  rw [layoutConstants, List.filter_append, List.filter_append,
    filter_optionalConstant_of_true fun value => (hasStem_field f.name value).1,
    filter_optionalConstant_of_true fun value => (hasStem_field f.name value).2.1,
    filter_optionalConstant_of_false fun value => (hasStem_field f.name value).2.2.1,
    List.append_nil, hmap, hmap, FieldDescription.measured, List.map_append]

variable {site : Site} {made : TypeDescription}

theorem describeStruct_measures {d : StructDecl} (h : describeStruct site d = .ok made) :
    made.constants.filter (·.hasStem "FIELD_") =
      ((Declaration.struct d).measured made.fields).map measuring := by
  rcases bind_eq_ok.mp h with ⟨members, _, h⟩
  rcases bind_eq_ok.mp h with ⟨fields, _, h⟩
  cases h
  have htypeId : "FIELD_".toList.isPrefixOf "TYPE_ID".toList = false := by decide
  change (optionalConstant "TYPE_ID" _ ++ fields.flatMap layoutConstants).filter _ =
    (fields.flatMap (·.measured)).map measuring
  rw [List.filter_append, filter_optionalConstant_of_false fun _ => htypeId, List.nil_append,
    List.filter_flatMap, List.map_flatMap]
  simp only [filter_layoutConstants_field]

theorem filter_append_of_no_stem {xs ys : List ConstantDescription}
    (h : ∀ c ∈ ys, c.hasStem "FIELD_" = false) :
    (xs ++ ys).filter (·.hasStem "FIELD_") = xs.filter (·.hasStem "FIELD_") := by
  rw [List.filter_append, List.filter_eq_nil_iff.mpr fun c hc => Bool.eq_false_iff.mp (h c hc),
    List.append_nil]

theorem describeListDecl_measures {d : ListDecl} (h : describeListDecl site d = .ok made) :
    made.constants.filter (·.hasStem "FIELD_") =
      ((Declaration.list d).measured made.fields).map measuring := by
  rcases bind_eq_ok.mp h with ⟨size, hsize, h⟩
  have hwidth : size = d.width.size := by
    rw [prefixSize] at hsize
    split at hsize
    · exact (Except.ok.inj hsize).symm.trans d.width.bytes_eq_size
    · cases hsize
  by_cases hlong : d.members.length > maskSize * 8
  · rw [if_pos hlong] at h
    cases h
  rw [if_neg hlong] at h
  rcases bind_eq_ok.mp h with ⟨fields, _, h⟩
  cases h
  refine (filter_append_of_no_stem fun c hc => ?_).trans ?_
  · -- the members have indices and defaults only
    rcases List.mem_flatMap.mp hc with ⟨⟨f, index⟩, _, hc⟩
    rcases List.mem_cons.mp hc with rfl | hc
    · exact (hasStem_field f.name _).2.2.2.1
    · rcases List.mem_map.mp hc with ⟨value, _, rfl⟩
      exact (hasStem_field f.name _).2.2.1
  · rw [hwidth, Declaration.measured]
    cases d.width <;> rfl

theorem describeUnion_measures {d : UnionDecl} (h : describeUnion site d = .ok made) :
    made.constants.filter (·.hasStem "FIELD_") =
      ((Declaration.union d).measured made.fields).map measuring := by
  rcases (describeUnion_copies h).1 with ⟨kind, hkind⟩
  rcases bind_eq_ok.mp h with ⟨size, hsize, h⟩
  rcases bind_eq_ok.mp h with ⟨value, _, h⟩
  rcases bind_eq_ok.mp h with ⟨fields, _, h⟩
  cases h
  have hwidth : unionKindSize site (.fixed kind) = .ok kind.width := by
    rw [unionKindSize, Site.fixedSize, Site.fixedSizeWithin.eq_def]
    simp only [WireType.fixedWidth?_fixed]
    rfl
  rw [hkind, hwidth] at hsize
  cases hsize
  change ([_, _] ++ d.cases.map _).filter _ = _
  refine (filter_append_of_no_stem fun c hc => ?_).trans ?_
  · rcases List.mem_map.mp hc with ⟨case, _, rfl⟩
    exact (hasStem_field case.name _).2.2.2.2
  · rw [Declaration.measured, hkind]
    cases kind <;> rfl

theorem describeVariant_measures {d : VariantDecl} (h : describeVariant site d = .ok made) :
    made.constants = [] := by
  rcases bind_eq_ok.mp h with ⟨constants, _, h⟩
  dsimp only at h
  split at h
  · cases h
  rcases bind_eq_ok.mp h with ⟨common, _, h⟩
  rcases bind_eq_ok.mp h with ⟨value, _, h⟩
  rcases bind_eq_ok.mp h with ⟨kind, _, h⟩
  rcases bind_eq_ok.mp h with ⟨size, _, h⟩
  rcases bind_eq_ok.mp h with ⟨fields, _, h⟩
  cases h
  rfl

theorem filter_eq_nil_of_names {constants : List ConstantDescription} {names : List String}
    (hnames : constants.map (·.name) = names)
    (h : ∀ name ∈ names, "FIELD_".toList.isPrefixOf name.toList = false) :
    constants.filter (·.hasStem "FIELD_") = [] := by
  rw [List.filter_eq_nil_iff]
  intro c hc
  exact Bool.eq_false_iff.mp (h c.name (hnames ▸ List.mem_map_of_mem hc))

theorem describeMapDecl_measures {d : MapDecl} (h : describeMapDecl site d = .ok made) :
    made.constants.filter (·.hasStem "FIELD_") = [] := by
  rcases bind_eq_ok.mp h with ⟨size, _, h⟩
  rcases bind_eq_ok.mp h with ⟨key, _, h⟩
  rcases bind_eq_ok.mp h with ⟨value, _, h⟩
  cases h
  exact @filter_eq_nil_of_names _ ["KEY_TYPE", "VALUE_TYPE"] rfl (by decide)

/-- The constants of a description, other than that of an enum, that measure something are
    those of the declaration. -/
theorem describeShape_measures {d : Declaration} (henum : ∀ e, d ≠ .enum e)
    (h : describeShape site d = .ok made) :
    made.constants.filter (·.hasStem "FIELD_") = (d.measured made.fields).map measuring := by
  cases d with
  | struct d => exact describeStruct_measures h
  | enum d => exact absurd rfl (henum d)
  | list d => exact describeListDecl_measures h
  | map d => exact describeMapDecl_measures h
  | union d => exact describeUnion_measures h
  | variant d =>
      rw [describeVariant_measures h]
      rfl
  | typedef d => cases h

/-- What is built in measures nothing. -/
theorem describeBuiltin?_measures {identity : Identity} {type : WireType} {b : TypeDescription}
    (h : describeBuiltin? identity type = some b) :
    b.constants.filter (·.hasStem "FIELD_") = [] := by
  rcases Option.bind_eq_some_iff.mp h with ⟨family, _, h⟩
  rcases Option.bind_eq_some_iff.mp h with ⟨limit, _, h⟩
  split at h <;> cases h
  · exact @filter_eq_nil_of_names _ ["WIDTH"] rfl (by decide)
  · exact @filter_eq_nil_of_names _ ["MAX_SIZE", "MIN_VALUE", "MAX_VALUE"] rfl (by decide)
  all_goals rfl

end Constants

/-! ## What is measured -/

theorem Word.lt_of_fit? {ε : Type} {x y : Option Nat}
    (h : (Word.fit? x : Checked ε (Option Nat)) = .ok y) {n : Nat} (hn : y = some n) :
    n < 2 ^ (64 : Nat) := by
  by_contra hle
  cases x with
  | none =>
      cases h
      cases hn
  | some k =>
      by_cases hk : k < 2 ^ (64 : Nat)
      · rw [Word.fit?_of_lt fun n hn => Option.some.inj hn ▸ hk] at h
        cases h
        cases hn
        exact hle hk
      · rw [Word.fit?_of_le (Nat.not_lt.mp hk)] at h
        cases h

theorem FieldDescription.mem_measured {f : FieldDescription} {m : String × Nat}
    (h : m ∈ f.measured) : f.offset = some m.2 ∨ f.size = some m.2 := by
  rcases List.mem_append.mp h with h | h
  · rcases Option.map_eq_some_iff.mp (Option.mem_toList.mp h) with ⟨n, hn, rfl⟩
    exact .inl hn
  · rcases Option.map_eq_some_iff.mp (Option.mem_toList.mp h) with ⟨n, hn, rfl⟩
    exact .inr hn

section Ranges

variable {spec : Specification} {options : Options}

/-- The offsets and sizes of members that are described are 64-bit numbers. -/
theorem lt_of_describeMembers (hunique : (spec.located.map Located.qualifiedName).Nodup)
    (hpaths : ∀ l ∈ spec.located, ∀ name ∈ l.path, IsIdentifier name) {site : Site}
    (htable : site.table = NameTable.ofSpecification spec options)
    (htypedefs : spec.TypedefsEnd) {members : List (Located × Member)}
    (hmembers : ∀ a ∈ members, a.1 ∈ spec.located) {offset : Option Nat}
    {fields : List FieldDescription} (hoffset : ∀ n, offset = some n → n < 2 ^ (64 : Nat))
    (h : describeMembers offset (members.map fun a => (site.inScope a.1.scope, a.2)) =
      .ok fields) {f : FieldDescription} (hf : f ∈ fields) {n : Nat}
    (hn : f.offset = some n ∨ f.size = some n) : n < 2 ^ (64 : Nat) := by
  induction members generalizing offset fields with
  | nil =>
      cases h
      cases hf
  | cons first rest ih =>
      rcases first with ⟨owner, m⟩
      rcases List.forall_mem_cons.mp hmembers with ⟨howner, hrest⟩
      rw [List.map_cons, describeMembers] at h
      rcases bind_eq_ok.mp h with ⟨field, hfield, h⟩
      rcases bind_eq_ok.mp h with ⟨next, hnext, h⟩
      rcases bind_eq_ok.mp h with ⟨after, hafter, h⟩
      cases h
      rw [nextOffset_eq_fit?] at hnext
      rcases List.mem_cons.mp hf with rfl | hf
      · rcases hn with hn | hn
        · exact hoffset n ((Site.offset_of_field hfield).symm.trans hn)
        · -- otherwise describing the member would have stopped
          by_contra hlarge
          have hsize := (Site.describes_of_field hunique hpaths htable howner hfield).size
          rw [hn] at hsize
          have hstopped := (Site.field_eq_stopped_iff hunique hpaths htable howner htypedefs m
            offset).mpr ⟨n, hsize, Nat.not_lt.mp hlarge⟩
          cases hfield.symm.trans hstopped
      · exact ih hrest (fun n hn => Word.lt_of_fit? hnext hn) hafter hf

/-- What the constants of a description measure are 64-bit numbers. -/
theorem measured_lt (hverify : spec.verify = .ok ()) (htypedefs : spec.TypedefsEnd)
    {l k : Located} (hl : l ∈ spec.located) (hstands : spec.StandsFor l k)
    {made : TypeDescription}
    (h : describeShape (l.siteFor spec options k) k.declaration = .ok made) {m : String × Nat}
    (hm : m ∈ k.declaration.measured made.fields) : m.2 < 2 ^ (64 : Nat) := by
  cases hd : k.declaration with
  | struct d =>
      rw [hd] at h hm
      rcases Specification.located_of_verify hverify with ⟨hpaths, _, hunique⟩
      rcases exists_layout hverify hl options hstands hd with ⟨ancestors, _, hmembers, hlayout⟩
      change describeStruct (l.siteFor spec options k) d = .ok made at h
      rw [describeStruct, hlayout, ok_bind] at h
      rcases bind_eq_ok.mp h with ⟨fields, hfields, h⟩
      cases h
      rcases List.mem_flatMap.mp hm with ⟨f, hf, hm⟩
      have hzero : ∀ n, some 0 = some n → n < 2 ^ (64 : Nat) := by
        intro n hn
        cases hn
        decide
      exact lt_of_describeMembers hunique hpaths rfl htypedefs hmembers hzero hfields hf
        (FieldDescription.mem_measured hm)
  | union d =>
      rw [hd] at hm
      rcases List.mem_cons.mp hm with rfl | hm
      · decide
      · rcases Option.map_eq_some_iff.mp (Option.mem_toList.mp hm) with ⟨n, hn, rfl⟩
        have hle := WireType.le_of_fixedWidth? hn
        change n < 2 ^ (64 : Nat)
        omega
  | list d =>
      rw [hd, Declaration.measured] at hm
      have hwidth : 2 * d.width.size < 2 ^ (64 : Nat) := by cases d.width <;> decide
      rcases List.mem_cons.mp hm with rfl | hm
      · exact hwidth
      · rw [List.mem_singleton.mp hm]
        decide
  | _ =>
      rw [hd] at hm
      cases hm

end Ranges

/-! ## Compilations -/

/-- Going through a list stops exactly if the first element that fails does. -/
theorem Checked.mapM_eq_stopped_iff {ε α β : Type} {f : α → Checked ε β} {xs : List α} :
    xs.mapM f = .error .stopped ↔ ∃ before x after, xs = before ++ x :: after ∧
      (∀ y ∈ before, ∃ b, f y = .ok b) ∧ f x = .error .stopped := by
  induction xs with
  | nil =>
      constructor
      · intro h
        cases h
      · rintro ⟨before, x, after, hsplit, _⟩
        exact absurd hsplit.symm (List.append_ne_nil_of_right_ne_nil _ (List.cons_ne_nil _ _))
  | cons x xs ih =>
      rw [List.mapM_cons]
      cases hx : f x with
      | error fault =>
          rw [error_bind]
          constructor
          · intro h
            cases h
            exact ⟨[], x, xs, rfl, List.forall_mem_nil _, hx⟩
          · rintro ⟨_ | ⟨y, before⟩, z, after, hsplit, hbefore, hz⟩
            · cases hsplit
              cases hx.symm.trans hz
              rfl
            · cases hsplit
              rcases hbefore x List.mem_cons_self with ⟨b, hb⟩
              cases hx.symm.trans hb
      | ok b =>
          refine (bind_eq_stopped_iff fun ys => answers_ok _).trans ?_
          rw [ih]
          constructor
          · rintro ⟨before, z, after, rfl, hbefore, hz⟩
            exact ⟨x :: before, z, after, rfl, List.forall_mem_cons.mpr ⟨⟨b, hx⟩, hbefore⟩, hz⟩
          · rintro ⟨_ | ⟨y, before⟩, z, after, hsplit, hbefore, hz⟩
            · cases hsplit
              cases hx.symm.trans hz
            · cases hsplit
              exact ⟨before, z, after, rfl, (List.forall_mem_cons.mp hbefore).2, hz⟩

section Compiling

variable {spec : Specification} {options : Options}

/-- A compilation stops exactly if the first declaration that is not described is too
    large. -/
theorem compile_eq_stopped_iff (hverify : spec.verify = .ok ()) (htypedefs : spec.TypedefsEnd) :
    compile spec options = .error .stopped ↔
      ∃ before l after, targeted spec options = before ++ l :: after ∧
        (∀ b ∈ before, ∃ made, describeEntry (NameTable.ofSpecification spec options)
          (b.entry options) = .ok made) ∧ spec.TooLarge options l := by
  rcases Specification.located_of_verify hverify with ⟨_, _, hunique⟩
  have hentries : ((NameTable.ofSpecification spec options).entries.filter fun entry =>
      options.targets entry.scope) = (targeted spec options).map (Located.entry options) := by
    rw [NameTable.ofSpecification, List.filter_map]
    rfl
  rw [compile, verified_eq_ok.mpr hverify, ok_bind]
  refine (bind_eq_stopped_iff fun described => answers_ok _).trans ?_
  rw [hentries, List.mapM_map, mapM_eq_stopped_iff]
  -- an entry is described as the declaration it was made for
  refine exists_congr fun before => exists_congr fun l => exists_congr fun after =>
    and_congr_right fun hsplit => and_congr_right fun _ => ?_
  have hl : l ∈ targeted spec options := by
    rw [hsplit]
    exact List.mem_append_right _ List.mem_cons_self
  rw [← describeDeclaration_eq_stopped_iff hverify htypedefs (mem_located_of_targeted hl),
    ← describeEntry_entry hunique (mem_located_of_targeted hl)]
  rfl

/-- A compilation stops exactly if the first declaration that is not described is too
    large, that is if a size or an offset in it is no 64-bit number. In all other cases it
    gives descriptions or is refused. In a compilation that was made, no declaration is too
    large. The constants that measure something are those of the fields of structs, of the
    integers that discriminate unions and of the masks of lists, and each holds what it
    measures as a signed word. So it is negative, and not what is measured, exactly if this
    is `2 ^ 63` or more. -/
theorem compile_overruns_iff (hverify : spec.verify = .ok ()) (htypedefs : spec.TypedefsEnd)
    (options : Options) :
    (compile spec options = .error .stopped ↔
      ∃ before l after, targeted spec options = before ++ l :: after ∧
        (∀ b ∈ before, ∃ made, describeEntry (NameTable.ofSpecification spec options)
          (b.entry options) = .ok made) ∧ spec.TooLarge options l) ∧
    ∀ c, compile spec options = .ok c →
      (∀ made ∈ c.types, made.qualifiedName = none →
        made.constants.filter (·.hasStem "FIELD_") = []) ∧
      ∀ l ∈ targeted spec options, ¬ spec.TooLarge options l ∧
        ∃ made, c.find? l.qualifiedName = some made ∧
          ((∀ k, ¬ spec.StandsFor l k) → made.constants.filter (·.hasStem "FIELD_") = []) ∧
          ∀ k, spec.StandsFor l k → (∀ d, k.declaration ≠ .enum d) →
            made.constants.filter (·.hasStem "FIELD_") =
              (k.declaration.measured made.fields).map measuring ∧
            ∀ m ∈ k.declaration.measured made.fields, m.2 < 2 ^ (64 : Nat) ∧
              (signedWord m.2 = m.2 ↔ m.2 < 2 ^ (63 : Nat)) ∧
              (0 ≤ signedWord m.2 ↔ m.2 < 2 ^ (63 : Nat)) := by
  refine ⟨compile_eq_stopped_iff hverify htypedefs, fun c hcompile => ⟨?_, fun l hl => ?_⟩⟩
  · intro made hmade hnone
    rcases (Compilation.mem_types_of_compile hcompile).1 made hmade with hbuiltin | ⟨l, _, hl⟩
    · rcases List.mem_filterMap.mp hbuiltin with ⟨type, _, h⟩
      rcases Option.bind_eq_some_iff.mp h with ⟨name, _, h⟩
      exact describeBuiltin?_measures h
    · cases hnone.symm.trans (describeDeclaration_describesAs _ _ made hl)
  · have hmem := mem_located_of_targeted hl
    rcases Compilation.find?_of_compile hcompile hmem (List.mem_filter.mp hl).2 with
      ⟨made, hfound, hmade⟩
    refine ⟨fun hlarge => ?_, made, hfound, fun hnone => ?_, fun k hstands henum => ?_⟩
    · have hstopped := (describeDeclaration_eq_stopped_iff hverify htypedefs hmem).mpr hlarge
      cases hmade.symm.trans hstopped
    · rcases exists_builtin hverify hmem hnone hmade with ⟨type, b, hb, rfl⟩
      have hmeasures := describeBuiltin?_measures hb
      exact hmeasures
    · rw [describeDeclaration_eq_describeShape hverify hmem hstands] at hmade
      refine ⟨describeShape_measures henum hmade, fun m hm => ?_⟩
      have hlt := measured_lt hverify htypedefs hmem hstands hmade hm
      exact ⟨hlt, signedWord_eq_iff hlt⟩

/-- Integers that the cells of a plot hold. -/
def cell : Located where
  path := ["example"]
  declaration := .typedef { name := "Cell", aliased := .fixed .int64 }

/-- A row of cells, which takes two bytes more than `2 ^ 63`. -/
def row : Located where
  path := ["example", "narrow"]
  declaration := .struct
    { name := "Row"
      members :=
        [{ name := "cells", type := .array .eight (.named "Cell"),
           size := some (2 ^ (60 : Nat)) }] }

/-- A grid, which extends a row by as much again. -/
def grid : Located where
  path := ["example", "wide"]
  declaration := .struct
    { name := "Grid", supertype := some "narrow::Row"
      members :=
        [{ name := "bytes", type := .array .eight (.fixed .uint8),
           size := some (2 ^ (63 : Nat)) }] }

/-- Another name for a grid. -/
def plot : Located where
  path := ["example", "wide"]
  declaration := .typedef { name := "Plot", aliased := .named "Grid" }

/-- A schema in which each member has a size, but not all of them have an offset. -/
def plots : Specification where
  scope := .mk "example"
    [.mk "narrow" [] [row.declaration], .mk "wide" [] [grid.declaration, plot.declaration]]
    [cell.declaration]

theorem plots_verify : plots.verify = .ok () := by decide +kernel

theorem row_mem : row ∈ plots.located :=
  List.mem_of_getElem? (show plots.located[1]? = some row from rfl)

theorem grid_mem : grid ∈ plots.located :=
  List.mem_of_getElem? (show plots.located[2]? = some grid from rfl)

theorem not_typedef_of_struct {l : Located} {d : StructDecl} (h : l.declaration = .struct d) :
    ∀ e, l.declaration ≠ .typedef e := by
  rw [h]
  intro e he
  cases he

theorem plots_typedefsEnd : plots.TypedefsEnd := by
  have hunique := (Specification.located_of_verify plots_verify).2.2
  have hbuiltin : ∀ name, WireType.fixed .int64 ≠ .named name := by
    intro name hname
    cases hname
  have hcell : plots.Stops cell (.builtin (.fixed .int64)) :=
    @Specification.Stops.builtin _ _ ⟨"Cell", .fixed .int64⟩ rfl hbuiltin
  have hrow : plots.Stops row (.declared row) := .declared (not_typedef_of_struct rfl)
  have hgrid : plots.Stops grid (.declared grid) := .declared (not_typedef_of_struct rfl)
  have hplot : plots.Aliases plot grid :=
    ⟨_, _, rfl, rfl, grid_mem, .here (List.mem_map_of_mem grid_mem)⟩
  refine .of_stops hunique ?_
  rw [show plots.located = [cell, row, grid, plot] from rfl]
  refine List.forall_mem_cons.mpr ⟨⟨cell, _, .refl, hcell⟩, ?_⟩
  refine List.forall_mem_cons.mpr ⟨⟨row, _, .refl, hrow⟩, ?_⟩
  exact List.forall_mem_cons.mpr
    ⟨⟨grid, _, .refl, hgrid⟩, List.forall_mem_singleton.mpr ⟨grid, _, .single hplot, hgrid⟩⟩

/-- The offset behind the members of a grid is no 64-bit number. -/
theorem grid_tooLarge : plots.TooLarge {} grid := by
  have hcell : cell ∈ plots.located :=
    List.mem_of_getElem? (show plots.located[0]? = some cell from rfl)
  have hinner : "example::narrow::Cell" ∉ plots.located.map Located.qualifiedName := by decide
  have hbeside : "example::wide::narrow::Row" ∉ plots.located.map Located.qualifiedName := by decide
  have hresolves : Resolves plots.Defines "Cell" row.path cell.qualifiedName :=
    @Resolves.outward _ _ ["example"] "narrow" _ hinner (.here (List.mem_map_of_mem hcell))
  have hsuper : Resolves plots.Defines "narrow::Row" grid.path row.qualifiedName :=
    @Resolves.outward _ _ ["example"] "wide" _ hbeside (.here (List.mem_map_of_mem row_mem))
  have hchain : plots.Ancestors grid [row] := .step rfl rfl row_mem hsuper (.root rfl rfl)
  have hbuiltin : ∀ name, WireType.fixed .int64 ≠ .named name := by
    intro name hname
    cases hname
  have hsizes : plots.Sizes cell (some 8) :=
    @Specification.Sizes.builtin _ _ ⟨"Cell", .fixed .int64⟩ rfl hbuiltin
  have hcells : plots.SizesMember row.path
      { name := "cells", type := .array .eight (.named "Cell"), size := some (2 ^ (60 : Nat)) }
      (some (2 + 2 ^ (60 : Nat) * 8)) :=
    ⟨none, rfl, some 8, ⟨cell, hcell, hresolves, hsizes⟩, rfl⟩
  have hbytes : plots.SizesMember grid.path
      { name := "bytes", type := .array .eight (.fixed .uint8), size := some (2 ^ (63 : Nat)) }
      (some (2 + 2 ^ (63 : Nat) * 1)) :=
    ⟨none, rfl, some 1, rfl, rfl⟩
  rcases hcells.exists_describes {} with ⟨f, hf, hsize⟩
  refine .struct (.self (not_typedef_of_struct rfl)) hchain (.later hf ?_)
  rw [hsize]
  exact .offset hbytes (by decide)

/-- The descriptions of what is declared in the narrower of the two scopes. -/
def narrowOnly : Options where
  scopes := ["example::narrow"]

-- All of the schema stops at the grid. The row by itself is described, and the constant
-- for its size is negative.
theorem compile_overruns_iff_plots :
    plots.verify = .ok () ∧ plots.TypedefsEnd ∧ plots.TooLarge {} grid ∧
      compile plots {} = .error .stopped ∧
      ∃ c made, compile plots narrowOnly = .ok c ∧ c.find? row.qualifiedName = some made ∧
        made.constants.filter (·.hasStem "FIELD_") =
          [⟨"FIELD_OFFSET_CELLS", .integer 0⟩,
            ⟨"FIELD_SIZE_CELLS", .integer (-9223372036854775806)⟩] := by
  have hbefore : ∀ b ∈ [cell, row], ∃ made,
      describeEntry (NameTable.ofSpecification plots {}) (b.entry {}) = .ok made := by
    refine List.forall_mem_cons.mpr ⟨exists_of_isOk (by decide +kernel), ?_⟩
    exact List.forall_mem_singleton.mpr (exists_of_isOk (by decide +kernel))
  have hstopped := (compile_overruns_iff plots_verify plots_typedefsEnd {}).1.mpr
    ⟨[cell, row], grid, [plot], rfl, hbefore, grid_tooLarge⟩
  rcases exists_of_isOk (by decide +kernel : (compile plots narrowOnly).isOk = true) with
    ⟨c, hcompile⟩
  have hrow : row ∈ targeted plots narrowOnly :=
    List.mem_of_getElem? (show (targeted plots narrowOnly)[0]? = some row from rfl)
  rcases (compile_overruns_iff plots_verify plots_typedefsEnd narrowOnly).2 c hcompile with
    ⟨_, hmeasures⟩
  rcases hmeasures row hrow with ⟨_, made, hfound, _, hmeasured⟩
  have hstruct := not_typedef_of_struct (l := row) rfl
  have hconstants := (hmeasured row (.self hstruct) (by intro d hd; cases hd)).1
  have hfields : ((compile plots narrowOnly).toOption.bind (·.find? row.qualifiedName)).map
      (row.declaration.measured ·.fields) =
        some [("FIELD_OFFSET_CELLS", 0), ("FIELD_SIZE_CELLS", 2 + 2 ^ (63 : Nat))] := by
    decide +kernel
  rw [hcompile] at hfields
  change (c.find? row.qualifiedName).map _ = _ at hfields
  rw [hfound] at hfields
  exact ⟨plots_verify, plots_typedefsEnd, grid_tooLarge, hstopped, c, made, hcompile, hfound,
    hconstants.trans (congrArg (List.map measuring) (Option.some.inj hfields))⟩

theorem eq_stopped_of_speculate {ε α : Type} {x : Checked ε α} (h : x.speculate.isOk = false) :
    x = .error .stopped := by
  rcases x with (cause | _) | a
  · cases h
  · rfl
  · cases h

/-- An array of integers with a declared number of them. -/
def countedArray (name : String) (width : Width) (item : FixedInt) (count : Nat) : Member where
  name
  type := .array width (.fixed item)
  size := some count

/-- A schema with one declaration. -/
def only (d : Declaration) : Specification where
  scope := .mk "example" [] [d]

theorem typedefsEnd_only {d : Declaration} (hd : ∀ e, d ≠ .typedef e) : (only d).TypedefsEnd := by
  intro l hl hcycle
  rcases Relation.TransGen.head'_iff.mp hcycle with ⟨_, ⟨e, _, he, _⟩, _⟩
  rw [List.mem_singleton.mp (show l ∈ [⟨["example"], d⟩] from hl)] at he
  exact hd e he

/-- Schemas of one struct or list are verified, have no typedefs and are what is read from
    their JSON form, and stop: the items alone leave the range, or only with the prefixes,
    or only two members together, or the items of a member of a list. Another one does not
    stop, and has a constant for a size that is negative. -/
theorem sizes_leave_range :
    (∀ d ∈ [.struct
          { name := "Grid", members := [countedArray "cells" .thirtyTwo .int64 (2 ^ (61 : Nat))] },
        .struct
          { name := "Grid", members := [countedArray "cells" .eight .uint8 (2 ^ (64 : Nat) - 1)] },
        .struct
          { name := "Grid"
            members := [countedArray "cells" .eight .uint8 (2 ^ (63 : Nat)),
              countedArray "more" .eight .uint8 (2 ^ (63 : Nat))] },
        .list
          { name := "Grid", width := .eight
            members := [countedArray "cells" .thirtyTwo .int64 (2 ^ (61 : Nat))] }],
      (only d).verify = .ok () ∧ (only d).TypedefsEnd ∧ compile (only d) {} = .error .stopped ∧
        (readWith Specification.ofJson? (only d).toJson >>= (compile · {})) = .error .stopped) ∧
    ∃ c made,
      compile (only (.struct
        { name := "Grid", members := [countedArray "cells" .eight .uint8 (2 ^ (63 : Nat))] })) {} =
          .ok c ∧
      c.find? "example::Grid" = some made ∧
      ⟨"FIELD_SIZE_CELLS", .integer (-9223372036854775806)⟩ ∈ made.constants := by
  constructor
  · refine List.forall_mem_cons.mpr ⟨?_, List.forall_mem_cons.mpr
      ⟨?_, List.forall_mem_cons.mpr ⟨?_, List.forall_mem_singleton.mpr ?_⟩⟩⟩
    all_goals
      refine ⟨by decide +kernel, typedefsEnd_only ?_, eq_stopped_of_speculate (by decide +kernel),
        eq_stopped_of_speculate (by decide +kernel)⟩
      intro e he
      cases he
  · rcases exists_of_isOk (by decide +kernel : (compile (only (.struct
      { name := "Grid", members := [countedArray "cells" .eight .uint8 (2 ^ (63 : Nat))] }))
        {}).isOk = true) with ⟨c, hcompile⟩
    have hconstant : ((compile (only (.struct
        { name := "Grid", members := [countedArray "cells" .eight .uint8 (2 ^ (63 : Nat))] }))
          {}).toOption.bind (·.find? "example::Grid")).any
            (⟨"FIELD_SIZE_CELLS", .integer (-9223372036854775806)⟩ ∈ ·.constants) = true := by
      decide +kernel
    rw [hcompile] at hconstant
    rcases Option.any_eq_true _ _ |>.mp hconstant with ⟨made, hfound, hmem⟩
    exact ⟨c, made, hcompile, hfound, of_decide_eq_true hmem⟩

end Compiling

end Wireform
