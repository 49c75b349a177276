import Wireform.Proofs.DescribedLimits
import Wireform.Proofs.EnumLookup
import Wireform.Proofs.WriteBack

/-!
# Enums That Can Be Encoded

Which enums are described, against what the runtime can write.

The constants of an enum are written by the builder of its type and read by the
reader of it. So an enum makes sense if each of its constants has a value that the
builder takes and the reader gives back. What the generator compares values with is
a table of ranges, one for each integer type, that knows nothing of builders. The
two agree for all of these types, with one exception that is meant: a schema holds
values of 64 bits with a sign, so the largest unsigned type is used up to there.

A constant without a value has its position for a value, and that must fit as well.
An enum without a type is encoded by position and has no values of its own, and one
with a type of strings has texts.

## Main definitions

* `Format.CarriesIn`, `Format.Carries`: Numbers that are written and read back.
* `Format.InRange`: The numbers of an integer format.
* `WireType.Encodes`: Numbers that are written and read back as a type, and that
  schemas can hold.
* `EnumDecl.Encodable`: Enums whose constants can all be encoded.

## Theorems

* `Format.carries_iff_inRange`: These numbers are the range of the type.
* `WireType.valueRange?_fixed`, `WireType.valueRange?_varint`: The table and the
  builders agree, type by type.
* `WireType.valueRange?_iff_encodes`: The table of ranges says what is encoded.
* `exists_constantValues_iff`: When all constants have values.
* `enum_described_iff_encodable`: An enum is described exactly if it is encodable.
-/

namespace Wireform

/-- In the window, a builder of the format that is given the settings can be set to the
    number, and builds a reader of it. -/
def Format.CarriesIn (format : Format) (n : Int) (settings : Settings) (b : Buffer) (o m : Nat) :
    Prop :=
  ∃ r out, format.compose [.configure settings, .set n] b o m = ⟨.ok r, out⟩ ∧
    r.number = .ok (some n)

/-- In some window of a buffer, a builder of the format can be set to the number, and
    builds a reader of it. -/
def Format.Carries (format : Format) (n : Int) : Prop :=
  ∃ settings b o m, b.Addressable ∧ o ≤ m ∧ m ≤ b.size ∧ format.CarriesIn n settings b o m

/-- The number is one that is written and read back as the type, and one that schemas
    can hold, which are fewer for the largest unsigned type. -/
def WireType.Encodes (type : WireType) (n : Int) : Prop :=
  (∃ format, type.ReadAs format ∧ format.isInteger ∧ format.Carries n) ∧
    (type = .fixed .uint64 → n ≤ 2 ^ (63 : Nat) - 1)

/-- The enums whose constants can all be encoded: without a type by their positions,
    with a type of strings by texts, and with an integer type by the numbers that are
    written for them, or their positions, if the type encodes these. -/
inductive EnumDecl.Encodable (d : EnumDecl) : Prop where
  | positions (htype : d.valueType = none) (h : ∀ c ∈ d.constants, c.value = none)
  | texts {type : WireType} (htype : d.valueType = some type) (hstring : type.isString = true)
      (h : ∀ c ∈ d.constants, ∀ v, c.value = some v → ∃ t, v = .text t)
  | integers {type : WireType} (htype : d.valueType = some type) (hinteger : type.isInteger = true)
      (h : ∀ c ∈ d.assigned, ∃ n, c.value = .integer n ∧ type.Encodes n)

namespace Format

/-- The number is in the range of the integer type of the format. -/
def InRange : Format → Int → Prop
  | .fixed kind, n => kind.InRange n
  | .varint kind, n => kind.InRange n
  | _, _ => False

variable {format : Format} {n : Int}

/-- A number of the range is carried by every builder with ten bytes of room, in either
    byte order. -/
theorem carriesIn_of_inRange (hrange : format.InRange n) (settings : Settings) {b : Buffer}
    {o m : Nat} (hb : b.Addressable) (hroom : o + 10 ≤ m) (hm : m ≤ b.size) :
    format.CarriesIn n settings b o m := by
  cases format with
  | fixed kind =>
      have hwidth : kind.width ≤ 10 := by cases kind <;> decide
      rcases compose_set_fixed (o := o) settings hb hrange (by omega) hm with ⟨r, out, hr, hn, _⟩
      exact ⟨r, out, hr, hn⟩
  | varint kind =>
      have hbits : 2 ^ kind.bits ≤ 128 ^ (10 : Nat) := by cases kind <;> decide
      have hsize : Varint.encodedSize (kind.represent n) ≤ 10 :=
        Varint.encodedSize_le (by omega) (Nat.lt_of_lt_of_le (VarInt.represent_lt hrange) hbits)
      rcases compose_set_varint (o := o) settings hb hrange (by omega) hm with ⟨r, out, hr, hn, _⟩
      exact ⟨r, out, hr, hn⟩
  | _ => exact hrange.elim

/-- No builder carries another number. -/
theorem inRange_of_carriesIn (hformat : format.isInteger) {settings : Settings} {b : Buffer}
    {o m : Nat} (hb : b.Addressable) (ho : o ≤ m) (hm : m ≤ b.size)
    (h : format.CarriesIn n settings b o m) : format.InRange n := by
  rcases h with ⟨r, out, hr, _⟩
  have hok := congrArg Outcome.result hr
  cases format with
  | fixed kind => exact ((compose_set_fixed_exactly settings hb ho hm n).of_ok hok).1.1
  | varint kind => exact ((compose_set_varint_exactly settings hb ho hm n).of_ok hok).1.1
  | _ => exact absurd hformat Bool.false_ne_true

/-- The numbers that builders carry are those of the range. -/
theorem carries_iff_inRange (hformat : format.isInteger) : format.Carries n ↔ format.InRange n := by
  constructor
  · rintro ⟨settings, b, o, m, hb, ho, hm, h⟩
    exact inRange_of_carriesIn hformat hb ho hm h
  · intro hrange
    have hb : (Buffer.ofBytes (List.replicate 10 0)).Addressable := by
      unfold Buffer.Addressable
      decide
    exact ⟨{}, .ofBytes (List.replicate 10 0), 0, 10, hb, by decide, by decide,
      carriesIn_of_inRange hrange {} hb (by decide) (by decide)⟩

end Format

namespace WireType

variable {type : WireType} {format : Format} {n : Int}

theorem encodes_iff (hread : type.ReadAs format) (hformat : format.isInteger) :
    type.Encodes n ↔ format.InRange n ∧ (type = .fixed .uint64 → n ≤ 2 ^ (63 : Nat) - 1) := by
  unfold Encodes
  constructor
  · rintro ⟨⟨format', hread', hformat', hcarries⟩, hheld⟩
    refine ⟨?_, hheld⟩
    -- an integer type has one format
    have hsame : format' = format := by
      cases hread with
      | fixed kind => cases hread'; rfl
      | varint kind => cases hread'; rfl
      | _ => exact absurd hformat Bool.false_ne_true
    exact hsame ▸ (Format.carries_iff_inRange hformat').mp hcarries
  · rintro ⟨hrange, hheld⟩
    exact ⟨⟨format, hread, hformat, (Format.carries_iff_inRange hformat).mpr hrange⟩, hheld⟩

/-- What a type encodes is carried by every builder of it that has room. -/
theorem Encodes.carriesIn (h : type.Encodes n) (hread : type.ReadAs format)
    (hinteger : type.isInteger = true) (settings : Settings) {b : Buffer} {o m : Nat}
    (hb : b.Addressable) (hroom : o + 10 ≤ m) (hm : m ≤ b.size) :
    format.CarriesIn n settings b o m := by
  have hformat : format.isInteger := by
    cases hread with
    | fixed kind => rfl
    | varint kind => rfl
    | _ => exact absurd hinteger Bool.false_ne_true
  exact Format.carriesIn_of_inRange ((encodes_iff hread hformat).mp h).1 settings hb hroom hm

/-- The table says of a type of fixed width what its builder takes, and of the largest
    unsigned one the half that schemas hold. -/
theorem valueRange?_fixed (kind : FixedInt) :
    (WireType.fixed kind).valueRange? =
      some (kind.minValue, if kind = .uint64 then 2 ^ (63 : Nat) - 1 else kind.maxValue) := by
  cases kind <;> rfl

theorem valueRange?_varint (kind : VarInt) :
    (WireType.varint kind).valueRange? = some (kind.minValue, kind.maxValue) := by
  cases kind <;> rfl

/-- The table of ranges has the integer types, each with the numbers that are encoded as
    it. -/
theorem valueRange?_iff_encodes (type : WireType) (n : Int) :
    (∃ least greatest, type.valueRange? = some (least, greatest) ∧ least ≤ n ∧ n ≤ greatest) ↔
      type.isInteger = true ∧ type.Encodes n := by
  cases type with
  | fixed kind =>
      rw [encodes_iff (.fixed kind) rfl, valueRange?_fixed]
      by_cases hkind : kind = .uint64
      · -- the table stops at what schemas hold, which is half of the range
        subst hkind
        constructor
        · rintro ⟨_, _, ⟨⟩, hleast, hgreatest⟩
          exact ⟨rfl, ⟨hleast, Int.le_trans hgreatest (by decide)⟩, fun _ => hgreatest⟩
        · rintro ⟨_, ⟨hleast, _⟩, hheld⟩
          exact ⟨_, _, rfl, hleast, hheld rfl⟩
      · rw [if_neg hkind]
        constructor
        · rintro ⟨_, _, ⟨⟩, hleast, hgreatest⟩
          exact ⟨rfl, ⟨hleast, hgreatest⟩, fun h => absurd (WireType.fixed.inj h) hkind⟩
        · rintro ⟨_, ⟨hleast, hgreatest⟩, _⟩
          exact ⟨_, _, rfl, hleast, hgreatest⟩
  | varint kind =>
      rw [encodes_iff (.varint kind) rfl, valueRange?_varint]
      constructor
      · rintro ⟨_, _, ⟨⟩, hleast, hgreatest⟩
        refine ⟨rfl, ⟨hleast, hgreatest⟩, fun h => ?_⟩
        cases h
      · rintro ⟨_, ⟨hleast, hgreatest⟩, _⟩
        exact ⟨_, _, rfl, hleast, hgreatest⟩
  | _ =>
      constructor
      · rintro ⟨_, _, ⟨⟩, _⟩
      · rintro ⟨⟨⟩, _⟩

end WireType

section Values

variable {site : Site} {valueType : Option WireType} {type : WireType} {index : Nat}
  {c : EnumConstant}

theorem exists_constantValue_none :
    (∃ v, constantValue site none index c = .ok v) ↔ c.value = none := by
  unfold constantValue
  cases c.value with
  | none => exact ⟨fun _ => rfl, fun _ => ⟨_, rfl⟩⟩
  | some v =>
      constructor
      · rintro ⟨_, h⟩
        cases h
      · intro h
        cases h

theorem exists_constantValue_string (hstring : type.isString = true) :
    (∃ v, constantValue site (some type) index c = .ok v) ↔
      ∀ v, c.value = some v → ∃ t, v = .text t := by
  unfold constantValue
  simp only [if_pos hstring]
  cases c.value with
  | none =>
      refine ⟨fun _ v hv => ?_, fun _ => ⟨_, rfl⟩⟩
      cases hv
  | some v =>
      simp only [Option.some.injEq, forall_eq']
      cases v with
      | text t => exact ⟨fun _ => ⟨t, rfl⟩, fun _ => ⟨_, rfl⟩⟩
      | integer n =>
          constructor
          · rintro ⟨_, h⟩
            cases h
          · rintro ⟨_, h⟩
            cases h

theorem exists_constantWithin_iff {name : String} {least greatest n : Int} :
    (∃ v, constantWithin site name type least greatest n = .ok v) ↔ least ≤ n ∧ n ≤ greatest := by
  unfold constantWithin
  by_cases hout : n < least ∨ greatest < n
  · rw [if_pos hout]
    refine ⟨?_, fun h => by omega⟩
    rintro ⟨_, h⟩
    cases h
  · rw [if_neg hout]
    exact ⟨fun _ => by omega, fun _ => ⟨_, rfl⟩⟩

/-- With a type that is none of strings, a constant needs an integer that the type
    encodes, its position if it has no other value. -/
theorem exists_constantValue_integer (hstring : ¬ type.isString = true) :
    (∃ v, constantValue site (some type) index c = .ok v) ↔
      ∃ n, c.value.getD (c.impliedValue (some type) index) = .integer n ∧
        type.isInteger = true ∧ type.Encodes n := by
  have himplied : c.impliedValue (some type) index = .integer index := by
    rw [EnumConstant.impliedValue, Option.any_some, if_neg hstring]
  simp only [← WireType.valueRange?_iff_encodes]
  unfold constantValue
  simp only [if_neg hstring, himplied]
  cases type.valueRange? with
  | none =>
      constructor
      · rintro ⟨_, h⟩
        cases h
      · rintro ⟨_, _, _, _, h, _⟩
        cases h
  | some range =>
      rcases range with ⟨least, greatest⟩
      -- the value is compared as it is written, and else the position is
      have hwithin : ∀ n : Int, (∃ v, constantWithin site c.name type least greatest n = .ok v) ↔
          ∃ n', Literal.integer n = .integer n' ∧ ∃ least' greatest',
            some (least, greatest) = some (least', greatest') ∧ least' ≤ n' ∧ n' ≤ greatest' := by
        intro n
        rw [exists_constantWithin_iff]
        constructor
        · intro h
          exact ⟨n, rfl, least, greatest, rfl, h⟩
        · rintro ⟨_, hn, _, _, hrange, h⟩
          cases hn
          cases hrange
          exact h
      cases c.value with
      | none => exact hwithin index
      | some v =>
          cases v with
          | integer n => exact hwithin n
          | text t =>
              constructor
              · rintro ⟨_, h⟩
                cases h
              · rintro ⟨_, h, _⟩
                cases h

/-- The values of all constants are found exactly if the value of each is. -/
theorem exists_constantValues_iff {constants : List EnumConstant} :
    (∃ values, constantValues site valueType index constants = .ok values) ↔
      ∀ x ∈ constants.zipIdx index, ∃ v, constantValue site valueType x.2 x.1 = .ok v := by
  induction constants generalizing index with
  | nil => exact ⟨fun _ => List.forall_mem_nil _, fun _ => ⟨[], rfl⟩⟩
  | cons c rest ih =>
      rw [List.zipIdx_cons, List.forall_mem_cons, ← ih]
      constructor
      · rintro ⟨values, h⟩
        rcases Checked.bind_eq_ok.mp h with ⟨value, hvalue, h⟩
        rcases Checked.bind_eq_ok.mp h with ⟨others, hothers, _⟩
        exact ⟨⟨value, hvalue⟩, others, hothers⟩
      · rintro ⟨⟨value, hvalue⟩, others, hothers⟩
        refine ⟨value :: others, Checked.bind_eq_ok.mpr ⟨value, hvalue, ?_⟩⟩
        exact Checked.bind_eq_ok.mpr ⟨others, hothers, rfl⟩

end Values

theorem WireType.not_isString_of_isInteger {type : WireType} (h : type.isInteger = true) :
    ¬ type.isString = true := by
  cases type with
  | fixed _ => exact Bool.false_ne_true
  | varint _ => exact Bool.false_ne_true
  | _ => exact absurd h Bool.false_ne_true

section Enums

variable {d : EnumDecl}

theorem forall_zipIdx_iff_forall_mem {constants : List EnumConstant} {P : EnumConstant → Prop} :
    (∀ x ∈ constants.zipIdx, P x.1) ↔ ∀ c ∈ constants, P c := by
  rw [← List.forall_mem_map, List.zipIdx_map_fst]

theorem EnumDecl.forall_assigned_iff {P : Literal → Prop} :
    (∀ c ∈ d.assigned, P c.value) ↔ ∀ x ∈ d.constants.zipIdx,
      P (x.1.value.getD (x.1.impliedValue d.valueType x.2)) := by
  rw [EnumDecl.assigned, List.forall_mem_map]

/-- The values of an enum with constants are found exactly if they can be encoded. -/
theorem exists_constantValues_iff_encodable (site : Site) (hconstants : d.constants ≠ []) :
    (∃ values, constantValues site d.valueType 0 d.constants = .ok values) ↔ d.Encodable := by
  rw [exists_constantValues_iff]
  cases htype : d.valueType with
  | none =>
      simp only [exists_constantValue_none]
      rw [forall_zipIdx_iff_forall_mem (P := fun c => c.value = none)]
      constructor
      · exact .positions htype
      · intro h
        cases h with
        | positions _ h => exact h
        | texts hsome _ _ => cases htype.symm.trans hsome
        | integers hsome _ _ => cases htype.symm.trans hsome
  | some type =>
      by_cases hstring : type.isString = true
      · simp only [exists_constantValue_string hstring]
        rw [forall_zipIdx_iff_forall_mem
          (P := fun c => ∀ v, c.value = some v → ∃ t, v = Literal.text t)]
        constructor
        · exact .texts htype hstring
        · intro h
          cases h with
          | positions hnone _ => cases htype.symm.trans hnone
          | texts _ _ h => exact h
          | integers hsome hinteger _ =>
              cases htype.symm.trans hsome
              exact absurd hstring (WireType.not_isString_of_isInteger hinteger)
      · have hassigned := d.forall_assigned_iff (P := fun v => ∃ n, v = .integer n ∧
          type.isInteger = true ∧ type.Encodes n)
        rw [htype] at hassigned
        simp only [exists_constantValue_integer hstring]
        rw [← hassigned]
        constructor
        · intro h
          -- the first constant tells that the type is one of integers
          have hinteger : type.isInteger = true := by
            rcases List.exists_mem_of_ne_nil _ hconstants with ⟨c, hc⟩
            rcases List.getElem?_of_mem hc with ⟨i, hi⟩
            rcases h _ (EnumDecl.mem_assigned.mpr ⟨i, c, hi, rfl, rfl⟩) with ⟨_, _, hinteger, _⟩
            exact hinteger
          refine .integers htype hinteger fun c hc => ?_
          rcases h c hc with ⟨n, hn, _, hencodes⟩
          exact ⟨n, hn, hencodes⟩
        · intro h c hc
          cases h with
          | positions hnone _ => cases htype.symm.trans hnone
          | texts hsome hstring' _ =>
              cases htype.symm.trans hsome
              exact absurd hstring' hstring
          | integers hsome hinteger h =>
              cases htype.symm.trans hsome
              rcases h c hc with ⟨n, hn, hencodes⟩
              exact ⟨n, hn, hinteger, hencodes⟩

/-- The types that constants can have are built in, so that their values have an
    identity. -/
theorem exists_enumEncoding (site : Site) (h : d.Encodable) :
    ∃ encoding, enumEncoding site d.valueType = .ok encoding := by
  have hidentity : ∀ type : WireType, type.isString = true ∨ type.isInteger = true →
      ∃ i, site.valueIdentityOf type = .ok i := by
    intro type htype
    unfold Site.valueIdentityOf
    cases type with
    | fixed kind => cases kind <;> exact ⟨_, rfl⟩
    | varint kind => cases kind <;> exact ⟨_, rfl⟩
    | string width => exact ⟨_, rfl⟩
    | varstring => exact ⟨_, rfl⟩
    | _ => rcases htype with h | h <;> exact absurd h Bool.false_ne_true
  have hsome : ∀ type, d.valueType = some type → type.isString = true ∨ type.isInteger = true →
      ∃ encoding, enumEncoding site d.valueType = .ok encoding := by
    intro type htype hkind
    rcases hidentity type hkind with ⟨i, hi⟩
    rw [htype]
    exact ⟨_, Checked.bind_eq_ok.mpr ⟨i, hi, rfl⟩⟩
  cases h with
  | positions htype _ =>
      rw [htype]
      exact ⟨_, rfl⟩
  | texts htype hstring _ => exact hsome _ htype (.inl hstring)
  | integers htype hinteger _ => exact hsome _ htype (.inr hinteger)

/-- An enum with constants is described exactly if all of them can be encoded. It is
    described with the values that they are encoded as, in the order of the schema, and
    every number among these is carried by every builder of the type that has room. -/
theorem enum_described_iff_encodable (site : Site) (hconstants : d.constants ≠ []) :
    ((∃ description, describeDeclaration site (.enum d) = .ok description) ↔ d.Encodable) ∧
    ∀ description, describeDeclaration site (.enum d) = .ok description →
      description.constants = d.assigned ∧
      ∀ c ∈ description.constants, ∀ n, c.value = .integer n →
        ∀ type format, d.valueType = some type → type.ReadAs format →
          ∀ settings (b : Buffer) o m, b.Addressable → o + 10 ≤ m → m ≤ b.size →
            format.CarriesIn n settings b o m := by
  have hiff : (∃ description, describeEnum site d = .ok description) ↔ d.Encodable := by
    rw [← exists_constantValues_iff_encodable site hconstants]
    constructor
    · rintro ⟨description, h⟩
      rcases Checked.bind_eq_ok.mp h with ⟨values, hvalues, _⟩
      exact ⟨values, hvalues⟩
    · rintro ⟨values, hvalues⟩
      have hencodable := (exists_constantValues_iff_encodable site hconstants).mp ⟨values, hvalues⟩
      rcases exists_enumEncoding site hencodable with ⟨⟨limit, value⟩, hencoding⟩
      rw [describeEnum, hvalues, Checked.ok_bind, hencoding]
      exact ⟨_, rfl⟩
  refine ⟨hiff, fun description h => ?_⟩
  have hdescribed : description.constants = d.assigned := (describeEnum_eq_ok h).2.1
  refine ⟨hdescribed, fun c hc n hn type format htype hread settings b o m hb hroom hm => ?_⟩
  rw [hdescribed] at hc
  cases hiff.mp ⟨description, h⟩ with
  | positions hnone _ => cases htype.symm.trans hnone
  | texts hsome hstring _ =>
      -- the values are texts, and this one is none
      have hkind := (describeEnum_eq_ok h).1.kinds c hc
      rw [hsome, Option.any_some, if_pos hstring] at hkind
      rcases hkind with ⟨t, ht⟩
      cases hn.symm.trans ht
  | integers hsome hinteger hencodes =>
      cases htype.symm.trans hsome
      rcases hencodes c hc with ⟨n', hn', hencodes⟩
      cases hn.symm.trans hn'
      exact hencodes.carriesIn hread hinteger settings hb hroom hm

/-- An enum of the biased type, with the least number that it has and a position. -/
def biased : EnumDecl where
  name := "Biased"
  valueType := some (.varint .varuint32n)
  constants := [{ name := "NONE", value := some (.integer (-1)) }, { name := "NEXT" }]

-- The least number stands for null, and is set and read like any other.
theorem enum_described_iff_encodable_biased :
    biased.constants ≠ [] ∧ biased.Encodable ∧
      ∃ description, describeDeclaration default (.enum biased) = .ok description ∧
        description.constants = [⟨"NONE", .integer (-1)⟩, ⟨"NEXT", .integer 1⟩] ∧
        (Format.varint .varuint32n).CarriesIn (-1) {} (.ofBytes (List.replicate 12 9)) 1 11 := by
  have hconstants : biased.constants ≠ [] := by decide
  have hb : (Buffer.ofBytes (List.replicate 12 9)).Addressable := by
    unfold Buffer.Addressable
    decide
  rcases Checked.exists_of_isOk (by decide +kernel :
    (describeDeclaration default (.enum biased)).isOk = true) with ⟨description, h⟩
  rcases enum_described_iff_encodable default hconstants with ⟨hiff, hdescribed⟩
  rcases hdescribed description h with ⟨hassigned, hcarries⟩
  refine ⟨hconstants, hiff.mp ⟨description, h⟩, description, h, hassigned, ?_⟩
  have hmem : ⟨"NONE", .integer (-1)⟩ ∈ description.constants := by
    rw [hassigned]
    exact List.mem_cons_self
  exact hcarries _ hmem (-1) rfl _ _ rfl (.varint .varuint32n) {} _ 1 11 hb (by decide) (by decide)

end Enums

end Wireform
