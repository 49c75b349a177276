import Wireform.Proofs.Typedefs

/-!
# Constants and Their Values

Whether looking up an encoded value gives back the constant.

Every constant of an enum is encoded as the value it is declared with, or else
as its position, or as its name if the values are texts. There are four ways of
looking a value up, by position, by comparing in order, by comparing texts, and
in a table where the last of equal values stays. All of them find some constant
with the value if there is one, and nothing otherwise (`Selects`). They agree,
and invert the encoding, only if no two constants share a value.

A verified schema does not quite ensure that. Values that are written down are
unique, and so are positions and names, but a value that is written down may be
the position, or the name, of a constant without one. `EnumDecl.ValuesApart` rules
that out, and it is exactly what is missing.

## Main definitions

* `EnumConstant.impliedValue`: The value of a constant that none is written for.
* `EnumDecl.assigned`: The constants of an enum with their values.
* `EnumDecl.ValuesApart`: No value that is written down is implied elsewhere.
* `Selects`: A lookup finds a constant with the value, if there is one.

## Theorems

* `constantValues_eq_ok`: The values that constants are encoded as.
* `lookup_tableOf`: In a table the last of equal values is found.
* `Selects.inverts_iff`: A lookup inverts constants whose values are distinct.
* `nodup_assigned_iff`: When the values of an enum are distinct.
* `enum_lookup_inverts_iff`: When looking up inverts encoding.
* `enum_lookup_last_wins`: An enum that is not inverted.
-/

namespace Wireform

/-- The value of a constant that none is written for: its name where values are
    texts, its position elsewhere. -/
def EnumConstant.impliedValue (valueType : Option WireType) (index : Nat) (c : EnumConstant) :
    Literal :=
  if valueType.any (·.isString) then .text c.name else .integer index

namespace EnumDecl

/-- The constants of an enum with the values they are encoded as. -/
def assigned (d : EnumDecl) : List ConstantDescription :=
  d.constants.zipIdx.map fun (c, index) =>
    ⟨c.name, c.value.getD (c.impliedValue d.valueType index)⟩

/-- No value that is written down is the one that a constant without a value
    has. -/
def ValuesApart (d : EnumDecl) : Prop :=
  ∀ (i j : Nat) (a b : EnumConstant), d.constants[i]? = some a → d.constants[j]? = some b →
    b.value = none → a.value ≠ some (b.impliedValue d.valueType j)

end EnumDecl

section Lookups

/-- A lookup finds a constant with the value, if there is one. Which one it finds
    is left open. -/
structure Selects (find : Literal → Option String) (constants : List ConstantDescription) :
    Prop where
  sound : ∀ {v n}, find v = some n → ⟨n, v⟩ ∈ constants
  complete : ∀ {v n}, ⟨n, v⟩ ∈ constants → find v ≠ none

variable {constants : List ConstantDescription} {find : Literal → Option String}

theorem Selects.eq_none_iff (h : Selects find constants) (v : Literal) :
    find v = none ↔ ∀ n, ⟨n, v⟩ ∉ constants := by
  constructor
  · exact fun hnone n hmem => h.complete hmem hnone
  · intro hno
    cases hfind : find v with
    | none => rfl
    | some n => exact absurd (h.sound hfind) (hno n)

/-- Among constants with different names, a lookup tells all of them apart exactly
    if their values differ. -/
theorem Selects.inverts_iff (h : Selects find constants)
    (hnames : (constants.map (·.name)).Nodup) :
    (∀ n v, find v = some n ↔ ⟨n, v⟩ ∈ constants) ↔ (constants.map (·.value)).Nodup := by
  constructor
  · intro hinverts
    -- equal values are looked up once, so they belong to one name
    refine (List.Nodup.of_map _ hnames).map_on ?_
    intro a ha b hb hvalue
    have hfind := (hinverts a.name a.value).mpr ha
    rw [hvalue, (hinverts b.name b.value).mpr hb] at hfind
    exact List.inj_on_of_nodup_map hnames ha hb (Option.some.inj hfind).symm
  · intro hvalues n v
    refine ⟨h.sound, fun hmem => ?_⟩
    cases hfind : find v with
    | none => exact absurd hfind (h.complete hmem)
    | some found =>
        cases List.inj_on_of_nodup_map hvalues (h.sound hfind) hmem rfl
        rfl

section Cases

variable {κ : Type} [DecidableEq κ]

theorem lookup_cons_eq_ite (cases : List (κ × String)) (key value : κ) (name : String) :
    ((value, name) :: cases).lookup key = if key = value then some name else cases.lookup key := by
  rw [List.lookup_cons]
  by_cases hkey : key = value
  · rw [if_pos hkey, beq_iff_eq.mpr hkey]
  · rw [if_neg hkey, beq_eq_false_iff_ne.mpr hkey]

/-- What is found in a list of cases is one of them. -/
theorem mem_of_lookup {cases : List (κ × String)} {key : κ} {name : String}
    (h : cases.lookup key = some name) : (key, name) ∈ cases := by
  rcases List.lookup_eq_some_iff.mp h with ⟨before, after, rfl, _⟩
  exact List.mem_append_right before List.mem_cons_self

theorem lookup_ne_none_of_mem {cases : List (κ × String)} {key : κ} {name : String}
    (h : (key, name) ∈ cases) : cases.lookup key ≠ none := by
  intro hnone
  have hne := List.lookup_eq_none_iff.mp hnone (key, name) h
  rw [bne_self_eq_false] at hne
  exact Bool.false_ne_true hne

end Cases

theorem lookup_insertEntry (entries : List (Int × String)) (value : Int) (name : String)
    (key : Int) :
    (ValueOf.insertEntry value name entries).lookup key =
      if key = value then some name else entries.lookup key := by
  induction entries with
  | nil => exact lookup_cons_eq_ite [] key value name
  | cons entry rest ih =>
      rcases entry with ⟨other, otherName⟩
      rw [ValueOf.insertEntry]
      by_cases hless : value < other
      · rw [if_pos hless, lookup_cons_eq_ite]
      · rw [if_neg hless]
        by_cases hsame : value = other
        · -- the entry is replaced, and hides what it held
          subst hsame
          rw [if_pos rfl, lookup_cons_eq_ite, lookup_cons_eq_ite]
          by_cases hkey : key = value
          · rw [if_pos hkey, if_pos hkey]
          · rw [if_neg hkey, if_neg hkey, if_neg hkey]
        · rw [if_neg hsame, lookup_cons_eq_ite, lookup_cons_eq_ite, ih]
          by_cases hkey : key = value
          · rw [if_pos hkey, if_neg (hkey ▸ hsame), if_pos hkey]
          · rw [if_neg hkey, if_neg hkey]

/-- A table holds the last of equal values. -/
theorem lookup_tableOf (cases : List (Int × String)) (key : Int) :
    (ValueOf.tableOf cases).lookup? (.integer key) = cases.reverse.lookup key := by
  rw [ValueOf.tableOf, ValueOf.lookup?]
  induction cases using List.reverseRecOn with
  | nil => rfl
  | append_singleton cases c ih =>
      rw [List.foldl_append, List.foldl_cons, List.foldl_nil, lookup_insertEntry, ih,
        List.reverse_append, List.reverse_singleton, List.singleton_append, lookup_cons_eq_ite]

/-- Comparing in order and looking into a table both find some case of the value. -/
theorem selects_of_integers {cases : List (Int × String)}
    (hcases : ∀ i n, (i, n) ∈ cases ↔ ⟨n, .integer i⟩ ∈ constants)
    (hvalues : ∀ c ∈ constants, ∃ i, c.value = .integer i) :
    Selects (ValueOf.switch cases).lookup? constants ∧
      Selects (ValueOf.tableOf cases).lookup? constants := by
  refine ⟨⟨?_, ?_⟩, ⟨?_, ?_⟩⟩
  · intro v n hfind
    cases v with
    | integer i => exact (hcases i n).mp (mem_of_lookup hfind)
    | text t => exact nomatch hfind
  · intro v n hmem
    rcases hvalues _ hmem with ⟨i, rfl⟩
    exact lookup_ne_none_of_mem ((hcases i n).mpr hmem)
  · intro v n hfind
    cases v with
    | integer i =>
        rw [lookup_tableOf] at hfind
        exact (hcases i n).mp (List.mem_reverse.mp (mem_of_lookup hfind))
    | text t => exact nomatch hfind
  · intro v n hmem
    rcases hvalues _ hmem with ⟨i, rfl⟩
    rw [lookup_tableOf]
    exact lookup_ne_none_of_mem (List.mem_reverse.mpr ((hcases i n).mpr hmem))

theorem selects_of_texts {cases : List (String × String)}
    (hcases : ∀ t n, (t, n) ∈ cases ↔ ⟨n, .text t⟩ ∈ constants)
    (hvalues : ∀ c ∈ constants, ∃ t, c.value = .text t) :
    Selects (ValueOf.stringSwitch cases).lookup? constants := by
  refine ⟨?_, ?_⟩
  · intro v n hfind
    cases v with
    | text t => exact (hcases t n).mp (mem_of_lookup hfind)
    | integer i => exact nomatch hfind
  · intro v n hmem
    rcases hvalues _ hmem with ⟨t, rfl⟩
    exact lookup_ne_none_of_mem ((hcases t n).mpr hmem)

/-- The integers and the names stand at the same positions if all values are
    integers. -/
theorem mem_integerCases (hvalues : ∀ c ∈ constants, ∃ i, c.value = .integer i) (i : Int)
    (n : String) :
    (i, n) ∈ integerCases (constants.map (·.name)) (constants.map (·.value)) ↔
      ⟨n, .integer i⟩ ∈ constants := by
  induction constants with
  | nil => exact ⟨nofun, nofun⟩
  | cons c rest ih =>
      rcases List.forall_mem_cons.mp hvalues with ⟨⟨j, hj⟩, hrest⟩
      rcases c with ⟨name, value⟩
      subst hj
      rw [integerCases] at ih ⊢
      simp only [List.map_cons, List.filterMap_cons, Literal.integer?, List.zip_cons_cons,
        List.mem_cons, Prod.mk.injEq, ConstantDescription.mk.injEq, Literal.integer.injEq, ih hrest]
      rw [and_comm]

theorem mem_textCases (t n : String) :
    (t, n) ∈ textCases (constants.map (·.name)) (constants.map (·.value)) ↔
      ⟨n, .text t⟩ ∈ constants := by
  induction constants with
  | nil => exact ⟨nofun, nofun⟩
  | cons c rest ih =>
      rcases c with ⟨name, value⟩
      rw [textCases] at ih ⊢
      cases value with
      | integer i =>
          simp only [List.map_cons, List.zip_cons_cons, List.filterMap_cons, ih, List.mem_cons,
            ConstantDescription.mk.injEq, reduceCtorEq, and_false, false_or]
      | text text =>
          simp only [List.map_cons, List.zip_cons_cons, List.filterMap_cons, ih, List.mem_cons,
            Prod.mk.injEq, ConstantDescription.mk.injEq, Literal.text.injEq]
          rw [and_comm]

end Lookups

section Values

variable {site : Site} {valueType : Option WireType}

theorem constantWithin_eq_ok {name : String} {type : WireType} {least greatest i : Int}
    {value : Literal} (h : constantWithin site name type least greatest i = .ok value) :
    value = .integer i := by
  rw [constantWithin] at h
  split at h
  · exact nomatch h
  · exact (Except.ok.inj h).symm

/-- A constant is encoded as its own value or the implied one, a text exactly if
    the type of the values is one of strings. Without a type there are no values
    of its own. -/
theorem constantValue_eq_ok {index : Nat} {c : EnumConstant} {value : Literal}
    (h : constantValue site valueType index c = .ok value) :
    value = c.value.getD (c.impliedValue valueType index) ∧
      (if valueType.any (·.isString) then ∃ t, value = .text t else ∃ i, value = .integer i) ∧
      (valueType = none → c.value = none) := by
  cases valueType with
  | none =>
      rw [constantValue] at h
      cases hvalue : c.value with
      | none =>
          rw [hvalue] at h
          rw [← Except.ok.inj h]
          exact ⟨rfl, ⟨_, rfl⟩, fun _ => rfl⟩
      | some v =>
          rw [hvalue] at h
          exact nomatch h
  | some type =>
      rw [constantValue] at h
      rw [EnumConstant.impliedValue, Option.any_some]
      by_cases hstring : type.isString = true
      · rw [if_pos hstring] at h ⊢
        rw [if_pos hstring]
        cases hvalue : c.value with
        | none =>
            rw [hvalue] at h
            rw [← Except.ok.inj h]
            exact ⟨rfl, ⟨_, rfl⟩, nofun⟩
        | some v =>
            rw [hvalue] at h
            cases v with
            | text t =>
                rw [← Except.ok.inj h]
                exact ⟨rfl, ⟨_, rfl⟩, nofun⟩
            | integer i => exact nomatch h
      · rw [if_neg hstring] at h ⊢
        rw [if_neg hstring]
        cases hrange : type.valueRange? with
        | none =>
            rw [hrange] at h
            exact nomatch h
        | some range =>
            rcases range with ⟨least, greatest⟩
            rw [hrange] at h
            cases hvalue : c.value with
            | none =>
                rw [hvalue] at h
                rw [constantWithin_eq_ok h]
                exact ⟨rfl, ⟨_, rfl⟩, nofun⟩
            | some v =>
                rw [hvalue] at h
                cases v with
                | text t => exact nomatch h
                | integer i =>
                    rw [constantWithin_eq_ok h]
                    exact ⟨rfl, ⟨_, rfl⟩, nofun⟩

theorem constantValues_eq_ok {index : Nat} {constants : List EnumConstant}
    {values : List Literal} (h : constantValues site valueType index constants = .ok values) :
    values = (constants.zipIdx index).map
        (fun (c, i) => c.value.getD (c.impliedValue valueType i)) ∧
      (∀ v ∈ values,
        if valueType.any (·.isString) then ∃ t, v = .text t else ∃ i, v = .integer i) ∧
      (valueType = none → ∀ c ∈ constants, c.value = none) := by
  induction constants generalizing index values with
  | nil =>
      rw [← Except.ok.inj h]
      exact ⟨rfl, nofun, fun _ => nofun⟩
  | cons c rest ih =>
      rcases Checked.bind_eq_ok.mp h with ⟨value, hvalue, h⟩
      rcases Checked.bind_eq_ok.mp h with ⟨others, hothers, h⟩
      rcases constantValue_eq_ok hvalue with ⟨hfirst, hkind, hown⟩
      rcases ih hothers with ⟨hrest, hkinds, howns⟩
      rw [← Except.ok.inj h]
      refine ⟨?_, List.forall_mem_cons.mpr ⟨hkind, hkinds⟩, fun hnone => ?_⟩
      · rw [List.zipIdx_cons, List.map_cons, hfirst, hrest]
      · exact List.forall_mem_cons.mpr ⟨hown hnone, howns hnone⟩

end Values

section Enums

variable {d : EnumDecl}

theorem EnumDecl.map_name_assigned (d : EnumDecl) :
    d.assigned.map (·.name) = d.constants.map (·.name) := by
  rw [EnumDecl.assigned, List.map_map]
  have hsame : ((·.name) ∘ fun (c, index) =>
      ConstantDescription.mk c.name (c.value.getD (c.impliedValue d.valueType index))) =
      (EnumConstant.name ∘ Prod.fst) := rfl
  rw [hsame, ← List.map_map, List.zipIdx_map_fst]

theorem EnumDecl.mem_assigned {n : String} {v : Literal} :
    ⟨n, v⟩ ∈ d.assigned ↔ ∃ (i : Nat) (c : EnumConstant), d.constants[i]? = some c ∧ c.name = n ∧
      c.value.getD (c.impliedValue d.valueType i) = v := by
  simp only [EnumDecl.assigned, List.mem_map, List.mem_zipIdx_iff_getElem?, Prod.exists,
    ConstantDescription.mk.injEq]
  exact exists_comm

/-- The values of an enum are of one kind, and all are positions if it has no
    type. -/
structure EnumDecl.Typed (d : EnumDecl) : Prop where
  kinds : ∀ c ∈ d.assigned,
    if d.valueType.any (·.isString) then ∃ t, c.value = .text t else ∃ i, c.value = .integer i
  ordinal : d.valueType = none → ∀ c ∈ d.constants, c.value = none

/-- The description of an enum lists its constants with their values. -/
theorem describeEnum_eq_ok {site : Site} {description : TypeDescription}
    (h : describeEnum site d = .ok description) :
    d.Typed ∧ description.constants = d.assigned ∧ description.valueOf =
      some (lookupOf d.valueType (d.assigned.map (·.name)) (d.assigned.map (·.value))) := by
  rcases Checked.bind_eq_ok.mp h with ⟨values, hvalues, h⟩
  rcases Checked.bind_eq_ok.mp h with ⟨encoding, _, h⟩
  rcases constantValues_eq_ok hvalues with ⟨hassigned, hkinds, hown⟩
  have hsame : values = d.assigned.map (·.value) := by
    rw [hassigned, EnumDecl.assigned, List.map_map]
    rfl
  rw [← Except.ok.inj h, hsame, ← d.map_name_assigned]
  refine ⟨⟨fun c hc => ?_, hown⟩, ?_, rfl⟩
  · rw [hsame] at hkinds
    exact hkinds c.value (List.mem_map_of_mem hc)
  · change ((d.assigned.map (·.name)).zip (d.assigned.map (·.value))).map _ = d.assigned
    rw [List.zip_map', List.map_map]
    exact List.map_id d.assigned

/-- A lookup by position finds the constant that stands there. -/
theorem selects_ordinal (htype : d.valueType = none) (htyped : d.Typed) :
    Selects (ValueOf.ordinal (d.assigned.map (·.name))).lookup? d.assigned := by
  -- without a type the value of a constant is where it stands
  have hposition : ∀ (i : Nat) (c : EnumConstant), d.constants[i]? = some c →
      c.value.getD (c.impliedValue d.valueType i) = .integer i := by
    intro i c hc
    rw [htyped.ordinal htype c (List.mem_of_getElem? hc), Option.getD_none,
      EnumConstant.impliedValue, htype]
    rfl
  have hname : ∀ i : Nat, (d.assigned.map (·.name))[i]? = d.constants[i]?.map (·.name) := by
    intro i
    rw [d.map_name_assigned, List.getElem?_map]
  refine ⟨?_, ?_⟩
  · intro v n hfind
    cases v with
    | text t => exact nomatch hfind
    | integer position =>
        rw [ValueOf.lookup?] at hfind
        by_cases hpos : 0 ≤ position
        · rw [if_pos hpos, hname] at hfind
          rcases Option.map_eq_some_iff.mp hfind with ⟨c, hc, hn⟩
          have hvalue := hposition _ c hc
          rw [Int.toNat_of_nonneg hpos] at hvalue
          exact EnumDecl.mem_assigned.mpr ⟨_, c, hc, hn, hvalue⟩
        · rw [if_neg hpos] at hfind
          exact nomatch hfind
  · intro v n hmem
    rcases EnumDecl.mem_assigned.mp hmem with ⟨i, c, hc, _, hvalue⟩
    rw [← hvalue, hposition i c hc, ValueOf.lookup?, if_pos (Int.natCast_nonneg i),
      Int.toNat_natCast, hname, hc]
    exact Option.some_ne_none _

/-- Whatever the type of an enum, its constants are found by their values. -/
theorem selects_lookupOf (htyped : d.Typed) :
    Selects (lookupOf d.valueType (d.assigned.map (·.name)) (d.assigned.map (·.value))).lookup?
      d.assigned := by
  cases htype : d.valueType with
  | none => exact selects_ordinal htype htyped
  | some type =>
      have hkinds := htyped.kinds
      rw [htype, Option.any_some] at hkinds
      rw [lookupOf]
      by_cases hstring : type.isString = true
      · simp only [if_pos hstring] at hkinds ⊢
        exact selects_of_texts mem_textCases hkinds
      · simp only [if_neg hstring] at hkinds ⊢
        have hselects := selects_of_integers (mem_integerCases hkinds) hkinds
        by_cases hwide : type.isWide = true
        · rw [if_pos hwide]
          exact hselects.2
        · rw [if_neg hwide]
          exact hselects.1

/-- Implied values are as different as the positions and the names. -/
theorem EnumConstant.impliedValue_ne {valueType : Option WireType} {i j : Nat}
    {a b : EnumConstant} (hij : i ≠ j) (hname : a.name ≠ b.name) :
    a.impliedValue valueType i ≠ b.impliedValue valueType j := by
  unfold impliedValue
  by_cases hstring : valueType.any (·.isString) = true
  · rw [if_pos hstring, if_pos hstring]
    exact fun hsame => hname (Literal.text.inj hsame)
  · rw [if_neg hstring, if_neg hstring]
    exact fun hsame => hij (Int.ofNat_inj.mp (Literal.integer.inj hsame))

theorem EnumDecl.getElem?_values (d : EnumDecl) (i : Nat) :
    (d.assigned.map (·.value))[i]? = d.constants[i]?.map
      fun c : EnumConstant => c.value.getD (c.impliedValue d.valueType i) := by
  rw [List.getElem?_map, EnumDecl.assigned, List.getElem?_map, List.getElem?_zipIdx, Nat.zero_add,
    Option.map_map, Option.map_map]
  rfl

/-- Where names are unique and so are the values that are written down, all values
    differ exactly if no value that is written down is implied elsewhere. -/
theorem nodup_assigned_iff (hnames : (d.constants.map (·.name)).Nodup)
    (hvalues : (d.constants.filterMap (·.value)).Nodup) :
    (d.assigned.map (·.value)).Nodup ↔ d.ValuesApart := by
  constructor
  · intro hnodup i j a b ha hb hnone hsome
    have hi := d.getElem?_values i
    have hj := d.getElem?_values j
    rw [ha, Option.map_some, hsome, Option.getD_some] at hi
    rw [hb, Option.map_some, hnone, Option.getD_none] at hj
    -- the same value at two positions, one of them written down
    rcases List.getElem?_eq_some_iff.mp hi with ⟨hlt, _⟩
    have hij := (List.getElem?_inj hlt hnodup).mp (hi.trans hj.symm)
    subst hij
    cases ha.symm.trans hb
    exact nomatch hsome.symm.trans hnone
  · intro hapart
    rw [List.nodup_iff_getElem?_ne_getElem?]
    intro i j hij hj heq
    -- both positions hold a constant
    rw [List.length_map, EnumDecl.assigned, List.length_map, List.length_zipIdx] at hj
    have ha := List.getElem?_eq_getElem (Nat.lt_trans hij hj)
    have hb := List.getElem?_eq_getElem hj
    rw [d.getElem?_values, d.getElem?_values, ha, hb, Option.map_some, Option.map_some,
      Option.some.injEq] at heq
    cases hav : d.constants[i].value with
    | none =>
        cases hbv : d.constants[j].value with
        | none =>
            have hne : d.constants[i].name ≠ d.constants[j].name :=
              List.pairwise_iff_getElem.mp (List.pairwise_map.mp hnames) i j _ hj hij
            rw [hav, hbv] at heq
            exact EnumConstant.impliedValue_ne (Nat.ne_of_lt hij) hne heq
        | some v =>
            rw [hav, hbv, Option.getD_none, Option.getD_some] at heq
            exact hapart j i _ _ hb ha hav (hbv.trans (congrArg some heq.symm))
    | some v =>
        cases hbv : d.constants[j].value with
        | none =>
            rw [hav, hbv, Option.getD_none, Option.getD_some] at heq
            exact hapart i j _ _ ha hb hbv (hav.trans (congrArg some heq))
        | some w =>
            rw [hav, hbv, Option.getD_some, Option.getD_some] at heq
            exact List.pairwise_iff_getElem.mp (List.pairwise_filterMap.mp hvalues) i j _ hj hij
              v hav w hbv heq

end Enums

section Schemas

variable {spec : Specification} {options : Options} {c : Compilation}

/-- In a schema that compiles, an enum or a typedef of one lists its constants
    with their values. A value that is looked up gives a constant that has it,
    and nothing only if none has it. Looking up inverts encoding exactly if no
    value that is written down is the implied value of another constant. -/
theorem enum_lookup_inverts_iff (h : compile spec options = .ok c) {l k : Located}
    (hl : l ∈ spec.located) (htargets : options.targets l.scope = true)
    (hstands : spec.StandsFor l k) {e : EnumDecl} (he : k.declaration = .enum e) :
    ∃ d valueOf, c.find? l.qualifiedName = some d ∧ d.valueOf = some valueOf ∧
      d.constants = e.assigned ∧
      (∀ n v, valueOf.lookup? v = some n → ⟨n, v⟩ ∈ d.constants) ∧
      (∀ v, valueOf.lookup? v = none ↔ ∀ n, ⟨n, v⟩ ∉ d.constants) ∧
      ((∀ n v, valueOf.lookup? v = some n ↔ ⟨n, v⟩ ∈ d.constants) ↔ e.ValuesApart) := by
  have hverify := (compile_eq_ok h).1
  rcases Compilation.find?_of_compile h hl htargets with ⟨d, hfind, hd⟩
  have hshape := describeDeclaration_standsFor hverify hl hstands hd
  rw [he] at hshape
  rcases describeEnum_eq_ok hshape with ⟨htyped, hconstants, hvalueOf⟩
  have hselects := selects_lookupOf htyped
  -- the verifier makes names unique, and the values that are written down
  have hwf := (Specification.located_of_verify hverify).2.1 k (hstands.mem_located hl)
  rw [he] at hwf
  have hnames : (e.constants.map (·.name)).Nodup := hwf.uniqueConstants
  refine ⟨d, _, hfind, hvalueOf, hconstants, ?_⟩
  rw [hconstants]
  refine ⟨fun n v => hselects.sound, hselects.eq_none_iff, ?_⟩
  rw [hselects.inverts_iff (e.map_name_assigned ▸ hnames)]
  exact nodup_assigned_iff hnames hwf.uniqueConstantValues

/-- Two kinds, the first of them with a value. -/
def kinds (value : Int) : EnumDecl where
  name := "Kind"
  valueType := some (.fixed .int64)
  constants := [{ name := "A", value := some (.integer value) }, { name := "B" }]

/-- A schema with the two kinds under two names. -/
def kindSchema (value : Int) : Specification where
  scope := .mk "example" []
    [.enum (kinds value), .typedef { name := "Alias", aliased := .named "Kind" }]

/-- The second kind has no value, and its position is one. -/
theorem kinds_valuesApart {value : Int} (h : value ≠ 1) : (kinds value).ValuesApart := by
  intro i j a b ha hb hnone hsome
  rcases j with _ | _ | j
  · cases hb
    exact nomatch hnone
  · cases hb
    rcases i with _ | _ | i
    · cases ha
      exact h (Literal.integer.inj (Option.some.inj hsome))
    · cases ha
      exact nomatch hsome
    · exact nomatch ha
  · exact nomatch hb

theorem enum_lookup_inverts_iff_alias :
    ∃ c d valueOf, compile (kindSchema 7) {} = .ok c ∧ c.find? "example::Alias" = some d ∧
      d.valueOf = some valueOf ∧ d.constants = [⟨"A", .integer 7⟩, ⟨"B", .integer 1⟩] ∧
      ∀ n v, valueOf.lookup? v = some n ↔ ⟨n, v⟩ ∈ d.constants := by
  have hkind : ⟨["example"], .enum (kinds 7)⟩ ∈ (kindSchema 7).located := List.mem_cons_self
  have halias : ⟨["example"], .typedef { name := "Alias", aliased := .named "Kind" }⟩ ∈
      (kindSchema 7).located := List.mem_cons_of_mem _ List.mem_cons_self
  have hstands : (kindSchema 7).StandsFor
      ⟨["example"], .typedef { name := "Alias", aliased := .named "Kind" }⟩
      ⟨["example"], .enum (kinds 7)⟩ :=
    .through rfl rfl hkind (.here List.mem_cons_self) (.self nofun)
  rcases Checked.exists_of_isOk (by decide +kernel : (compile (kindSchema 7) {}).isOk = true) with
    ⟨c, hc⟩
  rcases enum_lookup_inverts_iff hc halias rfl hstands rfl with
    ⟨d, valueOf, hfind, hvalueOf, hconstants, _, _, hinverts⟩
  exact ⟨c, d, valueOf, hc, hfind, hvalueOf, hconstants,
    hinverts.mpr (kinds_valuesApart (by decide))⟩

/-- With the position of the second kind as its value, the first one is hidden in
    the table. -/
theorem enum_lookup_last_wins :
    ∃ c d valueOf, compile (kindSchema 1) {} = .ok c ∧ c.find? "example::Kind" = some d ∧
      d.valueOf = some valueOf ∧ ⟨"A", .integer 1⟩ ∈ d.constants ∧
      valueOf.lookup? (.integer 1) = some "B" := by
  have hkind : ⟨["example"], .enum (kinds 1)⟩ ∈ (kindSchema 1).located := List.mem_cons_self
  rcases Checked.exists_of_isOk (by decide +kernel : (compile (kindSchema 1) {}).isOk = true) with
    ⟨c, hc⟩
  rcases Compilation.find?_of_compile hc hkind rfl with ⟨d, hfind, hd⟩
  rcases describeEnum_eq_ok hd with ⟨_, hconstants, hvalueOf⟩
  refine ⟨c, d, _, hc, hfind, hvalueOf, ?_, rfl⟩
  rw [hconstants]
  exact List.mem_cons_self

end Schemas

end Wireform
