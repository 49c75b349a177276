import Mathlib.Data.List.Nodup
import Wireform.Schema.Json

/-!
# Declarations Read Back From JSON

A declaration that is written as JSON and read again is the same declaration.

Writing leaves out what is absent, and reading has to tell an absent field from
the others. Every record is therefore seen as a list of slots, each with a name and
possibly a value: `presentFields` is what is written of them, and
`record?_presentFields` says that a reader that asks for the names in their order
gets the slots back. No later proof looks at the fields of an object. The kind of a
declaration is one more slot in front of the others, which the reader takes out
again.

The numbers of a declaration are machine words, and the readers refuse any other
number. `Declaration.Fits` says which numbers are meant. It is what the round trip
needs and no more, since a declaration with another number is not read back.

## Main definitions

* `presentFields`: The fields that are written of a list of slots.
* `WireType.Fits`, `Literal.Fits`, `Declaration.Fits`: Numbers that are words.
* `Declaration.slots`: The slots of a declaration, without its kind.

## Theorems

* `record?_presentFields`: A record is read as it was written.
* `list?_map`, `orElse?_nullable`: Items and absent values are read back.
* `WireType.ofJson?_toJson`: A type is read back if its bounds are words.
* `Declaration.isReadable_toJson`: A declaration is written without anything that
  cannot be read.
* `Declaration.ofJson?_toJson`: The kind of a declaration selects its reader.
* `Declaration.json_roundTrip_iff`: A declaration is read back exactly if its numbers
  are words.
-/

namespace Wireform

open Json (required? orElse? nullable? list?)

/-- The fields of an object that are there, out of those that may be. -/
def presentFields (slots : List (String × Option Json)) : List (String × Json) :=
  slots.filterMap fun slot => slot.2.map (slot.1, ·)

section Records

variable {slots : List (String × Option Json)} {name : String}

theorem presentFields_cons (name : String) (value : Option Json)
    (slots : List (String × Option Json)) :
    presentFields ((name, value) :: slots) = optionalField name value ++ presentFields slots := by
  cases value with
  | none => rfl
  | some json => rfl

theorem filter_optionalField_self (name : String) (value : Option Json) :
    (optionalField name value).filter (·.1 = name) = optionalField name value := by
  cases value with
  | none => rfl
  | some json => exact List.filter_cons_of_pos (decide_eq_true rfl)

theorem filter_optionalField_ne {other : String} (h : other ≠ name) (value : Option Json) :
    (optionalField other value).filter (·.1 = name) = [] := by
  cases value with
  | none => rfl
  | some json => exact List.filter_cons_of_neg (mt of_decide_eq_true h)

/-- A field that is there has the name of one of the slots. -/
theorem mem_slots_of_present {field : String × Json} (h : field ∈ presentFields slots) :
    field.1 ∈ slots.map Prod.fst := by
  rcases List.mem_filterMap.mp h with ⟨slot, hslot, hvalue⟩
  rcases Option.map_eq_some_iff.mp hvalue with ⟨json, _, rfl⟩
  exact List.mem_map_of_mem hslot

theorem filter_presentFields_of_notMem (h : name ∉ slots.map Prod.fst) :
    (presentFields slots).filter (·.1 = name) = [] := by
  rw [List.filter_eq_nil_iff]
  intro field hfield hname
  have hsame : field.1 = name := of_decide_eq_true hname
  exact h (hsame ▸ mem_slots_of_present hfield)

/-- Asked for a name, the fields give the value of the slot with that name. -/
theorem field?_presentFields (h : (slots.map Prod.fst).Nodup) {value : Option Json}
    (hmem : (name, value) ∈ slots) : Json.field? (presentFields slots) name = some value := by
  have hfilter : (presentFields slots).filter (·.1 = name) = optionalField name value := by
    induction slots with
    | nil => exact absurd hmem List.not_mem_nil
    | cons first rest ih =>
        rcases first with ⟨other, otherValue⟩
        rcases List.nodup_cons.mp h with ⟨hfresh, hrest⟩
        rw [presentFields_cons, List.filter_append]
        rcases List.mem_cons.mp hmem with heq | hmem
        · -- no later slot has the name
          cases heq
          rw [filter_presentFields_of_notMem hfresh, List.append_nil, filter_optionalField_self]
        · have hname : name ∈ rest.map Prod.fst := List.mem_map_of_mem hmem
          have hne : other ≠ name := fun hsame => hfresh (hsame ▸ hname)
          rw [filter_optionalField_ne hne, List.nil_append, ih hrest hmem]
  rw [Json.field?, hfilter]
  cases value with
  | none => rfl
  | some json => rfl

/-- A record is read as it was written, whichever of its fields were left out. -/
theorem record?_presentFields (h : (slots.map Prod.fst).Nodup) :
    (Json.obj (presentFields slots)).record? (slots.map Prod.fst) = some (slots.map Prod.snd) := by
  have hpart : ∀ part, part ⊆ slots →
      (part.map Prod.fst).mapM (Json.field? (presentFields slots)) =
        some (part.map Prod.snd) := by
    intro part hsub
    induction part with
    | nil => rfl
    | cons slot rest ih =>
        rcases List.cons_subset.mp hsub with ⟨hslot, hrest⟩
        rw [List.map_cons, List.mapM_cons, field?_presentFields h hslot, ih hrest]
        rfl
  exact hpart slots (List.Subset.refl slots)

end Records

section Parts

variable {α : Type} {write : α → Json} {read : Json → Option α}

/-- The items of an array are read back if each of them is. -/
theorem list?_map {xs : List α} :
    list? read (.arr (xs.map write)) = some xs ↔ ∀ x ∈ xs, read (write x) = some x := by
  rw [list?]
  induction xs with
  | nil => exact ⟨fun _ => List.forall_mem_nil _, fun _ => rfl⟩
  | cons x xs ih =>
      rw [List.map_cons, List.mapM_cons, List.forall_mem_cons, ← ih]
      simp only [Option.bind_eq_bind, Option.bind_eq_some_iff, Option.pure_def,
        Option.some.injEq, List.cons.injEq]
      constructor
      · rintro ⟨_, hx, _, hxs, rfl, rfl⟩
        exact ⟨hx, hxs⟩
      · rintro ⟨hx, hxs⟩
        exact ⟨x, hx, xs, hxs, rfl, rfl⟩

/-- A value that may be absent is read back if it is there and is read back, or is
    absent. What is written is not null, which would be read as absent. -/
theorem orElse?_nullable (hnull : ∀ a, write a ≠ .null) {value : Option α} :
    orElse? none (nullable? read) (value.map write) = some value ↔
      ∀ a ∈ value, read (write a) = some a := by
  cases value with
  | none => exact ⟨fun _ _ h => absurd h (Option.not_mem_none _), fun _ => rfl⟩
  | some a =>
      have hread : nullable? read (write a) = some <$> read (write a) := by
        rw [nullable?]
        exact hnull a
      simp only [Option.map_some, orElse?, hread, Option.map_eq_map, Option.map_eq_some_iff,
        Option.some.injEq, exists_eq_right, Option.mem_some_iff, forall_eq']

/-- A part of a value that is read by itself is read back if the value is. -/
theorem make_eq_some_iff {β : Type} {make : α → β} (h : make.Injective) {x : Option α} {a : α} :
    make <$> x = some (make a) ↔ x = some a :=
  (Option.map_injective h).eq_iff' rfl

theorem intIn?_int {low high n : Int} :
    (Json.int n).intIn? low high = some n ↔ low ≤ n ∧ n ≤ high := by
  rw [Json.intIn?]
  by_cases h : low ≤ n ∧ n ≤ high
  · rw [if_pos h]
    exact ⟨fun _ => h, fun _ => rfl⟩
  · rw [if_neg h]
    exact ⟨nofun, fun hn => absurd hn h⟩

theorem natUpTo?_int {high n : Nat} : (Json.int n).natUpTo? high = some n ↔ n ≤ high := by
  rw [Json.natUpTo?, Json.intIn?]
  by_cases h : n ≤ high
  · rw [if_pos ⟨Int.natCast_nonneg n, Int.ofNat_le.mpr h⟩]
    exact ⟨fun _ => h, fun _ => rfl⟩
  · rw [if_neg fun hn => h (Int.ofNat_le.mp hn.2)]
    exact ⟨nofun, fun hn => absurd hn h⟩

theorem optionalNat_iff {high : Nat} {value : Option Nat} :
    orElse? none (nullable? (Json.natUpTo? high)) (value.map fun n : Nat => .int n) =
      some value ↔ ∀ n ∈ value, n ≤ high := by
  have hnull : ∀ n : Nat, Json.int n ≠ .null := by
    intro n h
    cases h
  rw [orElse?_nullable hnull]
  simp only [natUpTo?_int]

end Parts

namespace WireType

/-- The bounds in the type, at any depth, are words. -/
def Fits : WireType → Prop
  | .boundedOctets _ max => ∀ n ∈ max, n ≤ Word.max
  | .array _ item => item.Fits
  | .map _ key value => key.Fits ∧ value.Fits
  | _ => True

theorem toJson_ne_null (t : WireType) : t.toJson ≠ .null := by
  intro h
  cases t with
  | boundedOctets width max => cases max <;> cases h
  | _ => cases h

theorem widthOfJson?_widthToJson (width : Width) :
    widthOfJson? (widthToJson width) = some width := by
  cases width <;> rfl

theorem widthRecord?_widthToJson (width : Width) :
    widthRecord? (.obj [("width", widthToJson width)]) = some width := by
  cases width <;> rfl

theorem plain?_fixed (kind : FixedInt) : plain? kind.name = some (.fixed kind) := by
  cases kind <;> rfl

theorem plain?_varint (kind : VarInt) : plain? kind.name = some (.varint kind) := by
  cases kind <;> rfl

theorem boundedRecord?_present (width : Width) (max : Option Nat) :
    boundedRecord? (.obj (presentFields
        [("width", some (widthToJson width)), ("max", max.map fun n : Nat => .int n)])) =
      some (.boundedOctets width max) ↔ ∀ n ∈ max, n ≤ Word.max := by
  have hrecord := @record?_presentFields
    [("width", some (widthToJson width)), ("max", max.map fun n : Nat => .int n)]
    (show ["width", "max"].Nodup by decide)
  rw [← optionalNat_iff, boundedRecord?]
  simp only [List.map_cons, List.map_nil] at hrecord
  simp only [hrecord, required?, widthOfJson?_widthToJson, Option.bind_eq_bind,
    Option.bind_some, Option.bind_eq_some_iff, Option.pure_def, Option.some.injEq,
    boundedOctets.injEq, true_and, exists_eq_right]

/-- A type is read back exactly if its bounds are words, whether or not it was read
    into memory as a whole before. -/
theorem ofJson?_toJson (buffered : Bool) (t : WireType) :
    ofJson? buffered t.toJson = some t ↔ t.Fits := by
  induction t with
  | fixed kind =>
      rw [toJson, ofJson?, plain?_fixed]
      exact ⟨fun _ => trivial, fun _ => rfl⟩
  | varint kind =>
      rw [toJson, ofJson?, plain?_varint]
      exact ⟨fun _ => trivial, fun _ => rfl⟩
  | octets =>
      rw [toJson, ofJson?]
      exact ⟨fun _ => trivial, fun _ => rfl⟩
  | varstring =>
      rw [toJson, ofJson?]
      exact ⟨fun _ => trivial, fun _ => rfl⟩
  | boundedOctets width max =>
      have hwritten : (boundedOctets width max).toJson = .obj [("bounded_octets",
          .obj (presentFields
            [("width", some (widthToJson width)), ("max", max.map fun n : Nat => .int n)]))] := by
        cases max <;> rfl
      rw [hwritten, ofJson?, if_pos rfl, boundedRecord?_present, Fits]
  | string width =>
      rw [toJson, ofJson?]
      simp only [String.reduceEq, if_false, if_true, widthRecord?_widthToJson]
      exact ⟨fun _ => trivial, fun _ => rfl⟩
  | list width =>
      rw [toJson, ofJson?]
      simp only [String.reduceEq, if_false, if_true, widthRecord?_widthToJson]
      exact ⟨fun _ => trivial, fun _ => rfl⟩
  | array width item ih =>
      have hrecord : Json.record? ["width", "item"]
          (.obj [("width", widthToJson width), ("item", item.toJson)]) =
          some [some (widthToJson width), some item.toJson] := rfl
      rw [Fits, ← ih, toJson, ofJson?]
      simp only [String.reduceEq, if_false, if_true]
      split
      · next w i h =>
          cases hrecord.symm.trans h
          simp only [required?, widthOfJson?_widthToJson, Option.bind_eq_bind, Option.bind_some,
            Option.bind_eq_some_iff, Option.pure_def, Option.some.injEq, array.injEq, true_and,
            exists_eq_right]
      · next hother => exact absurd hrecord (hother _ _)
  | map width key value ihkey ihvalue =>
      have hrecord : Json.record? ["width", "key", "value"]
          (.obj [("width", widthToJson width), ("key", key.toJson), ("value", value.toJson)]) =
          some [some (widthToJson width), some key.toJson, some value.toJson] := rfl
      rw [Fits, ← ihkey, ← ihvalue, toJson, ofJson?]
      simp only [String.reduceEq, if_false, if_true]
      split
      · next w k v h =>
          cases hrecord.symm.trans h
          simp only [required?, widthOfJson?_widthToJson, Option.bind_eq_bind, Option.bind_some,
            Option.bind_eq_some_iff, Option.pure_def, Option.some.injEq, map.injEq, true_and]
          constructor
          · rintro ⟨_, hkey, _, hvalue, rfl, rfl⟩
            exact ⟨hkey, hvalue⟩
          · rintro ⟨hkey, hvalue⟩
            exact ⟨key, hkey, value, hvalue, rfl, rfl⟩
      · next hother => exact absurd hrecord (hother _ _ _)
  | named name =>
      rw [toJson, ofJson?]
      simp only [String.reduceEq, if_false, if_true]
      exact ⟨fun _ => trivial, fun _ => rfl⟩

theorem optional_iff {value : Option WireType} :
    orElse? none (nullable? (ofJson? true)) (value.map toJson) = some value ↔
      ∀ t ∈ value, t.Fits := by
  rw [orElse?_nullable toJson_ne_null]
  simp only [ofJson?_toJson]

end WireType

section Readable

/-- An object is readable if the values of its fields are. -/
theorem readableFields_iff {fields : List (String × Json)} :
    Json.readableFields fields = true ↔ ∀ field ∈ fields, field.2.isReadable = true := by
  induction fields with
  | nil => exact ⟨fun _ => List.forall_mem_nil _, fun _ => rfl⟩
  | cons field rest ih =>
      rw [Json.readableFields, Bool.and_eq_true, ih, List.forall_mem_cons]

theorem readableItems_iff {items : List Json} :
    Json.readableItems items = true ↔ ∀ item ∈ items, item.isReadable = true := by
  induction items with
  | nil => exact ⟨fun _ => List.forall_mem_nil _, fun _ => rfl⟩
  | cons item rest ih =>
      rw [Json.readableItems, Bool.and_eq_true, ih, List.forall_mem_cons]

/-- What is written of some slots is readable if their values are. -/
theorem isReadable_presentFields {slots : List (String × Option Json)}
    (h : ∀ slot ∈ slots, ∀ json ∈ slot.2, json.isReadable = true) :
    (Json.obj (presentFields slots)).isReadable = true := by
  rw [Json.isReadable, readableFields_iff]
  intro field hfield
  rcases List.mem_filterMap.mp hfield with ⟨slot, hslot, hvalue⟩
  rcases Option.map_eq_some_iff.mp hvalue with ⟨json, hjson, rfl⟩
  exact h slot hslot json hjson

theorem isReadable_items {α : Type} {write : α → Json} (h : ∀ a, (write a).isReadable = true)
    (xs : List α) : (Json.arr (xs.map write)).isReadable = true := by
  rw [Json.isReadable, readableItems_iff]
  intro item hitem
  rcases List.mem_map.mp hitem with ⟨a, _, rfl⟩
  exact h a

theorem isReadable_some {json : Json} (h : json.isReadable = true) :
    ∀ value ∈ some json, value.isReadable = true := by
  intro value hvalue
  rw [← Option.some.inj hvalue]
  exact h

theorem isReadable_map {α : Type} {write : α → Json} (h : ∀ a, (write a).isReadable = true)
    (value : Option α) : ∀ json ∈ value.map write, json.isReadable = true := by
  intro json hjson
  rcases Option.map_eq_some_iff.mp hjson with ⟨a, _, rfl⟩
  exact h a

theorem WireType.isReadable_toJson (t : WireType) : t.toJson.isReadable = true := by
  induction t with
  | boundedOctets width max => cases max <;> rfl
  | array width item ih =>
      simp only [toJson, widthToJson, Json.isReadable, Json.readableFields, ih, Bool.and_self]
  | map width key value ihkey ihvalue =>
      simp only [toJson, widthToJson, Json.isReadable, Json.readableFields, ihkey, ihvalue,
        Bool.and_self]
  | _ => rfl

theorem Literal.isReadable_toJson (literal : Literal) : literal.toJson.isReadable = true := by
  cases literal <;> rfl

end Readable

section Members

/-- The integer of a literal is a signed word. -/
def Literal.Fits : Literal → Prop
  | .integer value => FixedInt.int64.minValue ≤ value ∧ value ≤ FixedInt.int64.maxValue
  | .text _ => True

/-- The numbers of a member are words. -/
structure Member.Fits (m : Member) : Prop where
  type : m.type.Fits
  default : ∀ literal ∈ m.default, literal.Fits
  size : ∀ n ∈ m.size, n ≤ Word.max

theorem Literal.toJson_ne_null (literal : Literal) : literal.toJson ≠ .null := by
  intro h
  cases literal <;> cases h

theorem Literal.ofJson?_toJson (literal : Literal) :
    Literal.ofJson? literal.toJson = some literal ↔ literal.Fits := by
  cases literal with
  | integer value =>
      rw [toJson, ofJson?, Fits, ← intIn?_int]
      · simp only [Option.map_eq_map, Option.map_eq_some_iff, Literal.integer.injEq,
          exists_eq_right]
      · intro s hs
        cases hs
  | text value => exact ⟨fun _ => trivial, fun _ => rfl⟩

theorem Literal.optional_iff {value : Option Literal} :
    orElse? none (nullable? Literal.ofJson?) (value.map Literal.toJson) = some value ↔
      ∀ literal ∈ value, literal.Fits := by
  rw [orElse?_nullable Literal.toJson_ne_null]
  simp only [Literal.ofJson?_toJson]

theorem ByteOrder.ofJson?_toJson (buffered : Bool) (order : ByteOrder) :
    ByteOrder.ofJson? buffered order.toJson = some order := by
  cases order <;> rfl

/-- The slots of a member. -/
def Member.slots (m : Member) : List (String × Option Json) :=
  [("name", some (.str m.name)), ("type", some m.type.toJson),
    ("default", m.default.map Literal.toJson), ("size", m.size.map fun n : Nat => .int n),
    ("byte_order", some m.byteOrder.toJson)]

theorem Member.toJson_eq (m : Member) : m.toJson = .obj (presentFields m.slots) := by
  rcases m with ⟨name, type, default, size, byteOrder⟩
  cases default <;> cases size <;> rfl

theorem Member.isReadable_toJson (m : Member) : m.toJson.isReadable = true := by
  rw [Member.toJson_eq]
  refine isReadable_presentFields ?_
  simp only [slots, List.forall_mem_cons]
  exact ⟨isReadable_some rfl, isReadable_some m.type.isReadable_toJson,
    isReadable_map Literal.isReadable_toJson _, isReadable_map (fun _ => rfl) _,
    isReadable_some (by cases m.byteOrder <;> rfl), List.forall_mem_nil _⟩

/-- A member is read back exactly if its numbers are words. -/
theorem Member.ofJson?_toJson (buffered : Bool) (m : Member) :
    Member.ofJson? buffered m.toJson = some m ↔ m.Fits := by
  rw [Member.toJson_eq]
  rcases m with ⟨name, type, default, size, byteOrder⟩
  have hrecord := @record?_presentFields (slots ⟨name, type, default, size, byteOrder⟩)
    (show ["name", "type", "default", "size", "byte_order"].Nodup by decide)
  simp only [slots, List.map_cons, List.map_nil] at hrecord
  simp only [Member.ofJson?, slots, hrecord, required?, Json.str?, Option.bind_eq_bind,
    Option.bind_some, Option.bind_eq_some_iff, Option.pure_def, Option.some.injEq,
    Member.mk.injEq, true_and]
  constructor
  · rintro ⟨_, ht, _, hd, _, hs, _, _, rfl, rfl, rfl, rfl⟩
    exact ⟨(WireType.ofJson?_toJson _ _).mp ht, Literal.optional_iff.mp hd,
      optionalNat_iff.mp hs⟩
  · rintro ⟨ht, hd, hs⟩
    exact ⟨type, (WireType.ofJson?_toJson _ _).mpr ht, default, Literal.optional_iff.mpr hd,
      size, optionalNat_iff.mpr hs, byteOrder, ByteOrder.ofJson?_toJson buffered byteOrder,
      rfl, rfl, rfl, rfl⟩

theorem Member.list_iff {members : List Member} :
    list? (Member.ofJson? true) (.arr (members.map Member.toJson)) = some members ↔
      ∀ m ∈ members, m.Fits := by
  rw [list?_map]
  simp only [Member.ofJson?_toJson]

/-- The value of an enum constant is a word, if it is an integer. -/
def EnumConstant.Fits (c : EnumConstant) : Prop :=
  ∀ literal ∈ c.value, literal.Fits

theorem EnumConstant.toJson_eq (c : EnumConstant) :
    c.toJson = .obj (presentFields
      [("name", some (.str c.name)), ("value", c.value.map Literal.toJson)]) := by
  rcases c with ⟨name, value⟩
  cases value <;> rfl

theorem EnumConstant.ofJson?_toJson (c : EnumConstant) :
    EnumConstant.ofJson? c.toJson = some c ↔ c.Fits := by
  rw [EnumConstant.toJson_eq]
  rcases c with ⟨name, value⟩
  have hrecord := @record?_presentFields
    [("name", some (.str name)), ("value", value.map Literal.toJson)]
    (show ["name", "value"].Nodup by decide)
  simp only [List.map_cons, List.map_nil] at hrecord
  simp only [EnumConstant.ofJson?, hrecord, required?, Json.str?, Option.bind_eq_bind,
    Option.bind_some, Option.bind_eq_some_iff, Option.pure_def, Option.some.injEq,
    EnumConstant.mk.injEq, true_and, exists_eq_right]
  exact Literal.optional_iff

theorem EnumConstant.isReadable_toJson (c : EnumConstant) : c.toJson.isReadable = true := by
  rw [EnumConstant.toJson_eq]
  refine isReadable_presentFields ?_
  simp only [List.forall_mem_cons]
  exact ⟨isReadable_some rfl, isReadable_map Literal.isReadable_toJson _, List.forall_mem_nil _⟩

/-- The numbers of a case of a union are words. -/
structure UnionCase.Fits (c : UnionCase) : Prop where
  value : FixedInt.int64.minValue ≤ c.value ∧ c.value ≤ FixedInt.int64.maxValue
  type : c.type.Fits

theorem UnionCase.isReadable_toJson (c : UnionCase) : c.toJson.isReadable = true := by
  simp only [UnionCase.toJson, Json.isReadable, Json.readableFields,
    WireType.isReadable_toJson, Bool.and_self]

theorem UnionCase.ofJson?_toJson (c : UnionCase) :
    UnionCase.ofJson? c.toJson = some c ↔ c.Fits := by
  rcases c with ⟨value, name, type⟩
  have hrecord : (toJson ⟨value, name, type⟩).record? ["value", "name", "type"] =
      some [some (.int value), some (.str name), some type.toJson] := rfl
  simp only [UnionCase.ofJson?, hrecord, required?, Json.str?, Option.bind_eq_bind,
    Option.bind_some, Option.bind_eq_some_iff, Option.pure_def, Option.some.injEq,
    UnionCase.mk.injEq, true_and]
  constructor
  · rintro ⟨_, hv, _, ht, rfl, rfl⟩
    exact ⟨intIn?_int.mp hv, (WireType.ofJson?_toJson _ _).mp ht⟩
  · rintro ⟨hv, ht⟩
    exact ⟨value, intIn?_int.mpr hv, type, (WireType.ofJson?_toJson _ _).mpr ht, rfl, rfl⟩

/-- The numbers of a case of a variant are words. -/
structure VariantCase.Fits (c : VariantCase) : Prop where
  kind : c.kind.Fits
  type : c.type.Fits

theorem VariantCase.isReadable_toJson (c : VariantCase) : c.toJson.isReadable = true := by
  simp only [VariantCase.toJson, Json.isReadable, Json.readableFields,
    Literal.isReadable_toJson, WireType.isReadable_toJson, Bool.and_self]

theorem VariantCase.ofJson?_toJson (c : VariantCase) :
    VariantCase.ofJson? c.toJson = some c ↔ c.Fits := by
  rcases c with ⟨kind, type⟩
  have hrecord : (toJson ⟨kind, type⟩).record? ["kind", "type"] =
      some [some kind.toJson, some type.toJson] := rfl
  simp only [VariantCase.ofJson?, hrecord, required?, Option.bind_eq_bind,
    Option.bind_eq_some_iff, Option.pure_def, Option.some.injEq, VariantCase.mk.injEq]
  constructor
  · rintro ⟨_, hk, _, ht, rfl, rfl⟩
    exact ⟨(Literal.ofJson?_toJson _).mp hk, (WireType.ofJson?_toJson _ _).mp ht⟩
  · rintro ⟨hk, ht⟩
    exact ⟨kind, (Literal.ofJson?_toJson _).mpr hk, type, (WireType.ofJson?_toJson _ _).mpr ht,
      rfl, rfl⟩

end Members

namespace Declaration

/-- The numbers of a declaration are words of the size that it keeps them in: 32 bits
    for the number of a struct, and 64 bits for all others. -/
def Fits : Declaration → Prop
  | .struct d => (∀ n ∈ d.typeId, n ≤ 4294967295) ∧ ∀ m ∈ d.members, m.Fits
  | .enum d => (∀ t ∈ d.valueType, t.Fits) ∧ ∀ c ∈ d.constants, c.Fits
  | .list d => ∀ m ∈ d.members, m.Fits
  | .map d => d.key.Fits ∧ d.value.Fits
  | .union d => d.kind.Fits ∧ ∀ c ∈ d.cases, c.Fits
  | .variant d => d.kind.Fits ∧ (∀ t ∈ d.of, t.Fits) ∧ ∀ c ∈ d.cases, c.Fits
  | .typedef d => d.aliased.Fits

/-- The slots of a declaration, without its kind. -/
def slots : Declaration → List (String × Option Json)
  | .struct d =>
      [("name", some (.str d.name)), ("supertype", d.supertype.map .str),
        ("type_id", d.typeId.map fun n : Nat => .int n),
        ("members", some (.arr (d.members.map Member.toJson)))]
  | .enum d =>
      [("name", some (.str d.name)), ("value_type", d.valueType.map WireType.toJson),
        ("constants", some (.arr (d.constants.map EnumConstant.toJson)))]
  | .list d =>
      [("name", some (.str d.name)), ("width", some (WireType.widthToJson d.width)),
        ("members", some (.arr (d.members.map Member.toJson)))]
  | .map d =>
      [("name", some (.str d.name)), ("width", some (WireType.widthToJson d.width)),
        ("key", some d.key.toJson), ("value", some d.value.toJson)]
  | .union d =>
      [("name", some (.str d.name)), ("kind", some d.kind.toJson),
        ("cases", some (.arr (d.cases.map UnionCase.toJson)))]
  | .variant d =>
      [("name", some (.str d.name)), ("kind", some d.kind.toJson),
        ("of", d.of.map WireType.toJson),
        ("cases", some (.arr (d.cases.map VariantCase.toJson)))]
  | .typedef d => [("name", some (.str d.name)), ("original", some d.aliased.toJson)]

theorem toFields_eq (d : Declaration) : d.toFields = presentFields d.slots := by
  cases d with
  | struct d =>
      rcases d with ⟨name, supertype, typeId, members⟩
      cases supertype <;> cases typeId <;> rfl
  | enum d =>
      rcases d with ⟨name, valueType, constants⟩
      cases valueType <;> rfl
  | variant d =>
      rcases d with ⟨name, kind, of, cases⟩
      cases of <;> rfl
  | _ => rfl

/-- No two slots have the same name, and none has the name of the kind. -/
theorem nodup_slots (d : Declaration) : ("declaration" :: d.slots.map Prod.fst).Nodup := by
  cases d with
  | struct d =>
      exact (by decide : ["declaration", "name", "supertype", "type_id", "members"].Nodup)
  | enum d => exact (by decide : ["declaration", "name", "value_type", "constants"].Nodup)
  | list d => exact (by decide : ["declaration", "name", "width", "members"].Nodup)
  | map d => exact (by decide : ["declaration", "name", "width", "key", "value"].Nodup)
  | union d => exact (by decide : ["declaration", "name", "kind", "cases"].Nodup)
  | variant d => exact (by decide : ["declaration", "name", "kind", "of", "cases"].Nodup)
  | typedef d => exact (by decide : ["declaration", "name", "original"].Nodup)

theorem record?_slots (d : Declaration) :
    (Json.obj (presentFields d.slots)).record? (d.slots.map Prod.fst) =
      some (d.slots.map Prod.snd) :=
  record?_presentFields (List.nodup_cons.mp d.nodup_slots).2

theorem isReadable_slots (d : Declaration) :
    ∀ slot ∈ d.slots, ∀ json ∈ slot.2, json.isReadable = true := by
  cases d with
  | struct d =>
      simp only [slots, List.forall_mem_cons]
      exact ⟨isReadable_some rfl, isReadable_map (fun _ => rfl) _, isReadable_map (fun _ => rfl) _,
        isReadable_some (isReadable_items Member.isReadable_toJson _), List.forall_mem_nil _⟩
  | enum d =>
      simp only [slots, List.forall_mem_cons]
      exact ⟨isReadable_some rfl, isReadable_map WireType.isReadable_toJson _,
        isReadable_some (isReadable_items EnumConstant.isReadable_toJson _),
        List.forall_mem_nil _⟩
  | list d =>
      simp only [slots, List.forall_mem_cons]
      exact ⟨isReadable_some rfl, isReadable_some rfl,
        isReadable_some (isReadable_items Member.isReadable_toJson _), List.forall_mem_nil _⟩
  | map d =>
      simp only [slots, List.forall_mem_cons]
      exact ⟨isReadable_some rfl, isReadable_some rfl, isReadable_some d.key.isReadable_toJson,
        isReadable_some d.value.isReadable_toJson, List.forall_mem_nil _⟩
  | union d =>
      simp only [slots, List.forall_mem_cons]
      exact ⟨isReadable_some rfl, isReadable_some d.kind.isReadable_toJson,
        isReadable_some (isReadable_items UnionCase.isReadable_toJson _), List.forall_mem_nil _⟩
  | variant d =>
      simp only [slots, List.forall_mem_cons]
      exact ⟨isReadable_some rfl, isReadable_some d.kind.isReadable_toJson,
        isReadable_map WireType.isReadable_toJson _,
        isReadable_some (isReadable_items VariantCase.isReadable_toJson _),
        List.forall_mem_nil _⟩
  | typedef d =>
      simp only [slots, List.forall_mem_cons]
      exact ⟨isReadable_some rfl, isReadable_some d.aliased.isReadable_toJson,
        List.forall_mem_nil _⟩

/-- The kind of a declaration stands in front of its slots. -/
theorem toJson_eq (d : Declaration) :
    d.toJson = .obj (presentFields (("declaration", some (.str d.kind)) :: d.slots)) := by
  rw [toJson, toFields_eq, presentFields_cons]
  rfl

theorem isReadable_toJson (d : Declaration) : d.toJson.isReadable = true := by
  rw [toJson_eq]
  exact isReadable_presentFields
    (List.forall_mem_cons.mpr ⟨isReadable_some rfl, d.isReadable_slots⟩)

/-- The reader of declarations finds the kind, and hands on the fields of the other
    slots. -/
theorem ofJson?_toJson (d : Declaration) :
    ofJson? d.toJson = ofKind? d.kind (.obj (presentFields d.slots)) := by
  have hkind := @field?_presentFields (("declaration", some (.str d.kind)) :: d.slots)
    "declaration" d.nodup_slots (some (.str d.kind)) List.mem_cons_self
  have hothers : ∀ field ∈ presentFields d.slots, decide (field.1 ≠ "declaration") = true := by
    intro field hfield
    refine decide_eq_true fun hname => ?_
    exact (List.nodup_cons.mp d.nodup_slots).1 (hname ▸ mem_slots_of_present hfield)
  have hbody : (presentFields (("declaration", some (.str d.kind)) :: d.slots)).filter
      (·.1 ≠ "declaration") = presentFields d.slots := by
    rw [presentFields_cons, List.filter_append, List.filter_eq_self.mpr hothers]
    rfl
  have hreadable := d.isReadable_toJson
  rw [toJson_eq] at hreadable ⊢
  rw [ofJson?, if_pos hreadable]
  simp only [hkind, hbody]

end Declaration

section Shapes

open Declaration (slots record?_slots)

theorem StructDecl.ofJson?_slots (d : StructDecl) :
    StructDecl.ofJson? (.obj (presentFields (slots (.struct d)))) = some d ↔
      (Declaration.struct d).Fits := by
  rcases d with ⟨name, supertype, typeId, members⟩
  have hrecord := record?_slots (.struct ⟨name, supertype, typeId, members⟩)
  have hsupertype : orElse? none (nullable? Json.str?) (supertype.map .str) = some supertype := by
    cases supertype <;> rfl
  simp only [slots, List.map_cons, List.map_nil] at hrecord
  simp only [StructDecl.ofJson?, slots, hrecord, hsupertype, required?, Json.str?,
    Option.bind_eq_bind, Option.bind_some, Option.bind_eq_some_iff, Option.pure_def,
    Option.some.injEq, StructDecl.mk.injEq, true_and]
  constructor
  · rintro ⟨_, hn, _, hm, rfl, rfl⟩
    exact ⟨optionalNat_iff.mp hn, Member.list_iff.mp hm⟩
  · rintro ⟨hn, hm⟩
    exact ⟨typeId, optionalNat_iff.mpr hn, members, Member.list_iff.mpr hm, rfl, rfl⟩

theorem EnumDecl.ofJson?_slots (d : EnumDecl) :
    EnumDecl.ofJson? (.obj (presentFields (slots (.enum d)))) = some d ↔
      (Declaration.enum d).Fits := by
  rcases d with ⟨name, valueType, constants⟩
  have hrecord := record?_slots (.enum ⟨name, valueType, constants⟩)
  have hconstants := @list?_map EnumConstant EnumConstant.toJson EnumConstant.ofJson? constants
  simp only [slots, List.map_cons, List.map_nil] at hrecord
  simp only [EnumConstant.ofJson?_toJson] at hconstants
  simp only [EnumDecl.ofJson?, slots, hrecord, required?, Json.str?, Option.bind_eq_bind,
    Option.bind_some, Option.bind_eq_some_iff, Option.pure_def, Option.some.injEq,
    EnumDecl.mk.injEq, true_and]
  constructor
  · rintro ⟨_, ht, _, hc, rfl, rfl⟩
    exact ⟨WireType.optional_iff.mp ht, hconstants.mp hc⟩
  · rintro ⟨ht, hc⟩
    exact ⟨valueType, WireType.optional_iff.mpr ht, constants, hconstants.mpr hc, rfl, rfl⟩

theorem ListDecl.ofJson?_slots (d : ListDecl) :
    ListDecl.ofJson? (.obj (presentFields (slots (.list d)))) = some d ↔
      (Declaration.list d).Fits := by
  rcases d with ⟨name, width, members⟩
  have hrecord := record?_slots (.list ⟨name, width, members⟩)
  simp only [slots, List.map_cons, List.map_nil] at hrecord
  simp only [ListDecl.ofJson?, slots, hrecord, required?, orElse?, Json.str?,
    WireType.widthOfJson?_widthToJson, Option.bind_eq_bind, Option.bind_some,
    Option.bind_eq_some_iff, Option.pure_def, Option.some.injEq, ListDecl.mk.injEq, true_and,
    exists_eq_right]
  exact Member.list_iff

theorem MapDecl.ofJson?_slots (d : MapDecl) :
    MapDecl.ofJson? (.obj (presentFields (slots (.map d)))) = some d ↔
      (Declaration.map d).Fits := by
  rcases d with ⟨name, width, key, value⟩
  have hrecord := record?_slots (.map ⟨name, width, key, value⟩)
  simp only [slots, List.map_cons, List.map_nil] at hrecord
  simp only [MapDecl.ofJson?, slots, hrecord, required?, Json.str?,
    WireType.widthOfJson?_widthToJson, Option.bind_eq_bind, Option.bind_some,
    Option.bind_eq_some_iff, Option.pure_def, Option.some.injEq, MapDecl.mk.injEq, true_and]
  constructor
  · rintro ⟨_, hk, _, hv, rfl, rfl⟩
    exact ⟨(WireType.ofJson?_toJson _ _).mp hk, (WireType.ofJson?_toJson _ _).mp hv⟩
  · rintro ⟨hk, hv⟩
    exact ⟨key, (WireType.ofJson?_toJson _ _).mpr hk, value,
      (WireType.ofJson?_toJson _ _).mpr hv, rfl, rfl⟩

theorem UnionDecl.ofJson?_slots (d : UnionDecl) :
    UnionDecl.ofJson? (.obj (presentFields (slots (.union d)))) = some d ↔
      (Declaration.union d).Fits := by
  rcases d with ⟨name, kind, cases⟩
  have hrecord := record?_slots (.union ⟨name, kind, cases⟩)
  have hcases := @list?_map UnionCase UnionCase.toJson UnionCase.ofJson? cases
  simp only [slots, List.map_cons, List.map_nil] at hrecord
  simp only [UnionCase.ofJson?_toJson] at hcases
  simp only [UnionDecl.ofJson?, slots, hrecord, required?, orElse?, Json.str?,
    Option.bind_eq_bind, Option.bind_some, Option.bind_eq_some_iff, Option.pure_def,
    Option.some.injEq, UnionDecl.mk.injEq, true_and]
  constructor
  · rintro ⟨_, hk, _, hc, rfl, rfl⟩
    exact ⟨(WireType.ofJson?_toJson _ _).mp hk, hcases.mp hc⟩
  · rintro ⟨hk, hc⟩
    exact ⟨kind, (WireType.ofJson?_toJson _ _).mpr hk, cases, hcases.mpr hc, rfl, rfl⟩

theorem VariantDecl.ofJson?_slots (d : VariantDecl) :
    VariantDecl.ofJson? (.obj (presentFields (slots (.variant d)))) = some d ↔
      (Declaration.variant d).Fits := by
  rcases d with ⟨name, kind, of, cases⟩
  have hrecord := record?_slots (.variant ⟨name, kind, of, cases⟩)
  have hcases := @list?_map VariantCase VariantCase.toJson VariantCase.ofJson? cases
  simp only [slots, List.map_cons, List.map_nil] at hrecord
  simp only [VariantCase.ofJson?_toJson] at hcases
  simp only [VariantDecl.ofJson?, slots, hrecord, required?, Json.str?, Option.bind_eq_bind,
    Option.bind_some, Option.bind_eq_some_iff, Option.pure_def, Option.some.injEq,
    VariantDecl.mk.injEq, true_and]
  constructor
  · rintro ⟨_, hk, _, ho, _, hc, rfl, rfl, rfl⟩
    exact ⟨(WireType.ofJson?_toJson _ _).mp hk, WireType.optional_iff.mp ho, hcases.mp hc⟩
  · rintro ⟨hk, ho, hc⟩
    exact ⟨kind, (WireType.ofJson?_toJson _ _).mpr hk, of, WireType.optional_iff.mpr ho, cases,
      hcases.mpr hc, rfl, rfl, rfl⟩

theorem TypedefDecl.ofJson?_slots (d : TypedefDecl) :
    TypedefDecl.ofJson? (.obj (presentFields (slots (.typedef d)))) = some d ↔
      (Declaration.typedef d).Fits := by
  rcases d with ⟨name, aliased⟩
  have hrecord := record?_slots (.typedef ⟨name, aliased⟩)
  simp only [slots, List.map_cons, List.map_nil] at hrecord
  simp only [TypedefDecl.ofJson?, slots, hrecord, required?, Json.str?, Option.bind_eq_bind,
    Option.bind_some, Option.bind_eq_some_iff, Option.pure_def, Option.some.injEq,
    TypedefDecl.mk.injEq, true_and, exists_eq_right]
  exact WireType.ofJson?_toJson true aliased

end Shapes

/-- A declaration that is written as JSON is read back as the same declaration,
    exactly if its numbers are words. -/
theorem Declaration.json_roundTrip_iff (d : Declaration) :
    ofJson? d.toJson = some d ↔ d.Fits := by
  rw [ofJson?_toJson]
  -- the kind selects the reader of the slots
  cases d with
  | struct d => exact (make_eq_some_iff fun _ _ => struct.inj).trans d.ofJson?_slots
  | enum d => exact (make_eq_some_iff fun _ _ => enum.inj).trans d.ofJson?_slots
  | list d => exact (make_eq_some_iff fun _ _ => list.inj).trans d.ofJson?_slots
  | map d => exact (make_eq_some_iff fun _ _ => map.inj).trans d.ofJson?_slots
  | union d => exact (make_eq_some_iff fun _ _ => union.inj).trans d.ofJson?_slots
  | variant d => exact (make_eq_some_iff fun _ _ => variant.inj).trans d.ofJson?_slots
  | typedef d => exact (make_eq_some_iff fun _ _ => typedef.inj).trans d.ofJson?_slots

end Wireform
