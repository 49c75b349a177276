/-!
# JSON values

The values of a JSON text as the schema format sees them. Objects keep their
fields in the order of the text, repeated names included, because a repeated name
is an error for a known field and none for an unknown one.

The schema format has no fractions, so a number that is no 64-bit integer is kept
only as *some* real number. Two kinds of text are well formed and still hold no
value that can be taken over: a string with half of a surrogate pair, and a
number beyond the range of doubles. Together with nesting deeper than
`Json.maxDepth` they are `unreadable`: a reader may pass over them where it
ignores a field, and refuses them everywhere else.

## Main definitions

* `Json`: A JSON value.
* `Json.limitDepth`: A value whose too deeply nested parts are unreadable.
* `Json.isReadable`: Whether a value has no unreadable part.
* `Json.record?`: The fields of a record, from an object or an array.
-/

namespace Wireform

/-- A JSON value. -/
inductive Json where
  | null
  | bool (value : Bool)
  /-- A number without fraction and exponent that fits 64 bits, signed or
      unsigned. -/
  | int (value : Int)
  /-- Any other number. Minus zero is one of them. -/
  | real
  | str (value : String)
  | arr (items : List Json)
  | obj (fields : List (String × Json))
  /-- Text that is well formed and holds no value. -/
  | unreadable
  deriving Inhabited

namespace Json

/-- The number of nested arrays and objects that a value may have. -/
def maxDepth : Nat := 127

mutual

/-- The value with every array and object below the given depth made
    unreadable. -/
def limitDepth : Nat → Json → Json
  | 0, .arr _ | 0, .obj _ => .unreadable
  | depth + 1, .arr items => .arr (limitItems depth items)
  | depth + 1, .obj fields => .obj (limitFields depth fields)
  | _, .null => .null
  | _, .bool b => .bool b
  | _, .int n => .int n
  | _, .real => .real
  | _, .str s => .str s
  | _, .unreadable => .unreadable

/-- The items of an array, limited to a depth. -/
def limitItems (depth : Nat) : List Json → List Json
  | [] => []
  | item :: rest => limitDepth depth item :: limitItems depth rest

/-- The fields of an object, limited to a depth. -/
def limitFields (depth : Nat) : List (String × Json) → List (String × Json)
  | [] => []
  | (name, value) :: rest => (name, limitDepth depth value) :: limitFields depth rest

end

mutual

/-- Whether no part of the value is unreadable. -/
def isReadable : Json → Bool
  | .arr items => readableItems items
  | .obj fields => readableFields fields
  | .null | .bool _ | .int _ | .real | .str _ => true
  | .unreadable => false

/-- Whether no part of the items is unreadable. -/
def readableItems : List Json → Bool
  | [] => true
  | item :: rest => item.isReadable && readableItems rest

/-- Whether no part of the fields is unreadable. -/
def readableFields : List (String × Json) → Bool
  | [] => true
  | (_, value) :: rest => value.isReadable && readableFields rest

end

/-- The one value of a name among the fields of an object: `some none` if the
    name does not occur, and nothing if it occurs twice. -/
def field? (fields : List (String × Json)) (name : String) : Option (Option Json) :=
  match fields.filter (·.1 = name) with
  | [] => some none
  | [(_, value)] => some (some value)
  | _ => none

/-- The fields of a record with the given field names, in that order and each
    possibly absent. An object may have further fields, but no named one twice;
    an array gives the fields by position, and may be shorter but not longer. -/
def record? (names : List String) : Json → Option (List (Option Json))
  | .obj fields => names.mapM (field? fields)
  | .arr items =>
      if items.length ≤ names.length then
        some (items.map some ++ List.replicate (names.length - items.length) none)
      else none
  | _ => none

theorem sizeOf_lt_of_field? {fields : List (String × Json)} {name : String} {value : Json}
    (h : field? fields name = some (some value)) : sizeOf value < sizeOf fields := by
  unfold field? at h
  split at h
  · simp at h
  · next n v hf =>
      simp only [Option.some.injEq] at h
      subst h
      have hmem : (n, v) ∈ fields := (List.mem_filter.1 (by rw [hf]; simp)).1
      have := List.sizeOf_lt_of_mem hmem
      simp only [Prod.mk.sizeOf_spec] at this
      omega
  · simp at h

/-- A field of a record is smaller than the record, so that reading nested
    records ends. -/
theorem sizeOf_lt_of_record? {names : List String} {json : Json} (value : Json)
    {values : List (Option Json)} (h : json.record? names = some values)
    (hv : some value ∈ values) : sizeOf value < sizeOf json := by
  cases json with
  | obj fields =>
      simp only [record?] at h
      have : ∃ name ∈ names, field? fields name = some (some value) := by
        induction names generalizing values with
        | nil =>
            simp only [List.mapM_nil, Option.pure_def, Option.some.injEq] at h
            subst h
            simp at hv
        | cons n ns ih =>
            simp only [List.mapM_cons, Option.pure_def, Option.bind_eq_bind,
              Option.bind_eq_some_iff, Option.some.injEq] at h
            obtain ⟨v, hn, vs, hns, rfl⟩ := h
            rcases List.mem_cons.1 hv with rfl | hv
            · exact ⟨n, by simp, hn⟩
            · obtain ⟨m, hm, hf⟩ := ih hv hns
              exact ⟨m, by simp [hm], hf⟩
      obtain ⟨name, -, hf⟩ := this
      have := sizeOf_lt_of_field? hf
      simp only [obj.sizeOf_spec]
      omega
  | arr items =>
      simp only [record?] at h
      split at h
      · simp only [Option.some.injEq] at h
        subst h
        simp only [List.mem_append, List.mem_map, Option.some.injEq, exists_eq_right,
          List.mem_replicate, reduceCtorEq, and_false, or_false] at hv
        have := List.sizeOf_lt_of_mem hv
        simp only [arr.sizeOf_spec]
        omega
      · simp at h
  | _ => simp [record?] at h

/-- The string, if the value is one. -/
def str? : Json → Option String
  | .str s => some s
  | _ => none

/-- The integer between two bounds, if the value is one. -/
def intIn? (low high : Int) : Json → Option Int
  | .int n => if low ≤ n ∧ n ≤ high then some n else none
  | _ => none

/-- The natural number up to a bound, if the value is one. -/
def natUpTo? (high : Nat) (json : Json) : Option Nat :=
  Int.toNat <$> json.intIn? 0 high

/-- The items of an array, each read with the given reader. -/
def list? {α : Type} (read : Json → Option α) : Json → Option (List α)
  | .arr items => items.mapM read
  | _ => none

/-- A value that may be null, which means that it is absent. -/
def nullable? {α : Type} (read : Json → Option α) : Json → Option (Option α)
  | .null => some none
  | json => some <$> read json

/-- A value of a closed set of cases: the name of the case, and what it
    carries. A case that carries nothing may be written as its name alone. -/
def case? : Json → Option (String × Option Json)
  | .str tag => some (tag, none)
  | .obj [(tag, payload)] => some (tag, some payload)
  | _ => none

/-- Whether a case carries nothing. Null carries nothing, and so does an empty
    object in a value that was read into memory as a whole before its type was
    known. -/
def isUnit (buffered : Bool) : Option Json → Bool
  | none => true
  | some .null => true
  | some (.obj []) => buffered
  | some _ => false

/-- A field that has to be there. -/
def required? {α : Type} (read : Json → Option α) : Option Json → Option α
  | some json => read json
  | none => none

/-- A field that has a default. -/
def orElse? {α : Type} (default : α) (read : Json → Option α) : Option Json → Option α
  | some json => read json
  | none => some default

end Json

end Wireform
