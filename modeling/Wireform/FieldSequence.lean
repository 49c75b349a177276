import Wireform.Refusal

/-!
# Members in declaration order

Builders of structs and lists write their members in the order of declaration.
A member may be passed over only if it has a default, which then has to be
written in its place. `FieldSequence` keeps the place: it accepts a member at or
after the next one, refuses one that would skip a required member, and answers
with the range of members that were skipped.

## Main definitions

* `FieldInfo`: A member's name and whether it is required.
* `FieldSequence`: The members and the next one to write.
* `FieldSequence.set`, `FieldSequence.complete`: Writing one, and finishing.
-/

namespace Wireform

/-- A member of a struct or a list. -/
structure FieldInfo where
  name : String
  required : Bool
  deriving DecidableEq

/-- The members in order, and the index of the next one to write. -/
structure FieldSequence where
  fields : List FieldInfo
  next : Nat
  deriving DecidableEq

namespace FieldSequence

/-- A sequence of which nothing has been written. -/
def start (fields : List FieldInfo) : FieldSequence :=
  ⟨fields, 0⟩

/-- Whether a member has been written or passed over. -/
def isSet (s : FieldSequence) (index : Nat) : Bool :=
  index < s.next

/-- Refuses to pass over the members from the next one up to `stop` if one of
    them is required. -/
def checkSkipped (s : FieldSequence) (stop : Nat) : Checked Refusal Unit :=
  match ((s.fields.drop s.next).take (stop - s.next)).find? (·.required) with
  | some field => .error (.refused (.fieldNotSet field.name))
  | none => .ok ()

/-- Write a member. Yields the range of members skipped on the way. -/
def set (s : FieldSequence) (index : Nat) : Checked Refusal ((Nat × Nat) × FieldSequence) :=
  match s.fields[index]? with
  | none => .error (.refused (.fieldOutOfOrder "<unknown>"))
  | some field =>
      if index < s.next then .error (.refused (.fieldOutOfOrder field.name))
      else do
        s.checkSkipped index
        return ((s.next, index), { s with next := index + 1 })

/-- Finish. Yields the range of members skipped at the end. -/
def complete (s : FieldSequence) : Checked Refusal ((Nat × Nat) × FieldSequence) := do
  s.checkSkipped s.fields.length
  return ((s.next, s.fields.length), { s with next := s.fields.length })

end FieldSequence

end Wireform
