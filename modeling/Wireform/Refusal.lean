import Wireform.Fault

/-!
# Refusals of readers and builders

Why a reader does not bind to a window, or a builder does not accept a write.
Each cause carries the numbers its message names; `Refusal.message` is the one
place where the wording is fixed.

## Main definitions

* `Refusal`: The causes.
* `Refusal.message`: The text of a cause.
-/

namespace Wireform

/-- Why a reader or a builder refuses its input. -/
inductive Refusal where
  /-- A limit lies beyond the end of the window. -/
  | limitExceeded (limit maxLimit : Nat)
  /-- A window ends beyond its buffer. -/
  | capacityExceeded (maxLimit capacity : Nat)
  /-- A window starts beyond its own end. -/
  | offsetBeyondLimit (offset maxLimit : Nat)
  /-- A variable-width integer carries more bits than its value may have. -/
  | varintOverflow (kind : String) (offset bits : Nat)
  /-- A number is outside the range of its type. -/
  | valueOutOfRange (kind : String) (value : Int)
  /-- The bytes are no encoding of the type. -/
  | malformed (kind : String) (offset : Nat)
  /-- A length or a count is beyond what its prefix or bound allows. -/
  | lengthExceeded (length max : Nat)
  /-- A character has no place in the character set. -/
  | unmappable (charset text : String) (index : Nat)
  /-- The type has no null value. -/
  | nullNotSupported (kind : String)
  /-- A builder was finished before its value was set. -/
  | valueNotSet
  /-- A required member was passed over. -/
  | fieldNotSet (name : String)
  /-- A member was set after a later one. -/
  | fieldOutOfOrder (name : String)
  /-- The empty list takes no fields. -/
  | fieldsNotSupported (kind : String)
  /-- The builder of this type has no such step. -/
  | stepNotSupported (kind : String)
  deriving DecidableEq

/-- The text that reports a refusal. -/
def Refusal.message : Refusal → String
  | .limitExceeded limit maxLimit => s!"limit {limit} exceeds max limit {maxLimit}"
  | .capacityExceeded maxLimit capacity =>
      s!"max limit {maxLimit} exceeds buffer capacity {capacity}"
  | .offsetBeyondLimit offset maxLimit => s!"offset {offset} lies beyond max limit {maxLimit}"
  | .varintOverflow kind offset bits => s!"{kind} value at offset {offset} exceeds {bits} bits"
  | .valueOutOfRange kind value => s!"{kind} value {value} is out of range"
  | .malformed kind offset => s!"malformed {kind} at offset {offset}"
  | .lengthExceeded length max => s!"length {length} exceeds maximum {max}"
  | .unmappable charset text index => s!"\"{text}\" has no {charset} encoding at char {index}"
  | .nullNotSupported kind => s!"{kind} cannot encode null"
  | .valueNotSet => "value not set"
  | .fieldNotSet name => s!"required field \"{name}\" is not set"
  | .fieldOutOfOrder name => s!"field \"{name}\" set out of order"
  | .fieldsNotSupported kind => s!"{kind} does not accept fields"
  | .stepNotSupported kind => s!"{kind} does not accept this step"

end Wireform
