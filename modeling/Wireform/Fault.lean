/-!
# Faults

The two ways in which an operation of this library fails to finish.

An operation refuses its input for a stated cause, which a caller can report
and recover from, or it stops: a position, length or count left the 64-bit
range, or an access fell outside its buffer. Stopping is kept apart from
refusing because it carries no cause and because most operations can be shown
never to do it. A statement such as "wrapping never stops" needs both outcomes
in the type before it can be made.

Positions, lengths and counts are natural numbers throughout, and the sums and
differences formed from a caller's numbers go through `Word.add`, `Word.sub`
and `Word.mul`, which stop where a 64-bit word would not hold the result.

## Main definitions

* `Fault`: A refusal with its cause, or a stop.
* `Checked`: A computation that may fail with a fault.
* `Checked.speculate`: A refusal read as the absence of a result.
* `Word.add`, `Word.sub`, `Word.mul`: Arithmetic in the 64-bit range.
* `Outcome`: A result together with the state that it leaves behind.
-/

namespace Wireform

/-- How an operation fails to finish: it refuses for a cause, or it stops
    because a number or an access is out of range. -/
inductive Fault (ε : Type) where
  | refused (cause : ε)
  | stopped
  deriving DecidableEq

/-- A computation that yields a value or a fault. -/
abbrev Checked (ε α : Type) : Type := Except (Fault ε) α

namespace Checked

/-- Refuse for the given cause. -/
def refuse {ε α : Type} (cause : ε) : Checked ε α :=
  .error (.refused cause)

/-- Stop without a cause. -/
def stop {ε α : Type} : Checked ε α :=
  .error .stopped

/-- Read a refusal as the absence of a result. A stop stays a stop: it is not
    an answer about the input. -/
def speculate {ε α : Type} : Checked ε α → Checked ε (Option α)
  | .ok a => .ok (some a)
  | .error (.refused _) => .ok none
  | .error .stopped => .error .stopped

end Checked

-- The bounds of this library are powers of two. Where a library of algebra is
-- imported, `^` is read through its monoids; the instance below keeps the bounds
-- the same terms with such a library and without it. It holds inside this namespace
-- only, and is found where the type of the exponent is known: a numeral is given one.

scoped instance (priority := 1100) numberPow {α : Type} [NatPow α] : Pow α Nat := instPowNat

namespace Word

/-- The number of 64-bit words. -/
def bound : Nat := 2 ^ (64 : Nat)

/-- The largest 64-bit word. -/
def max : Nat := 2 ^ (64 : Nat) - 1

/-- The value, or a stop where it does not fit a word. -/
def fit {ε : Type} (value : Nat) : Checked ε Nat :=
  if value < bound then .ok value else .error .stopped

/-- The sum of two words, which stops beyond the 64-bit range. -/
def add {ε : Type} (a b : Nat) : Checked ε Nat :=
  fit (a + b)

/-- The product of two words, which stops beyond the 64-bit range. -/
def mul {ε : Type} (a b : Nat) : Checked ε Nat :=
  fit (a * b)

/-- The difference of two words, which stops below zero. -/
def sub {ε : Type} (a b : Nat) : Checked ε Nat :=
  if b ≤ a then .ok (a - b) else .error .stopped

end Word

/-- The result of an operation together with the state it leaves behind. The
    state is present also after a fault, since an operation may have written
    before it failed. -/
structure Outcome (ε σ α : Type) where
  result : Checked ε α
  state : σ

namespace Outcome

/-- A test, which leaves the state alone whatever comes of it. -/
def check {ε σ α : Type} (state : σ) (test : Checked ε α) : Outcome ε σ α :=
  ⟨test, state⟩

/-- An operation that changes its state only when it succeeds. -/
def ofChecked {ε σ : Type} (before : σ) : Checked ε σ → Outcome ε σ Unit
  | .ok after => ⟨.ok (), after⟩
  | .error fault => ⟨.error fault, before⟩

/-- An operation that changes its state only when it succeeds, and has an
    answer then. -/
def ofAnswer {ε σ α : Type} (before : σ) : Checked ε (α × σ) → Outcome ε σ α
  | .ok (answer, after) => ⟨.ok answer, after⟩
  | .error fault => ⟨.error fault, before⟩

/-- The same outcome with its state seen as part of a larger one. -/
def mapState {ε σ τ α : Type} (f : σ → τ) (o : Outcome ε σ α) : Outcome ε τ α :=
  ⟨o.result, f o.state⟩

/-- Continue after a success; a fault ends the sequence where it stands. -/
def andThen {ε σ α β : Type} (o : Outcome ε σ α) (next : α → σ → Outcome ε σ β) :
    Outcome ε σ β :=
  match o.result with
  | .ok a => next a o.state
  | .error fault => ⟨.error fault, o.state⟩

/-- Continue after a success with a change that cannot fail. -/
def onSuccess {ε σ α : Type} (o : Outcome ε σ α) (change : σ → σ) : Outcome ε σ Unit :=
  o.andThen fun _ state => ⟨.ok (), change state⟩

end Outcome

end Wireform
