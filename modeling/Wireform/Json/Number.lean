import Wireform.Fault
import Wireform.Json.Basic

/-!
# Numbers in JSON text

A number without fraction and exponent is an integer if it fits 64 bits. Any other
number is a real one, and all that is asked of it is whether it can be read at all:
whether its value is finite.

The value is formed in two roundings. The leading digits are taken into a word of
64 bits, as many as it holds, and the rest of the number only moves the exponent.
The word and the power of ten are then each the nearest double, and so is their
product. Near the largest double this differs from rounding the number itself, in
both directions, so the steps are followed as they are: on natural numbers, where
rounding to 53 binary digits is exact.

## Main definitions

* `Json.nearestDouble`: A natural number rounded to 53 binary digits.
* `Json.Decimal`: The leading digits of a number, and a power of ten.
* `Json.Decimal.isFinite`: Whether the value of a number is finite.
* `Json.number?`: The value of a number.
-/

namespace Wireform

namespace Json

/-- The value of a decimal digit. -/
def digit? (c : Char) : Option Nat :=
  if '0' ≤ c ∧ c ≤ '9' then some (c.toNat - '0'.toNat) else none

/-- The number that a run of digits stands for. -/
def ofDigits (digits : List Char) : Nat :=
  digits.foldl (fun n c => n * 10 + (c.toNat - '0'.toNat)) 0

/-- The digits at the front, and the rest. -/
def splitDigits (cs : List Char) : List Char × List Char :=
  cs.span fun c => (digit? c).isSome

/-- The nearest number with at most 53 significant binary digits. A tie goes to the
    even neighbour. -/
def nearestDouble (n : Nat) : Nat :=
  let unit := 2 ^ (n.log2 + 1 - 53)
  let quotient := n / unit
  let remainder := n % unit
  if 2 * remainder < unit ∨ (2 * remainder = unit ∧ quotient % 2 = 0) then quotient * unit
  else (quotient + 1) * unit

/-- The least natural number whose nearest double is infinite: halfway between the
    largest double and the power of two above it. -/
def doubleBound : Nat := 2 ^ (1024 : Nat) - 2 ^ (970 : Nat)

/-- The largest power of ten that is a finite double. -/
def maxPower : Nat := 308

/-- The leading digits of a number as a word of 64 bits, and the power of ten that
    they are scaled by. -/
structure Decimal where
  significand : Nat
  exponent : Int
  deriving DecidableEq

namespace Decimal

/-- Put a digit behind others, if the result still fits 64 bits. -/
def push? (significand : Nat) (c : Char) : Option Nat :=
  let next := significand * 10 + (c.toNat - '0'.toNat)
  if next < 2 ^ (64 : Nat) then some next else none

/-- Take the digits before the point. From the first one on that does not fit, each
    counts as a power of ten. -/
def takeWhole (significand : Nat) : List Char → Decimal
  | [] => ⟨significand, 0⟩
  | c :: rest =>
      match push? significand c with
      | some next => takeWhole next rest
      | none => ⟨significand, rest.length + 1⟩

/-- Take digits behind the point. From the first one on that does not fit, they are
    left out. -/
def takePart (d : Decimal) : List Char → Decimal
  | [] => d
  | c :: rest =>
      match push? d.significand c with
      | some next => takePart ⟨next, d.exponent - 1⟩ rest
      | none => d

/-- The number with the given digits before and behind the point, scaled by a power
    of ten. -/
def ofDigits (whole part : List Char) (exponent : Int) : Decimal :=
  let d := (takeWhole 0 whole).takePart part
  { d with exponent := d.exponent + exponent }

/-- Whether the value is finite. Division makes a number smaller, so only a product
    can be too large. -/
def isFinite (d : Decimal) : Bool :=
  if d.significand = 0 ∨ d.exponent < 0 then true
  else if d.exponent > maxPower then false
  else
    decide (nearestDouble d.significand * nearestDouble (10 ^ d.exponent.toNat) < doubleBound)

end Decimal

/-- The fraction behind a point, if there is one: its digits and the rest. -/
def fraction? : List Char → Option (List Char × List Char)
  | '.' :: rest =>
      match splitDigits rest with
      | ([], _) => none
      | (digits, rest) => some (digits, rest)
  | rest => some ([], rest)

/-- The exponent up to the end, if there is one. -/
def exponent? : List Char → Option (Option Int)
  | [] => some none
  | mark :: rest =>
      if mark = 'e' ∨ mark = 'E' then
        let (negative, digits) :=
          match rest with
          | '-' :: digits => (true, digits)
          | '+' :: digits => (false, digits)
          | digits => (false, digits)
        match splitDigits digits with
        | (_ :: _, []) =>
            let size : Int := ofDigits digits
            some (some (if negative then -size else size))
        | _ => none
      else none

/-- Whether digits are an integer part: no zero stands in front of others. -/
def isIntegerPart : List Char → Bool
  | [] => false
  | ['0'] => true
  | c :: _ => c ≠ '0'

/-- The value of a number, given whether a minus stood before it. -/
def number? (negative : Bool) (cs : List Char) : Option Json := do
  let (whole, rest) := splitDigits cs
  let (part, rest) ← fraction? rest
  let exponent ← exponent? rest
  if !isIntegerPart whole then none
  else
    let value : Int := if negative then -(ofDigits whole : Int) else ofDigits whole
    let isInteger := part.isEmpty && exponent.isNone && !(negative && value == 0)
    if isInteger && decide (-2 ^ (63 : Nat) ≤ value ∧ value < 2 ^ (64 : Nat)) then some (.int value)
    else if (Decimal.ofDigits whole part (exponent.getD 0)).isFinite then some .real
    else some .unreadable

end Json

end Wireform
