import Wireform.Fault
import Wireform.Schema.Verification
import Wireform.Text.Quoted

/-!
# Why a schema does not compile

A compilation ends with the first error it meets. A violation is found before
anything is described. After that, a type may refer to nothing, or a declaration
may have a shape that cannot be described; both name the declaration at fault, by
the name that it is described under.

## Main definitions

* `Defect`, `Defect.message`: What is wrong with a declaration that is to be
  described.
* `CompileError`, `CompileError.message`: Why a compilation fails.
* `Compiled`: A step of a compilation.
-/

namespace Wireform

/-- A literal as messages show it. -/
def Literal.shown : Literal → String
  | .integer value => s!"Integer({value})"
  | .text value => s!"Text({Text.quoted value})"

/-- Why a declaration cannot be described. -/
inductive Defect where
  | notResolved
  | typedefCycle
  | cannotAlias (type : WireType)
  | supertypeNotStruct (supertype : String)
  | recursiveSupertype
  | unionKind (type : WireType)
  | variantKind (type : WireType)
  /-- The kind of a variant is a declaration that is no enum. -/
  | variantKindNotEnum (name : String)
  | caseKindMismatch (kind : Literal) (type : WireType)
  | variantWithoutCases
  /-- A constant has a value where positions are encoded. -/
  | valueWithoutType (constant : String)
  | stringValueNeeded (constant : String)
  | integerValueNeeded (constant : String)
  | cannotBackEnum (type : WireType)
  | valueDoesNotFit (constant : String) (value : Int) (type : WireType)
  | unsupportedWidth (width : Width)
  | tooManyMembers
  deriving DecidableEq

/-- The text that reports a defect. -/
def Defect.message : Defect → String
  | .notResolved => "not resolved"
  | .typedefCycle => "typedef refers to itself"
  | .cannotAlias type => s!"cannot alias {type.display}"
  | .supertypeNotStruct supertype => s!"supertype {supertype} is not a struct"
  | .recursiveSupertype => "recursive supertype"
  | .unionKind type => s!"{type.display} cannot discriminate a union"
  | .variantKind type => s!"{type.display} cannot discriminate a variant"
  | .variantKindNotEnum name => s!"variant kind {name} is not an enum"
  | .caseKindMismatch kind type => s!"case kind {kind.shown} does not match {type.display}"
  | .variantWithoutCases => "variant without cases"
  | .valueWithoutType constant => s!"constant {constant} has a value but no value type"
  | .stringValueNeeded constant => s!"constant {constant} needs a string value"
  | .integerValueNeeded constant => s!"constant {constant} needs an integer value"
  | .cannotBackEnum type => s!"{type.display} cannot back an enum"
  | .valueDoesNotFit constant value type =>
      s!"constant {constant} value {value} does not fit {type.display}"
  | .unsupportedWidth width => s!"unsupported width {width.bits}"
  | .tooManyMembers => "more than 64 members"

/-- Why a compilation fails. -/
inductive CompileError where
  /-- A file could not be read or written. -/
  | inaccessible
  /-- A text is no JSON of the expected shape. -/
  | unreadable
  | violation (v : Violation)
  /-- A type refers to nothing. -/
  | unresolved (name owner : String)
  | invalid (name : String) (defect : Defect)
  deriving DecidableEq

namespace CompileError

/-- The text that reports an error. Files and JSON texts have no text of their
    own here. -/
def message? : CompileError → Option String
  | .inaccessible | .unreadable => none
  | .violation v => some s!"Verifier error: {v.message}"
  | .unresolved name owner =>
      some ("Unresolved type \"" ++ name ++ "\" referenced from \"" ++ owner ++ "\"")
  | .invalid name defect =>
      some ("Invalid declaration \"" ++ name ++ "\": " ++ defect.message)

end CompileError

/-- A step of a compilation. -/
abbrev Compiled (α : Type) : Type := Checked CompileError α

end Wireform
