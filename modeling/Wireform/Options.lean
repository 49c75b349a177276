import Wireform.Schema.Json

/-!
# Options of a compilation

What a user may choose about the generated names, and which part of a schema is
described. A schema is always verified and resolved as a whole: the scopes of
interest only select among the results.

## Main definitions

* `Options`: The namespace and suffix of generated names, and the scopes to
  generate.
* `Options.targets`: Whether the declarations of a scope are generated.
-/

namespace Wireform

/-- The options of one compilation. -/
structure Options where
  /-- The namespace that takes the place of the root scope in generated names. -/
  nameSpace : String := "flyweight::types"
  /-- What is appended to the name of a declaration. -/
  suffix : String := "FW"
  /-- The qualified names of the scopes to generate; none means all. -/
  scopes : List String := []
  deriving DecidableEq, Inhabited

namespace Options

/-- The options with another namespace. -/
def withNamespace (options : Options) (nameSpace : String) : Options :=
  { options with nameSpace }

/-- The options with one more scope to generate. -/
def withScope (options : Options) (scope : String) : Options :=
  { options with scopes := options.scopes ++ [scope] }

/-- Whether a scope is the given one or is nested in it. -/
def covers (scope inner : String) : Bool :=
  inner = scope || (scope ++ scopeSeparator).toList.isPrefixOf inner.toList

/-- Whether the declarations of a scope are generated. -/
def targets (options : Options) (scope : String) : Bool :=
  options.scopes.isEmpty || options.scopes.any (covers · scope)

/-- The JSON form of options. -/
def toJson (options : Options) : Json :=
  .obj [("namespace", .str options.nameSpace), ("suffix", .str options.suffix),
    ("scopes", .arr (options.scopes.map .str))]

/-- Read options. Every field has a default. -/
def ofJson? (json : Json) : Option Options :=
  match json.record? ["namespace", "suffix", "scopes"] with
  | some [nameSpace, suffix, scopes] => do
      let defaults : Options := {}
      let nameSpace ← Json.orElse? defaults.nameSpace Json.str? nameSpace
      let suffix ← Json.orElse? defaults.suffix Json.str? suffix
      let scopes ← Json.orElse? defaults.scopes (Json.list? Json.str?) scopes
      return { nameSpace, suffix, scopes }
  | _ => none

end Options

end Wireform
