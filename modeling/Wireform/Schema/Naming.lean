import Wireform.Schema.Declaration

/-!
# Names seen from a scope

A name is looked up in the scope it stands in, then in each enclosing scope
outwards, and last as it stands. The verifier and the generators each search the
names that they have collected on their own. The search is stated here over any
set of defined names, and each of the two applies it to its own. That their names
are the same, so that they agree about what a name means, is not part of these
definitions: it is proved of verified schemas.

A scope is given by its qualified name, so the enclosing scopes are found by
cutting that name at its separators, the last one first.

## Main definitions

* `isIdentifier`: The names a schema may use.
* `enclosingScopes`: A scope and those around it, innermost first.
* `searchOutward`: The first defined name that a name may stand for.
-/

namespace Wireform

/-- A letter, a digit or an underscore, of ASCII. -/
def isIdentifierChar (c : Char) : Bool :=
  c.isAlphanum || c = '_'

/-- Whether a name is made of letters, digits and underscores of ASCII, and does
    not start with a digit. -/
def isIdentifier (name : String) : Bool :=
  match name.toList with
  | [] => false
  | c :: rest => (c.isAlpha || c = '_') && rest.all isIdentifierChar

/-- The scopes around one whose qualified name is given in reverse, from the inside
    out: what remains after each separator. The empty name at the end is the place
    outside of all scopes. -/
def outerScopes : List Char → List (List Char)
  | [] => [[]]
  | ':' :: ':' :: rest => if rest = [] then [[]] else rest.reverse :: outerScopes rest
  | _ :: rest => outerScopes rest

/-- The qualified names of a scope and of every scope around it, from the inside
    out. -/
def enclosingScopes (scope : List Char) : List (List Char) :=
  if scope = [] then [[]] else scope :: outerScopes scope.reverse

/-- The qualified name of a name in a scope. -/
def nameIn (scope : List Char) (name : String) : String :=
  if scope = [] then name else String.ofList scope ++ scopeSeparator ++ name

/-- The qualified names that a name may stand for, seen from a scope. -/
def candidates (scope name : String) : List String :=
  (enclosingScopes scope.toList).map (nameIn · name)

/-- The first of these that is defined. -/
def searchOutward (isDefined : String → Bool) (scope name : String) : Option String :=
  (candidates scope name).find? isDefined

end Wireform
