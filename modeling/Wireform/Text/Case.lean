import Wireform.Text.CaseTable

/-!
# Upper and lower case

Case of characters and texts beyond ASCII. One character may map to several
(`ß` to `SS`), and the lower case of a capital sigma depends on where in a word it
stands.

## Main definitions

* `isUppercase`, `isLowercase`: The case of a character.
* `uppercase`, `lowercase`: The mapping of a character.
* `lowercaseText`: The mapping of a text.
-/

namespace Wireform.Text

/-- Whether a character is upper case. -/
def isUppercase (c : Char) : Bool :=
  Run.anyContains uppercaseRuns c

/-- Whether a character is lower case. -/
def isLowercase (c : Char) : Bool :=
  Run.anyContains lowercaseRuns c

/-- The image of a character under a mapping that is given by tables. Characters
    outside of them map to themselves. -/
def mapCase (expansions : List (Nat × List Nat)) (shifts : List CaseShift) (c : Char) :
    List Char :=
  match expansions.lookup c.toNat with
  | some codes => codes.map Char.ofNat
  | none =>
      match shifts.find? (·.run.contains c.toNat) with
      | some shift => [Char.ofNat (c.toNat + shift.distance).toNat]
      | none => [c]

/-- The upper case of a character. -/
def uppercase (c : Char) : List Char :=
  mapCase uppercaseExpansions uppercaseShifts c

/-- The lower case of a character, wherever it stands. -/
def lowercase (c : Char) : List Char :=
  mapCase lowercaseExpansions lowercaseShifts c

/-- Whether the first character that is not ignored next to a sigma has a case. -/
def startsCased (cs : List Char) : Bool :=
  match cs.dropWhile (Run.anyContains caseIgnorableRuns) with
  | c :: _ => Run.anyContains casedRuns c
  | [] => false

/-- The lower case of a text, with the text before it in reverse. A capital sigma
    at the end of a word becomes a final sigma. -/
def lowercaseAfter (before : List Char) : List Char → List Char
  | [] => []
  | c :: rest =>
      let image :=
        if c = 'Σ' then
          -- at the end of a word: letters before, none after
          if startsCased before && !startsCased rest then ['ς'] else ['σ']
        else lowercase c
      image ++ lowercaseAfter (c :: before) rest

/-- The lower case of a text. -/
def lowercaseText (s : String) : String :=
  String.ofList (lowercaseAfter [] s.toList)

end Wireform.Text
