import Wireform.Json.Basic

/-!
# Writing JSON text

Compact text without any blank, and indented text with two blanks for each
level. Strings escape quotation marks, backslashes and control characters, the
latter by letter where JSON has one; everything else stands as it is.

## Main definitions

* `Json.quote`: A string as JSON text.
* `Json.compact`, `Json.pretty`: A value as JSON text.
-/

namespace Wireform

namespace Json

/-- A character as it stands in a JSON string. -/
def escapeChar (c : Char) : String :=
  if c = '"' then "\\\""
  else if c = '\\' then "\\\\"
  else if c.toNat = 8 then "\\b"
  else if c = '\t' then "\\t"
  else if c = '\n' then "\\n"
  else if c.toNat = 12 then "\\f"
  else if c = '\r' then "\\r"
  else if c.toNat < 0x20 then
    "\\u00" ++ String.ofList [Nat.digitChar (c.toNat / 16), Nat.digitChar (c.toNat % 16)]
  else c.toString

/-- A string as JSON text. -/
def quote (s : String) : String :=
  s.toList.foldl (fun text c => text ++ escapeChar c) "\"" ++ "\""

/-- The text of a real number. Only its kind is kept, so it is written as one that
    is read back as a real number. -/
def realText : String := "-0"

/-- The text of an unreadable value: a number that is beyond every range. -/
def unreadableText : String := "1e999"

mutual

/-- A value as JSON text without blanks. -/
def compact : Json → String
  | .null => "null"
  | .real => realText
  | .unreadable => unreadableText
  | .bool true => "true"
  | .bool false => "false"
  | .int n => toString n
  | .str s => quote s
  | .arr items => "[" ++ ",".intercalate (compactItems items) ++ "]"
  | .obj fields => "\x7b" ++ ",".intercalate (compactFields fields) ++ "\x7d"

/-- The texts of items. -/
def compactItems : List Json → List String
  | [] => []
  | item :: rest => compact item :: compactItems rest

/-- The texts of fields. -/
def compactFields : List (String × Json) → List String
  | [] => []
  | (name, value) :: rest => (quote name ++ ":" ++ compact value) :: compactFields rest

end

/-- The start of a line at a level. -/
def indent (level : Nat) : String :=
  "\n" ++ String.ofList (List.replicate (2 * level) ' ')

/-- Lines between brackets, or the brackets alone. -/
def bracket (level : Nat) (left right : String) : List String → String
  | [] => left ++ right
  | lines =>
      left ++ indent (level + 1) ++ ("," ++ indent (level + 1)).intercalate lines ++ indent level ++
        right

mutual

/-- A value as indented JSON text that stands at a level. -/
def prettyAt (level : Nat) : Json → String
  | .null => "null"
  | .real => realText
  | .unreadable => unreadableText
  | .bool true => "true"
  | .bool false => "false"
  | .int n => toString n
  | .str s => quote s
  | .arr items => bracket level "[" "]" (prettyItems (level + 1) items)
  | .obj fields => bracket level "\x7b" "\x7d" (prettyFields (level + 1) fields)

/-- The lines of items. -/
def prettyItems (level : Nat) : List Json → List String
  | [] => []
  | item :: rest => prettyAt level item :: prettyItems level rest

/-- The lines of fields. -/
def prettyFields (level : Nat) : List (String × Json) → List String
  | [] => []
  | (name, value) :: rest => (quote name ++ ": " ++ prettyAt level value) :: prettyFields level rest

end

/-- A value as indented JSON text. -/
def pretty (json : Json) : String :=
  prettyAt 0 json

end Json

end Wireform
