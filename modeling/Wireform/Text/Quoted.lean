import Wireform.Text.InvisibleTable

/-!
# Quoted text

The form in which messages show a text so that every character of it can be seen:
between quotation marks, with invisible characters written as their code points
between braces.

## Main definitions

* `escape`: A character of a quoted text.
* `quoted`: A quoted text.
-/

namespace Wireform.Text

/-- The lower case hexadecimal digits of a number. -/
def hexDigits (n : Nat) : String :=
  String.ofList (Nat.toDigits 16 n)

/-- A character as it stands in a quoted text. -/
def escape (c : Char) : String :=
  if c = '\"' then "\\\""
  else if c = '\\' then "\\\\"
  else if c = '\n' then "\\n"
  else if c = '\r' then "\\r"
  else if c = '\t' then "\\t"
  else if c = '\x00' then "\\0"
  else if Run.anyContains invisibleRuns c then "\\u\x7b" ++ hexDigits c.toNat ++ "\x7d"
  else c.toString

/-- A text between quotation marks. -/
def quoted (s : String) : String :=
  "\"" ++ String.join (s.toList.map escape) ++ "\""

end Wireform.Text
