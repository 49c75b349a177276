import Wireform.Json.Number

/-!
# Reading JSON text

Strict JSON: no comments, no trailing commas, no byte order mark, no raw control
characters in strings, no leading zeros, nothing after the value.

The text is taken in two passes, each a fold with a small state. The lexer goes
over the characters and collects tokens; everything that is neither blank,
bracket, separator nor string is a word, and a finished word has to be a number
or one of the three names. The assembler goes over the tokens with a stack of
unfinished arrays and objects. Since both are folds, reading is total without
further argument.

## Main definitions

* `Json.Lexer`: The lexer.
* `Json.Assembler`: The assembler.
* `Json.parse`: The value of a text.
-/

namespace Wireform

namespace Json

/-- A piece of JSON text. -/
inductive Token where
  | openArray
  | closeArray
  | openObject
  | closeObject
  | colon
  | comma
  /-- A string, absent if it holds half of a surrogate pair. -/
  | text (value : Option String)
  /-- A number or a name. -/
  | word (value : Json)

/-- The value of a hexadecimal digit. -/
def hexDigit? (c : Char) : Option Nat :=
  if '0' ≤ c ∧ c ≤ '9' then some (c.toNat - '0'.toNat)
  else if 'a' ≤ c ∧ c ≤ 'f' then some (c.toNat - 'a'.toNat + 10)
  else if 'A' ≤ c ∧ c ≤ 'F' then some (c.toNat - 'A'.toNat + 10)
  else none

/-- The value of a word: a name or a number. -/
def word? (cs : List Char) : Option Json :=
  match cs with
  | '-' :: rest => number? true rest
  | _ =>
      match String.ofList cs with
      | "null" => some .null
      | "true" => some (.bool true)
      | "false" => some (.bool false)
      | _ => number? false cs

/-- Where the lexer stands inside a string. -/
inductive Escape where
  /-- Between characters. -/
  | none
  /-- After a backslash. -/
  | started
  /-- In the digits of a code unit: how many are missing, and their value. -/
  | hex (missing value : Nat)

/-- A string under way: its characters, last first, a high surrogate that waits
    for its other half, and whether one has been left alone. -/
structure Literal where
  chars : List Char
  high : Option Nat
  broken : Bool
  escape : Escape

namespace Literal

/-- The empty string. -/
def empty : Literal := ⟨[], Option.none, false, .none⟩

/-- Add a character. A high surrogate that still waits is left alone. -/
def push (l : Literal) (c : Char) : Literal :=
  { l with chars := c :: l.chars, high := Option.none, broken := l.broken || l.high.isSome,
           escape := .none }

/-- Add a code unit of an escape. -/
def pushUnit (l : Literal) (unit : Nat) : Literal :=
  let isHigh := decide (0xD800 ≤ unit ∧ unit < 0xDC00)
  let isLow := decide (0xDC00 ≤ unit ∧ unit < 0xE000)
  match l.high with
  | some high =>
      if isLow then
        { l with chars := Char.ofNat (0x10000 + (high - 0xD800) * 0x400 + (unit - 0xDC00)) :: l.chars,
                 high := Option.none, escape := .none }
      else { l with high := Option.none, broken := true, escape := .none }
  | Option.none =>
      if isHigh then { l with high := some unit, escape := .none }
      else if isLow then { l with broken := true, escape := .none }
      else l.push (Char.ofNat unit)

/-- The character of a one-letter escape. -/
def escaped? : Char → Option Char
  | '"' => some '"'
  | '\\' => some '\\'
  | '/' => some '/'
  | 'b' => some (Char.ofNat 8)
  | 'f' => some (Char.ofNat 12)
  | 'n' => some '\n'
  | 'r' => some '\r'
  | 't' => some '\t'
  | _ => Option.none

/-- Take a character that does not end the string. -/
def step? (l : Literal) (c : Char) : Option Literal :=
  match l.escape with
  | .none =>
      if c = '\\' then some { l with escape := .started }
      else if c.toNat < 0x20 then Option.none
      else some (l.push c)
  | .started =>
      if c = 'u' then some { l with escape := .hex 4 0 }
      else l.push <$> escaped? c
  | .hex missing value => do
      let d ← hexDigit? c
      let value := value * 16 + d
      if missing ≤ 1 then some (l.pushUnit value)
      else some { l with escape := .hex (missing - 1) value }

/-- Whether a quotation mark ends the string here. -/
def isOpen (l : Literal) : Bool :=
  match l.escape with
  | .none => true
  | _ => false

/-- The finished string. -/
def value (l : Literal) : Option String :=
  if l.broken || l.high.isSome then Option.none else some (String.ofList l.chars.reverse)

end Literal

/-- What the lexer is in the middle of. -/
inductive Mode where
  | idle
  | word (chars : List Char)
  | text (literal : Literal)

/-- The lexer: what it is in the middle of, and the tokens, last first. -/
structure Lexer where
  mode : Mode
  tokens : List Token

namespace Lexer

/-- The lexer at the start of a text. -/
def start : Lexer := ⟨.idle, []⟩

/-- Take a character between tokens. -/
def idle (tokens : List Token) (c : Char) : Lexer :=
  if c = ' ' ∨ c = '\n' ∨ c = '\r' ∨ c = '\t' then ⟨.idle, tokens⟩
  else if c = '[' then ⟨.idle, .openArray :: tokens⟩
  else if c = ']' then ⟨.idle, .closeArray :: tokens⟩
  else if c = '\x7b' then ⟨.idle, .openObject :: tokens⟩
  else if c = '\x7d' then ⟨.idle, .closeObject :: tokens⟩
  else if c = ':' then ⟨.idle, .colon :: tokens⟩
  else if c = ',' then ⟨.idle, .comma :: tokens⟩
  else if c = '"' then ⟨.text .empty, tokens⟩
  else ⟨.word [c], tokens⟩

/-- Whether a character goes on with a word. -/
def continuesWord (c : Char) : Bool :=
  c.isAlphanum || c == '+' || c == '-' || c == '.'

/-- Finish a word. -/
def endWord? (chars : List Char) (tokens : List Token) : Option (List Token) := do
  let value ← word? chars.reverse
  return .word value :: tokens

/-- Take a character. -/
def step? (l : Lexer) (c : Char) : Option Lexer :=
  match l.mode with
  | .idle => some (idle l.tokens c)
  | .word chars =>
      if continuesWord c then some ⟨.word (c :: chars), l.tokens⟩
      else do
        let tokens ← endWord? chars l.tokens
        return idle tokens c
  | .text literal =>
      if c = '"' ∧ literal.isOpen then some ⟨.idle, .text literal.value :: l.tokens⟩
      else do
        let literal ← literal.step? c
        return ⟨.text literal, l.tokens⟩

/-- The tokens at the end of the text. -/
def finish? (l : Lexer) : Option (List Token) :=
  match l.mode with
  | .idle => some l.tokens.reverse
  | .word chars => List.reverse <$> endWord? chars l.tokens
  | .text _ => none

end Lexer

/-- The tokens of a text. -/
def tokens? (text : String) : Option (List Token) := do
  let lexer ← text.toList.foldlM Lexer.step? Lexer.start
  lexer.finish?

/-- An unfinished array or object. Items and fields stand last first. An object
    has the name of the field under way, and is unreadable once a name was. -/
inductive Frame where
  | array (items : List Json)
  | object (fields : List (String × Json)) (isReadable : Bool) (name : Option String)

/-- What may come next. -/
inductive Expect where
  | value
  | valueOrClose
  | name
  | nameOrClose
  | colon
  | commaOrClose
  | nothing (result : Json)

/-- The assembler: the unfinished arrays and objects, innermost first, and what
    may come next. -/
structure Assembler where
  frames : List Frame
  expect : Expect

namespace Assembler

/-- The assembler at the start of a text. -/
def start : Assembler := ⟨[], .value⟩

/-- Put a finished value into the innermost array or object. -/
def put (frames : List Frame) (value : Json) : Assembler :=
  match frames with
  | [] => ⟨[], .nothing value⟩
  | .array items :: rest => ⟨.array (value :: items) :: rest, .commaOrClose⟩
  | .object fields isReadable (some name) :: rest =>
      ⟨.object ((name, value) :: fields) isReadable none :: rest, .commaOrClose⟩
  | .object fields _ none :: rest => ⟨.object fields false none :: rest, .commaOrClose⟩

/-- Take a token where a value may stand. -/
def value? (frames : List Frame) : Token → Option Assembler
  | .openArray => some ⟨.array [] :: frames, .valueOrClose⟩
  | .openObject => some ⟨.object [] true none :: frames, .nameOrClose⟩
  | .text (some s) => some (put frames (.str s))
  | .text none => some (put frames .unreadable)
  | .word json => some (put frames json)
  | _ => none

/-- Close the innermost array or object. -/
def close? (frames : List Frame) : Token → Option Assembler
  | .closeArray =>
      match frames with
      | .array items :: rest => some (put rest (.arr items.reverse))
      | _ => none
  | .closeObject =>
      match frames with
      | .object fields isReadable _ :: rest =>
          some (put rest (if isReadable then .obj fields.reverse else .unreadable))
      | _ => none
  | _ => none

/-- Take the name of a field. -/
def name? (frames : List Frame) : Token → Option Assembler
  | .text name =>
      match frames with
      | .object fields isReadable _ :: rest => some ⟨.object fields isReadable name :: rest, .colon⟩
      | _ => none
  | _ => none

/-- Take a token. -/
def step? (a : Assembler) (token : Token) : Option Assembler :=
  match a.expect with
  | .value => value? a.frames token
  | .valueOrClose => (value? a.frames token).or (close? a.frames token)
  | .name => name? a.frames token
  | .nameOrClose => (name? a.frames token).or (close? a.frames token)
  | .colon =>
      match token with
      | .colon => some ⟨a.frames, .value⟩
      | _ => none
  | .commaOrClose =>
      match token, a.frames with
      | .comma, .array _ :: _ => some ⟨a.frames, .value⟩
      | .comma, .object _ _ _ :: _ => some ⟨a.frames, .name⟩
      | token, frames => close? frames token
  | .nothing _ => none

/-- The value, once the text is complete. -/
def finish? (a : Assembler) : Option Json :=
  match a.expect with
  | .nothing result => some result
  | _ => none

end Assembler

/-- The value of a JSON text. -/
def parse (text : String) : Option Json := do
  let tokens ← tokens? text
  let assembler ← tokens.foldlM Assembler.step? Assembler.start
  assembler.finish?

end Json

end Wireform
