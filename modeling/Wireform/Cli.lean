import Wireform.Output.Compilation

/-!
# The command line

Three commands on a schema file: verify it, print the identities of its
declarations, or print their descriptions. The options may stand in a file, and
flags change them.

What a command does is a function of its arguments and of the files it can read;
what it prints and writes is the result. Reading the files and printing is left to
the program.

## Main definitions

* `Cli.parse`: The invocation that arguments stand for.
* `Cli.run`: What a command prints and writes.
-/

namespace Wireform.Cli

/-- What is to be done with a schema. -/
inductive Command where
  | verify
  | resolve
  /-- Describe the declarations, on the standard output or in a file. -/
  | generate (output : Option String)
  deriving DecidableEq

/-- A command with its arguments. -/
structure Invocation where
  command : Command
  input : String
  config : Option String
  nameSpace : Option String
  scopes : List String
  verbose : Nat
  deriving DecidableEq

/-- The arguments that have been read so far. -/
structure Draft where
  command : Option String := none
  input : Option String := none
  config : Option String := none
  nameSpace : Option String := none
  scopes : List String := []
  output : Option String := none
  verbose : Nat := 0

/-- The options that take a value. -/
inductive Setting where
  | input
  | config
  | nameSpace
  | scope
  | output

/-- The option of a long name. -/
def Setting.ofLong? : String → Option Setting
  | "input" => some .input
  | "config" => some .config
  | "namespace" => some .nameSpace
  | "scope" => some .scope
  | "output" => some .output
  | _ => none

/-- The option of a letter. -/
def Setting.ofShort? : Char → Option Setting
  | 'i' => some .input
  | 'c' => some .config
  | 'n' => some .nameSpace
  | 's' => some .scope
  | 'o' => some .output
  | _ => none

/-- A value for an option that may be given once. -/
def once (old : Option String) (value : String) : Option (Option String) :=
  if old.isSome then none else some (some value)

/-- The draft with the value of an option. All but scopes may be given once, and
    only descriptions have an output. -/
def Draft.set (d : Draft) (value : String) : Setting → Option Draft
  | .input => do return { d with input := ← once d.input value }
  | .config => do return { d with config := ← once d.config value }
  | .nameSpace => do return { d with nameSpace := ← once d.nameSpace value }
  | .scope => some { d with scopes := d.scopes ++ [value] }
  | .output =>
      if d.command = some "generate" then do return { d with output := ← once d.output value }
      else none

/-- One argument. -/
inductive Argument where
  /-- Flags that ask for more messages. -/
  | verbose (count : Nat)
  /-- An option, with its value if the argument has it. -/
  | setting (setting : Setting) (value : Option String)
  | plain (text : String)
  | unknown

/-- What follows the letter of an option: nothing, a value, or a value behind an
    equals sign. -/
def attachedValue : List Char → Option String
  | [] => none
  | '=' :: rest => some (String.ofList rest)
  | rest => some (String.ofList rest)

/-- Read one argument. -/
def Argument.ofString (text : String) : Argument :=
  match text.toList with
  | '-' :: '-' :: rest =>
      let name := String.ofList (rest.takeWhile (· ≠ '='))
      let value : Option String :=
        match rest.dropWhile (· ≠ '=') with
        | [] => none
        | _ :: value => some (String.ofList value)
      if name = "verbose" ∧ value.isNone then .verbose 1
      else
        match Setting.ofLong? name with
        | some known => .setting known value
        | none => .unknown
  | '-' :: c :: rest =>
      if c = 'v' then
        if rest.all (· = 'v') then .verbose (rest.length + 1) else .unknown
      else
        match Setting.ofShort? c with
        | some known => .setting known (attachedValue rest)
        | none => .unknown
  | _ => .plain text

/-- Read arguments. The first plain one is the command, which stands before all
    options but the flags. An option takes the next argument as its value, unless
    that looks like an option. -/
def readArguments (d : Draft) : List String → Option Draft
  | [] => some d
  | arg :: rest =>
      match Argument.ofString arg with
      | .verbose count => readArguments { d with verbose := d.verbose + count } rest
      | .plain text =>
          if d.command.isSome then none else readArguments { d with command := some text } rest
      | .setting setting value =>
          -- before the command there are flags only
          if d.command.isNone then none
          else
            match value, rest with
            | some value, rest => do readArguments (← d.set value setting) rest
            | none, value :: rest =>
                match Argument.ofString value with
                | .plain value => do readArguments (← d.set value setting) rest
                | _ => none
            | none, [] => none
      | .unknown => none

/-- The command of a name. -/
def Command.ofName? (output : Option String) : String → Option Command
  | "verify" => some .verify
  | "resolve" => some .resolve
  | "generate" => some (.generate output)
  | _ => none

/-- The invocation that arguments stand for. -/
def parse (args : List String) : Option Invocation := do
  let d ← readArguments {} args
  let name ← d.command
  let command ← Command.ofName? d.output name
  let input ← d.input
  return { command, input, config := d.config, nameSpace := d.nameSpace, scopes := d.scopes
           verbose := d.verbose }

/-- What a command leaves behind. -/
structure Result where
  exit : Nat
  stdout : String := ""
  stderr : String := ""
  /-- A file to be written, with its path. -/
  written : Option (String × String) := none

/-- The error in the form in which a failed command reports it. -/
def errorText : CompileError → String
  | .inaccessible => "Io"
  | .unreadable => "Json"
  | .violation v => s!"Verifier({Text.quoted v.message})"
  | .unresolved name owner =>
      "UnresolvedType \x7b name: " ++ Text.quoted name ++ ", from: " ++ Text.quoted owner
        ++ " \x7d"
  | .invalid name defect =>
      "InvalidDeclaration \x7b name: " ++ Text.quoted name ++ ", msg: "
        ++ Text.quoted defect.message ++ " \x7d"

/-- The text of a file. -/
def load (files : String → Option String) (path : String) : Compiled String :=
  match files path with
  | some text => .ok text
  | none => Checked.refuse .inaccessible

/-- The options of an invocation: those of the file, changed by the flags. -/
def Invocation.options (i : Invocation) (files : String → Option String) : Compiled Options := do
  let options ←
    match i.config with
    | some path => load files path >>= Options.parse
    | none => .ok {}
  let options :=
    match i.nameSpace with
    | some nameSpace => options.withNamespace nameSpace
    | none => options
  return i.scopes.foldl Options.withScope options

/-- What an invocation prints and writes if nothing fails. -/
def Invocation.perform (i : Invocation) (files : String → Option String) :
    Compiled (String × Option (String × String)) :=
  match i.command with
  | .verify => do
      let spec ← load files i.input >>= Specification.parse
      verified spec
      return (s!"Verified {i.input}\n", none)
  | .resolve => do
      let options ← i.options files
      let text ← load files i.input
      return ((← identitiesText text options) ++ "\n", none)
  | .generate output => do
      let options ← i.options files
      let spec ← load files i.input >>= Specification.parse
      let compilation ← compile spec options
      match output with
      | some path =>
          return (s!"Descriptions written to {path}\n", some (path, compilation.text))
      | none => return (compilation.text ++ "\n", none)

/-- The message that announces the work, if messages are asked for. -/
def Invocation.log (i : Invocation) : String :=
  if i.verbose = 0 then ""
  else
    match i.command with
    | .verify => s!"DEBUG loading specification path={i.input}\n"
    | _ => "DEBUG configuration\n"

/-- What is printed if the arguments make no sense. -/
def usage : String :=
  "Usage: wireform [-v]... <verify|resolve|generate> --input <INPUT> [--config <CONFIG>] "
    ++ "[--namespace <NAMESPACE>] [--scope <SCOPE>]... [--output <OUTPUT>]\n"

/-- Run a command, given the texts of the files it can read. -/
def run (args : List String) (files : String → Option String) : Result :=
  match parse args with
  | none => { exit := 2, stderr := usage }
  | some i =>
      match i.perform files with
      | .ok (stdout, written) => { exit := 0, stdout, stderr := i.log, written }
      | .error (.refused e) => { exit := 1, stderr := i.log ++ s!"Error: {errorText e}\n" }
      | .error .stopped => { exit := 101, stderr := i.log ++ "a size is out of range\n" }

end Wireform.Cli
