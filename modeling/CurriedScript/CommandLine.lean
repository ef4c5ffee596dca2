import CurriedScript.Module.Loader
import CurriedScript.Session

/-!
# The command line

Runs the program in a file or on the standard input, with its modules below the
directory of the file. The program's own values are not shown; what it prints
goes to the standard output and an error to the standard error.
-/

namespace CurriedScript.CommandLine

/-! ## Arguments -/

structure Options where
  script : Option String
  moduleRoot : Option String
  withPrelude : Bool

inductive Request where
  | version
  | run (options : Options)
  | misuse (argument : String)

def inlineRoot? (argument : String) : Option String :=
  let option := "--module-root=".toList
  if option.isPrefixOf argument.toList then some (String.ofList (argument.toList.drop option.length))
  else none

/-- Reads arguments from the left. Every option and the script may be given once,
and what follows `--` is a script. -/
def parseArguments (options : Options) : List String → Request
  | [] | ["--"] => .run options
  | "--" :: script :: rest =>
    if options.script.isNone ∧ rest.isEmpty then .run { options with script := some script }
    else .misuse script
  | "--module-root" :: root :: rest =>
    if options.moduleRoot.isNone then parseArguments { options with moduleRoot := some root } rest
    else .misuse "--module-root"
  | argument :: rest =>
    if argument = "--version" ∨ argument = "-V" then .version
    else if argument = "--no-prelude" ∧ options.withPrelude then
      parseArguments { options with withPrelude := false } rest
    else
      match inlineRoot? argument with
      | some root =>
        if options.moduleRoot.isNone then parseArguments { options with moduleRoot := some root } rest
        else .misuse argument
      | none =>
        if argument ≠ "-" ∧ argument.toList.head? = some '-' then .misuse argument
        else if options.script.isNone then parseArguments { options with script := some argument } rest
        else .misuse argument

def request (arguments : List String) : Request := parseArguments ⟨none, none, true⟩ arguments

def Options.file? (options : Options) : Option String := options.script.filter (· ≠ "-")

def Options.root (options : Options) : String :=
  match options.moduleRoot, options.file? with
  | some root, _ => root
  | none, some path => String.ofList (Path.directory path.toList)
  | none, none => "."

/-! ## Runs -/

structure Result where
  exit : Nat
  output : String
  errors : String

def failed (output message : String) : Result := ⟨1, output, "Error: " ++ message ++ "\n"⟩

def unreadable (what : String) (fault : FileFault) : String :=
  "cannot read " ++ what ++ "\n\nCaused by:\n    " ++ fault.message

structure Surroundings where
  read : String → Except FileFault (List UInt8)
  input : List UInt8

def Options.source (options : Options) (around : Surroundings) : Except String (String × List UInt8) :=
  match options.file? with
  | some path =>
    match (around.read path).bind textOf with
    | .ok text => .ok (text, around.input)
    | .error fault => .error (unreadable path fault)
  | none =>
    match textOf around.input with
    | .ok text => .ok (text, [])
    | .error fault => .error (unreadable "program from stdin" fault)

def Options.host (options : Options) (around : Surroundings) : Host :=
  .ofLoader (Loader.ofFiles around.read options.root)

def Options.run (options : Options) (fuel : Nat) (around : Surroundings) : Result :=
  match options.source around with
  | .error message => failed "" message
  | .ok (source, input) =>
    let host := options.host around
    let program : SessionRun Value := do
      if options.withPrelude then
        let _ ← Session.loadPrelude host fuel
      Session.runSource host fuel source
    match program.run (Session.start input) with
    | .ok _ session => ⟨0, session.world.output, ""⟩
    | .error (.failure e) session => failed session.world.output e.message
    | .error .outOfFuel session => failed session.world.output "out of fuel"

def run (fuel : Nat) (around : Surroundings) (arguments : List String) : Result :=
  match request arguments with
  | .version => ⟨0, "modl 0.1.0\n", ""⟩
  | .misuse argument => ⟨2, "", "error: unexpected argument '" ++ argument ++ "'\n"⟩
  | .run options => options.run fuel around

end CurriedScript.CommandLine
