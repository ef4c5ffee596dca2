import CurriedScript.CommandLine
import CurriedScript.Program.Uses

/-!
# The program

Reads the files that a run can need, runs, and writes the result. All decisions
are made in `CommandLine`.
-/

namespace CurriedScript

abbrev Files := List (String × Except FileFault (List UInt8))

/-- The system's fault. Its code may come negated. -/
def fileFault : IO.Error → FileFault
  | .noFileOrDirectory .. => .notFound
  | .inappropriateType _ 21 _ => .isDirectory
  | .inappropriateType .. => .notDirectory
  | .permissionDenied .. => .denied
  | e@(.invalidArgument _ code _) =>
    if code = 36 ∨ code + 36 = 0 then .nameTooLong else .other e.toString
  | e => .other e.toString

def readFile (path : String) : IO (Except FileFault (List UInt8)) := do
  if path.toList.contains '\x00' then return .error .nulInPath
  try
    return .ok (← IO.FS.readBinFile path).toList
  catch e =>
    return .error (fileFault e)

def usesOf (contents : Except FileFault (List UInt8)) : List String :=
  match (contents.bind textOf).toOption.bind fun source => (parseSource source).toOption with
  | some statements => statementUses statements
  | none => []

/-- Reads the modules that are named and those that they name. -/
partial def readModules (root : String) : List String → Files → IO Files
  | [], files => return files
  | name :: rest, files => do
    let path := Path.resolve root name
    if (files.lookup path).isSome then readModules root rest files
    else
      let contents ← readFile path
      readModules root (usesOf contents ++ rest) ((path, contents) :: files)

partial def readInput (stream : IO.FS.Stream) (bytes : ByteArray) : IO (List UInt8) := do
  let more ← stream.read 65536
  if more.isEmpty then return bytes.toList
  readInput stream (bytes ++ more)

def mentionRead (files : Files) : Bool :=
  files.any fun (_, contents) =>
    match contents.bind textOf with
    | .ok source => 1 < (source.splitOn "read").length
    | .error _ => false

def surroundings (options : CommandLine.Options) : IO CommandLine.Surroundings := do
  let stdin ← IO.getStdin
  let script ← options.file?.mapM fun path => return (path, ← readFile path)
  match script with
  | some script =>
    let files ← readModules options.root (usesOf script.2) [script]
    let input ← if mentionRead files then readInput stdin ByteArray.empty else pure []
    return ⟨fun path => (files.lookup path).getD (.error .notFound), input⟩
  | none =>
    let input ← readInput stdin ByteArray.empty
    let files ← readModules options.root (usesOf (.ok input)) []
    return ⟨fun path => (files.lookup path).getD (.error .notFound), input⟩

def runMain (arguments : List String) : IO UInt32 := do
  let around ←
    match CommandLine.request arguments with
    | .run options => surroundings options
    | _ => pure ⟨fun _ => .error .notFound, []⟩
  let result := CommandLine.run ampleFuel around arguments
  IO.print result.output
  IO.eprint result.errors
  return result.exit.toUInt32

end CurriedScript

def main (arguments : List String) : IO UInt32 := CurriedScript.runMain arguments
