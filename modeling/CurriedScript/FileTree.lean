import CurriedScript.Text.Split

/-!
# File trees

Files and directories below a working directory, and what opening a path in it
gives. Nothing outside the tree has a name.
-/

namespace CurriedScript

inductive FileFault where
  | notFound
  | notDirectory
  | isDirectory
  | nameTooLong
  | nulInPath
  | denied
  | notText
  | other (reason : String)
  deriving DecidableEq

def FileFault.message : FileFault → String
  | .notFound => "No such file or directory (os error 2)"
  | .notDirectory => "Not a directory (os error 20)"
  | .isDirectory => "Is a directory (os error 21)"
  | .nameTooLong => "File name too long (os error 36)"
  | .nulInPath => "file name contained an unexpected NUL byte"
  | .denied => "Permission denied (os error 13)"
  | .notText => "stream did not contain valid UTF-8"
  | .other reason => reason

inductive FileTree where
  | file (bytes : List UInt8)
  | directory (entries : List (String × FileTree))

namespace FileTree

def empty : FileTree := .directory []

def names (path : String) : List String :=
  (Text.split '/' path.toList).map String.ofList

def entries : FileTree → List (String × FileTree)
  | .directory entries => entries
  | .file _ => []

def child? (tree : FileTree) (name : String) : Option FileTree :=
  (tree.entries.find? (·.1 = name)).map (·.2)

def insert (tree : FileTree) (path : List String) (new : FileTree) : FileTree :=
  match path with
  | [] => new
  | name :: rest =>
    let below := ((tree.child? name).getD empty).insert rest new
    .directory ((name, below) :: tree.entries.filter (·.1 ≠ name))

def place (tree : FileTree) (path : String) (new : FileTree) : FileTree :=
  tree.insert ((names path).filter fun name => name ≠ "" ∧ name ≠ ".") new

/-- The directories from the working directory down to where a path has led,
the innermost first; none if it has led outside. -/
abbrev Trail := List FileTree

def step (trail : Trail) (name : String) : Except FileFault Trail :=
  match trail with
  | .file _ :: _ => .error .notDirectory
  | here =>
    if name = "" ∨ name = "." then .ok here
    else if name = ".." then .ok here.tail
    else if 255 < name.utf8ByteSize then .error .nameTooLong
    else
      match here with
      | [] => .error .notFound
      | tree :: _ =>
        match tree.child? name with
        | some below => .ok (below :: here)
        | none => .error .notFound

def walk : Trail → List String → Except FileFault Trail
  | trail, [] => .ok trail
  | trail, name :: rest => do walk (← step trail name) rest

def longestPath : Nat := 4095

/-- The bytes of the file at a path. A path that is too long is not looked up at all. -/
def read (tree : FileTree) (path : String) : Except FileFault (List UInt8) := do
  if path.toList.contains '\x00' then throw .nulInPath
  if path = "" then throw .notFound
  if longestPath < path.utf8ByteSize then throw .nameTooLong
  let start := if path.toList.head? = some '/' then [] else [tree]
  match ← walk start (names path) with
  | .file bytes :: _ => return bytes
  | _ => throw .isDirectory

end FileTree

def textOf (bytes : List UInt8) : Except FileFault String :=
  match String.fromUTF8? ⟨bytes.toArray⟩ with
  | some text => .ok text
  | none => .error .notText

end CurriedScript
