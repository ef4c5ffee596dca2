/-!
# Module paths

A module is named by a path below a directory. A path whose last name has no
extension is given one; a path from the root of the file system replaces the
directory.
-/

namespace CurriedScript.Path

/-- Takes separators, and dots that stand alone, from the end of a reversed path. -/
def dropEnd : List Char → List Char
  | '/' :: rest => dropEnd rest
  | '.' :: '/' :: rest => dropEnd rest
  | ['.'] => []
  | path => path

def upToName (path : List Char) : List Char := (dropEnd path.reverse).reverse

def lastName (path : List Char) : List Char :=
  ((upToName path).reverse.takeWhile (· ≠ '/')).reverse

def directory (path : List Char) : List Char :=
  ((upToName path).reverse.dropWhile (· ≠ '/')).reverse

def hasExtension (name : List Char) : Bool :=
  (name.reverse.dropWhile (· ≠ '.')).length > 1

/-- Gives the last name an extension if it can have one and has none. -/
def withExtension (extension path : List Char) : List Char :=
  let name := lastName path
  if name.isEmpty || name = ['.', '.'] || hasExtension name then path
  else upToName path ++ '.' :: extension

def join (directory path : List Char) : List Char :=
  if path.head? = some '/' then path
  else if directory.isEmpty || directory.getLast? = some '/' then directory ++ path
  else directory ++ '/' :: path

def sourceExtension : List Char := ['m', 'o', 'd', 'l']

def resolve (root module : String) : String :=
  String.ofList (join root.toList (withExtension sourceExtension module.toList))

end CurriedScript.Path
