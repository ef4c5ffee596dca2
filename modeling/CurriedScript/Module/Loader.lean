import CurriedScript.FileTree
import CurriedScript.Host
import CurriedScript.Module.Path
import CurriedScript.Module.Prelude

/-!
# Loaders

Modules come from a list of sources or from files below a directory. The prelude
is always there; only a listed source can take its place.
-/

namespace CurriedScript.Loader

def ofSources (sources : List (String × String)) : Loader := fun name =>
  match sources.find? (·.1 = name) with
  | some (_, source) => .ok source
  | none => if name = preludeName then .ok prelude else .error (.moduleLoad name "no such module")

/-- Modules below `root`, where `read` gives the bytes of a file. -/
def ofFiles (read : String → Except FileFault (List UInt8)) (root : String) : Loader := fun name =>
  if name = preludeName then .ok prelude
  else ((read (Path.resolve root name)).bind textOf).mapError fun fault => .moduleLoad name fault.message

end CurriedScript.Loader
