/-!
# The prelude

The module `std`, which binds the operators and the functions that read and
print to builtins.
-/

namespace CurriedScript

def prelude : String :=
  "let + <- \x7b#add\x7d, - <- \x7b#sub\x7d, = <- \x7b#eq\x7d, > <- \x7b#gt\x7d, if <- \x7b#if\x7d;\n" ++
  "let print! <- \x7b ! x | \x7b#print\x7d x; \x7d, read! <- \x7b#read\x7d;\n"

def preludeName : String := "std"

end CurriedScript
