/-!
# Kinds of values

What a program can ask a value to be, with the names that messages use.
-/

namespace CurriedScript

inductive ValueKind where
  | string
  | integer
  | float
  | boolean
  | bang
  | nothing
  | function
  | builtin
  deriving DecidableEq

def ValueKind.name : ValueKind → String
  | .string => "string"
  | .integer => "integer"
  | .float => "float"
  | .boolean => "boolean"
  | .bang => "bang"
  | .nothing => "nothing"
  | .function => "function"
  | .builtin => "builtin"

end CurriedScript
