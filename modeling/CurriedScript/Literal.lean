import CurriedScript.Binary64.Shortest
import CurriedScript.Text.Quoted

/-!
# Literals

The values that can be written down directly: strings, whole numbers of any
length and binary64 numbers.
-/

namespace CurriedScript

inductive Literal where
  | string (text : String)
  | integer (n : Int)
  | float (x : Binary64)
  deriving DecidableEq

def Literal.display : Literal → String
  | .string text => Text.quoted text
  | .integer n => n.repr
  | .float x => x.text

end CurriedScript
