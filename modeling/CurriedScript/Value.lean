import CurriedScript.Builtin
import CurriedScript.Program
import CurriedScript.Value.Kind

/-!
# Values and environments

A closure holds the parameters it still waits for, its body, and the
environment it was made in. An environment is a chain of bindings, the newest
first, with a mark where each frame begins; it is extended and never changed.
-/

namespace CurriedScript

mutual
inductive Value where
  | string (text : String)
  | integer (n : Int)
  | float (x : Binary64)
  | boolean (b : Bool)
  | bang
  | nothing
  | closure (parameters : List String) (body : List Statement) (environment : Environment)
  | builtin (entry : Builtin)

inductive Environment where
  | empty
  | frame (outer : Environment)
  | bind (name : String) (value : Value) (outer : Environment)
end

namespace Environment

def get? : Environment → String → Option Value
  | .empty, _ => none
  | .frame outer, name => outer.get? name
  | .bind other value outer, name => if other = name then some value else outer.get? name

def depth : Environment → Nat
  | .empty => 0
  | .frame outer => outer.depth + 1
  | .bind _ _ outer => outer.depth

def bindAll : Environment → List (String × Value) → Environment
  | environment, [] => environment
  | environment, (name, value) :: rest => (environment.bind name value).bindAll rest

/-- A new frame with bindings, of which later ones hide earlier ones. -/
def extend (environment : Environment) (bindings : List (String × Value)) : Environment :=
  environment.frame.bindAll bindings

def root (bindings : List (String × Value)) : Environment := empty.extend bindings

def global : Environment :=
  root [("!", .bang), ("true", .boolean true), ("false", .boolean false), ("otherwise", .boolean true)]

def display (environment : Environment) : String :=
  "Environment(depth " ++ environment.depth.repr ++ ")"

end Environment

namespace Value

def ofLiteral : Literal → Value
  | .string text => .string text
  | .integer n => .integer n
  | .float x => .float x

def kind : Value → ValueKind
  | .string _ => .string
  | .integer _ => .integer
  | .float _ => .float
  | .boolean _ => .boolean
  | .bang => .bang
  | .nothing => .nothing
  | .closure .. => .function
  | .builtin _ => .builtin

/-- What printing a value writes. A function shows how many arguments it waits for. -/
def display : Value → String
  | .string text => text
  | .integer n => n.repr
  | .float x => x.text
  | .boolean true => "true"
  | .boolean false => "false"
  | .bang => "!"
  | .nothing => "nothing"
  | .closure parameters _ _ => "<function/" ++ parameters.length.repr ++ ">"
  | .builtin entry => "<builtin " ++ entry.name ++ ">"

def debug : Value → String
  | .string text => Text.quoted text
  | value => value.display

/-- Equality of data. Numbers are compared exactly across their kinds, and
functions and builtins equal nothing. -/
def equals : Value → Value → Bool
  | .string a, .string b => a = b
  | .integer a, .integer b => a = b
  | .float a, .float b => a.equals b
  | .integer a, .float b => b.equalsInt a
  | .float a, .integer b => a.equalsInt b
  | .boolean a, .boolean b => a = b
  | .bang, .bang => true
  | .nothing, .nothing => true
  | _, _ => false

end Value

end CurriedScript
