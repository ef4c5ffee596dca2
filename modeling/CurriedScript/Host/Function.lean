import CurriedScript.Error
import CurriedScript.Value

/-!
# Functions of hosts

A host may have functions of its own in its table of builtins. Such a function knows
the settings of its host, which it cannot change, and what it has seen so far: its
arguments, the input, and what came of its requests to the evaluator. Of a closure it
sees how many arguments that waits for. It can hold closures and hand them on.
-/

namespace CurriedScript

/-- The source of a module, or the error that a program gets in its place. -/
abbrev Loader := String → Except Error String

structure Settings where
  builtins : List Builtin
  loader : Loader
  /-- The most calls of functions one statement may make. -/
  callLimit : Option Nat
  /-- Why nothing can be printed, if nothing can. -/
  outputFault : Option String

/-! ## Values in sight -/

/-- A value with nothing in it that is out of sight. -/
inductive Atom where
  | literal (data : Literal)
  | boolean (b : Bool)
  | bang
  | nothing
  | builtin (entry : Builtin)

def Atom.value : Atom → Value
  | .literal data => .ofLiteral data
  | .boolean b => .boolean b
  | .bang => .bang
  | .nothing => .nothing
  | .builtin entry => .builtin entry

inductive Shown where
  | atom (atom : Atom)
  | function (awaited : Nat)

def Value.shown : Value → Shown
  | .string text => .atom (.literal (.string text))
  | .integer n => .atom (.literal (.integer n))
  | .float x => .atom (.literal (.float x))
  | .boolean b => .atom (.boolean b)
  | .bang => .atom .bang
  | .nothing => .atom .nothing
  | .closure parameters _ _ => .function parameters.length
  | .builtin entry => .atom (.builtin entry)

/-- A value that a function makes, or one of those it holds: its arguments and then the
answers to its requests, in order. -/
inductive Operand where
  | made (atom : Atom)
  | held (index : Nat)

def Operand.value (held : List Value) : Operand → Value
  | .made atom => atom.value
  | .held index => held[index]?.getD .nothing

/-! ## Moves -/

/-- What the evaluator can be asked for: to call a value, or to run statements with
names for some values and no others. -/
inductive Request (α : Type) where
  | call (callee : α) (arguments : List α)
  | run (names : List String) (values : List α) (statements : List Statement)

def Request.map {α β : Type} (f : α → β) : Request α → Request β
  | .call callee arguments => .call (f callee) (arguments.map f)
  | .run names values statements => .run names (values.map f) statements

inductive Seen where
  | argument (shown : Shown)
  | written
  | input (bytes : List UInt8)
  | value (shown : Shown)
  | failed (e : Error)

inductive Move where
  | answer (operand : Operand)
  | fail (e : Error)
  | write (text : String)
  /-- Sees the input that is left and takes this many bytes of it. -/
  | take (count : Nat)
  /-- Fails if the request does. -/
  | ask (request : Request Operand)
  /-- Goes on if the request fails, with its error. -/
  | attempt (request : Request Operand)

structure HostFunction where
  next : Settings → List Seen → Move

end CurriedScript
