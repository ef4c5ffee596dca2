/-!
# Builtins

What a program can name in `{#name}` literals: primitives, and functions that its
host supplies. Which of them a program may use is up to the table it runs with.
-/

namespace CurriedScript

inductive Primitive where
  | print
  | read
  | add
  | sub
  | eq
  | gt
  | choose
  deriving DecidableEq

def Primitive.name : Primitive → String
  | .print => "print"
  | .read => "read"
  | .add => "add"
  | .sub => "sub"
  | .eq => "eq"
  | .gt => "gt"
  | .choose => "if"

inductive BuiltinFunction where
  | primitive (primitive : Primitive)
  /-- The function that the host has in this place. -/
  | supplied (index : Nat)
  deriving DecidableEq

/-- An entry of a table. The name is for programs and may be another than that of the
primitive behind it. -/
structure Builtin where
  name : String
  function : BuiltinFunction
  deriving DecidableEq

def Primitive.builtin (primitive : Primitive) : Builtin := ⟨primitive.name, .primitive primitive⟩

namespace Builtin

def all : List Builtin :=
  [Primitive.print, .read, .add, .sub, .eq, .gt, .choose].map Primitive.builtin

/-- The first entry of a name counts. -/
def find? (table : List Builtin) (name : String) : Option Builtin :=
  table.find? (·.name = name)

end Builtin

end CurriedScript
