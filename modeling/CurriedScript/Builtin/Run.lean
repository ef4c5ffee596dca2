import CurriedScript.Host

/-!
# Running builtins

Builtins take all their arguments at once. Arithmetic and order work on numbers,
where a whole number beside a float becomes a float, and strings can be joined
and compared. A function of the host makes one move after another until it answers
or fails.
-/

namespace CurriedScript

namespace Primitive

def floatOf (n : Int) : Except Error Binary64 :=
  match Binary64.ofInt n with
  | .finite negative units h => .ok (.finite negative units h)
  | _ => .error (.type (.notAFloat n))

def wrongArity {α : Type} (primitive : Primitive) (expected found : Nat) : Except Error α :=
  .error (.arity primitive.name expected found)

def undefinedOn {α : Type} (primitive : Primitive) (a b : Value) : Except Error α :=
  .error (.type (.undefinedOn primitive.name a.kind b.kind))

/-- Applies the operation of the kind that both numbers have or can take. -/
def arithmetic (primitive : Primitive) (onIntegers : Int → Int → Int)
    (onFloats : Binary64 → Binary64 → Binary64) : List Value → Except Error Value
  | [.integer a, .integer b] => return .integer (onIntegers a b)
  | [.float a, .float b] => return .float (onFloats a b)
  | [.integer a, .float b] => return .float (onFloats (← floatOf a) b)
  | [.float a, .integer b] => return .float (onFloats a (← floatOf b))
  | [a, b] => undefinedOn primitive a b
  | arguments => wrongArity primitive 2 arguments.length

def addValues : List Value → Except Error Value
  | [.string a, .string b] => return .string (a ++ b)
  | arguments => arithmetic .add (· + ·) Binary64.add arguments

def subValues (arguments : List Value) : Except Error Value :=
  arithmetic .sub (· - ·) Binary64.sub arguments

def eqValues : List Value → Except Error Value
  | [a, b] => return .boolean (a.equals b)
  | arguments => wrongArity .eq 2 arguments.length

/-- Whether the first of two values is greater. Strings are ordered by their code points. -/
def gtValues : List Value → Except Error Value
  | [.integer a, .integer b] => return .boolean (b < a)
  | [.float a, .float b] => return .boolean (b.lt a)
  | [.integer a, .float b] => return .boolean (b.lt (← floatOf a))
  | [.float a, .integer b] => return .boolean ((← floatOf b).lt a)
  | [.string a, .string b] => return .boolean (b < a)
  | [a, b] => undefinedOn .gt a b
  | arguments => wrongArity .gt 2 arguments.length

def chooseValue : List Value → Except Error Value
  | [.boolean condition, yes, no] => return if condition then yes else no
  | [condition, _, _] => .error (.type (.choiceNotBoolean condition.kind))
  | arguments => wrongArity .choose 3 arguments.length

def pureRun (result : Except Error Value) : Run Value :=
  match result with
  | .ok value => return value
  | .error e => fail e

/-- `read` takes any arguments; they only make it a call. -/
def run (host : Host) : Primitive → List Value → Run Value
  | .print, [value] => do
    printLine host value.display
    return .nothing
  | .print, arguments => pureRun (wrongArity .print 1 arguments.length)
  | .read, _ => return .string (← readLine)
  | .add, arguments => pureRun (addValues arguments)
  | .sub, arguments => pureRun (subValues arguments)
  | .eq, arguments => pureRun (eqValues arguments)
  | .gt, arguments => pureRun (gtValues arguments)
  | .choose, arguments => pureRun (chooseValue arguments)

end Primitive

namespace HostFunction

variable (f : HostFunction) (host : Host) (ask : Request Value → Run Value)

def step (goOn : List Value → List Seen → Run Value) (held : List Value) (seen : List Seen) : Run Value :=
  match f.next host.toSettings seen with
  | .answer operand => return operand.value held
  | .fail e => CurriedScript.fail e
  | .write text => do
    write host text
    goOn held (seen ++ [.written])
  | .take count => do
    let bytes ← takeInput count
    goOn held (seen ++ [.input bytes])
  | .ask request => do
    let value ← ask (request.map (·.value held))
    goOn (held ++ [value]) (seen ++ [.value value.shown])
  | .attempt request => do
    match ← attempt (ask (request.map (·.value held))) with
    | .ok value => goOn (held ++ [value]) (seen ++ [.value value.shown])
    | .error e => goOn held (seen ++ [.failed e])

def moves : Nat → List Value → List Seen → Run Value
  | 0 => fun _ _ => outOfFuel
  | fuel + 1 => f.step host ask (moves fuel)

def run (fuel : Nat) (arguments : List Value) : Run Value :=
  f.moves host ask fuel arguments (arguments.map (.argument ·.shown))

end HostFunction

/-- Calls a builtin. A function of the host turns to the evaluator with `ask`. -/
def Builtin.run (host : Host) (ask : Request Value → Run Value) (fuel : Nat) (builtin : Builtin)
    (arguments : List Value) : Run Value :=
  match builtin.function with
  | .primitive primitive => primitive.run host arguments
  | .supplied index =>
    match host.functions[index]? with
    | some f => f.run host ask fuel arguments
    | none => fail (.unknownBuiltin builtin.name)

section
variable (host : Host) (ask : Request Value → Run Value) (fuel : Nat) (name : String) (arguments : List Value)

theorem Builtin.run_supplied {index : Nat} {f : HostFunction} (h : host.functions[index]? = some f) :
    Builtin.run host ask fuel ⟨name, .supplied index⟩ arguments = f.run host ask fuel arguments := by
  simp only [Builtin.run, h]

theorem Builtin.run_missing {index : Nat} (h : host.functions[index]? = none) :
    Builtin.run host ask fuel ⟨name, .supplied index⟩ arguments = fail (.unknownBuiltin name) := by
  simp only [Builtin.run, h]

end

end CurriedScript
