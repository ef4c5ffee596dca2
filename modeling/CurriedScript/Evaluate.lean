import CurriedScript.Builtin.Run
import CurriedScript.Program.Parser

/-!
# Evaluation

Functions are curried: too few arguments make a function that waits for the
rest, and arguments left over go to what the body returns. A call in tail
position is handed back as an outcome and made by the caller's caller, so a
chain of tail calls runs at one depth. Fuel bounds how deep a run nests and how
long such chains are; more of it changes only runs that it stopped.
-/

namespace CurriedScript

/-- What a tail position gives: a value, or a call that is still to be made. -/
inductive Outcome where
  | value (value : Value)
  | call (callee : Value) (arguments : List Value)

def lookup (environment : Environment) (name : String) : Run Value :=
  match environment.get? name with
  | some value => return value
  | none => fail (.unbound name)

def builtinNamed (host : Host) (name : String) : Run Value :=
  match Builtin.find? host.builtins name with
  | some builtin => return .builtin builtin
  | none => fail (.unknownBuiltin name)

def loadSource (host : Host) (name : String) : Run String :=
  match host.loader name with
  | .ok source => return source
  | .error e => fail e

/-- The statements of a module. Its lexical and syntax errors are the module's fault. -/
def loadModule (host : Host) (name : String) : Run (List Statement) := do
  match parseSource (← loadSource host name) with
  | .ok statements => return statements
  | .error e => fail (.moduleLoad name e.message)

/-! ## Lists

Each of these runs an evaluator along a list, in order. -/

def evaluateEach (evaluate : Expr → Run Value) : List Expr → Run (List Value)
  | [] => return []
  | expr :: rest => do
    let value ← evaluate expr
    let values ← evaluateEach evaluate rest
    return value :: values

def firstCase (evaluate : Expr → Run Value) : List Case → Run (List Statement)
  | [] => fail .noMatch
  | case :: rest => do
    match ← evaluate case.condition with
    | .boolean true => return case.body
    | .boolean false => firstCase evaluate rest
    | value => fail (.type (.conditionNotBoolean value.kind value.display))

/-- Each value sees the bindings before it. -/
def bindEach (evaluate : Environment → Expr → Run Value) :
    Environment → List Binding → Run Environment
  | environment, [] => return environment
  | environment, binding :: rest => do
    let value ← evaluate environment binding.value
    bindEach evaluate (environment.bind binding.name value) rest

/-- Each statement runs in the environment that the one before it leaves. The
result is the last value, `value` if there is none, and the last environment. -/
def executeEach (execute : Environment → Statement → Run (Value × Environment)) :
    Value → Environment → List Statement → Run (Value × Environment)
  | value, environment, [] => return (value, environment)
  | _, environment, statement :: rest => do
    let (value, environment) ← execute environment statement
    executeEach execute value environment rest

/-- What the evaluator does for a function of the host. Statements run for the last value. -/
def Request.answer (apply : Value → List Value → Run Value)
    (execute : Environment → Statement → Run (Value × Environment)) : Request Value → Run Value
  | .call callee arguments => apply callee arguments
  | .run names values statements => do
    let (value, _) ← executeEach execute .nothing (.root (names.zip values)) statements
    return value

/-! ## The evaluator -/

mutual
/-- Calls a value and makes the tail calls that follow. -/
def apply (host : Host) : Nat → Value → List Value → Run Value
  | 0, _, _ => outOfFuel
  | fuel + 1, .closure parameters body environment, arguments => do
    let scope := environment.extend (parameters.zip arguments)
    if arguments.length < parameters.length then
      return .closure (parameters.drop arguments.length) body scope
    countCall host
    match ← runBody host fuel scope body, arguments.drop parameters.length with
    | .value value, [] => return value
    | .call callee arguments, [] => apply host fuel callee arguments
    | .value value, leftover => apply host fuel value leftover
    | .call callee arguments, leftover =>
      let value ← apply host fuel callee arguments
      apply host fuel value leftover
  | fuel + 1, .builtin builtin, arguments =>
    builtin.run host (Request.answer (apply host fuel) (execute host fuel)) fuel arguments
  | _ + 1, callee, _ => fail (.notCallable callee.display)

def evaluate (host : Host) : Nat → Environment → Expr → Run Value
  | 0, _, _ => outOfFuel
  | fuel + 1, environment, expr => do
    match ← evaluateTail host fuel environment expr.form with
    | .value value => return value
    | .call callee arguments => apply host fuel callee arguments

/-- Evaluates up to the last call, which is left to be made. -/
def evaluateTail (host : Host) : Nat → Environment → Form → Run Outcome
  | 0, _, _ => outOfFuel
  | _ + 1, _, .literal literal => return .value (.ofLiteral literal)
  | _ + 1, environment, .name name => return .value (← lookup environment name)
  | _ + 1, environment, .function parameters body =>
    return .value (.closure parameters body environment)
  | _ + 1, _, .builtin name => return .value (← builtinNamed host name)
  | fuel + 1, environment, .chain left operator right => do
    let left ← evaluate host fuel environment left
    let callee ← lookup environment operator
    let right ← evaluate host fuel environment right
    return .call callee [left, right]
  | _ + 1, _, .application [] => fail (.type .emptyApplication)
  | fuel + 1, environment, .application (head :: rest) => do
    let callee ← evaluate host fuel environment head
    let arguments ← evaluateEach (evaluate host fuel environment) rest
    return .call callee arguments
  | fuel + 1, environment, .conditional cases => do
    let body ← firstCase (evaluate host fuel environment) cases
    runBody host fuel environment body

def runBody (host : Host) : Nat → Environment → List Statement → Run Outcome
  | 0, _, _ => outOfFuel
  | _ + 1, _, [] => return .value .nothing
  | fuel + 1, environment, [last] =>
    match last with
    | .expr expr => evaluateTail host fuel environment expr.form
    | last => do
      let (value, _) ← execute host fuel environment last
      return .value value
  | fuel + 1, environment, statement :: rest => do
    let (_, environment) ← execute host fuel environment statement
    runBody host fuel environment rest

/-- Runs a statement: its value, and the environment of the statements after it. -/
def execute (host : Host) : Nat → Environment → Statement → Run (Value × Environment)
  | 0, _, _ => outOfFuel
  | fuel + 1, environment, .use module => do
    let statements ← loadModule host module
    let (_, environment) ← executeEach (execute host fuel) .nothing environment statements
    return (.nothing, environment)
  | fuel + 1, environment, .bind bindings => do
    let environment ← bindEach (evaluate host fuel) environment.frame bindings
    return (.nothing, environment)
  | fuel + 1, environment, .expr expr => do
    let value ← evaluate host fuel environment expr
    return (value, environment)
end

/-- Fuel for runs that end only when the program does. -/
def ampleFuel : Nat := Nat.pow 2 62

end CurriedScript
