import CurriedScript.Evaluate.Fuel

/-!
# Evaluation in direct style

The reference for the evaluator: no call is ever handed back, each is made where
it stands. Bodies give values, and what arguments are left over go to the value
of the body. The order of evaluation is the same.
-/

namespace CurriedScript.Direct

mutual
def apply (host : Host) : Nat → Value → List Value → Run Value
  | 0, _, _ => outOfFuel
  | fuel + 1, .closure parameters body environment, arguments => do
    let scope := environment.extend (parameters.zip arguments)
    if arguments.length < parameters.length then
      return .closure (parameters.drop arguments.length) body scope
    countCall host
    let value ← runBody host fuel scope body
    match arguments.drop parameters.length with
    | [] => return value
    | leftover => apply host fuel value leftover
  | fuel + 1, .builtin builtin, arguments =>
    builtin.run host (Request.answer (apply host fuel) (execute host fuel)) fuel arguments
  | _ + 1, callee, _ => fail (.notCallable callee.display)

def evaluate (host : Host) : Nat → Environment → Expr → Run Value
  | 0, _, _ => outOfFuel
  | _ + 1, _, ⟨.literal literal, _⟩ => return .ofLiteral literal
  | _ + 1, environment, ⟨.name name, _⟩ => lookup environment name
  | _ + 1, environment, ⟨.function parameters body, _⟩ => return .closure parameters body environment
  | _ + 1, _, ⟨.builtin name, _⟩ => builtinNamed host name
  | fuel + 1, environment, ⟨.chain left operator right, _⟩ => do
    let left ← evaluate host fuel environment left
    let callee ← lookup environment operator
    let right ← evaluate host fuel environment right
    apply host fuel callee [left, right]
  | _ + 1, _, ⟨.application [], _⟩ => fail (.type .emptyApplication)
  | fuel + 1, environment, ⟨.application (head :: rest), _⟩ => do
    let callee ← evaluate host fuel environment head
    let arguments ← evaluateEach (evaluate host fuel environment) rest
    apply host fuel callee arguments
  | fuel + 1, environment, ⟨.conditional cases, _⟩ => do
    let body ← firstCase (evaluate host fuel environment) cases
    runBody host fuel environment body

def runBody (host : Host) : Nat → Environment → List Statement → Run Value
  | 0, _, _ => outOfFuel
  | _ + 1, _, [] => return .nothing
  | fuel + 1, environment, [last] => do
    let (value, _) ← execute host fuel environment last
    return value
  | fuel + 1, environment, statement :: rest => do
    let (_, environment) ← execute host fuel environment statement
    runBody host fuel environment rest

def execute (host : Host) : Nat → Environment → Statement → Run (Value × Environment)
  | 0, _, _ => outOfFuel
  | fuel + 1, environment, .use module => do
    let statements ← loadModule host module
    let (_, environment) ← executeEach (execute host fuel) .nothing environment statements
    return (.nothing, environment)
  | fuel + 1, environment, .bind bindings => do
    let environment ← bindEach (evaluate host fuel) environment.frame bindings
    return (.nothing, environment)
  | fuel + 1, environment, .expr expr => do
    let value ← evaluate host fuel environment expr
    return (value, environment)
end

open Run

theorem runBody_expr (host : Host) (n : Nat) (env : Environment) (expr : Expr) :
    runBody host (n + 2) env [.expr expr] = evaluate host n env expr := by
  simp only [runBody, execute, bind_assoc, pure_bind, bind_pure]

theorem succ_fuel_le (host : Host) (fuel : Nat) :
    (∀ callee arguments, Le (apply host fuel callee arguments) (apply host (fuel + 1) callee arguments)) ∧
    (∀ env expr, Le (evaluate host fuel env expr) (evaluate host (fuel + 1) env expr)) ∧
    (∀ env body, Le (runBody host fuel env body) (runBody host (fuel + 1) env body)) ∧
    (∀ env s, Le (execute host fuel env s) (execute host (fuel + 1) env s)) := by
  induction fuel with
  | zero =>
    exact ⟨fun _ _ => outOfFuel_le _, fun _ _ => outOfFuel_le _, fun _ _ => outOfFuel_le _,
      fun _ _ => outOfFuel_le _⟩
  | succ fuel ih =>
    obtain ⟨happly, hevaluate, hbody, hexecute⟩ := ih
    refine ⟨fun callee arguments => ?_, fun env expr => ?_, fun env body => ?_, fun env s => ?_⟩
    · cases callee with
      | closure parameters body env =>
        rw [apply, apply]
        split
        · exact .refl _
        refine (Le.refl _).bind fun _ => (hbody _ _).bind fun _ => ?_
        split
        · exact .refl _
        · exact happly _ _
      | builtin entry =>
        exact entry.run_le host (Request.answer_congr Le.congruence.sequencing happly hexecute)
          (Nat.le_succ fuel) arguments
      | _ => exact .refl _
    · obtain ⟨form, signature⟩ := expr
      cases form with
      | chain left operator right =>
        exact (hevaluate _ _).bind fun _ => (Le.refl _).bind fun _ => (hevaluate _ _).bind fun _ => happly _ _
      | application elements =>
        cases elements with
        | nil => exact .refl _
        | cons head rest =>
          exact (hevaluate _ _).bind fun _ => (evaluateEach_congr Le.congruence.sequencing (hevaluate _) _).bind
            fun _ => happly _ _
      | conditional cases =>
        exact (firstCase_congr Le.congruence.sequencing (hevaluate _) _).bind fun _ => hbody _ _
      | _ => exact .refl _
    · match body with
      | [] => exact .refl _
      | [_] => exact (hexecute _ _).bind fun _ => .refl _
      | _ :: _ :: _ => exact (hexecute _ _).bind fun _ => hbody _ _
    · cases s with
      | use name =>
        exact (Le.refl _).bind fun _ => (executeEach_congr Le.congruence.sequencing hexecute _ _ _).bind fun _ =>
          .refl _
      | bind bindings => exact (bindEach_congr Le.congruence.sequencing hevaluate _ _).bind fun _ => .refl _
      | expr expr => exact (hevaluate _ _).bind fun _ => .refl _

section
variable (host : Host) {n m : Nat} (h : n ≤ m)
include h

theorem apply_fuel_le (callee : Value) (arguments : List Value) :
    Le (apply host n callee arguments) (apply host m callee arguments) :=
  .of_succ (m := fun n => apply host n callee arguments) (fun n => (succ_fuel_le host n).1 callee arguments) h

theorem evaluate_fuel_le (env : Environment) (expr : Expr) :
    Le (evaluate host n env expr) (evaluate host m env expr) :=
  .of_succ (m := fun n => evaluate host n env expr) (fun n => (succ_fuel_le host n).2.1 env expr) h

theorem runBody_fuel_le (env : Environment) (body : List Statement) :
    Le (runBody host n env body) (runBody host m env body) :=
  .of_succ (m := fun n => runBody host n env body) (fun n => (succ_fuel_le host n).2.2.1 env body) h

theorem execute_fuel_le (env : Environment) (s : Statement) :
    Le (execute host n env s) (execute host m env s) :=
  .of_succ (m := fun n => execute host n env s) (fun n => (succ_fuel_le host n).2.2.2 env s) h

end

end CurriedScript.Direct
