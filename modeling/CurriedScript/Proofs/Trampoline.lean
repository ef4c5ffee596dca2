import CurriedScript.Proofs.Direct
import CurriedScript.Proofs.Ends

/-!
# Handing calls back changes nothing

`evaluator_sameEnd_direct`: the evaluator, which hands tail calls back and makes
them in a loop, ends as the evaluator in direct style does. `settle` makes the
call that an outcome leaves open; a tail position followed by `settle` is what
the two have in common. Each evaluator is bounded by the other with more fuel.
-/

namespace CurriedScript

open Run

def settle (host : Host) (fuel : Nat) : Outcome → Run Value
  | .value value => return value
  | .call callee arguments => apply host fuel callee arguments

theorem settle_fuel_le (host : Host) {n m : Nat} (h : n ≤ m) (outcome : Outcome) :
    Le (settle host n outcome) (settle host m outcome) := by
  cases outcome with
  | value value => exact .refl _
  | call callee arguments => exact apply_fuel_le host h callee arguments

theorem evaluate_succ (host : Host) (n : Nat) (env : Environment) (expr : Expr) :
    evaluate host (n + 1) env expr = evaluateTail host n env expr.form >>= settle host n := by
  rw [evaluate]
  rfl

/-- A call with all its arguments: the body is settled, and what arguments are
left over go to its value. -/
def call (host : Host) (fuel : Nat) (scope : Environment) (body : List Statement) (leftover : List Value) :
    Run Value := do
  countCall host
  let value ← runBody host fuel scope body >>= settle host fuel
  match leftover with
  | [] => return value
  | leftover => apply host fuel value leftover

/-- The four ways in which a body and its leftover arguments can end are one. -/
theorem apply_saturated (host : Host) (n : Nat) {parameters : List String} {body : List Statement}
    {env : Environment} {arguments : List Value} (h : parameters.length ≤ arguments.length) :
    apply host (n + 1) (.closure parameters body env) arguments =
      call host n (env.extend (parameters.zip arguments)) body (arguments.drop parameters.length) := by
  rw [apply, call]
  simp only [Nat.not_lt.mpr h, ite_false, bind_assoc]
  congr 1; funext _; congr 1; funext outcome
  generalize arguments.drop parameters.length = leftover
  cases outcome with
  | value value => cases leftover <;> rfl
  | call callee arguments =>
    cases leftover with
    | nil => exact (bind_pure _).symm
    | cons _ _ => rfl

theorem apply_partial (host : Host) (n : Nat) {parameters : List String} {body : List Statement}
    {env : Environment} {arguments : List Value} (h : arguments.length < parameters.length) :
    apply host (n + 1) (.closure parameters body env) arguments =
      pure (.closure (parameters.drop arguments.length) body (env.extend (parameters.zip arguments))) := by
  rw [apply, if_pos h]

/-! ## One step of both -/

section
variable {R : {α : Type} → Run α → Run α → Prop} (hR : Congruence R) {host : Host} {n d : Nat}
  (hevaluate : ∀ env expr, R (evaluate host n env expr) (Direct.evaluate host d env expr))
include hR hevaluate

/-- The case analysis is the same whichever evaluator is the bound. -/
theorem form_congr {m : Nat}
    (hcall : ∀ callee arguments, R (apply host m callee arguments) (Direct.apply host d callee arguments))
    (hbody : ∀ env body, R (runBody host n env body >>= settle host m) (Direct.runBody host d env body))
    (env : Environment) (expr : Expr) :
    R (evaluateTail host (n + 1) env expr.form >>= settle host m) (Direct.evaluate host (d + 1) env expr) := by
  obtain ⟨form, signature⟩ := expr
  cases form with
  | chain left operator right =>
    simp only [evaluateTail, bind_assoc, pure_bind]
    refine hR.bind (hevaluate _ _) fun _ => hR.bind (hR.refl _) fun _ => ?_
    exact hR.bind (hevaluate _ _) fun _ => hcall _ _
  | application elements =>
    cases elements with
    | nil => exact hR.refl _
    | cons head rest =>
      simp only [evaluateTail, bind_assoc, pure_bind]
      refine hR.bind (hevaluate _ _) fun _ => ?_
      exact hR.bind (evaluateEach_congr hR.sequencing (hevaluate _) _) fun _ => hcall _ _
  | conditional cases =>
    simp only [evaluateTail, bind_assoc]
    exact hR.bind (firstCase_congr hR.sequencing (hevaluate _) _) fun _ => hbody _ _
  | _ =>
    simp only [evaluateTail, bind_assoc, pure_bind, settle, bind_pure]
    exact hR.refl _

theorem execute_congr (hexecute : ∀ env s, R (execute host n env s) (Direct.execute host d env s))
    (env : Environment) (s : Statement) : R (execute host (n + 1) env s) (Direct.execute host (d + 1) env s) := by
  cases s with
  | use name =>
    exact hR.bind (hR.refl _) fun _ => hR.bind (executeEach_congr hR.sequencing hexecute _ _ _) fun _ => hR.refl _
  | bind bindings => exact hR.bind (bindEach_congr hR.sequencing hevaluate _ _) fun _ => hR.refl _
  | expr expr => exact hR.bind (hevaluate _ _) fun _ => hR.refl _

end

/-! ## The direct evaluator bounds the trampoline -/

section
variable {host : Host} {m j : Nat} (hj : ∀ callee arguments,
  Le (apply host m callee arguments) (Direct.apply host j callee arguments))
include hj

theorem tail_le_direct (n : Nat) (hn : n ≤ m) :
    (∀ env expr, Le (evaluateTail host n env expr.form >>= settle host m)
      (Direct.evaluate host (j + 2 * n + 1) env expr)) ∧
    (∀ env body, Le (runBody host n env body >>= settle host m) (Direct.runBody host (j + 2 * n + 1) env body)) ∧
    (∀ env s, Le (execute host n env s) (Direct.execute host (j + 2 * n + 1) env s)) := by
  induction n with
  | zero => exact ⟨fun _ _ => outOfFuel_le _, fun _ _ => outOfFuel_le _, fun _ _ => outOfFuel_le _⟩
  | succ n ih =>
    obtain ⟨htail, hbody, hexecute⟩ := ih (by omega)
    -- a nested evaluation settles with its own fuel, which the outer one has too
    have hevaluate : ∀ env expr, Le (evaluate host n env expr) (Direct.evaluate host (j + 2 * n + 2) env expr) := by
      intro env expr
      refine (evaluate_fuel_le host (Nat.le_succ n) env expr).trans ?_
      rw [evaluate_succ]
      refine Le.trans ?_ ((htail env expr).trans (Direct.evaluate_fuel_le host (Nat.le_succ _) env expr))
      exact (Le.refl _).bind (settle_fuel_le host (by omega))
    have hexecute' : ∀ env s, Le (execute host n env s) (Direct.execute host (j + 2 * n + 2) env s) :=
      fun env s => (hexecute env s).trans (Direct.execute_fuel_le host (Nat.le_succ _) env s)
    have hcall : ∀ callee arguments,
        Le (apply host m callee arguments) (Direct.apply host (j + 2 * n + 2) callee arguments) :=
      fun callee arguments => (hj callee arguments).trans (Direct.apply_fuel_le host (by omega) callee arguments)
    have hrest : ∀ env body, Le (runBody host n env body >>= settle host m)
        (Direct.runBody host (j + 2 * n + 2) env body) :=
      fun env body => (hbody env body).trans (Direct.runBody_fuel_le host (Nat.le_succ _) env body)
    refine ⟨form_congr Le.congruence hevaluate hcall hrest, fun env body => ?_,
      execute_congr Le.congruence hevaluate hexecute'⟩
    · rcases body with _ | ⟨s, _ | ⟨t, rest⟩⟩
      · exact .refl _
      · cases s with
        | expr expr =>
          rw [show j + 2 * (n + 1) + 1 = j + 2 * n + 1 + 2 by omega, Direct.runBody_expr]
          exact htail env expr
        | use _ | bind _ =>
          simp only [runBody, bind_assoc, pure_bind]
          exact (hexecute' _ _).bind fun _ => .refl _
      · simp only [runBody, bind_assoc]
        exact (hexecute' _ _).bind fun _ => hrest _ _

end

theorem apply_le_direct (host : Host) (m : Nat) :
    ∃ j, ∀ callee arguments, Le (apply host m callee arguments) (Direct.apply host j callee arguments) := by
  induction m with
  | zero => exact ⟨0, fun _ _ => outOfFuel_le _⟩
  | succ m ih =>
    obtain ⟨j, hj⟩ := ih
    refine ⟨j + 2 * m + 2, fun callee arguments => ?_⟩
    cases callee with
    | closure parameters body env =>
      by_cases h : arguments.length < parameters.length
      · rw [apply_partial host m h, Direct.apply, if_pos h]
        exact .refl _
      · rw [apply_saturated host m (Nat.le_of_not_lt h), call, Direct.apply, if_neg h]
        refine (Le.refl _).bind fun _ => ((tail_le_direct hj m (Nat.le_refl m)).2.1 _ _).bind fun value => ?_
        cases arguments.drop parameters.length with
        | nil => exact .refl _
        | cons _ _ => exact (hj _ _).trans (Direct.apply_fuel_le host (by omega) _ _)
    | builtin entry =>
      have happly : ∀ callee arguments,
          Le (apply host m callee arguments) (Direct.apply host (j + 2 * m + 1) callee arguments) :=
        fun callee arguments => (hj callee arguments).trans (Direct.apply_fuel_le host (by omega) callee arguments)
      have hexecute := (tail_le_direct hj m (Nat.le_refl m)).2.2
      exact entry.run_le host (Request.answer_congr Le.congruence.sequencing happly hexecute) (by omega) arguments
    | _ => exact .refl _

/-! ## The trampoline bounds the direct evaluator -/

theorem execute_expr_le (host : Host) (n : Nat) (env : Environment) (expr : Expr) :
    Le (do let (value, _) ← execute host n env (.expr expr); return value)
      (evaluateTail host n env expr.form >>= settle host n) := by
  cases n with
  | zero => exact outOfFuel_le _
  | succ n =>
    simp only [execute, bind_assoc, pure_bind, bind_pure]
    rw [← evaluate_succ]
    exact evaluate_fuel_le host (by omega) env expr

theorem direct_le (host : Host) (n : Nat) :
    (∀ callee arguments, Le (Direct.apply host n callee arguments) (apply host (2 * n) callee arguments)) ∧
    (∀ env expr, Le (Direct.evaluate host n env expr) (evaluate host (2 * n + 1) env expr)) ∧
    (∀ env body, Le (Direct.runBody host n env body) (runBody host (2 * n) env body >>= settle host (2 * n))) ∧
    (∀ env s, Le (Direct.execute host n env s) (execute host (2 * n) env s)) := by
  induction n with
  | zero =>
    exact ⟨fun _ _ => outOfFuel_le _, fun _ _ => outOfFuel_le _, fun _ _ => outOfFuel_le _,
      fun _ _ => outOfFuel_le _⟩
  | succ n ih =>
    obtain ⟨happly, hevaluate, hbody, hexecute⟩ := ih
    -- each level of the direct evaluator is a step of the tail and a step of the loop
    have hcall : ∀ {k} callee arguments, 2 * n ≤ k →
        Le (Direct.apply host n callee arguments) (apply host k callee arguments) :=
      fun callee arguments h => (happly callee arguments).trans (apply_fuel_le host h callee arguments)
    have hrest : ∀ {k l} env body, 2 * n ≤ k → 2 * n ≤ l →
        Le (Direct.runBody host n env body) (runBody host k env body >>= settle host l) :=
      fun env body hk hl =>
        (hbody env body).trans ((runBody_fuel_le host hk env body).bind (settle_fuel_le host hl))
    have hexecute' : ∀ env s, Le (Direct.execute host n env s) (execute host (2 * n + 1) env s) :=
      fun env s => (hexecute env s).trans (execute_fuel_le host (Nat.le_succ _) env s)
    rw [show 2 * (n + 1) = 2 * n + 1 + 1 by omega]
    refine ⟨fun callee arguments => ?_, fun env expr => ?_, fun env body => ?_, fun env s => ?_⟩
    · cases callee with
      | closure parameters body env =>
        by_cases h : arguments.length < parameters.length
        · rw [apply_partial host _ h, Direct.apply, if_pos h]
          exact .refl _
        · rw [apply_saturated host _ (Nat.le_of_not_lt h), call, Direct.apply, if_neg h]
          refine (Le.refl _).bind fun _ => (hrest _ _ (by omega) (by omega)).bind fun value => ?_
          cases arguments.drop parameters.length with
          | nil => exact .refl _
          | cons _ _ => exact hcall _ _ (by omega)
      | builtin entry =>
        have happly : ∀ callee arguments,
            Le (Direct.apply host n callee arguments) (apply host (2 * n + 1) callee arguments) :=
          fun callee arguments => hcall callee arguments (Nat.le_succ _)
        exact entry.run_le host (Request.answer_congr Le.congruence.sequencing happly hexecute')
          (by omega) arguments
      | _ => exact .refl _
    · rw [evaluate_succ]
      exact form_congr Le.congruence_flip hevaluate (fun _ _ => hcall _ _ (by omega))
        (fun _ _ => hrest _ _ (by omega) (by omega)) env expr
    · rcases body with _ | ⟨s, _ | ⟨t, rest⟩⟩
      · exact .refl _
      · cases s with
        | expr expr =>
          refine ((hexecute' env (.expr expr)).bind fun _ => .refl _).trans ?_
          refine (execute_expr_le host _ env expr).trans ?_
          exact (Le.refl _).bind (settle_fuel_le host (by omega))
        | use _ | bind _ =>
          simp only [runBody, bind_assoc, pure_bind]
          exact (hexecute' _ _).bind fun _ => .refl _
      · simp only [runBody, bind_assoc]
        exact (hexecute' _ _).bind fun _ => hrest _ _ (by omega) (by omega)
    · exact execute_congr Le.congruence_flip hevaluate hexecute' env s

/-- **The trampoline is invisible.** From every world, each part of the evaluator
diverges if the direct one does, and else gives the same value or error, the same
environment and the same world: output, input left and calls counted. -/
theorem evaluator_sameEnd_direct (host : Host) (world : World) :
    (∀ env expr, SameEnd Eq (evaluate host · env expr) (Direct.evaluate host · env expr) world) ∧
    (∀ env s, SameEnd Eq (execute host · env s) (Direct.execute host · env s) world) ∧
    (∀ callee arguments,
      SameEnd Eq (apply host · callee arguments) (Direct.apply host · callee arguments) world) := by
  refine ⟨fun env expr => ?_, fun env s => ?_, fun callee arguments => ?_⟩
  · refine sameEnd_of_le (fun n => ?_) (fun n => ⟨_, (direct_le host n).2.1 env expr⟩) world
    obtain ⟨j, hj⟩ := apply_le_direct host n
    refine ⟨j + 2 * n + 1, (evaluate_fuel_le host (Nat.le_succ n) env expr).trans ?_⟩
    rw [evaluate_succ]
    exact (tail_le_direct hj n (Nat.le_refl n)).1 env expr
  · refine sameEnd_of_le (fun n => ?_) (fun n => ⟨_, (direct_le host n).2.2.2 env s⟩) world
    obtain ⟨j, hj⟩ := apply_le_direct host n
    exact ⟨_, (tail_le_direct hj n (Nat.le_refl n)).2.2 env s⟩
  · refine sameEnd_of_le (fun n => ?_) (fun n => ⟨_, (direct_le host n).1 callee arguments⟩) world
    obtain ⟨j, hj⟩ := apply_le_direct host n
    exact ⟨j, hj callee arguments⟩

end CurriedScript
