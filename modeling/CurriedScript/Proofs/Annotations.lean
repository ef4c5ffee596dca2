import CurriedScript.Proofs.CallLimit
import CurriedScript.Proofs.Erasure
import CurriedScript.Proofs.Trampoline

/-!
# Annotations are inert

`evaluator_similar`: trees that are the same without their signatures run in step.
The induction is on the fuel. Modules are loaded with their signatures on both sides,
so the trees are compared by what they are without them, and not one with the erased
other. `runEach_erased`: a session is the same without signatures.
-/

namespace CurriedScript

open Run

inductive OutcomeSimilar : Outcome → Outcome → Prop
  | value {v v' : Value} : v.Similar v' → OutcomeSimilar (.value v) (.value v')
  | call {f f' : Value} {xs xs' : List Value} : f.Similar f' → List.Forall₂ Value.Similar xs xs' →
      OutcomeSimilar (.call f xs) (.call f' xs')

def PairSimilar (r r' : Value × Environment) : Prop := r.1.Similar r'.1 ∧ r.2.Similar r'.2

structure EvaluatorSimilar (host : Host) (fuel : Nat) : Prop where
  apply : ∀ {v v' xs xs'}, v.Similar v' → List.Forall₂ Value.Similar xs xs' →
    Rel Value.Similar (apply host fuel v xs) (apply host fuel v' xs')
  evaluate : ∀ {env env' x x'}, env.Similar env' → x.erased = x'.erased →
    Rel Value.Similar (evaluate host fuel env x) (evaluate host fuel env' x')
  tail : ∀ {env env' form form'}, env.Similar env' → form.erased = form'.erased →
    Rel OutcomeSimilar (evaluateTail host fuel env form) (evaluateTail host fuel env' form')
  body : ∀ {env env' body body'}, env.Similar env' → statementsErased body = statementsErased body' →
    Rel OutcomeSimilar (runBody host fuel env body) (runBody host fuel env' body')
  execute : ∀ {env env' s s'}, env.Similar env' → s.erased = s'.erased →
    Rel PairSimilar (execute host fuel env s) (execute host fuel env' s')

section
variable {host : Host} {fuel : Nat} (ih : EvaluatorSimilar host fuel) {env env' : Environment}

theorem lookup_similar (henv : env.Similar env') (name : String) :
    Rel Value.Similar (lookup env name) (lookup env' name) := by
  have hfound := henv.get? name
  unfold lookup
  generalize env.get? name = found, env'.get? name = found' at hfound
  cases hfound with
  | none => exact .throw _
  | some hv => exact .pure hv

include ih

theorem settle_similar {o o' : Outcome} (h : OutcomeSimilar o o') :
    Rel Value.Similar (settle host fuel o) (settle host fuel o') := by
  cases h with
  | value hv => exact .pure hv
  | call hf hxs => exact ih.apply hf hxs

theorem call_similar {body body' : List Statement} {leftover leftover' : List Value} (henv : env.Similar env')
    (hbody : statementsErased body = statementsErased body')
    (hleftover : List.Forall₂ Value.Similar leftover leftover') :
    Rel Value.Similar (call host fuel env body leftover) (call host fuel env' body' leftover') := by
  unfold call
  refine (Rel.refl (fun _ => rfl) _).bind fun _ _ _ => ?_
  refine ((ih.body henv hbody).bind fun _ _ => settle_similar ih).bind fun value value' hvalue => ?_
  cases hleftover with
  | nil => exact .pure hvalue
  | cons hy hys => exact ih.apply hvalue (.cons hy hys)

theorem evaluate_similar {x x' : Expr} (henv : env.Similar env') (h : x.erased = x'.erased) :
    Rel Value.Similar (evaluate host (fuel + 1) env x) (evaluate host (fuel + 1) env' x') := by
  rw [evaluate_succ, evaluate_succ]
  exact (ih.tail henv (Expr.form_erased h)).bind fun _ _ => settle_similar ih

/-! ## Lists -/

theorem evaluateEach_similar {xs xs' : List Expr} (henv : env.Similar env') (h : exprsErased xs = exprsErased xs') :
    Rel (List.Forall₂ Value.Similar) (evaluateEach (evaluate host fuel env) xs)
      (evaluateEach (evaluate host fuel env') xs') := by
  induction xs generalizing xs' with
  | nil =>
    cases xs' with
    | nil => exact .pure .nil
    | cons => cases h
  | cons x rest ihrest =>
    cases xs' with
    | nil => cases h
    | cons x' rest' =>
      obtain ⟨hx, hrest⟩ := List.cons.inj h
      refine (ih.evaluate henv hx).bind fun _ _ hv => (ihrest hrest).bind fun _ _ hvs => ?_
      exact .pure (.cons hv hvs)

theorem firstCase_similar {cases cases' : List Case} (henv : env.Similar env')
    (h : casesErased cases = casesErased cases') :
    Rel (fun body body' => statementsErased body = statementsErased body')
      (firstCase (evaluate host fuel env) cases) (firstCase (evaluate host fuel env') cases') := by
  induction cases generalizing cases' with
  | nil =>
    cases cases' with
    | nil => exact .throw _
    | cons => cases h
  | cons first rest ihrest =>
    cases cases' with
    | nil => cases h
    | cons first' rest' =>
      obtain ⟨hfirst, hrest⟩ := List.cons.inj h
      obtain ⟨condition, body⟩ := first
      obtain ⟨condition', body'⟩ := first'
      obtain ⟨hcondition, hbody⟩ := Case.mk.inj hfirst
      refine (ih.evaluate henv hcondition).bind fun v v' hv => ?_
      cases v with
      | closure =>
        obtain ⟨_, _, rfl, _⟩ := hv.closure_inv
        exact .throw _
      | boolean b =>
        obtain rfl := erased_unseen.eq_of_kind hv (by simp [Value.kind])
        cases b with
        | true => exact .pure hbody
        | false => exact ihrest hrest
      | _ =>
        obtain rfl := erased_unseen.eq_of_kind hv (by simp [Value.kind])
        exact .throw _

theorem bindEach_similar {bindings bindings' : List Binding} (henv : env.Similar env')
    (h : bindingsErased bindings = bindingsErased bindings') :
    Rel Environment.Similar (bindEach (evaluate host fuel) env bindings)
      (bindEach (evaluate host fuel) env' bindings') := by
  induction bindings generalizing bindings' env env' with
  | nil =>
    cases bindings' with
    | nil => exact .pure henv
    | cons => cases h
  | cons first rest ihrest =>
    cases bindings' with
    | nil => cases h
    | cons first' rest' =>
      obtain ⟨hfirst, hrest⟩ := List.cons.inj h
      obtain ⟨name, value⟩ := first
      obtain ⟨name', value'⟩ := first'
      obtain ⟨rfl, hvalue⟩ := Binding.mk.inj hfirst
      exact (ih.evaluate henv hvalue).bind fun _ _ hv => ihrest (henv.bind _ hv) hrest

theorem executeEach_similar (statements : List Statement) {v v' : Value} (hv : v.Similar v')
    (henv : env.Similar env') :
    Rel PairSimilar (executeEach (execute host fuel) v env statements)
      (executeEach (execute host fuel) v' env' statements) := by
  induction statements generalizing v v' env env' with
  | nil => exact .pure ⟨hv, henv⟩
  | cons s rest ihrest => exact (ih.execute henv rfl).bind fun _ _ hr => ihrest hr.1 hr.2

/-! ## Calls, forms, bodies and statements -/

theorem request_similar {request request' : Request Value} (h : Request.Related Value.Similar request request') :
    Rel Value.Similar (request.answer (apply host fuel) (execute host fuel))
      (request'.answer (apply host fuel) (execute host fuel)) := by
  cases h with
  | call hf hxs => exact ih.apply hf hxs
  | run names statements hxs =>
    have hempty : Environment.empty.Similar .empty := rfl
    have hroot := hempty.extend names hxs
    exact (executeEach_similar ih statements rfl hroot).bind fun _ _ hr => .pure hr.1

theorem apply_similar {v v' : Value} {xs xs' : List Value} (h : v.Similar v')
    (hxs : List.Forall₂ Value.Similar xs xs') :
    Rel Value.Similar (apply host (fuel + 1) v xs) (apply host (fuel + 1) v' xs') := by
  cases v with
  | closure parameters body env =>
    obtain ⟨body', env', rfl, hbody, henv⟩ := h.closure_inv
    have hlength := hxs.length_eq
    by_cases hlt : xs.length < parameters.length
    · rw [apply_partial host fuel hlt, apply_partial host fuel (hlength ▸ hlt), ← hlength]
      exact .pure (Value.Similar.closure hbody (henv.extend parameters hxs))
    · have hle : parameters.length ≤ xs.length := Nat.le_of_not_lt hlt
      rw [apply_saturated host fuel hle, apply_saturated host fuel (hlength ▸ hle)]
      exact call_similar ih (henv.extend parameters hxs) hbody (List.forall₂_drop _ hxs)
  | builtin entry =>
    obtain rfl := erased_unseen.eq_of_kind h (by simp [Value.kind])
    exact entry.run_related erased_unseen host (request_similar ih) fuel hxs
  | _ =>
    obtain rfl := erased_unseen.eq_of_kind h (by simp [Value.kind])
    exact .throw _

theorem tail_similar {form form' : Form} (henv : env.Similar env') (h : form.erased = form'.erased) :
    Rel OutcomeSimilar (evaluateTail host (fuel + 1) env form) (evaluateTail host (fuel + 1) env' form') := by
  cases form with
  | literal literal =>
    cases form' with
    | literal literal' =>
      cases h
      exact .pure (.value rfl)
    | _ => cases h
  | name name =>
    cases form' with
    | name name' =>
      cases h
      exact (lookup_similar henv name).bind fun _ _ hv => .pure (.value hv)
    | _ => cases h
  | function parameters body =>
    cases form' with
    | function parameters' body' =>
      obtain ⟨rfl, hbody⟩ := Form.function.inj h
      exact .pure (.value (Value.Similar.closure hbody henv))
    | _ => cases h
  | builtin name =>
    cases form' with
    | builtin name' =>
      cases h
      exact (Rel.refl (R := Value.Similar) (fun _ => rfl) _).bind fun _ _ hv => .pure (.value hv)
    | _ => cases h
  | chain left operator right =>
    cases form' with
    | chain left' operator' right' =>
      obtain ⟨hleft, rfl, hright⟩ := Form.chain.inj h
      refine (ih.evaluate henv hleft).bind fun _ _ hv => (lookup_similar henv _).bind fun _ _ hf => ?_
      exact (ih.evaluate henv hright).bind fun _ _ hw => .pure (.call hf (.cons hv (.cons hw .nil)))
    | _ => cases h
  | application elements =>
    cases form' with
    | application elements' =>
      have h := Form.application.inj h
      match elements, elements' with
      | [], [] => exact .throw _
      | [], _ :: _ => cases h
      | _ :: _, [] => cases h
      | head :: rest, head' :: rest' =>
        obtain ⟨hhead, hrest⟩ := List.cons.inj h
        refine (ih.evaluate henv hhead).bind fun _ _ hf => ?_
        exact (evaluateEach_similar ih henv hrest).bind fun _ _ hvs => .pure (.call hf hvs)
    | _ => cases h
  | conditional cases =>
    cases form' with
    | conditional cases' =>
      have h := Form.conditional.inj h
      exact (firstCase_similar ih henv h).bind fun _ _ hbody => ih.body henv hbody
    | _ => cases h

theorem body_similar {body body' : List Statement} (henv : env.Similar env')
    (h : statementsErased body = statementsErased body') :
    Rel OutcomeSimilar (runBody host (fuel + 1) env body) (runBody host (fuel + 1) env' body') := by
  match body, body' with
  | [], [] => exact .pure (.value rfl)
  | [], _ :: _ => cases h
  | _ :: _, [] => cases h
  | [s], [s'] =>
    have h : s.erased = s'.erased := (List.cons.inj h).1
    have hexecute := ih.execute henv h
    cases s with
    | expr x =>
      cases s' with
      | expr x' => exact ih.tail henv (Expr.form_erased (Statement.expr.inj h))
      | _ => cases h
    | use name =>
      cases s' with
      | use name' => exact hexecute.bind fun _ _ hr => .pure (.value hr.1)
      | _ => cases h
    | bind bindings =>
      cases s' with
      | bind bindings' => exact hexecute.bind fun _ _ hr => .pure (.value hr.1)
      | _ => cases h
  | [_], _ :: _ :: _ => cases (List.cons.inj h).2
  | _ :: _ :: _, [_] => cases (List.cons.inj h).2
  | s :: t :: rest, s' :: t' :: rest' =>
    obtain ⟨hs, hrest⟩ := List.cons.inj h
    exact (ih.execute henv hs).bind fun _ _ hr => ih.body hr.2 hrest

theorem execute_similar {s s' : Statement} (henv : env.Similar env') (h : s.erased = s'.erased) :
    Rel PairSimilar (execute host (fuel + 1) env s) (execute host (fuel + 1) env' s') := by
  cases s with
  | use name =>
    cases s' with
    | use name' =>
      cases h
      refine (Rel.refl (fun _ => rfl) (loadModule host name)).bind fun statements statements' hs => ?_
      obtain rfl : statements = statements' := hs
      exact (executeEach_similar ih statements rfl henv).bind fun _ _ hr => .pure ⟨rfl, hr.2⟩
    | _ => cases h
  | bind bindings =>
    cases s' with
    | bind bindings' =>
      have h := Statement.bind.inj h
      exact (bindEach_similar ih henv.frame h).bind fun _ _ henv => .pure ⟨rfl, henv⟩
    | _ => cases h
  | expr x =>
    cases s' with
    | expr x' => exact (ih.evaluate henv (Statement.expr.inj h)).bind fun _ _ hv => .pure ⟨hv, henv⟩
    | _ => cases h

end

theorem evaluator_similar (host : Host) (fuel : Nat) : EvaluatorSimilar host fuel := by
  induction fuel with
  | zero =>
    exact ⟨fun _ _ => .throw _, fun _ _ => .throw _, fun _ _ => .throw _, fun _ _ => .throw _, fun _ _ => .throw _⟩
  | succ fuel ih =>
    exact ⟨apply_similar ih, evaluate_similar ih, tail_similar ih, body_similar ih, execute_similar ih⟩

/-! ## Sessions -/

def Session.Similar (session session' : Session) : Prop :=
  session.environment.Similar session'.environment ∧ session.world = session'.world

inductive StatementSimilar : EStateM.Result Halt Session Value → EStateM.Result Halt Session Value → Prop
  | ok {v v' : Value} {left left' : Session} : v.Similar v' → left.Similar left' →
      StatementSimilar (.ok v left) (.ok v' left')
  | error (halt : Halt) {left left' : Session} : left.Similar left' →
      StatementSimilar (.error halt left) (.error halt left')

theorem runStatement_similar (host : Host) (fuel : Nat) {s s' : Statement} (hs : s.erased = s'.erased)
    {session session' : Session} (h : session.Similar session') :
    StatementSimilar ((Session.runStatement host fuel s).run session)
      ((Session.runStatement host fuel s').run session') := by
  obtain ⟨env, world⟩ := session
  obtain ⟨env', world'⟩ := session'
  obtain ⟨henv, rfl⟩ : env.Similar env' ∧ world = world' := h
  have hrun := (evaluator_similar host fuel).execute henv hs { world with calls := 0 }
  rw [runStatement_run, runStatement_run]
  dsimp only
  generalize (execute host fuel env s).run { world with calls := 0 } = r,
    (execute host fuel env' s').run { world with calls := 0 } = r' at hrun
  cases hrun with
  | ok hr => exact .ok hr.1 ⟨hr.2, rfl⟩
  | error halt left => exact .error halt ⟨henv, rfl⟩

theorem runEach_similar (host : Host) (fuel : Nat) {statements statements' : List Statement}
    (hs : statementsErased statements = statementsErased statements') {session session' : Session}
    (h : session.Similar session') :
    (Session.runEach host fuel statements session).1.map (·.map Value.display) =
      (Session.runEach host fuel statements' session').1.map (·.map Value.display) ∧
    (Session.runEach host fuel statements session).2.Similar
    (Session.runEach host fuel statements' session').2 := by
  induction statements generalizing statements' session session' with
  | nil =>
    cases statements' with
    | nil => exact ⟨rfl, h⟩
    | cons => cases hs
  | cons s rest ih =>
    cases statements' with
    | nil => cases hs
    | cons s' rest' =>
      obtain ⟨hs, hrest⟩ := List.cons.inj hs
      have hstatement := runStatement_similar host fuel hs h
      unfold Session.runEach
      generalize (Session.runStatement host fuel s).run session = r,
        (Session.runStatement host fuel s').run session' = r' at hstatement
      cases hstatement with
      | ok hv hleft =>
        obtain ⟨hresults, hlast⟩ := ih hrest hleft
        exact ⟨congrArg₂ List.cons (congrArg Except.ok (erased_unseen.display_eq hv)) hresults, hlast⟩
      | error halt hleft =>
        obtain ⟨hresults, hlast⟩ := ih hrest hleft
        exact ⟨congrArg (List.cons _) hresults, hlast⟩

/-- **Annotations are inert.** Statements that run one after another, also after those
that fail, do so in the same way without any signature in them. Each shows the same
value or fails with the same error, and after any number of them the input, the
output, the count of calls and the depth of the environment are the same. -/
theorem runEach_erased (host : Host) (fuel : Nat) (statements : List Statement) (session : Session) (n : Nat) :
    let (results, last) := Session.runEach host fuel (statements.take n) session
    let (results', last') := Session.runEach host fuel ((statementsErased statements).take n) session
    results.map (·.map Value.display) = results'.map (·.map Value.display) ∧ last.world = last'.world ∧
      last.environment.depth = last'.environment.depth := by
  have htake : (statementsErased statements).take n = statementsErased (statements.take n) := by
    rw [statementsErased_eq_map, statementsErased_eq_map, List.map_take]
  rw [htake]
  have hsession : session.Similar session := ⟨rfl, rfl⟩
  have h := runEach_similar host fuel (statementsErased_erased (statements.take n)).symm hsession
  exact ⟨h.1, h.2.2, h.2.1.depth_eq⟩

end CurriedScript
