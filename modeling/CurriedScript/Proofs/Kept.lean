import CurriedScript.Proofs.Contracts

/-!
# Evaluation meets contracts

`evaluator_met`: in environments and with arguments that have a property throughout,
evaluation meets every contract that its host and the property uphold, and gives
values that have the property throughout. The induction is on the fuel.
-/

namespace CurriedScript

def Outcome.All (P : Value → Prop) : Outcome → Prop
  | .value v => v.All P
  | .call callee arguments => callee.All P ∧ ∀ x ∈ arguments, x.All P

structure EvaluatorMet (c : Contract World) (P : Value → Prop) (F : Form → Prop) (host : Host) (fuel : Nat) :
    Prop where
  apply : ∀ {v xs}, v.All P → (∀ x ∈ xs, x.All P) → c.Met (Value.All P) (apply host fuel v xs)
  evaluate : ∀ {env} (x : Expr), env.All P → (∀ form ∈ x.forms, F form) →
    c.Met (Value.All P) (evaluate host fuel env x)
  tail : ∀ {env} (form : Form), env.All P → (∀ part ∈ form.forms, F part) →
    c.Met (Outcome.All P) (evaluateTail host fuel env form)
  body : ∀ {env} (body : List Statement), env.All P → (∀ form ∈ statementForms body, F form) →
    c.Met (Outcome.All P) (runBody host fuel env body)
  execute : ∀ {env} (s : Statement), env.All P → (∀ form ∈ s.forms, F form) →
    c.Met (fun r => r.1.All P ∧ r.2.All P) (execute host fuel env s)

section
variable {c : Contract World} {P : Value → Prop} {F : Form → Prop} {host : Host} (h : Upheld c P F host)
  {fuel : Nat} (ih : EvaluatorMet c P F host fuel) {env : Environment}
include ih

theorem settle_met {o : Outcome} (ho : o.All P) : c.Met (Value.All P) (settle host fuel o) := by
  cases o with
  | value v => exact .pure ho
  | call callee arguments => exact ih.apply ho.1 ho.2

theorem evaluate_met (x : Expr) (henv : env.All P) (hx : ∀ form ∈ x.forms, F form) :
    c.Met (Value.All P) (evaluate host (fuel + 1) env x) := by
  obtain ⟨form, signature⟩ := x
  rw [evaluate_succ]
  exact (ih.tail form henv hx).bind fun _ => settle_met ih

/-! ## Lists -/

theorem evaluateEach_met (xs : List Expr) (henv : env.All P) (hxs : ∀ form ∈ exprForms xs, F form) :
    c.Met (fun vs => ∀ v ∈ vs, v.All P) (evaluateEach (evaluate host fuel env) xs) := by
  induction xs with
  | nil => exact .pure (by simp)
  | cons x rest ihrest =>
    obtain ⟨hx, hrest⟩ := List.forall_mem_append.mp hxs
    refine (ih.evaluate x henv hx).bind fun v hv => (ihrest hrest).bind fun vs hvs => .pure ?_
    exact List.forall_mem_cons.mpr ⟨hv, hvs⟩

theorem bindEach_met (bindings : List Binding) (henv : env.All P) (hb : ∀ form ∈ bindingForms bindings, F form) :
    c.Met (Environment.All P) (bindEach (evaluate host fuel) env bindings) := by
  induction bindings generalizing env with
  | nil => exact .pure henv
  | cons first rest ihrest =>
    obtain ⟨name, value⟩ := first
    obtain ⟨hvalue, hrest⟩ := List.forall_mem_append.mp hb
    exact (ih.evaluate value henv hvalue).bind fun v hv => ihrest (henv.bind hv) hrest

theorem executeEach_met (statements : List Statement) {v : Value} (hv : v.All P) (henv : env.All P)
    (hs : ∀ form ∈ statementForms statements, F form) :
    c.Met (fun r => r.1.All P ∧ r.2.All P) (executeEach (execute host fuel) v env statements) := by
  induction statements generalizing v env with
  | nil => exact .pure ⟨hv, henv⟩
  | cons s rest ihrest =>
    obtain ⟨hs, hrest⟩ := List.forall_mem_append.mp hs
    exact (ih.execute s henv hs).bind fun r hr => ihrest hr.1 hr.2 hrest

include h

theorem firstCase_met (cases : List Case) (henv : env.All P) (hcases : ∀ form ∈ caseForms cases, F form) :
    c.Met (fun body => ∀ form ∈ statementForms body, F form) (firstCase (evaluate host fuel env) cases) := by
  induction cases with
  | nil => exact h.fail .noMatch
  | cons first rest ihrest =>
    obtain ⟨condition, body⟩ := first
    obtain ⟨hfirst, hrest⟩ := List.forall_mem_append.mp hcases
    obtain ⟨hcondition, hbody⟩ := List.forall_mem_append.mp hfirst
    refine (ih.evaluate condition henv hcondition).bind fun v hv => ?_
    split
    · exact .pure hbody
    · exact ihrest hrest
    · exact h.fail (.condition hv)

/-! ## One step -/

theorem call_met (body : List Statement) {leftover : List Value} (henv : env.All P)
    (hbody : ∀ form ∈ statementForms body, F form) (hleftover : ∀ x ∈ leftover, x.All P) :
    c.Met (Value.All P) (call host fuel env body leftover) := by
  unfold call
  refine h.countCall.bind fun _ _ => ?_
  refine ((ih.body body henv hbody).bind fun _ => settle_met ih).bind fun v hv => ?_
  cases leftover with
  | nil => exact .pure hv
  | cons y ys => exact ih.apply hv hleftover

theorem request_met (hfree : Unconfined c P F host) (request : Request Value) (hrequest : request.All P) :
    c.Met (Value.All P) (request.answer (apply host fuel) (execute host fuel)) := by
  cases request with
  | call callee arguments => exact ih.apply hrequest.1 hrequest.2
  | run names values statements =>
    have hroot : (Environment.root (names.zip values)).All P := Environment.all_empty.extend hrequest
    have hnothing : Value.nothing.All P := h.all_data (by simp [Value.kind]) (by simp [Value.kind])
    exact (executeEach_met ih statements hnothing hroot fun form _ => hfree.form form).bind fun _ hr => .pure hr.1

theorem apply_met {v : Value} {xs : List Value} (hv : v.All P) (hxs : ∀ x ∈ xs, x.All P) :
    c.Met (Value.All P) (apply host (fuel + 1) v xs) := by
  cases v with
  | closure parameters body env =>
    obtain ⟨hself, henv⟩ := Value.all_closure.mp hv
    by_cases hlt : xs.length < parameters.length
    · rw [apply_partial host fuel hlt]
      exact .pure (Value.all_closure.mpr ⟨h.remainder _ _ _ _ hself hlt, henv.extend hxs⟩)
    · rw [apply_saturated host fuel (Nat.le_of_not_lt hlt)]
      exact call_met h ih body (henv.extend hxs) (h.body _ _ _ hself) fun x hx => hxs x (List.mem_of_mem_drop hx)
  | builtin entry => exact h.run entry hv.self (request_met h ih) fuel hxs
  | _ => exact h.fail (.notCallable hv)

theorem tail_met (form : Form) (henv : env.All P) (hform : ∀ part ∈ form.forms, F part) :
    c.Met (Outcome.All P) (evaluateTail host (fuel + 1) env form) := by
  cases form with
  | literal literal =>
    cases literal <;> exact .pure (h.all_data (by simp [Value.ofLiteral, Value.kind])
      (by simp [Value.ofLiteral, Value.kind]))
  | name name => exact (h.lookup henv name).bind fun _ hv => .pure hv
  | function parameters body => exact .pure (Value.all_closure.mpr ⟨h.closure parameters body env hform, henv⟩)
  | builtin name => exact (h.builtinNamed name).bind fun _ hv => .pure hv
  | chain left operator right =>
    obtain ⟨hleft, hright⟩ := List.forall_mem_append.mp (List.forall_mem_cons.mp hform).2
    refine (ih.evaluate left henv hleft).bind fun v hv => (h.lookup henv operator).bind fun f hf => ?_
    exact (ih.evaluate right henv hright).bind fun w hw => .pure ⟨hf, by simp [hv, hw]⟩
  | application elements =>
    cases elements with
    | nil => exact h.fail (.emptyApplication (hform _ (by simp [Form.forms])))
    | cons head rest =>
      obtain ⟨hhead, hrest⟩ := List.forall_mem_append.mp (List.forall_mem_cons.mp hform).2
      refine (ih.evaluate head henv hhead).bind fun f hf => ?_
      exact (evaluateEach_met ih rest henv hrest).bind fun vs hvs => .pure ⟨hf, hvs⟩
  | conditional cases =>
    have hcases := (List.forall_mem_cons.mp hform).2
    exact (firstCase_met h ih cases henv hcases).bind fun body hbody => ih.body body henv hbody

theorem body_met (body : List Statement) (henv : env.All P) (hbody : ∀ form ∈ statementForms body, F form) :
    c.Met (Outcome.All P) (runBody host (fuel + 1) env body) := by
  match body with
  | [] => exact .pure (h.all_data (by simp [Value.kind]) (by simp [Value.kind]))
  | [.expr ⟨form, _⟩] => exact ih.tail form henv (List.forall_mem_append.mp hbody).1
  | [.use _] | [.bind _] =>
    exact (ih.execute _ henv (List.forall_mem_append.mp hbody).1).bind fun _ hr => .pure hr.1
  | s :: t :: rest =>
    obtain ⟨hs, hrest⟩ := List.forall_mem_append.mp hbody
    exact (ih.execute s henv hs).bind fun _ hr => ih.body (t :: rest) hr.2 hrest

theorem execute_met (s : Statement) (henv : env.All P) (hs : ∀ form ∈ s.forms, F form) :
    c.Met (fun r => r.1.All P ∧ r.2.All P) (execute host (fuel + 1) env s) := by
  have hnothing : Value.nothing.All P := h.all_data (by simp [Value.kind]) (by simp [Value.kind])
  cases s with
  | use module =>
    refine (h.loadModule module).bind fun statements hstatements => ?_
    exact (executeEach_met ih statements hnothing henv hstatements).bind fun _ hr => .pure ⟨hnothing, hr.2⟩
  | bind bindings => exact (bindEach_met ih bindings henv.frame hs).bind fun _ henv => .pure ⟨hnothing, henv⟩
  | expr x => exact (ih.evaluate x henv hs).bind fun _ hv => .pure ⟨hv, henv⟩

end

theorem evaluator_met {c : Contract World} {P : Value → Prop} {F : Form → Prop} {host : Host}
    (h : Upheld c P F host) (fuel : Nat) : EvaluatorMet c P F host fuel := by
  induction fuel with
  | zero =>
    exact ⟨fun _ _ => .outOfFuel, fun _ _ _ => .outOfFuel, fun _ _ _ => .outOfFuel, fun _ _ _ => .outOfFuel,
      fun _ _ _ => .outOfFuel⟩
  | succ fuel ih => exact ⟨apply_met h ih, evaluate_met ih, tail_met h ih, body_met h ih, execute_met h ih⟩

end CurriedScript
