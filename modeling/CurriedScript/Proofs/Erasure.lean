import CurriedScript.Proofs.BuiltinsRelated

/-!
# Erasing annotations

Trees without their signatures, and values whose closures have bodies without them.
What erasing makes equal builtins do not tell apart: `erased_unseen`.
-/

namespace CurriedScript

/-! ## Trees -/

mutual
def Expr.erased : Expr → Expr
  | ⟨form, _⟩ => form.erased.bare

def Form.erased : Form → Form
  | .chain left operator right => .chain left.erased operator right.erased
  | .name name => .name name
  | .application elements => .application (exprsErased elements)
  | .function parameters body => .function parameters (statementsErased body)
  | .literal literal => .literal literal
  | .builtin name => .builtin name
  | .conditional cases => .conditional (casesErased cases)

def Case.erased : Case → Case
  | ⟨condition, body⟩ => ⟨condition.erased, statementsErased body⟩

def Statement.erased : Statement → Statement
  | .use module => .use module
  | .bind bindings => .bind (bindingsErased bindings)
  | .expr expr => .expr expr.erased

def Binding.erased : Binding → Binding
  | ⟨name, value⟩ => ⟨name, value.erased⟩

def exprsErased : List Expr → List Expr
  | [] => []
  | expr :: rest => expr.erased :: exprsErased rest

def casesErased : List Case → List Case
  | [] => []
  | case :: rest => case.erased :: casesErased rest

def statementsErased : List Statement → List Statement
  | [] => []
  | statement :: rest => statement.erased :: statementsErased rest

def bindingsErased : List Binding → List Binding
  | [] => []
  | binding :: rest => binding.erased :: bindingsErased rest
end

mutual
theorem Expr.erased_erased : ∀ x : Expr, x.erased.erased = x.erased
  | ⟨form, _⟩ => by simp only [Expr.erased, Form.bare, form.erased_erased]

theorem Form.erased_erased : ∀ form : Form, form.erased.erased = form.erased
  | .chain left _ right => by simp only [Form.erased, left.erased_erased, right.erased_erased]
  | .application elements => by simp only [Form.erased, exprsErased_erased elements]
  | .function _ body => by simp only [Form.erased, statementsErased_erased body]
  | .conditional cases => by simp only [Form.erased, casesErased_erased cases]
  | .name _ | .literal _ | .builtin _ => rfl

theorem Case.erased_erased : ∀ case : Case, case.erased.erased = case.erased
  | ⟨condition, body⟩ => by simp only [Case.erased, condition.erased_erased, statementsErased_erased body]

theorem Statement.erased_erased : ∀ s : Statement, s.erased.erased = s.erased
  | .use _ => rfl
  | .bind bindings => by simp only [Statement.erased, bindingsErased_erased bindings]
  | .expr x => by simp only [Statement.erased, x.erased_erased]

theorem Binding.erased_erased : ∀ binding : Binding, binding.erased.erased = binding.erased
  | ⟨_, value⟩ => by simp only [Binding.erased, value.erased_erased]

theorem exprsErased_erased : ∀ xs : List Expr, exprsErased (exprsErased xs) = exprsErased xs
  | [] => rfl
  | x :: rest => by simp only [exprsErased, x.erased_erased, exprsErased_erased rest]

theorem casesErased_erased : ∀ cases : List Case, casesErased (casesErased cases) = casesErased cases
  | [] => rfl
  | case :: rest => by simp only [casesErased, case.erased_erased, casesErased_erased rest]

theorem statementsErased_erased : ∀ statements : List Statement,
    statementsErased (statementsErased statements) = statementsErased statements
  | [] => rfl
  | s :: rest => by simp only [statementsErased, s.erased_erased, statementsErased_erased rest]

theorem bindingsErased_erased : ∀ bindings : List Binding,
    bindingsErased (bindingsErased bindings) = bindingsErased bindings
  | [] => rfl
  | binding :: rest => by simp only [bindingsErased, binding.erased_erased, bindingsErased_erased rest]
end

theorem statementsErased_eq_map (statements : List Statement) :
    statementsErased statements = statements.map Statement.erased := by
  induction statements with
  | nil => rfl
  | cons s rest ih => rw [statementsErased, ih, List.map_cons]

theorem Expr.form_erased {x x' : Expr} (h : x.erased = x'.erased) : x.form.erased = x'.form.erased := by
  obtain ⟨form, signature⟩ := x
  obtain ⟨form', signature'⟩ := x'
  exact (Expr.mk.inj h).1

/-! ## Values -/

mutual
/-- The value without signatures in the bodies of the closures that can be reached. -/
def Value.erased : Value → Value
  | .closure parameters body env => .closure parameters (statementsErased body) env.erased
  | .string text => .string text
  | .integer n => .integer n
  | .float x => .float x
  | .boolean b => .boolean b
  | .bang => .bang
  | .nothing => .nothing
  | .builtin entry => .builtin entry

def Environment.erased : Environment → Environment
  | .empty => .empty
  | .frame outer => .frame outer.erased
  | .bind name value outer => .bind name value.erased outer.erased
end

def Value.Similar (v v' : Value) : Prop := v.erased = v'.erased

def Environment.Similar (env env' : Environment) : Prop := env.erased = env'.erased

theorem erased_unseen : Unseen Value.Similar Value.erased where
  keeps := ⟨fun v hkind => by cases v <;> first | rfl | exact absurd rfl hkind,
    fun _ body env => ⟨statementsErased body, env.erased, by simp only [Value.erased]⟩⟩
  refl _ := rfl
  same _ _ h := h

theorem Value.Similar.closure {parameters : List String} {body body' : List Statement} {env env' : Environment}
    (hbody : statementsErased body = statementsErased body') (henv : env.Similar env') :
    (Value.closure parameters body env).Similar (.closure parameters body' env') := by
  simp only [Value.Similar, Value.erased, Value.closure.injEq, true_and]
  exact ⟨hbody, henv⟩

theorem Value.Similar.closure_inv {parameters : List String} {body : List Statement} {env : Environment}
    {v' : Value}
    (h : (Value.closure parameters body env).Similar v') :
    ∃ body' env', v' = .closure parameters body' env' ∧ statementsErased body = statementsErased body' ∧
      env.Similar env' := by
  unfold Value.Similar at h
  cases v' with
  | closure parameters' body' env' =>
    simp only [Value.erased, Value.closure.injEq] at h
    obtain ⟨rfl, hbody, henv⟩ := h
    exact ⟨body', env', rfl, hbody, henv⟩
  | _ => simp [Value.erased] at h

namespace Environment

theorem depth_erased : ∀ env : Environment, env.erased.depth = env.depth
  | .empty => rfl
  | .frame outer => by simp only [erased, depth, depth_erased outer]
  | .bind _ _ outer => by simp only [erased, depth, depth_erased outer]

theorem get?_erased (name : String) : ∀ env : Environment, env.erased.get? name = (env.get? name).map Value.erased
  | .empty => rfl
  | .frame outer => by simp only [erased, get?, get?_erased name outer]
  | .bind other v outer => by
    simp only [erased, get?, get?_erased name outer]
    split <;> rfl

variable {env env' : Environment}

theorem Similar.depth_eq (h : env.Similar env') : env.depth = env'.depth := by
  rw [← depth_erased env, h, depth_erased]

theorem Similar.get? (h : env.Similar env') (name : String) :
    Option.Rel Value.Similar (env.get? name) (env'.get? name) := by
  have hget : (env.get? name).map Value.erased = (env'.get? name).map Value.erased := by
    rw [← get?_erased, ← get?_erased, h]
  generalize env.get? name = found, env'.get? name = found' at hget
  match found, found' with
  | none, none => exact .none
  | some v, some v' => exact .some (Option.some.inj hget)
  | none, some _ | some _, none => cases hget

theorem Similar.frame (h : env.Similar env') : env.frame.Similar env'.frame := by
  simp only [Similar, erased, frame.injEq]
  exact h

theorem Similar.bind (name : String) {v v' : Value} (h : env.Similar env') (hv : v.Similar v') :
    (env.bind name v).Similar (env'.bind name v') := by
  simp only [Similar, erased, bind.injEq, true_and]
  exact ⟨hv, h⟩

theorem Similar.bindAll (parameters : List String) {xs xs' : List Value} (h : env.Similar env')
    (hxs : List.Forall₂ Value.Similar xs xs') :
    (env.bindAll (parameters.zip xs)).Similar (env'.bindAll (parameters.zip xs')) := by
  induction hxs generalizing parameters env env' with
  | nil =>
    rw [List.zip_nil_right]
    exact h
  | cons hx _ ih =>
    cases parameters with
    | nil => exact h
    | cons p parameters => exact ih parameters (h.bind p hx)

theorem Similar.extend (parameters : List String) {xs xs' : List Value} (h : env.Similar env')
    (hxs : List.Forall₂ Value.Similar xs xs') :
    (env.extend (parameters.zip xs)).Similar (env'.extend (parameters.zip xs')) :=
  h.frame.bindAll parameters hxs

end Environment

end CurriedScript
