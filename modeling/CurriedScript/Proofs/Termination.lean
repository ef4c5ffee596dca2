import CurriedScript.Proofs.Trampoline
import CurriedScript.Proofs.Worlds

/-!
# Termination under a call limit

`callLimit_ends`: with a limit on calls, and modules that do not include each
other in a circle, every run ends. What decreases is, in this order, the number
of calls that can still be counted, the rank of the module that is being run,
and the syntax that is left to run. Only a call starts syntax of unknown size,
and it is counted before it does.
-/

namespace CurriedScript

open Run

/-! ## Inclusion of modules -/

mutual
/-- The modules in `use` statements outside function literals. -/
def Expr.includes : Expr → List String
  | ⟨form, _⟩ => form.includes

def Form.includes : Form → List String
  | .chain left _ right => left.includes ++ right.includes
  | .application elements => exprIncludes elements
  | .conditional cases => caseIncludes cases
  | .function _ _ | .name _ | .literal _ | .builtin _ => []

def Case.includes : Case → List String
  | ⟨condition, body⟩ => condition.includes ++ statementIncludes body

def Statement.includes : Statement → List String
  | .use module => [module]
  | .bind bindings => bindingIncludes bindings
  | .expr expr => expr.includes

def Binding.includes : Binding → List String
  | ⟨_, value⟩ => value.includes

def exprIncludes : List Expr → List String
  | [] => []
  | expr :: rest => expr.includes ++ exprIncludes rest

def caseIncludes : List Case → List String
  | [] => []
  | case :: rest => case.includes ++ caseIncludes rest

def statementIncludes : List Statement → List String
  | [] => []
  | statement :: rest => statement.includes ++ statementIncludes rest

def bindingIncludes : List Binding → List String
  | [] => []
  | binding :: rest => binding.includes ++ bindingIncludes rest
end

/-- The source of `outer` has a `use` of `inner` outside function literals. -/
def Includes (loader : Loader) (inner outer : String) : Prop :=
  ∃ source statements, loader outer = .ok source ∧ parseSource source = .ok statements ∧
    inner ∈ statementIncludes statements

/-! ## Runs that end within a budget -/

def Within (limit budget : Nat) (world : World) : Prop := limit ≤ world.calls + budget

/-- From every world within the budget the run ends within it, and once it has
enough fuel for that, more of it changes nothing. -/
def Settles {α : Type} (limit budget : Nat) (m : Nat → Run α) : Prop :=
  ∀ world, Within limit budget world → ∃ enough result left, Within limit budget left ∧
    ∀ fuel, enough ≤ fuel → (m fuel).run world = settled result left

section
variable {α β : Type} {limit budget : Nat}

theorem Settles.of_uncounted {m : Run α} (h : Uncounted m) : Settles limit budget fun _ => m := by
  intro world hworld
  obtain ⟨result, left, hm, _, hcalls⟩ := h world
  refine ⟨0, result, left, ?_, fun _ _ => hm⟩
  unfold Within at *
  rw [hcalls]
  exact hworld

theorem Settles.pure (a : α) : Settles limit budget fun _ => Pure.pure a := .of_uncounted (.pure a)

theorem Settles.fail (e : Error) : Settles limit budget fun _ => (CurriedScript.fail e : Run α) :=
  .of_uncounted (.fail e)

theorem Settles.bind {m : Nat → Run α} {f : α → Nat → Run β} (h : Settles limit budget m)
    (hf : ∀ a, Settles limit budget (f a)) : Settles limit budget fun n => m n >>= fun a => f a n := by
  intro world hworld
  obtain ⟨enough, result, left, hleft, hm⟩ := h world hworld
  cases result with
  | error e => exact ⟨enough, .error e, left, hleft, fun fuel hfuel => run_bind_error (hm fuel hfuel)⟩
  | ok a =>
    obtain ⟨enough', result, left', hleft', hfa⟩ := hf a left hleft
    refine ⟨max enough enough', result, left', hleft', fun fuel hfuel => ?_⟩
    rw [run_bind_ok (hm fuel (by omega))]
    exact hfa fuel (by omega)

/-- One unit of fuel more for each step. -/
theorem Settles.succ {m : Nat → Run α} (h : Settles limit budget fun n => m (n + 1)) : Settles limit budget m := by
  intro world hworld
  obtain ⟨enough, result, left, hleft, hm⟩ := h world hworld
  refine ⟨enough + 1, result, left, hleft, fun fuel hfuel => ?_⟩
  obtain ⟨n, rfl⟩ : ∃ n, fuel = n + 1 := ⟨fuel - 1, by omega⟩
  exact hm n (by omega)

theorem Settles.ends {m : Nat → Run α} (h : Settles limit budget m) {world : World}
    (hworld : Within limit budget world) : ∃ result left, Ends m world result left := by
  obtain ⟨enough, result, left, _, hm⟩ := h world hworld
  exact ⟨result, left, enough, hm enough (Nat.le_refl _)⟩

/-- With no budget left the next call is refused. -/
theorem Settles.refused {host : Host} (hlimit : host.callLimit = some limit) (m : Nat → Run α) :
    Settles limit 0 fun n => countCall host >>= fun _ => m n := by
  intro world hworld
  exact ⟨0, .error (.callLimit limit), world, hworld,
    fun _ _ => run_bind_error (countCall_run_of_le hlimit hworld)⟩

/-- A call takes one from the budget of what comes after it. -/
theorem Settles.counted {host : Host} (hlimit : host.callLimit = some limit) {m : Nat → Run α}
    (h : Settles limit budget m) : Settles limit (budget + 1) fun n => countCall host >>= fun _ => m n := by
  intro world hworld
  by_cases hle : limit ≤ world.calls
  · exact ⟨0, .error (.callLimit limit), world, hworld,
      fun _ _ => run_bind_error (countCall_run_of_le hlimit hle)⟩
  · have hcount := countCall_run_of_lt hlimit (Nat.lt_of_not_le hle)
    have hworld' : Within limit budget { world with calls := world.calls + 1 } := by
      unfold Within at *
      simp only
      omega
    obtain ⟨enough, result, left, hleft, hm⟩ := h _ hworld'
    refine ⟨enough, result, left, ?_, fun fuel hfuel => (run_bind_ok hcount).trans (hm fuel hfuel)⟩
    unfold Within at *
    omega

end

/-! ## The evaluator -/

section
variable {host : Host} {limit budget : Nat}

/-- All that the syntax can start settles: any call, and the modules it includes. -/
structure Ready (host : Host) (limit budget : Nat) (modules : List String) : Prop where
  apply : ∀ callee arguments, Settles limit budget (apply host · callee arguments)
  use : ∀ m ∈ modules, ∀ env, Settles limit budget (execute host · env (.use m))

theorem ready_append {modules modules' : List String} :
    Ready host limit budget (modules ++ modules') ↔
      Ready host limit budget modules ∧ Ready host limit budget modules' := by
  constructor
  · intro h
    exact ⟨⟨h.apply, fun m hm => h.use m (List.mem_append_left _ hm)⟩,
      h.apply, fun m hm => h.use m (List.mem_append_right _ hm)⟩
  · rintro ⟨h, h'⟩
    exact ⟨h.apply, fun m hm => (List.mem_append.mp hm).elim (h.use m) (h'.use m)⟩

theorem Ready.settle {modules : List String} (h : Ready host limit budget modules) (outcome : Outcome) :
    Settles limit budget (settle host · outcome) := by
  cases outcome with
  | value value => exact .pure value
  | call callee arguments => exact h.apply callee arguments

-- By recursion on the syntax: the fuel only has to be enough for each of its parts.
mutual
theorem Expr.settles : ∀ (x : Expr), Ready host limit budget x.includes → ∀ env,
    Settles limit budget (evaluate host · env x)
  | ⟨form, signature⟩, h, env => by
    refine .succ ?_
    simp only [evaluate_succ]
    exact (form.settles h env).bind h.settle

theorem Form.settles : ∀ (form : Form), Ready host limit budget form.includes → ∀ env,
    Settles limit budget (evaluateTail host · env form)
  | .literal literal, _, env => .succ (.pure _)
  | .name name, _, env => .succ ((Settles.of_uncounted (lookup_uncounted env name)).bind fun _ => .pure _)
  | .function parameters body, _, env => .succ (.pure _)
  | .builtin name, _, env => .succ ((Settles.of_uncounted (builtinNamed_uncounted host name)).bind fun _ => .pure _)
  | .chain left operator right, h, env => by
    obtain ⟨hleft, hright⟩ := ready_append.mp h
    refine .succ ((left.settles hleft env).bind fun _ => ?_)
    refine (Settles.of_uncounted (lookup_uncounted env operator)).bind fun _ => ?_
    exact (right.settles hright env).bind fun _ => .pure _
  | .application [], _, env => .succ (.fail _)
  | .application (head :: rest), h, env => by
    obtain ⟨hhead, hrest⟩ := ready_append.mp h
    refine .succ ((head.settles hhead env).bind fun _ => ?_)
    exact (exprs_settle rest hrest env).bind fun _ => .pure _
  | .conditional cases, h, env => .succ (cases_settle cases h env)

theorem Statement.settles : ∀ (s : Statement), Ready host limit budget s.includes → ∀ env,
    Settles limit budget (execute host · env s)
  | .use module, h, env => h.use module (List.mem_singleton_self _) env
  | .bind bindings, h, env => .succ ((bindings_settle bindings h env.frame).bind fun _ => .pure _)
  | .expr x, h, env => .succ ((x.settles h env).bind fun _ => .pure _)

theorem exprs_settle : ∀ (xs : List Expr), Ready host limit budget (exprIncludes xs) → ∀ env,
    Settles limit budget fun n => evaluateEach (evaluate host n env) xs
  | [], _, env => .pure _
  | x :: rest, h, env => by
    obtain ⟨hx, hrest⟩ := ready_append.mp h
    exact (x.settles hx env).bind fun _ => (exprs_settle rest hrest env).bind fun _ => .pure _

theorem cases_settle : ∀ (cases : List Case), Ready host limit budget (caseIncludes cases) → ∀ env,
    Settles limit budget fun n => firstCase (evaluate host n env) cases >>= runBody host n env
  | [], _, env => by
    simp only [firstCase, fail_bind]
    exact .fail _
  | ⟨condition, body⟩ :: rest, h, env => by
    obtain ⟨hcase, hrest⟩ := ready_append.mp h
    obtain ⟨hcondition, hbody⟩ := ready_append.mp hcase
    simp only [firstCase, bind_assoc]
    refine (condition.settles hcondition env).bind fun value => ?_
    split
    · simpa only [pure_bind] using body_settles body hbody env
    · exact cases_settle rest hrest env
    · simp only [fail_bind]
      exact .fail _

theorem body_settles : ∀ (body : List Statement), Ready host limit budget (statementIncludes body) → ∀ env,
    Settles limit budget (runBody host · env body)
  | [], _, env => .succ (.pure _)
  | [.expr ⟨form, _⟩], h, env => .succ (form.settles (ready_append.mp h).1 env)
  | [.use module], h, env => .succ ((Statement.settles _ (ready_append.mp h).1 env).bind fun _ => .pure _)
  | [.bind bindings], h, env => .succ ((Statement.settles _ (ready_append.mp h).1 env).bind fun _ => .pure _)
  | s :: t :: rest, h, env => by
    obtain ⟨hs, hrest⟩ := ready_append.mp h
    exact .succ ((s.settles hs env).bind fun r => body_settles (t :: rest) hrest r.2)

theorem bindings_settle : ∀ (bindings : List Binding), Ready host limit budget (bindingIncludes bindings) → ∀ env,
    Settles limit budget fun n => bindEach (evaluate host n) env bindings
  | [], _, env => .pure _
  | ⟨name, value⟩ :: rest, h, env => by
    obtain ⟨hvalue, hrest⟩ := ready_append.mp h
    exact (value.settles hvalue env).bind fun v => bindings_settle rest hrest (env.bind name v)
end

/-- The statements of a module, one after another. -/
theorem statements_settle (statements : List Statement)
    (h : Ready host limit budget (statementIncludes statements)) (value : Value) (env : Environment) :
    Settles limit budget fun n => executeEach (execute host n) value env statements := by
  induction statements generalizing value env with
  | nil => exact .pure _
  | cons s rest ih =>
    obtain ⟨hs, hrest⟩ := ready_append.mp h
    exact (s.settles hs env).bind fun r => ih hrest r.1 r.2

/-- A module can be loaded if those that it includes can. -/
theorem use_settles (happly : ∀ callee arguments, Settles limit budget (apply host · callee arguments))
    {m : String} (hm : Acc (Includes host.loader) m) (env : Environment) :
    Settles limit budget (execute host · env (.use m)) := by
  induction hm generalizing env with
  | intro m _ ih =>
    refine .succ ?_
    simp only [execute]
    obtain ⟨statements, hmodule⟩ | ⟨_, hfails⟩ := isModule_or_loadFails host.loader m
    · have hready : Ready host limit budget (statementIncludes statements) := by
        obtain ⟨source, hsource, hparse⟩ := hmodule
        exact ⟨happly, fun m' hm' env => ih m' ⟨source, statements, hsource, hparse, hm'⟩ env⟩
      simp only [loadModule_of_isModule hmodule, pure_bind]
      exact (statements_settle statements hready .nothing env).bind fun _ => .pure _
    · simp only [loadModule_of_loadFails hfails, fail_bind]
      exact .fail _

theorem Settles.builtin (hfunctions : host.functions = []) (builtin : Builtin) (arguments : List Value)
    (ask : Nat → Request Value → Run Value) :
    Settles limit budget fun n => builtin.run host (ask n) n arguments := by
  obtain ⟨name, primitive | index⟩ := builtin
  · exact .of_uncounted (primitive.run_uncounted host arguments)
  · have hnone : host.functions[index]? = none := by simp [hfunctions]
    simp only [Builtin.run_missing host _ _ name arguments hnone]
    exact .fail _

theorem apply_settles_of_call (hfunctions : host.functions = [])
    (hcall : ∀ scope body leftover, Settles limit budget (call host · scope body leftover)) (callee : Value)
    (arguments : List Value) : Settles limit budget (apply host · callee arguments) := by
  refine .succ ?_
  cases callee with
  | closure parameters body env =>
    by_cases h : arguments.length < parameters.length
    · simp only [apply_partial host _ h]
      exact .pure _
    · simp only [apply_saturated host _ (Nat.le_of_not_lt h)]
      exact hcall _ _ _
  | builtin entry => exact .builtin hfunctions entry arguments _
  | _ => exact .fail _

/-- By induction on the budget: the body of a call has one call less than the call. -/
theorem apply_settles (hfunctions : host.functions = []) (hlimit : host.callLimit = some limit)
    (hmodules : WellFounded (Includes host.loader)) (budget : Nat) :
    ∀ callee arguments, Settles limit budget (apply host · callee arguments) := by
  induction budget with
  | zero => exact apply_settles_of_call hfunctions fun _ _ _ => .refused hlimit _
  | succ budget ih =>
    refine apply_settles_of_call hfunctions fun scope body leftover => .counted hlimit ?_
    have hready : Ready host limit budget (statementIncludes body) :=
      ⟨ih, fun m _ env => use_settles ih (hmodules.apply m) env⟩
    refine ((body_settles body hready scope).bind hready.settle).bind fun value => ?_
    cases leftover with
    | nil => exact .pure value
    | cons x xs => exact ih value (x :: xs)

end

/-- **A call limit makes evaluation terminate.** With primitives behind all builtins,
and modules that do not include each other in a circle, every statement ends in every
environment and every call of a value ends, whatever the program is. -/
theorem callLimit_ends {host : Host} {limit : Nat} (hfunctions : host.functions = [])
    (hlimit : host.callLimit = some limit) (hmodules : WellFounded (Includes host.loader)) (world : World) :
    (∀ env s, ∃ result left, Ends (execute host · env s) world result left) ∧
    ∀ callee arguments, ∃ result left, Ends (apply host · callee arguments) world result left := by
  have happly := apply_settles hfunctions hlimit hmodules limit
  have hworld : Within limit limit world := Nat.le_add_left _ _
  refine ⟨fun env s => ?_, fun callee arguments => (happly callee arguments).ends hworld⟩
  have hready : Ready host limit limit s.includes :=
    ⟨happly, fun m _ env => use_settles happly (hmodules.apply m) env⟩
  exact (s.settles hready env).ends hworld

def layered : Host where
  builtins := Builtin.all
  loader name :=
    if name = "outer" then .ok "use \"inner\";"
    else if name = "inner" then .ok "let f <- \x7b x | use \"outer\"; \x7d;"
    else .error (.moduleLoad name "no such module")
  callLimit := some 3
  outputFault := none
  functions := []

theorem layered_includes {inner outer : String} (h : Includes layered.loader inner outer) :
    inner = "inner" ∧ outer = "outer" := by
  obtain ⟨source, statements, hsource, hparse, hinner⟩ := h
  have hincludes : some (statementIncludes statements) = (parseSource source).toOption.map statementIncludes := by
    rw [hparse]
    rfl
  simp only [layered] at hsource
  split at hsource
  · rename_i houter
    cases hsource
    have hlist : statementIncludes statements = ["inner"] := Option.some.inj (hincludes.trans (by decide +kernel))
    rw [hlist] at hinner
    exact ⟨List.mem_singleton.mp hinner, houter⟩
  split at hsource
  · cases hsource
    have hlist : statementIncludes statements = [] := Option.some.inj (hincludes.trans (by decide +kernel))
    rw [hlist] at hinner
    cases hinner
  · cases hsource

theorem layered_wellFounded : WellFounded (Includes layered.loader) := by
  refine ⟨fun outer => ⟨outer, fun inner h => ⟨inner, fun innermost h' => ?_⟩⟩⟩
  exact absurd ((layered_includes h').2.symm.trans (layered_includes h).1) (by decide)

/-- `{f| f f;}` -/
def selfApply : Value :=
  .closure ["f"] [.expr (Form.application [(Form.name "f").bare, (Form.name "f").bare]).bare] .global

/-- A function applied to itself, and the load of modules beside it. -/
theorem selfApply_ends :
    layered.functions = [] ∧ layered.callLimit = some 3 ∧ WellFounded (Includes layered.loader) ∧
      (∃ result left, Ends (execute layered · .global (.use "outer")) .start result left) ∧
      (∃ result left, Ends (apply layered · selfApply [selfApply]) .start result left) ∧
      Ends (apply layered · selfApply [selfApply]) .start (.error (.callLimit 3)) ⟨[], "", 3⟩ := by
  obtain ⟨hexecute, happly⟩ := @callLimit_ends layered 3 rfl rfl layered_wellFounded .start
  exact ⟨rfl, rfl, layered_wellFounded, hexecute .global (.use "outer"), happly selfApply [selfApply], 10, rfl⟩

end CurriedScript
