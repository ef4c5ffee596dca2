import CurriedScript.Evaluate

/-!
# Fuel

More fuel changes only the runs that ran out of it. `Le` compares two runs in
this way; it is kept by sequencing, and one induction over the fuel carries it
through the evaluator.
-/

namespace CurriedScript

namespace Run

/-- From every world the first run is out of fuel or ends as the second does. -/
def Le {α : Type} (m m' : Run α) : Prop :=
  ∀ world, (∃ left, m.run world = .error .outOfFuel left) ∨ m'.run world = m.run world

theorem run_bind_ok {α β : Type} {m : Run α} {f : α → Run β} {world left : World} {a : α}
    (h : m.run world = .ok a left) : (m >>= f).run world = (f a).run left := by
  simp [EStateM.run_bind, h]

theorem run_bind_error {α β : Type} {m : Run α} {f : α → Run β} {world left : World} {halt : Halt}
    (h : m.run world = .error halt left) : (m >>= f).run world = .error halt left := by
  simp [EStateM.run_bind, h]

theorem attempt_run {σ α : Type} (m : EStateM Halt σ α) (s : σ) : (attempt m).run s =
    match m.run s with
    | .ok a left => .ok (.ok a) left
    | .error (.failure e) left => .ok (.error e) left
    | .error .outOfFuel left => .error .outOfFuel left := rfl

theorem Le.refl {α : Type} (m : Run α) : Le m m := fun _ => .inr rfl

theorem Le.trans {α : Type} {m₁ m₂ m₃ : Run α} (h : Le m₁ m₂) (h' : Le m₂ m₃) : Le m₁ m₃ := by
  intro world
  rcases h world with h | h
  · exact .inl h
  · rcases h' world with ⟨left, hl⟩ | hr
    · exact .inl ⟨left, h ▸ hl⟩
    · exact .inr (hr.trans h)

theorem Le.of_succ {α : Type} {m : Nat → Run α} (h : ∀ n, Le (m n) (m (n + 1))) {n k : Nat} (hnk : n ≤ k) :
    Le (m n) (m k) := by
  induction hnk with
  | refl => exact .refl _
  | step _ ih => exact ih.trans (h _)

theorem outOfFuel_le {α : Type} (m : Run α) : Le outOfFuel m := fun world => .inl ⟨world, rfl⟩

theorem Le.bind {α β : Type} {m m' : Run α} {f f' : α → Run β} (h : Le m m')
    (hf : ∀ a, Le (f a) (f' a)) : Le (m >>= f) (m' >>= f') := by
  intro world
  rcases h world with ⟨left, h⟩ | h
  · exact .inl ⟨left, run_bind_error h⟩
  · cases hm : m.run world with
    | ok a left =>
      rw [run_bind_ok hm, run_bind_ok (h.trans hm)]
      exact hf a left
    | error halt left => exact .inr (by rw [run_bind_error hm, run_bind_error (h.trans hm)])

structure Sequencing (R : {α : Type} → Run α → Run α → Prop) : Prop where
  pure : ∀ {α : Type} (a : α), R (pure a) (pure a)
  throw : ∀ {α : Type} (halt : Halt), R (throw halt : Run α) (throw halt)
  bind : ∀ {α β : Type} {m m' : Run α} {f f' : α → Run β}, R m m' → (∀ a, R (f a) (f' a)) →
    R (m >>= f) (m' >>= f')

structure Congruence (R : {α : Type} → Run α → Run α → Prop) : Prop where
  refl : ∀ {α : Type} (m : Run α), R m m
  bind : ∀ {α β : Type} {m m' : Run α} {f f' : α → Run β}, R m m' → (∀ a, R (f a) (f' a)) →
    R (m >>= f) (m' >>= f')

theorem Congruence.sequencing {R : {α : Type} → Run α → Run α → Prop} (h : Congruence R) : Sequencing R :=
  ⟨fun _ => h.refl _, fun _ => h.refl _, h.bind⟩

theorem Le.congruence : Congruence Le := ⟨.refl, .bind⟩

theorem Le.attempt {α : Type} {m m' : Run α} (h : Le m m') : Le (attempt m) (attempt m') := by
  intro world
  rcases h world with ⟨left, h⟩ | h
  · exact .inl ⟨left, by rw [attempt_run, h]⟩
  · exact .inr (by rw [attempt_run, attempt_run, h])

theorem Le.congruence_flip : Congruence fun m m' => Le m' m := ⟨.refl, .bind⟩

end Run

open Run

/-! ## Lists -/

section
variable {R : {α : Type} → Run α → Run α → Prop} (hR : Sequencing R)
include hR

theorem evaluateEach_congr {e e' : Expr → Run Value} (h : ∀ x, R (e x) (e' x)) (exprs : List Expr) :
    R (evaluateEach e exprs) (evaluateEach e' exprs) := by
  induction exprs with
  | nil => exact hR.pure _
  | cons x rest ih => exact hR.bind (h x) fun _ => hR.bind ih fun _ => hR.pure _

theorem firstCase_congr {e e' : Expr → Run Value} (h : ∀ x, R (e x) (e' x)) (cases : List Case) :
    R (firstCase e cases) (firstCase e' cases) := by
  induction cases with
  | nil => exact hR.throw _
  | cons c rest ih =>
    refine hR.bind (h _) fun _ => ?_
    split
    · exact hR.pure _
    · exact ih
    · exact hR.throw _

theorem bindEach_congr {e e' : Environment → Expr → Run Value} (h : ∀ env x, R (e env x) (e' env x))
    (env : Environment) (bindings : List Binding) :
    R (bindEach e env bindings) (bindEach e' env bindings) := by
  induction bindings generalizing env with
  | nil => exact hR.pure _
  | cons b rest ih => exact hR.bind (h _ _) fun _ => ih _

theorem executeEach_congr {e e' : Environment → Statement → Run (Value × Environment)}
    (h : ∀ env s, R (e env s) (e' env s)) (value : Value) (env : Environment)
    (statements : List Statement) :
    R (executeEach e value env statements) (executeEach e' value env statements) := by
  induction statements generalizing value env with
  | nil => exact hR.pure _
  | cons s rest ih => exact hR.bind (h _ _) fun _ => ih _ _

theorem Request.answer_congr {a a' : Value → List Value → Run Value}
    {e e' : Environment → Statement → Run (Value × Environment)} (ha : ∀ callee xs, R (a callee xs) (a' callee xs))
    (he : ∀ env s, R (e env s) (e' env s)) (request : Request Value) :
    R (request.answer a e) (request.answer a' e') := by
  cases request with
  | call callee xs => exact ha callee xs
  | run names values statements =>
    exact hR.bind (executeEach_congr hR he .nothing (.root (names.zip values)) statements) fun _ => hR.pure _

end

/-! ## Functions of hosts -/

/-- The relation holds of what the function does by itself under both hosts. It need not
be kept by attempts if the function makes none. -/
structure HostFunction.Related (R : {α : Type} → Run α → Run α → Prop) (host host' : Host) (f : HostFunction) :
    Prop where
  next : f.next host.toSettings = f.next host'.toSettings
  write : ∀ text, R (write host text) (write host' text)
  take : ∀ seen count, f.next host.toSettings seen = .take count → R (takeInput count) (takeInput count)
  attempt : ∀ seen request, f.next host.toSettings seen = .attempt request → ∀ {α : Type} {m m' : Run α}, R m m' →
    R (attempt m) (attempt m')

section
variable {R : {α : Type} → Run α → Run α → Prop} (hR : Sequencing R) {host host' : Host} {f : HostFunction}
  (hf : f.Related R host host') {ask ask' : Request Value → Run Value}
  (hask : ∀ request, R (ask request) (ask' request))
include hR hf hask

theorem HostFunction.step_congr {goOn goOn' : List Value → List Seen → Run Value}
    (hgoOn : ∀ held seen, R (goOn held seen) (goOn' held seen)) (held : List Value) (seen : List Seen) :
    R (f.step host ask goOn held seen) (f.step host' ask' goOn' held seen) := by
  unfold HostFunction.step
  rw [← hf.next]
  cases hmove : f.next host.toSettings seen with
  | answer operand => exact hR.pure _
  | fail e => exact hR.throw _
  | write text => exact hR.bind (hf.write text) fun _ => hgoOn _ _
  | take count => exact hR.bind (hf.take seen count hmove) fun _ => hgoOn _ _
  | ask request => exact hR.bind (hask _) fun _ => hgoOn _ _
  | attempt request =>
    refine hR.bind (hf.attempt seen request hmove (hask _)) fun answer => ?_
    cases answer <;> exact hgoOn _ _

theorem HostFunction.moves_congr (fuel : Nat) (held : List Value) (seen : List Seen) :
    R (f.moves host ask fuel held seen) (f.moves host' ask' fuel held seen) := by
  induction fuel generalizing held seen with
  | zero => exact hR.throw _
  | succ fuel ih => exact f.step_congr hR hf hask ih held seen

end

theorem HostFunction.related_le (host : Host) (f : HostFunction) : f.Related Le host host :=
  ⟨rfl, fun _ => .refl _, fun _ _ _ => .refl _, fun _ _ _ => .attempt⟩

theorem HostFunction.moves_succ_le (host : Host) (f : HostFunction) (ask : Request Value → Run Value) (fuel : Nat)
    (held : List Value) (seen : List Seen) :
    Le (f.moves host ask fuel held seen) (f.moves host ask (fuel + 1) held seen) := by
  induction fuel generalizing held seen with
  | zero => exact outOfFuel_le _
  | succ fuel ih =>
    exact f.step_congr Le.congruence.sequencing (f.related_le host) (fun _ => .refl _) ih held seen

theorem Builtin.run_le (host : Host) {ask ask' : Request Value → Run Value}
    (hask : ∀ request, Le (ask request) (ask' request))
    {n m : Nat} (h : n ≤ m) (builtin : Builtin) (arguments : List Value) :
    Le (builtin.run host ask n arguments) (builtin.run host ask' m arguments) := by
  obtain ⟨name, primitive | index⟩ := builtin
  · exact .refl _
  · cases hf : host.functions[index]? with
    | none =>
      rw [run_missing host ask n name arguments hf, run_missing host ask' m name arguments hf]
      exact .refl _
    | some f =>
      rw [run_supplied host ask n name arguments hf, run_supplied host ask' m name arguments hf]
      refine (f.moves_congr Le.congruence.sequencing (f.related_le host) hask n _ _).trans ?_
      exact .of_succ (m := fun n => f.moves host ask' n _ _) (fun n => f.moves_succ_le host ask' n _ _) h

/-! ## The evaluator -/

theorem succ_fuel_le (host : Host) (fuel : Nat) :
    (∀ callee arguments, Le (apply host fuel callee arguments) (apply host (fuel + 1) callee arguments)) ∧
    (∀ env expr, Le (evaluate host fuel env expr) (evaluate host (fuel + 1) env expr)) ∧
    (∀ env form, Le (evaluateTail host fuel env form) (evaluateTail host (fuel + 1) env form)) ∧
    (∀ env body, Le (runBody host fuel env body) (runBody host (fuel + 1) env body)) ∧
    (∀ env s, Le (execute host fuel env s) (execute host (fuel + 1) env s)) := by
  induction fuel with
  | zero =>
    exact ⟨fun _ _ => outOfFuel_le _, fun _ _ => outOfFuel_le _, fun _ _ => outOfFuel_le _,
      fun _ _ => outOfFuel_le _, fun _ _ => outOfFuel_le _⟩
  | succ fuel ih =>
    obtain ⟨happly, hevaluate, htail, hbody, hexecute⟩ := ih
    refine ⟨fun callee arguments => ?_, fun env expr => ?_, fun env form => ?_, fun env body => ?_,
      fun env s => ?_⟩
    · cases callee with
      | closure parameters body env =>
        rw [apply, apply]
        split
        · exact .refl _
        refine (Le.refl _).bind fun _ => (hbody _ _).bind fun _ => ?_
        split
        · exact .refl _
        · exact happly _ _
        · exact happly _ _
        · exact (happly _ _).bind fun _ => happly _ _
      | builtin entry =>
        exact entry.run_le host (Request.answer_congr Le.congruence.sequencing happly hexecute)
          (Nat.le_succ fuel) arguments
      | _ => exact .refl _
    · rw [evaluate, evaluate]
      refine (htail _ _).bind fun _ => ?_
      split
      · exact .refl _
      · exact happly _ _
    · cases form with
      | chain left operator right =>
        exact (hevaluate _ _).bind fun _ => (Le.refl _).bind fun _ => (hevaluate _ _).bind fun _ => .refl _
      | application elements =>
        cases elements with
        | nil => exact .refl _
        | cons head rest =>
          exact (hevaluate _ _).bind fun _ => (evaluateEach_congr Le.congruence.sequencing (hevaluate _) _).bind
            fun _ => .refl _
      | conditional cases =>
        exact (firstCase_congr Le.congruence.sequencing (hevaluate _) _).bind fun _ => hbody _ _
      | _ => exact .refl _
    · match body with
      | [] => exact .refl _
      | [.expr _] => exact htail _ _
      | [.use _] | [.bind _] => exact (hexecute _ _).bind fun _ => .refl _
      | _ :: _ :: _ => exact (hexecute _ _).bind fun _ => hbody _ _
    · cases s with
      | use name =>
        exact (Le.refl _).bind fun _ => (executeEach_congr Le.congruence.sequencing hexecute _ _ _).bind fun _ =>
          .refl _
      | bind bindings => exact (bindEach_congr Le.congruence.sequencing hevaluate _ _).bind fun _ => .refl _
      | expr expr => exact (hevaluate _ _).bind fun _ => .refl _

section
variable (host : Host) {n m : Nat} (h : n ≤ m)
include h

theorem apply_fuel_le (callee : Value) (arguments : List Value) :
    Le (apply host n callee arguments) (apply host m callee arguments) :=
  .of_succ (m := fun n => apply host n callee arguments) (fun n => (succ_fuel_le host n).1 callee arguments) h

theorem evaluate_fuel_le (env : Environment) (expr : Expr) :
    Le (evaluate host n env expr) (evaluate host m env expr) :=
  .of_succ (m := fun n => evaluate host n env expr) (fun n => (succ_fuel_le host n).2.1 env expr) h

theorem evaluateTail_fuel_le (env : Environment) (form : Form) :
    Le (evaluateTail host n env form) (evaluateTail host m env form) :=
  .of_succ (m := fun n => evaluateTail host n env form) (fun n => (succ_fuel_le host n).2.2.1 env form) h

theorem runBody_fuel_le (env : Environment) (body : List Statement) :
    Le (runBody host n env body) (runBody host m env body) :=
  .of_succ (m := fun n => runBody host n env body) (fun n => (succ_fuel_le host n).2.2.2.1 env body) h

theorem execute_fuel_le (env : Environment) (s : Statement) :
    Le (execute host n env s) (execute host m env s) :=
  .of_succ (m := fun n => execute host n env s) (fun n => (succ_fuel_le host n).2.2.2.2 env s) h

end

end CurriedScript
