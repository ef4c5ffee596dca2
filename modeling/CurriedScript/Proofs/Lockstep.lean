import CurriedScript.Proofs.Alike
import CurriedScript.Proofs.Trampoline

/-!
# Evaluation in step

`lockstep`: with the same fuel and from the same world, alike callees with alike
arguments, and expressions in environments that are alike on what they read, run
in step. The induction is on the fuel. A statement is run for the sake of names
that those after it read, so the environments it leaves are compared on any
names, given that the ones before were alike on those it does not bind.
-/

namespace CurriedScript

open Run

inductive OutcomeAlike (kept : String → Prop) : Outcome → Outcome → Prop
  | value {v v' : Value} : Alike kept v v' → OutcomeAlike kept (.value v) (.value v')
  | call {f f' : Value} {xs xs' : List Value} : Alike kept f f' → List.Forall₂ (Alike kept) xs xs' →
      OutcomeAlike kept (.call f xs) (.call f' xs')

def PairAlike (kept names : String → Prop) (r r' : Value × Environment) : Prop :=
  Alike kept r.1 r'.1 ∧ AlikeOn kept names r.2 r'.2

structure Lockstep (kept : String → Prop) (host : Host) (fuel : Nat) : Prop where
  apply : ∀ {v v' xs xs'}, Alike kept v v' → List.Forall₂ (Alike kept) xs xs' →
    Rel (Alike kept) (apply host fuel v xs) (apply host fuel v' xs')
  evaluate : ∀ {env env'} (x : Expr), AlikeOn kept (Reads kept x.uses x.free) env env' →
    Rel (Alike kept) (evaluate host fuel env x) (evaluate host fuel env' x)
  tail : ∀ {env env'} (form : Form), AlikeOn kept (Reads kept form.uses form.free) env env' →
    Rel (OutcomeAlike kept) (evaluateTail host fuel env form) (evaluateTail host fuel env' form)
  body : ∀ {env env'} (body : List Statement),
      AlikeOn kept (Reads kept (statementUses body) (bodyFree body)) env env' →
    Rel (OutcomeAlike kept) (runBody host fuel env body) (runBody host fuel env' body)
  execute : ∀ {env env'} (s : Statement) (names : String → Prop),
    AlikeOn kept (fun n => Reads kept s.uses s.free n ∨ names n ∧ n ∉ s.binds) env env' →
    Rel (PairAlike kept names) (execute host fuel env s) (execute host fuel env' s)

section
variable {kept : String → Prop} {host : Host} {fuel : Nat} (ih : Lockstep kept host fuel)
  {env env' : Environment}

theorem lookup_rel {n : String} (h : Option.Rel (Alike kept) (env.get? n) (env'.get? n)) :
    Rel (Alike kept) (lookup env n) (lookup env' n) := by
  unfold lookup
  generalize env.get? n = found, env'.get? n = found' at h
  cases h with
  | none => exact .throw _
  | some h => exact .pure h

include ih

theorem settle_rel {o o' : Outcome} (h : OutcomeAlike kept o o') :
    Rel (Alike kept) (settle host fuel o) (settle host fuel o') := by
  cases h with
  | value h => exact .pure h
  | call hf hxs => exact ih.apply hf hxs

theorem call_rel (body : List Statement) {leftover leftover' : List Value}
    (h : AlikeOn kept (Reads kept (statementUses body) (bodyFree body)) env env')
    (hleftover : List.Forall₂ (Alike kept) leftover leftover') :
    Rel (Alike kept) (call host fuel env body leftover) (call host fuel env' body leftover') := by
  unfold call
  refine (Rel.refl (fun _ => rfl) _).bind fun _ _ _ => ?_
  refine ((ih.body body h).bind fun _ _ => settle_rel ih).bind fun value value' hvalue => ?_
  cases hleftover with
  | nil => exact .pure hvalue
  | cons hy hys => exact ih.apply hvalue (.cons hy hys)

theorem evaluate_rel (x : Expr) (h : AlikeOn kept (Reads kept x.uses x.free) env env') :
    Rel (Alike kept) (evaluate host (fuel + 1) env x) (evaluate host (fuel + 1) env' x) := by
  obtain ⟨form, signature⟩ := x
  rw [evaluate_succ, evaluate_succ]
  exact (ih.tail form h).bind fun _ _ => settle_rel ih

/-! ## Lists -/

theorem evaluateEach_rel (xs : List Expr) (h : AlikeOn kept (Reads kept (exprUses xs) (exprFree xs)) env env') :
    Rel (List.Forall₂ (Alike kept)) (evaluateEach (evaluate host fuel env) xs)
      (evaluateEach (evaluate host fuel env') xs) := by
  induction xs with
  | nil => exact .pure .nil
  | cons x rest ihrest =>
    refine (ih.evaluate x (h.mono fun _ => .append_left)).bind fun _ _ hv => ?_
    refine (ihrest (h.mono fun _ => .append_right)).bind fun _ _ hvs => ?_
    exact .pure (.cons hv hvs)

theorem firstCase_rel (cases : List Case)
    (h : AlikeOn kept (Reads kept (caseUses cases) (caseFree cases)) env env') :
    Rel (fun body body' => body = body' ∧ AlikeOn kept (Reads kept (statementUses body) (bodyFree body)) env env')
      (firstCase (evaluate host fuel env) cases) (firstCase (evaluate host fuel env') cases) := by
  induction cases with
  | nil => exact .throw _
  | cons c rest ihrest =>
    obtain ⟨condition, body⟩ := c
    have hcase : AlikeOn kept (Reads kept (condition.uses ++ statementUses body) (condition.free ++ bodyFree body))
        env env' := h.mono fun _ => .append_left
    refine (ih.evaluate condition (hcase.mono fun _ => .append_left)).bind fun v v' hv => ?_
    cases hv with
    | closure => exact .throw _
    | refl =>
      split
      · exact .pure ⟨rfl, hcase.mono fun _ => .append_right⟩
      · exact ihrest (h.mono fun _ => .append_right)
      · exact .throw _

theorem bindEach_rel (bindings : List Binding) (names : String → Prop)
    (h : AlikeOn kept (fun n => Reads kept (bindingUses bindings) (bindingFree bindings) n ∨
      names n ∧ n ∉ bindings.map (·.name)) env env') :
    Rel (AlikeOn kept names) (bindEach (evaluate host fuel) env bindings)
      (bindEach (evaluate host fuel) env' bindings) := by
  induction bindings generalizing env env' with
  | nil => exact .pure (h.mono fun n hn => .inr ⟨hn, by simp⟩)
  | cons b rest ihrest =>
    obtain ⟨name, value⟩ := b
    refine (ih.evaluate value (h.mono fun _ hn => .inl hn.append_left)).bind fun v v' hv => ?_
    refine ihrest (AlikeOn.bind (h.mono ?_) hv)
    -- the others read the new binding and, but for its name, what all of them read
    rintro n ⟨hn | ⟨hn, hrest⟩, hne⟩
    · exact .inl (hn.filter (by simpa using hne)).append_right
    · exact .inr ⟨hn, by simpa [hne] using hrest⟩

/-- The statements of a module: they run only where all names are alike. -/
theorem executeEach_rel (statements : List Statement) {v v' : Value} (hv : Alike kept v v')
    (h : AlikeOn kept (fun _ => True) env env') :
    Rel (PairAlike kept fun _ => True) (executeEach (execute host fuel) v env statements)
      (executeEach (execute host fuel) v' env' statements) := by
  induction statements generalizing v v' env env' with
  | nil => exact .pure ⟨hv, h⟩
  | cons s rest ihrest =>
    refine (ih.execute s (fun _ => True) (h.mono fun _ _ => trivial)).bind fun r r' hr => ?_
    exact ihrest hr.1 hr.2

/-! ## Calls, forms, bodies and statements -/

theorem request_rel {request request' : Request Value} (h : Request.Related (Alike kept) request request') :
    Rel (Alike kept) (request.answer (apply host fuel) (execute host fuel))
      (request'.answer (apply host fuel) (execute host fuel)) := by
  cases h with
  | call hf hxs => exact ih.apply hf hxs
  | @run names xs xs' statements hxs =>
    have hroot : AlikeOn kept (fun _ => True) (Environment.empty.extend (names.zip xs))
        (Environment.empty.extend (names.zip xs')) := .bindAll hxs (.refl Environment.empty.frame)
    exact (executeEach_rel ih statements (.refl _) hroot).bind fun _ _ hr => .pure hr.1

theorem apply_rel {v v' : Value} {xs xs' : List Value} (h : Alike kept v v')
    (hxs : List.Forall₂ (Alike kept) xs xs') :
    Rel (Alike kept) (apply host (fuel + 1) v xs) (apply host (fuel + 1) v' xs') := by
  cases v with
  | closure parameters body env =>
    obtain ⟨env', rfl, henv⟩ := h.closure_inv
    have hscope := henv.scope hxs
    have hlength := hxs.length_eq
    by_cases hlt : xs.length < parameters.length
    · rw [apply_partial host fuel hlt, apply_partial host fuel (hlength ▸ hlt), ← hlength]
      exact .pure (.closure hscope)
    · have hle : parameters.length ≤ xs.length := Nat.le_of_not_lt hlt
      rw [apply_saturated host fuel hle, apply_saturated host fuel (hlength ▸ hle)]
      refine call_rel ih body (hscope.mono fun n hn => hn.filter ?_) (List.forall₂_drop _ hxs)
      simp [List.drop_eq_nil_of_le hle]
  | builtin entry =>
    cases h
    exact entry.run_related alike_unseen host (request_rel ih) fuel hxs
  | _ =>
    cases h
    exact .throw _

theorem tail_rel (form : Form) (h : AlikeOn kept (Reads kept form.uses form.free) env env') :
    Rel (OutcomeAlike kept) (evaluateTail host (fuel + 1) env form) (evaluateTail host (fuel + 1) env' form) := by
  cases form with
  | literal literal => exact .pure (.value (.refl _))
  | name name =>
    exact (lookup_rel (h name (.inr (.inr (by simp [Form.free]))))).bind fun _ _ hv => .pure (.value hv)
  | function parameters body => exact .pure (.value (.closure h))
  | builtin name => exact (Rel.refl .refl _).bind fun _ _ hv => .pure (.value hv)
  | chain left operator right =>
    have hright : AlikeOn kept (Reads kept right.uses right.free) env env' :=
      h.mono fun _ hn => hn.mono (by simp [Form.uses]) (by simp [Form.free])
    refine (ih.evaluate left (h.mono fun _ => .append_left)).bind fun _ _ hleft => ?_
    refine (lookup_rel (h operator (.inr (.inr (by simp [Form.free]))))).bind fun _ _ hcallee => ?_
    refine (ih.evaluate right hright).bind fun _ _ hvalue => ?_
    exact .pure (.call hcallee (.cons hleft (.cons hvalue .nil)))
  | application elements =>
    cases elements with
    | nil => exact .throw _
    | cons head rest =>
      refine (ih.evaluate head (h.mono fun _ => .append_left)).bind fun _ _ hcallee => ?_
      refine (evaluateEach_rel ih rest (h.mono fun _ => .append_right)).bind fun _ _ harguments => ?_
      exact .pure (.call hcallee harguments)
  | conditional cases =>
    refine (firstCase_rel ih cases h).bind fun body body' hbody => ?_
    obtain ⟨rfl, hbody⟩ := hbody
    exact ih.body body hbody

theorem body_rel (body : List Statement)
    (h : AlikeOn kept (Reads kept (statementUses body) (bodyFree body)) env env') :
    Rel (OutcomeAlike kept) (runBody host (fuel + 1) env body) (runBody host (fuel + 1) env' body) := by
  match body with
  | [] => exact .pure (.value (.refl _))
  | [.expr ⟨form, _⟩] => exact ih.tail form (h.mono fun _ => .append_left)
  | [.use _] | [.bind _] =>
    refine (ih.execute _ (Reads kept (statementUses []) (bodyFree [])) (h.mono fun _ => .of_body)).bind
      fun _ _ hr => ?_
    exact .pure (.value hr.1)
  | s :: t :: rest =>
    refine (ih.execute s _ (h.mono fun _ => .of_body)).bind fun _ _ hr => ?_
    exact ih.body (t :: rest) hr.2

theorem execute_rel (s : Statement) (names : String → Prop)
    (h : AlikeOn kept (fun n => Reads kept s.uses s.free n ∨ names n ∧ n ∉ s.binds) env env') :
    Rel (PairAlike kept names) (execute host (fuel + 1) env s) (execute host (fuel + 1) env' s) := by
  cases s with
  | use module =>
    -- what the module reads is not known, so the names are all there are
    have hall : AlikeOn kept (fun _ => True) env env' := h.mono fun _ _ => .inl (.of_use (by simp [Statement.uses]))
    refine (Rel.refl (fun _ => rfl) (loadModule host module)).bind fun statements _ hs => ?_
    obtain rfl := hs
    refine (executeEach_rel ih statements (.refl _) hall).bind fun _ _ hr => ?_
    exact .pure ⟨.refl _, hr.2.mono fun _ _ => trivial⟩
  | bind bindings =>
    refine (bindEach_rel ih bindings names h.frame).bind fun _ _ henv => ?_
    exact .pure ⟨.refl _, henv⟩
  | expr x =>
    refine (ih.evaluate x (h.mono fun _ => .inl)).bind fun _ _ hv => ?_
    exact .pure ⟨hv, h.mono fun n hn => .inr ⟨hn, by simp [Statement.binds]⟩⟩

end

theorem lockstep (kept : String → Prop) (host : Host) (fuel : Nat) : Lockstep kept host fuel := by
  induction fuel with
  | zero =>
    exact ⟨fun _ _ => .throw _, fun _ _ => .throw _, fun _ _ => .throw _, fun _ _ => .throw _,
      fun _ _ _ => .throw _⟩
  | succ fuel ih => exact ⟨apply_rel ih, evaluate_rel ih, tail_rel ih, body_rel ih, execute_rel ih⟩

end CurriedScript
