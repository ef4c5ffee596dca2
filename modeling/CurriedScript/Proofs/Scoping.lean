import CurriedScript.Proofs.Lockstep

/-!
# Lexical scoping

`evaluate_sameEnd_of_free`: an expression without `use` depends on nothing in its
environment but the values of its free names. The values that it gives in two
environments can differ in what their closures captured, but no application can
tell: `Interchangeable`.
-/

namespace CurriedScript

/-- Related values show the same, and calls of related values with related
arguments end alike, with any host and from any world, in related values. -/
structure Bisimulation (R : Value → Value → Prop) : Prop where
  refl : ∀ v, R v v
  display : ∀ {v v'}, R v v' → v.display = v'.display
  apply : ∀ {v v' xs xs'}, R v v' → List.Forall₂ R xs xs' → ∀ host world,
    SameEnd R (apply host · v xs) (apply host · v' xs') world

/-- No application tells the values apart, whether they are called or passed, nor
what comes out of it. -/
def Interchangeable (v v' : Value) : Prop := ∃ R, Bisimulation R ∧ R v v'

theorem alike_bisimulation (kept : String → Prop) : Bisimulation (Alike kept) where
  refl := .refl
  display h := h.display_eq
  apply h hxs host world := sameEnd_of_rel (fun n => (lockstep kept host n).apply h hxs) world

theorem Alike.interchangeable {kept : String → Prop} {v v' : Value} (h : Alike kept v v') : Interchangeable v v' :=
  ⟨Alike kept, alike_bisimulation kept, h⟩

theorem Interchangeable.display_eq {v v' : Value} (h : Interchangeable v v') : v.display = v'.display := by
  obtain ⟨R, hR, hv⟩ := h
  exact hR.display hv

theorem Interchangeable.called {v v' : Value} (h : Interchangeable v v') (xs : List Value) (host : Host)
    (world : World) : SameEnd Interchangeable (apply host · v xs) (apply host · v' xs) world := by
  obtain ⟨R, hR, hv⟩ := h
  have hxs : List.Forall₂ R xs xs := List.forall₂_same.mpr fun x _ => hR.refl x
  exact (hR.apply hv hxs host world).mono fun _ _ hr => ⟨R, hR, hr⟩

theorem Interchangeable.passed {v v' : Value} (h : Interchangeable v v') (f : Value) (xs ys : List Value)
    (host : Host) (world : World) :
    SameEnd Interchangeable (apply host · f (xs ++ v :: ys))
      (apply host · f (xs ++ v' :: ys)) world := by
  obtain ⟨R, hR, hv⟩ := h
  have hsame : ∀ zs : List Value, List.Forall₂ R zs zs := fun zs => List.forall₂_same.mpr fun z _ => hR.refl z
  have hargs : List.Forall₂ R (xs ++ v :: ys) (xs ++ v' :: ys) := List.rel_append (hsame xs) (.cons hv (hsame ys))
  exact (hR.apply (hR.refl f) hargs host world).mono fun _ _ hr => ⟨R, hR, hr⟩

theorem alikeOn_of_free {uses free : List String} (huses : uses = []) {env env' : Environment}
    (h : ∀ n ∈ free, env.get? n = env'.get? n) :
    AlikeOn (fun _ => False) (Reads (fun _ => False) uses free) env env' := by
  refine .of_eq fun n hn => ?_
  rcases hn with hn | hn | hn
  · exact hn.elim
  · exact absurd huses hn
  · exact h n hn

theorem evaluate_sameEnd_of_alikeOn {kept : String → Prop} {x : Expr} {env env' : Environment}
    (h : AlikeOn kept (Reads kept x.uses x.free) env env') (host : Host) (world : World) :
    SameEnd Interchangeable (evaluate host · env x) (evaluate host · env' x) world :=
  (sameEnd_of_rel (fun n => (lockstep kept host n).evaluate x h) world).mono fun _ _ => Alike.interchangeable

/-- **Coincidence.** In environments that agree on the free names of an expression
that loads no module, it diverges in both, or fails with the same error, or gives
values that are interchangeable, and it leaves the same world. -/
theorem evaluate_sameEnd_of_free (x : Expr) (huses : x.uses = []) (env env' : Environment)
    (hfree : ∀ n ∈ x.free, env.get? n = env'.get? n) (host : Host) (world : World) :
    SameEnd Interchangeable (evaluate host · env x) (evaluate host · env' x) world :=
  evaluate_sameEnd_of_alikeOn (alikeOn_of_free huses hfree) host world

/-- `{x| y;} y` -/
def passesFree : Expr :=
  (Form.application [(Form.function ["x"] [.expr (Form.name "y").bare]).bare, (Form.name "y").bare]).bare

/-- An environment that binds the parameter too. -/
theorem evaluate_passesFree_sameEnd :
    passesFree.uses = [] ∧
      (∀ n ∈ passesFree.free, (Environment.bind "y" .bang .global).get? n =
        (Environment.bind "x" .nothing (.bind "y" .bang .global)).get? n) ∧
      SameEnd Interchangeable (evaluate .bare · (.bind "y" .bang .global) passesFree)
        (evaluate .bare · (.bind "x" .nothing (.bind "y" .bang .global)) passesFree) .start ∧
      Ends (evaluate .bare · (.bind "y" .bang .global) passesFree) .start (.ok .bang) ⟨[], "", 1⟩ := by
  have hfree : ∀ n ∈ passesFree.free, (Environment.bind "y" .bang .global).get? n =
      (Environment.bind "x" .nothing (.bind "y" .bang .global)).get? n := by
    intro n hn
    obtain rfl : n = "y" := by
      simpa [passesFree, Form.bare, Expr.free, Form.free, exprFree, bodyFree, Statement.free,
        Statement.binds] using hn
    rfl
  exact ⟨rfl, hfree, evaluate_sameEnd_of_free passesFree rfl _ _ hfree .bare .start, 5, rfl⟩

/-- A binding of a name that the expression does not read freely changes nothing. -/
theorem evaluate_bind_sameEnd {x : Expr} (huses : x.uses = []) {name : String} (hname : name ∉ x.free)
    (env : Environment) (v : Value) (host : Host) (world : World) :
    SameEnd Interchangeable (evaluate host · (env.bind name v) x) (evaluate host · env x) world := by
  refine evaluate_sameEnd_of_alikeOn (alikeOn_of_free huses fun n hn => ?_) host world
  have hne : name ≠ n := fun he => hname (he ▸ hn)
  rw [Environment.get?, if_neg hne]

end CurriedScript
