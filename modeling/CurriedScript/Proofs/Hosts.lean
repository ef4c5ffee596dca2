import CurriedScript.Proofs.Ends

/-!
# Evaluation under two hosts

`evaluator_related`: a relation on runs that sequencing keeps, and that holds of
what the evaluator asks two hosts, holds of its runs under the two hosts with the
same fuel.
-/

namespace CurriedScript

open Run

/-- The function fails with whatever error a request of it fails with. -/
def HostFunction.PassesErrors (f : HostFunction) : Prop :=
  ∀ settings seen request, f.next settings seen ≠ .attempt request

theorem HostFunction.PassesErrors.related {f : HostFunction} (h : f.PassesErrors)
    {R : {α : Type} → Run α → Run α → Prop} {host host' : Host}
    (hnext : f.next host.toSettings = f.next host'.toSettings)
    (hwrite : ∀ text, R (write host text) (write host' text))
    (htake : ∀ count, R (takeInput count) (takeInput count)) : f.Related R host host' where
  next := hnext
  write := hwrite
  take _ count _ := htake count
  attempt _ request hattempt := absurd hattempt (h _ _ request)

/-- What the evaluator asks its host, one lemma for each question. The functions of the
hosts are the same. -/
structure HostsRelated (R : {α : Type} → Run α → Run α → Prop) (host host' : Host) : Prop where
  sequencing : Sequencing R
  countCall : R (countCall host) (countCall host')
  builtinNamed : ∀ name, R (builtinNamed host name) (builtinNamed host' name)
  loadModule : ∀ name, R (loadModule host name) (loadModule host' name)
  primitive : ∀ (primitive : Primitive) arguments, R (primitive.run host arguments) (primitive.run host' arguments)
  functions : host.functions = host'.functions
  function : ∀ f ∈ host.functions, f.Related R host host'

variable {R : {α : Type} → Run α → Run α → Prop} {host host' : Host}

theorem HostsRelated.builtin (h : HostsRelated R host host') {ask ask' : Request Value → Run Value}
    (hask : ∀ request, R (ask request) (ask' request)) (fuel : Nat) (builtin : Builtin) (arguments : List Value) :
    R (builtin.run host ask fuel arguments) (builtin.run host' ask' fuel arguments) := by
  obtain ⟨name, primitive | index⟩ := builtin
  · exact h.primitive primitive arguments
  · cases hf : host.functions[index]? with
    | none =>
      rw [Builtin.run_missing host ask fuel name arguments hf,
        Builtin.run_missing host' ask' fuel name arguments (h.functions ▸ hf)]
      exact h.sequencing.throw _
    | some f =>
      rw [Builtin.run_supplied host ask fuel name arguments hf,
        Builtin.run_supplied host' ask' fuel name arguments (h.functions ▸ hf)]
      exact f.moves_congr h.sequencing (h.function f (List.mem_of_getElem? hf)) hask fuel _ _

theorem HostsRelated.lookup (h : HostsRelated R host host') (env : Environment) (name : String) :
    R (lookup env name) (lookup env name) := by
  unfold CurriedScript.lookup
  cases env.get? name with
  | some value => exact h.sequencing.pure value
  | none => exact h.sequencing.throw _

theorem evaluator_related (h : HostsRelated R host host') (fuel : Nat) :
    (∀ callee arguments, R (apply host fuel callee arguments) (apply host' fuel callee arguments)) ∧
    (∀ env expr, R (evaluate host fuel env expr) (evaluate host' fuel env expr)) ∧
    (∀ env form, R (evaluateTail host fuel env form) (evaluateTail host' fuel env form)) ∧
    (∀ env body, R (runBody host fuel env body) (runBody host' fuel env body)) ∧
    (∀ env s, R (execute host fuel env s) (execute host' fuel env s)) := by
  have hR := h.sequencing
  induction fuel with
  | zero =>
    exact ⟨fun _ _ => hR.throw _, fun _ _ => hR.throw _, fun _ _ => hR.throw _, fun _ _ => hR.throw _,
      fun _ _ => hR.throw _⟩
  | succ fuel ih =>
    obtain ⟨happly, hevaluate, htail, hbody, hexecute⟩ := ih
    refine ⟨fun callee arguments => ?_, fun env expr => ?_, fun env form => ?_, fun env body => ?_,
      fun env s => ?_⟩
    · cases callee with
      | closure parameters body env =>
        rw [apply, apply]
        split
        · exact hR.pure _
        refine hR.bind h.countCall fun _ => hR.bind (hbody _ _) fun _ => ?_
        split
        · exact hR.pure _
        · exact happly _ _
        · exact happly _ _
        · exact hR.bind (happly _ _) fun _ => happly _ _
      | builtin entry => exact h.builtin (Request.answer_congr hR happly hexecute) fuel entry arguments
      | _ => exact hR.throw _
    · rw [evaluate, evaluate]
      refine hR.bind (htail _ _) fun _ => ?_
      split
      · exact hR.pure _
      · exact happly _ _
    · cases form with
      | literal literal => exact hR.pure _
      | name name => exact hR.bind (h.lookup env name) fun _ => hR.pure _
      | function parameters body => exact hR.pure _
      | builtin name => exact hR.bind (h.builtinNamed name) fun _ => hR.pure _
      | chain left operator right =>
        refine hR.bind (hevaluate _ _) fun _ => hR.bind (h.lookup env operator) fun _ => ?_
        exact hR.bind (hevaluate _ _) fun _ => hR.pure _
      | application elements =>
        cases elements with
        | nil => exact hR.throw _
        | cons head rest =>
          exact hR.bind (hevaluate _ _) fun _ => hR.bind (evaluateEach_congr hR (hevaluate _) _) fun _ => hR.pure _
      | conditional cases => exact hR.bind (firstCase_congr hR (hevaluate _) _) fun _ => hbody _ _
    · cases body with
      | nil => exact hR.pure _
      | cons s rest =>
        cases rest with
        | nil =>
          cases s with
          | expr expr => exact htail _ _
          | use name | bind bindings => exact hR.bind (hexecute _ _) fun _ => hR.pure _
        | cons => exact hR.bind (hexecute _ _) fun _ => hbody _ _
    · cases s with
      | use name =>
        exact hR.bind (h.loadModule name) fun _ => hR.bind (executeEach_congr hR hexecute _ _ _) fun _ => hR.pure _
      | bind bindings => exact hR.bind (bindEach_congr hR hevaluate _ _) fun _ => hR.pure _
      | expr expr => exact hR.bind (hevaluate _ _) fun _ => hR.pure _

/-! ## A function to try runs on -/

def relay : HostFunction where
  next _ seen :=
    match seen with
    | [.argument _, .argument _] => .ask (.call (.held 0) [.held 1])
    | [.argument _, .argument _, .value _] => .answer (.held 2)
    | _ => .fail (.arity "relay" 2 seen.length)

theorem relay_passesErrors : relay.PassesErrors := by
  intro settings seen request
  unfold relay
  dsimp only
  split <;> simp

def Host.relaying : Host :=
  { Host.bare with builtins := ⟨"relay", .supplied 0⟩ :: Builtin.all, functions := [relay] }

end CurriedScript
