import CurriedScript.Proofs.Reachable
import CurriedScript.Proofs.Trampoline
import CurriedScript.Proofs.Worlds

/-!
# Contracts of evaluation

What is asked of runs, and what is asked of a host and of a property of values for
evaluation to keep it (`Upheld`): the host's own actions meet the contract, and the
property passes from literals to closures and from these to what is left of them
after too few arguments. So an invariant of runs comes down to a few facts about
hosts and values. `Upheld.run`: builtins meet the contract, also the functions of a host
where the contract leaves these free.
-/

namespace CurriedScript

/-! ## Contracts -/

def mapState {σ α : Type} (f : σ → σ) : EStateM.Result Halt σ α → EStateM.Result Halt σ α
  | .ok a s => .ok a (f s)
  | .error halt s => .error halt (f s)

/-- What is asked of runs: the states that they start from and leave, the errors they
may end with, and the changes of the state that they must not notice. -/
structure Contract (σ : Type) where
  good : σ → Prop
  error : Error → Prop
  change : (σ → σ) → Prop

namespace Contract

variable {σ α β : Type} {c : Contract σ} {A : α → Prop} {B : β → Prop}

def Allows (c : Contract σ) (A : α → Prop) : EStateM.Result Halt σ α → Prop
  | .ok a s => A a ∧ c.good s
  | .error (.failure e) s => c.error e ∧ c.good s
  | .error .outOfFuel s => c.good s

structure Met (c : Contract σ) (A : α → Prop) (m : EStateM Halt σ α) : Prop where
  allows : ∀ s, c.good s → c.Allows A (m.run s)
  unnoticed : ∀ f, c.change f → ∀ s, c.good s → m.run (f s) = mapState f (m.run s)

theorem Met.pure {a : α} (h : A a) : c.Met A (Pure.pure a) :=
  ⟨fun _ hs => ⟨h, hs⟩, fun _ _ _ _ => rfl⟩

theorem Met.fail {e : Error} (h : c.error e) : c.Met A (throw (.failure e)) :=
  ⟨fun _ hs => ⟨h, hs⟩, fun _ _ _ _ => rfl⟩

theorem Met.outOfFuel : c.Met A (throw .outOfFuel) := ⟨fun _ hs => hs, fun _ _ _ _ => rfl⟩

theorem Met.bind {m : EStateM Halt σ α} {f : α → EStateM Halt σ β} (h : c.Met A m)
    (hf : ∀ a, A a → c.Met B (f a)) : c.Met B (m >>= f) := by
  constructor
  · intro s hs
    have hm := h.allows s hs
    rw [EStateM.run_bind]
    cases hr : m.run s with
    | ok a left =>
      rw [hr] at hm
      exact (hf a hm.1).allows left hm.2
    | error halt left =>
      rw [hr] at hm
      cases halt <;> exact hm
  · intro g hg s hs
    have hm := h.allows s hs
    rw [EStateM.run_bind, EStateM.run_bind, h.unnoticed g hg s hs]
    cases hr : m.run s with
    | ok a left =>
      rw [hr] at hm
      exact (hf a hm.1).unnoticed g hg left hm.2
    | error halt left => rfl

/-- An error is met like a value: the contract allows it. -/
theorem Met.attempt {m : EStateM Halt σ α} (h : c.Met A m) :
    c.Met (fun answer => ∀ a, answer = .ok a → A a) (CurriedScript.attempt m) := by
  constructor
  · intro s hs
    have hm := h.allows s hs
    rw [Run.attempt_run]
    generalize m.run s = r at hm
    match r with
    | .ok a left =>
      refine ⟨?_, hm.2⟩
      rintro _ ⟨⟩
      exact hm.1
    | .error (.failure e) left => exact ⟨by simp, hm.2⟩
    | .error .outOfFuel left => exact hm
  · intro g hg s hs
    rw [Run.attempt_run, Run.attempt_run, h.unnoticed g hg s hs]
    match m.run s with
    | .ok a left => rfl
    | .error (.failure e) left => rfl
    | .error .outOfFuel left => rfl

end Contract

/-! ## The count of calls -/

structure Contract.Uncounted (c : Contract World) : Prop where
  good : ∀ world calls, c.good world → c.good { world with calls := calls }
  change : ∀ f, c.change f → ∀ world calls, f { world with calls := calls } = { f world with calls := calls }

theorem Contract.Uncounted.calls {c : Contract World} (hc : c.Uncounted) {f : World → World} (hf : c.change f)
    (world : World) : (f world).calls = world.calls :=
  calc
    (f world).calls = { f world with calls := world.calls }.calls :=
      congrArg World.calls (hc.change f hf world world.calls)
    _ = world.calls := rfl

theorem Contract.Uncounted.countCall {c : Contract World} (hc : c.Uncounted) {host : Host}
    (herror : ∀ limit, host.callLimit = some limit → c.error (.callLimit limit)) :
    c.Met (fun _ => True) (countCall host) := by
  have hcounted : ∀ f, c.change f → ∀ world : World,
      { f world with calls := (f world).calls + 1 } = f { world with calls := world.calls + 1 } :=
        fun f hf world => by
    rw [hc.calls hf]
    exact (hc.change f hf world _).symm
  cases hlimit : host.callLimit with
  | none =>
    refine ⟨fun world hworld => ?_, fun f hf world _ => ?_⟩
    · rw [countCall_run_none hlimit]
      exact ⟨trivial, hc.good _ _ hworld⟩
    · rw [countCall_run_none hlimit, countCall_run_none hlimit, hcounted f hf]
      rfl
  | some limit =>
    refine ⟨fun world hworld => ?_, fun f hf world _ => ?_⟩ <;>
      rcases Nat.lt_or_ge world.calls limit with hlt | hle
    · rw [countCall_run_of_lt hlimit hlt]
      exact ⟨trivial, hc.good _ _ hworld⟩
    · rw [countCall_run_of_le hlimit hle]
      exact ⟨herror limit hlimit, hworld⟩
    · rw [countCall_run_of_lt hlimit hlt, countCall_run_of_lt hlimit (by rwa [hc.calls hf]), hcounted f hf]
      rfl
    · rw [countCall_run_of_le hlimit hle, countCall_run_of_le hlimit (by rwa [hc.calls hf])]
      rfl

/-! ## Input and output -/

theorem Contract.input_eq {c : Contract World}
    (hchange : ∀ f, c.change f → ∀ world input, f { world with input := input } = { f world with input := input })
    {f : World → World} (hf : c.change f) (world : World) : (f world).input = world.input :=
  calc
    (f world).input = { f world with input := world.input }.input :=
      congrArg World.input (hchange f hf world world.input)
    _ = world.input := rfl

section
variable {c : Contract World} (herror : ∀ reason, c.error (.io reason))
include herror

theorem Contract.write {host : Host} {text : String}
    (hgood : ∀ world, c.good world → c.good { world with output := world.output ++ text })
    (hchange : ∀ f, c.change f → ∀ world, f { world with output := world.output ++ text } =
      { f world with output := (f world).output ++ text }) :
    c.Met (fun _ => True) (write host text) := by
  unfold CurriedScript.write
  cases host.outputFault with
  | some reason => exact .fail (herror reason)
  | none =>
    refine ⟨fun world hworld => ⟨trivial, hgood world hworld⟩, fun f hf world _ => ?_⟩
    exact congrArg (EStateM.Result.ok ()) (hchange f hf world).symm

theorem Contract.readLine (hgood : ∀ world input, c.good world → c.good { world with input := input })
    (hchange : ∀ f, c.change f → ∀ world input, f { world with input := input } = { f world with input := input }) :
    c.Met (fun _ => True) readLine := by
  refine ⟨fun world hworld => ?_, fun f hf world _ => ?_⟩
  · obtain ⟨result, hio, hrun⟩ := readLine_run world.input
    rw [hrun world rfl]
    cases result with
    | ok text => exact ⟨trivial, hgood world _ hworld⟩
    | error e =>
      obtain ⟨reason, rfl⟩ := hio e rfl
      exact ⟨herror reason, hgood world _ hworld⟩
  · obtain ⟨result, _, hrun⟩ := readLine_run world.input
    rw [hrun world rfl, hrun (f world) (Contract.input_eq hchange hf world), ← hchange f hf]
    cases result <;> rfl

omit herror in
theorem Contract.takeInput (hgood : ∀ world input, c.good world → c.good { world with input := input })
    (hchange : ∀ f, c.change f → ∀ world input, f { world with input := input } = { f world with input := input })
    (count : Nat) : c.Met (fun _ => True) (takeInput count) := by
  have hrun : ∀ world, (CurriedScript.takeInput count).run world =
      .ok world.input { world with input := world.input.drop count } := fun _ => rfl
  refine ⟨fun world hworld => ⟨trivial, hgood world _ hworld⟩, fun f hf world _ => ?_⟩
  rw [hrun, hrun, Contract.input_eq hchange hf world, ← hchange f hf]
  rfl

end

/-! ## Forms at every depth -/

mutual
/-- The form of the expression and all forms in it, also those in function bodies. -/
def Expr.forms : Expr → List Form
  | ⟨form, _⟩ => form.forms

def Form.forms : Form → List Form
  | .chain left operator right => .chain left operator right :: (left.forms ++ right.forms)
  | .name name => [.name name]
  | .application elements => .application elements :: exprForms elements
  | .function parameters body => .function parameters body :: statementForms body
  | .literal literal => [.literal literal]
  | .builtin name => [.builtin name]
  | .conditional cases => .conditional cases :: caseForms cases

def Case.forms : Case → List Form
  | ⟨condition, body⟩ => condition.forms ++ statementForms body

def Statement.forms : Statement → List Form
  | .use _ => []
  | .bind bindings => bindingForms bindings
  | .expr expr => expr.forms

def Binding.forms : Binding → List Form
  | ⟨_, value⟩ => value.forms

def exprForms : List Expr → List Form
  | [] => []
  | expr :: rest => expr.forms ++ exprForms rest

def caseForms : List Case → List Form
  | [] => []
  | case :: rest => case.forms ++ caseForms rest

def statementForms : List Statement → List Form
  | [] => []
  | statement :: rest => statement.forms ++ statementForms rest

def bindingForms : List Binding → List Form
  | [] => []
  | binding :: rest => binding.forms ++ bindingForms rest
end

/-! ## What a contract asks of hosts and values -/

/-- The errors that evaluation raises by itself, given that `P` holds of all values that
there are and `F` of all forms. -/
inductive Raised (host : Host) (P : Value → Prop) (F : Form → Prop) : Error → Prop
  | unbound (name : String) : Raised host P F (.unbound name)
  | unknownBuiltin {name : String} : Builtin.find? host.builtins name = none →
      Raised host P F (.unknownBuiltin name)
  | load {name : String} {e : Error} : LoadFails host.loader name e → Raised host P F e
  | emptyApplication : F (.application []) → Raised host P F (.type .emptyApplication)
  | noMatch : Raised host P F .noMatch
  | condition {v : Value} : v.All P → Raised host P F (.type (.conditionNotBoolean v.kind v.display))
  | notCallable {v : Value} : v.All P → Raised host P F (.notCallable v.display)
  | arity {name : String} {primitive : Primitive} (expected found : Nat) :
      P (.builtin ⟨name, .primitive primitive⟩) → Raised host P F (.arity primitive.name expected found)
  | operands {name : String} {primitive : Primitive} (left right : ValueKind) :
      P (.builtin ⟨name, .primitive primitive⟩) → Raised host P F (.type (.undefinedOn primitive.name left right))
  | notAFloat (n : Int) : Raised host P F (.type (.notAFloat n))
  | choice (kind : ValueKind) : Raised host P F (.type (.choiceNotBoolean kind))

/-- What the contract needs for functions of the host to be free in what they do. -/
structure Unconfined (c : Contract World) (P : Value → Prop) (F : Form → Prop) (host : Host) : Prop where
  error : ∀ e, c.error e
  builtin : ∀ builtin, P (.builtin builtin)
  form : ∀ form, F form
  write : ∀ text, c.Met (fun _ => True) (write host text)
  take : ∀ count, c.Met (fun _ => True) (takeInput count)

/-- All that the contract needs for evaluation to meet it, with values of which `P` holds
throughout and forms of which `F` does. -/
structure Upheld (c : Contract World) (P : Value → Prop) (F : Form → Prop) (host : Host) : Prop where
  data : ∀ v : Value, v.kind ≠ .function → v.kind ≠ .builtin → P v
  listed : ∀ builtin ∈ host.builtins, P (.builtin builtin)
  closure : ∀ parameters body env, (∀ form ∈ (Form.function parameters body).forms, F form) →
    P (.closure parameters body env)
  remainder : ∀ parameters body env arguments, P (.closure parameters body env) →
    arguments.length < parameters.length →
    P (.closure (parameters.drop arguments.length) body (env.extend (parameters.zip arguments)))
  body : ∀ parameters body env, P (.closure parameters body env) → ∀ form ∈ statementForms body, F form
  modules : ∀ name source statements, host.loader name = .ok source → parseSource source = .ok statements →
    ∀ form ∈ statementForms statements, F form
  raised : ∀ e, Raised host P F e → c.error e
  countCall : c.Met (fun _ => True) (countCall host)
  printLine : ∀ name, P (.builtin ⟨name, .primitive .print⟩) → ∀ v : Value, v.All P →
    c.Met (fun _ => True) (printLine host v.display)
  readLine : ∀ name, P (.builtin ⟨name, .primitive .read⟩) → c.Met (fun _ => True) readLine
  supplied : ∀ name index, P (.builtin ⟨name, .supplied index⟩) → Unconfined c P F host

def Request.All (P : Value → Prop) : Request Value → Prop
  | .call callee arguments => callee.All P ∧ ∀ x ∈ arguments, x.All P
  | .run _ values _ => ∀ x ∈ values, x.All P

variable {c : Contract World} {P : Value → Prop} {F : Form → Prop} {host : Host}

namespace Upheld

section
variable (h : Upheld c P F host)
include h

theorem all_data {v : Value} (hfunction : v.kind ≠ .function) (hbuiltin : v.kind ≠ .builtin) : v.All P :=
  (Value.all_of_kind hfunction).mpr (h.data v hfunction hbuiltin)

theorem fail {α : Type} {A : α → Prop} {e : Error} (he : Raised host P F e) : c.Met A (fail e) :=
  .fail (h.raised e he)

theorem lookup {env : Environment} (henv : env.All P) (name : String) : c.Met (Value.All P) (lookup env name) := by
  unfold CurriedScript.lookup
  cases hv : env.get? name with
  | some v => exact .pure (henv.get? hv)
  | none => exact h.fail (.unbound name)

theorem builtinNamed (name : String) : c.Met (Value.All P) (builtinNamed host name) := by
  unfold CurriedScript.builtinNamed
  cases hb : Builtin.find? host.builtins name with
  | some builtin =>
    exact .pure ((Value.all_of_kind (by simp [Value.kind])).mpr (h.listed builtin (List.mem_of_find?_eq_some hb)))
  | none => exact h.fail (.unknownBuiltin hb)

theorem loadModule (name : String) :
    c.Met (fun statements => ∀ form ∈ statementForms statements, F form) (loadModule host name) := by
  obtain ⟨statements, hmodule⟩ | ⟨e, hfails⟩ := isModule_or_loadFails host.loader name
  · rw [loadModule_of_isModule hmodule]
    obtain ⟨source, hsource, hparse⟩ := hmodule
    exact .pure (h.modules name source statements hsource hparse)
  · rw [loadModule_of_loadFails hfails]
    exact h.fail (.load hfails)

end

/-! ## Primitives -/

theorem floatOf_cases (n : Int) :
    (∃ x, Primitive.floatOf n = .ok x) ∨ Primitive.floatOf n = .error (.type (.notAFloat n)) := by
  obtain ⟨f, hf⟩ : ∃ f, f = Primitive.floatOf := ⟨_, rfl⟩
  rw [← hf]
  -- unfolded without its argument, with which the kernel would compute
  delta Primitive.floatOf at hf
  subst hf
  dsimp only
  generalize Binary64.ofInt n = x
  cases x with
  | finite => exact .inl ⟨_, rfl⟩
  | _ => exact .inr rfl

inductive Answers (host : Host) (P : Value → Prop) (F : Form → Prop) : Except Error Value → Prop
  | ok {v : Value} : v.All P → Answers host P F (.ok v)
  | error {e : Error} : Raised host P F e → Answers host P F (.error e)

section
variable (h : Upheld c P F host) {name : String}
include h

theorem pureRun {r : Except Error Value} (hr : Answers host P F r) : c.Met (Value.All P) (Primitive.pureRun r) := by
  cases hr with
  | ok hv => exact .pure hv
  | error he => exact h.fail he

theorem answers_data {v : Value} (hfunction : v.kind ≠ .function) (hbuiltin : v.kind ≠ .builtin) :
    Answers host P F (.ok v) :=
  .ok (h.all_data hfunction hbuiltin)

omit h in
theorem answers_floatOf {f : Binary64 → Except Error Value} (hf : ∀ x, Answers host P F (f x)) (n : Int) :
    Answers host P F (Primitive.floatOf n >>= f) := by
  obtain ⟨x, hx⟩ | hx := floatOf_cases n
  · rw [hx]
    exact hf x
  · rw [hx]
    exact .error (.notAFloat n)

theorem answers_arithmetic {primitive : Primitive} (hb : P (.builtin ⟨name, .primitive primitive⟩))
    (onIntegers : Int → Int → Int)
    (onFloats : Binary64 → Binary64 → Binary64) (arguments : List Value) :
    Answers host P F (primitive.arithmetic onIntegers onFloats arguments) := by
  have hfloat : ∀ x, Answers host P F (.ok (.float x)) := fun x =>
    h.answers_data (by simp [Value.kind]) (by simp [Value.kind])
  unfold Primitive.arithmetic
  split
  · exact h.answers_data (by simp [Value.kind]) (by simp [Value.kind])
  · exact hfloat _
  · exact answers_floatOf (fun _ => hfloat _) _
  · exact answers_floatOf (fun _ => hfloat _) _
  · exact .error (.operands _ _ hb)
  · exact .error (.arity _ _ hb)

theorem answers_add (hb : P (.builtin ⟨name, .primitive .add⟩)) (arguments : List Value) :
    Answers host P F (Primitive.addValues arguments) := by
  unfold Primitive.addValues
  split
  · exact h.answers_data (by simp [Value.kind]) (by simp [Value.kind])
  · exact h.answers_arithmetic hb _ _ _

theorem answers_eq (hb : P (.builtin ⟨name, .primitive .eq⟩)) (arguments : List Value) :
    Answers host P F (Primitive.eqValues arguments) := by
  unfold Primitive.eqValues
  split
  · exact h.answers_data (by simp [Value.kind]) (by simp [Value.kind])
  · exact .error (.arity _ _ hb)

theorem answers_gt (hb : P (.builtin ⟨name, .primitive .gt⟩)) (arguments : List Value) :
    Answers host P F (Primitive.gtValues arguments) := by
  have hboolean : ∀ b, Answers host P F (.ok (.boolean b)) := fun b =>
    h.answers_data (by simp [Value.kind]) (by simp [Value.kind])
  unfold Primitive.gtValues
  split
  · exact hboolean _
  · exact hboolean _
  · exact answers_floatOf (fun _ => hboolean _) _
  · exact answers_floatOf (fun _ => hboolean _) _
  · exact hboolean _
  · exact .error (.operands _ _ hb)
  · exact .error (.arity _ _ hb)

omit h in
theorem answers_choose (hb : P (.builtin ⟨name, .primitive .choose⟩)) {arguments : List Value}
    (harguments : ∀ x ∈ arguments, x.All P) :
    Answers host P F (Primitive.chooseValue arguments) := by
  unfold Primitive.chooseValue
  split
  · rename_i condition yes no
    cases condition with
    | true => exact .ok (harguments yes (by simp))
    | false => exact .ok (harguments no (by simp))
  · exact .error (.choice _)
  · exact .error (.arity _ _ hb)

theorem print (hb : P (.builtin ⟨name, .primitive .print⟩)) {arguments : List Value}
    (harguments : ∀ x ∈ arguments, x.All P) :
    c.Met (Value.All P) (Primitive.print.run host arguments) := by
  have hnothing : Value.nothing.All P := h.all_data (by simp [Value.kind]) (by simp [Value.kind])
  have harity : ∀ found, c.Met (Value.All P) (Primitive.pureRun (Primitive.wrongArity .print 1 found)) :=
    fun found =>
    h.pureRun (.error (.arity _ _ hb))
  cases arguments with
  | nil => exact harity 0
  | cons v rest =>
    cases rest with
    | nil => exact (h.printLine name hb v (harguments v (by simp))).bind fun _ _ => .pure hnothing
    | cons _ rest => exact harity (rest.length + 2)

theorem primitive (primitive : Primitive) (hb : P (.builtin ⟨name, .primitive primitive⟩)) {arguments : List Value}
    (harguments : ∀ x ∈ arguments, x.All P) : c.Met (Value.All P) (primitive.run host arguments) := by
  cases primitive with
  | print => exact h.print hb harguments
  | read =>
    refine (h.readLine name hb).bind fun _ _ => .pure ?_
    exact h.all_data (by simp [Value.kind]) (by simp [Value.kind])
  | add => exact h.pureRun (h.answers_add hb arguments)
  | sub => exact h.pureRun (h.answers_arithmetic hb _ _ arguments)
  | eq => exact h.pureRun (h.answers_eq hb arguments)
  | gt => exact h.pureRun (h.answers_gt hb arguments)
  | choose => exact h.pureRun (answers_choose hb harguments)

/-! ## Functions of hosts -/

theorem atom (hfree : Unconfined c P F host) (atom : Atom) : atom.value.All P := by
  cases atom with
  | builtin entry =>
    simp only [Atom.value]
    exact (Value.all_of_kind (by simp [Value.kind])).mpr (hfree.builtin entry)
  | literal data =>
    cases data <;> simp only [Atom.value, Value.ofLiteral] <;>
      exact h.all_data (by simp [Value.kind]) (by simp [Value.kind])
  | _ =>
    simp only [Atom.value]
    exact h.all_data (by simp [Value.kind]) (by simp [Value.kind])

theorem operand (hfree : Unconfined c P F host) {held : List Value} (hheld : ∀ x ∈ held, x.All P)
    (operand : Operand) :
    (operand.value held).All P := by
  cases operand with
  | made atom => exact h.atom hfree atom
  | held index =>
    cases hfound : held[index]? with
    | none =>
      simp only [Operand.value, hfound]
      exact h.all_data (by simp [Value.kind]) (by simp [Value.kind])
    | some v =>
      simp only [Operand.value, hfound]
      exact hheld v (List.mem_of_getElem? hfound)

theorem request (hfree : Unconfined c P F host) {held : List Value} (hheld : ∀ x ∈ held, x.All P)
    (request : Request Operand) : (request.map (·.value held)).All P := by
  cases request with
  | call callee arguments => exact ⟨h.operand hfree hheld callee, by simpa using fun x _ => h.operand hfree hheld x⟩
  | run names values statements => simpa [Request.map, Request.All] using fun x _ => h.operand hfree hheld x

theorem step (hfree : Unconfined c P F host) (f : HostFunction) {ask : Request Value → Run Value}
    (hask : ∀ request, request.All P → c.Met (Value.All P) (ask request))
    {goOn : List Value → List Seen → Run Value}
    (hgoOn : ∀ {held} seen, (∀ x ∈ held, x.All P) → c.Met (Value.All P) (goOn held seen)) {held : List Value}
    (hheld : ∀ x ∈ held, x.All P) (seen : List Seen) : c.Met (Value.All P) (f.step host ask goOn held seen) := by
  have happend : ∀ {v : Value}, v.All P → ∀ x ∈ held ++ [v], x.All P := fun hv =>
    List.forall_mem_append.mpr ⟨hheld, by simpa using hv⟩
  unfold HostFunction.step
  cases f.next host.toSettings seen with
  | answer operand => exact .pure (h.operand hfree hheld operand)
  | fail e => exact .fail (hfree.error e)
  | write text => exact (hfree.write text).bind fun _ _ => hgoOn _ hheld
  | take count => exact (hfree.take count).bind fun _ _ => hgoOn _ hheld
  | ask request => exact (hask _ (h.request hfree hheld request)).bind fun v hv => hgoOn _ (happend hv)
  | attempt request =>
    refine (hask _ (h.request hfree hheld request)).attempt.bind fun answer hanswer => ?_
    cases answer with
    | ok v => exact hgoOn _ (happend (hanswer v rfl))
    | error e => exact hgoOn _ hheld

theorem moves (hfree : Unconfined c P F host) (f : HostFunction) {ask : Request Value → Run Value}
    (hask : ∀ request, request.All P → c.Met (Value.All P) (ask request)) (fuel : Nat) {held : List Value}
    (seen : List Seen) (hheld : ∀ x ∈ held, x.All P) : c.Met (Value.All P) (f.moves host ask fuel held seen) := by
  induction fuel generalizing held seen with
  | zero => exact .outOfFuel
  | succ fuel ih => exact h.step hfree f hask ih hheld seen

/-- Functions of the host are run only where they are free. -/
theorem run (builtin : Builtin) (hb : P (.builtin builtin)) {ask : Request Value → Run Value}
    (hask : Unconfined c P F host → ∀ request, request.All P → c.Met (Value.All P) (ask request)) (fuel : Nat)
    {arguments : List Value} (harguments : ∀ x ∈ arguments, x.All P) :
    c.Met (Value.All P) (builtin.run host ask fuel arguments) := by
  obtain ⟨name, primitive | index⟩ := builtin
  · exact h.primitive primitive hb harguments
  · have hfree := h.supplied name index hb
    cases hf : host.functions[index]? with
    | none =>
      rw [Builtin.run_missing host ask fuel name arguments hf]
      exact .fail (hfree.error _)
    | some f =>
      rw [Builtin.run_supplied host ask fuel name arguments hf]
      exact h.moves hfree f (hask hfree) fuel _ harguments

end

end Upheld

end CurriedScript
