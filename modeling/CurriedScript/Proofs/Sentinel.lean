import CurriedScript.Proofs.Atomicity
import CurriedScript.Proofs.Sections
import CurriedScript.Proofs.Threads

/-!
# The sentinel at the top level

Statements bind no name `!`, since the scanner reads it as a mark, and what a call
binds stays in the frames of the call. So `!` is the sentinel after every call of a
session, and each call with an effect that is written outside of functions, in a
source or in a module, passes it on (`runSources_sentinel`).
-/

namespace CurriedScript

open CurriedScript.Parser Grammar

/-! ## Growing environments -/

/-- Nothing that is bound gets lost on the way to the other environment, and `!` stays the same. -/
structure Environment.GrowsTo (env later : Environment) : Prop where
  sentinel : later.get? "!" = env.get? "!"
  resolves : ∀ name, env.get? name ≠ none → later.get? name ≠ none

namespace Environment.GrowsTo

variable {env later last : Environment}

theorem refl (env : Environment) : env.GrowsTo env := ⟨rfl, fun _ h => h⟩

theorem trans (h : env.GrowsTo later) (h' : later.GrowsTo last) : env.GrowsTo last :=
  ⟨h'.sentinel.trans h.sentinel, fun name hname => h'.resolves name (h.resolves name hname)⟩

theorem frame (h : env.GrowsTo later) : env.GrowsTo later.frame := ⟨h.sentinel, h.resolves⟩

theorem bind (h : env.GrowsTo later) {name : String} (hname : name ≠ "!") (v : Value) :
    env.GrowsTo (later.bind name v) := by
  constructor
  · rw [get?, if_neg hname, h.sentinel]
  · intro other hother
    rw [get?]
    split
    · simp
    · exact h.resolves other hother

end Environment.GrowsTo

/-! ## What statements bind -/

theorem ne_sentinel_of_isLexeme {kind : TokenKind} {name : String} (h : IsLexeme kind name) (hkind : kind ≠ .bang) :
    name ≠ "!" := by
  rintro rfl
  obtain ⟨literal, htoken⟩ := h
  exact hkind (isToken_bang htoken)

theorem ne_sentinel_of_shape {binding : Binding} (h : binding.Every shape) : binding.name ≠ "!" := by
  obtain ⟨name, value⟩ := binding
  rcases h.1.1 with hname | hname
  · exact ne_sentinel_of_isLexeme hname (by simp)
  · exact ne_sentinel_of_isLexeme hname (by simp)

def Contract.free : Contract World where
  good _ := True
  error _ := True
  change _ := False

theorem free_met {α : Type} {A : α → Prop} {m : Run α} :
    Contract.free.Met A m ↔ ∀ world a left, m.run world = .ok a left → A a := by
  constructor
  · intro h world a left hrun
    have hallows := h.allows world trivial
    rw [hrun] at hallows
    exact hallows.1
  · refine fun h => ⟨fun world _ => ?_, fun _ hf => hf.elim⟩
    cases hrun : m.run world with
    | ok a left => exact ⟨h world a left hrun, trivial⟩
    | error halt left => cases halt <;> simp [Contract.Allows, Contract.free]

theorem free_met_any {α : Type} (m : Run α) : Contract.free.Met (fun _ => True) m :=
  free_met.mpr fun _ _ _ _ => trivial

section
variable {base env : Environment}

theorem bindEach_growsTo (evaluate : Environment → Expr → Run Value) {bindings : List Binding}
    (hs : bindingsEvery shape bindings) (h : base.GrowsTo env) :
    Contract.free.Met base.GrowsTo (bindEach evaluate env bindings) := by
  induction bindings generalizing env with
  | nil => exact .pure h
  | cons binding rest ih =>
    exact (free_met_any _).bind fun v _ => ih hs.2 (h.bind (ne_sentinel_of_shape hs.1) v)

theorem thread_growsTo {host : Host} {fuel : Nat}
    (hexecute : ∀ env s, s.Every shape → Contract.free.Met (env.GrowsTo ·.2) (execute host fuel env s))
    {statements : List Statement} (hs : statementsEvery shape statements) (h : base.GrowsTo env) :
    Contract.free.Met base.GrowsTo (thread host fuel env statements) := by
  induction statements generalizing env with
  | nil => exact .pure h
  | cons s rest ih => exact (hexecute env s hs.1).bind fun _ hr => ih hs.2 (h.trans hr)

end

/-- A statement leaves an environment that its own has grown to. -/
theorem execute_growsTo (host : Host) (fuel : Nat) (env : Environment) (s : Statement) (hs : s.Every shape) :
    Contract.free.Met (env.GrowsTo ·.2) (execute host fuel env s) := by
  induction fuel generalizing env s with
  | zero => exact .outOfFuel
  | succ fuel ih =>
    cases s with
    | use m =>
      obtain ⟨statements, hmodule⟩ | ⟨_, hfails⟩ := isModule_or_loadFails host.loader m
      · obtain ⟨source, hsource, hparse⟩ := hmodule
        rw [execute_use host ⟨source, hsource, hparse⟩]
        exact (thread_growsTo ih (parseSource_shape hparse) (.refl env)).bind fun _ h => .pure h
      · rw [execute_use_fails host hfails]
        exact .fail trivial
    | bind bindings =>
      rw [execute]
      exact (bindEach_growsTo _ hs.2 (Environment.GrowsTo.refl env).frame).bind fun _ h => .pure h
    | expr x =>
      rw [execute]
      exact (free_met_any _).bind fun _ _ => .pure (.refl env)

/-! ## Sessions -/

namespace Session

theorem runStatements_growsTo (host : Host) (fuel : Nat) {statements : List Statement}
    (hs : statementsEvery shape statements) (value : Value) (session : Session) :
    session.environment.GrowsTo
      (finalState ((runStatements host fuel value statements).run session)).environment := by
  induction statements generalizing value session with
  | nil => exact .refl _
  | cons s rest ih =>
    rw [runStatements, EStateM.run_bind]
    cases hrun : (runStatement host fuel s).run session with
    | ok v left =>
      obtain ⟨world, hexecute⟩ := runStatement_ok hrun
      have hgrows : session.environment.GrowsTo left.environment :=
        free_met.mp (execute_growsTo host fuel _ s hs.1) _ _ _ hexecute
      exact hgrows.trans (ih hs.2 v left)
    | error halt left =>
      show session.environment.GrowsTo left.environment
      rw [(runStatement_error hrun).2]
      exact .refl _

theorem runSource_growsTo (host : Host) (fuel : Nat) (source : String) (session : Session) :
    session.environment.GrowsTo (finalState ((runSource host fuel source).run session)).environment := by
  unfold runSource
  cases hparse : parseSource source with
  | ok statements => exact runStatements_growsTo host fuel (parseSource_shape hparse) .nothing session
  | error e => exact .refl _

theorem runSources_growsTo (fuel : Nat) (calls : List (Host × String)) (session : Session) :
    session.environment.GrowsTo (runSources fuel calls session).2.environment := by
  induction calls generalizing session with
  | nil => exact .refl _
  | cons call rest ih =>
    rw [runSources_cons]
    exact (runSource_growsTo call.1 fuel call.2 session).trans (ih _)

theorem runSources_append (fuel : Nat) (earlier later : List (Host × String)) (session : Session) :
    (runSources fuel (earlier ++ later) session).2 =
    (runSources fuel later (runSources fuel earlier session).2).2 := by
  induction earlier generalizing session with
  | nil => rfl
  | cons call rest ih =>
    rw [List.cons_append, runSources_cons, runSources_cons]
    exact ih _

end Session

/-! ## Calls with an effect -/

def sentineled : Condition where
  form
    | .application elements => ∀ x arguments, elements = x :: arguments → IsBangName x →
        ∃ others, arguments = sentinel :: others
    | _ => True
  signature _ := True
  case _ := True
  statement _ := True
  binding _ := True

theorem sentineled_produced : sentineled.Produced fun _ => True where
  scanned _ := trivial
  after _ := trivial
  statement _ _ := trivial
  binding _ _ := trivial
  chain _ _ _ _ := trivial
  call _ hx _ := by
    rintro _ _ ⟨⟩ hbang
    exact absurd hbang hx
  bangCall _ _ _ := by
    rintro _ _ ⟨⟩ _
    exact ⟨_, rfl⟩
  sentinel := trivial
  signature _ _ := trivial
  unsigned := trivial
  literal _ := trivial
  name _ _ := trivial
  builtin _ _ := trivial
  function _ _ _ _ _ := trivial
  conditional _ := trivial
  case _ _ := trivial

theorem parseSource_sentineled {source : String} {program : List Statement} (h : parseSource source = .ok program) :
    statementsEvery sentineled program :=
  sentineled_produced.parseSource h

/-! ## Outside of functions

Where a form is evaluated that is written outside of function literals: in conditions
and bodies of cases, in values of bindings and in modules, each in the environment
that what stands before it leaves. -/

section
variable (host : Host)

mutual
/-- The first form, in the first environment, comes to the second form in the second one. -/
inductive FormMeets : Environment → Form → Environment → Form → Prop
  | here {env : Environment} {form : Form} : FormMeets env form env form
  | left {env there : Environment} {left right : Expr} {operator : String} {form : Form} :
      FormMeets env left.form there form → FormMeets env (.chain left operator right) there form
  | right {env there : Environment} {left right : Expr} {operator : String} {form : Form} :
      FormMeets env right.form there form → FormMeets env (.chain left operator right) there form
  | element {env there : Environment} {elements : List Expr} {x : Expr} {form : Form} : x ∈ elements →
      FormMeets env x.form there form → FormMeets env (.application elements) there form
  | condition {env there : Environment} {cases : List Case} {c : Case} {form : Form} : c ∈ cases →
      FormMeets env c.condition.form there form → FormMeets env (.conditional cases) there form
  | body {env there : Environment} {cases : List Case} {c : Case} {form : Form} : c ∈ cases →
      StatementsMeet env c.body there form → FormMeets env (.conditional cases) there form

inductive StatementMeets : Environment → Statement → Environment → Form → Prop
  | use {env there : Environment} {m : String} {statements : List Statement} {form : Form} :
      IsModule host.loader m statements → StatementsMeet env statements there form →
      StatementMeets env (.use m) there form
  | bind {env there : Environment} {bindings : List Binding} {form : Form} :
      BindingsMeet env.frame bindings there form → StatementMeets env (.bind bindings) there form
  | expr {env there : Environment} {x : Expr} {form : Form} : FormMeets env x.form there form →
      StatementMeets env (.expr x) there form

inductive StatementsMeet : Environment → List Statement → Environment → Form → Prop
  | first {env there : Environment} {s : Statement} {rest : List Statement} {form : Form} :
      StatementMeets env s there form → StatementsMeet env (s :: rest) there form
  | later {env next there : Environment} {s : Statement} {rest : List Statement} {form : Form} {fuel : Nat}
      {world left : World} {v : Value} : (execute host fuel env s).run world = .ok (v, next) left →
      StatementsMeet next rest there form → StatementsMeet env (s :: rest) there form

inductive BindingsMeet : Environment → List Binding → Environment → Form → Prop
  | first {env there : Environment} {binding : Binding} {rest : List Binding} {form : Form} :
      FormMeets env binding.value.form there form → BindingsMeet env (binding :: rest) there form
  | later {env there : Environment} {binding : Binding} {rest : List Binding} {form : Form} {fuel : Nat}
      {world left : World} {v : Value} : (evaluate host fuel env binding.value).run world = .ok v left →
      BindingsMeet (env.bind binding.name v) rest there form → BindingsMeet env (binding :: rest) there form
end

end

section
variable {host : Host}

-- The environment has grown, and what was asked of all forms is true of the one that is met.
mutual
theorem FormMeets.grows : ∀ {env form there f}, FormMeets host env form there f → form.Every shape →
    form.Every sentineled → env.GrowsTo there ∧ sentineled.form f
  | _, _, _, _, .here, _, hp => ⟨.refl _, hp.self⟩
  | _, _, _, _, .left h, hs, hp => h.grows hs.2.1.form hp.2.1.form
  | _, _, _, _, .right h, hs, hp => h.grows hs.2.2.form hp.2.2.form
  | _, _, _, _, .element hx h, hs, hp =>
    h.grows (every_of_mem_exprs hs.2 hx).form (every_of_mem_exprs hp.2 hx).form
  | _, _, _, _, .condition hc h, hs, hp =>
    h.grows (every_of_mem_cases hs.2 hc).condition (every_of_mem_cases hp.2 hc).condition
  | _, _, _, _, .body hc h, hs, hp =>
    h.grows (every_of_mem_cases hs.2 hc).body (every_of_mem_cases hp.2 hc).body

theorem StatementMeets.grows : ∀ {env s there f}, StatementMeets host env s there f → s.Every shape →
    s.Every sentineled → env.GrowsTo there ∧ sentineled.form f
  | _, _, _, _, .use hmodule h, _, _ => by
    obtain ⟨source, _, hparse⟩ := hmodule
    exact h.grows (parseSource_shape hparse) (parseSource_sentineled hparse)
  | _, _, _, _, .bind h, hs, hp => by
    obtain ⟨hgrows, hf⟩ := h.grows hs.2 hp.2
    exact ⟨(Environment.GrowsTo.refl _).frame.trans hgrows, hf⟩
  | _, _, _, _, .expr h, hs, hp => h.grows hs.2.form hp.2.form

theorem StatementsMeet.grows : ∀ {env statements there f}, StatementsMeet host env statements there f →
    statementsEvery shape statements → statementsEvery sentineled statements → env.GrowsTo there ∧ sentineled.form f
  | _, _, _, _, .first h, hs, hp => h.grows hs.1 hp.1
  | _, _, _, _, .later hrun h, hs, hp => by
    obtain ⟨hgrows, hf⟩ := h.grows hs.2 hp.2
    exact ⟨(free_met.mp (execute_growsTo host _ _ _ hs.1) _ _ _ hrun).trans hgrows, hf⟩

theorem BindingsMeet.grows : ∀ {env bindings there f}, BindingsMeet host env bindings there f →
    bindingsEvery shape bindings → bindingsEvery sentineled bindings → env.GrowsTo there ∧ sentineled.form f
  | _, _, _, _, .first h, hs, hp => h.grows hs.1.value hp.1.value
  | _, _, _, _, .later hrun h, hs, hp => by
    obtain ⟨hgrows, hf⟩ := h.grows hs.2 hp.2
    exact ⟨((Environment.GrowsTo.refl _).bind (ne_sentinel_of_shape hs.1) _).trans hgrows, hf⟩
end

end

theorem evaluateTail_sentinel (host : Host) {env : Environment} (henv : env.get? "!" = some .bang) (x : Expr)
    (others : List Expr) (n : Nat) :
    evaluateTail host (n + 3) env (.application (x :: sentinel :: others)) = (do
      let callee ← evaluate host (n + 2) env x
      let values ← evaluateEach (evaluate host (n + 2) env) others
      return .call callee (.bang :: values)) := by
  rw [evaluateTail, evaluateEach, sentinel, Form.bare, evaluate_bound host henv]
  simp only [bind_assoc, pure_bind]

/-- **The sentinel is never rebound at the top level.** Whatever sources a session runs, `!`
is the sentinel after every call, and what was bound stays bound. Each call of a name that
ends in `!` and is written outside of functions, in a source or a module, passes the
sentinel as its first argument. The prelude is loaded by such a source, too. -/
theorem runSources_sentinel (fuel : Nat) (earlier later : List (Host × String)) (input : List UInt8) :
    let before := (Session.runSources fuel earlier (.start input)).2.environment
    let after := (Session.runSources fuel (earlier ++ later) (.start input)).2.environment
    before.get? "!" = some .bang ∧ (∀ name, before.get? name ≠ none → after.get? name ≠ none) ∧
      ∀ host source program, parseSource source = .ok program → ∀ x arguments there, IsBangName x →
        StatementsMeet host before program there (.application (x :: arguments)) →
        there.get? "!" = some .bang ∧ ∃ others, arguments = sentinel :: others ∧
          ∀ n, evaluateTail host (n + 3) there (.application (x :: arguments)) = (do
            let callee ← evaluate host (n + 2) there x
            let values ← evaluateEach (evaluate host (n + 2) there) others
            return .call callee (.bang :: values)) := by
  intro before after
  have hbefore : before.get? "!" = some .bang := (Session.runSources_growsTo fuel earlier (.start input)).sentinel
  refine ⟨hbefore, ?_, fun host source program hparse x arguments there hx hmeets => ?_⟩
  · have hafter :
      after = (Session.runSources fuel later (Session.runSources fuel earlier (.start input)).2).2.environment :=
      congrArg Session.environment (Session.runSources_append fuel earlier later _)
    rw [hafter]
    exact (Session.runSources_growsTo fuel later _).resolves
  · obtain ⟨hgrows, hform⟩ := hmeets.grows (parseSource_shape hparse) (parseSource_sentineled hparse)
    have hthere : there.get? "!" = some .bang := hgrows.sentinel.trans hbefore
    obtain ⟨others, rfl⟩ := hform x arguments rfl hx
    exact ⟨hthere, others, rfl, evaluateTail_sentinel host hthere x others⟩

set_option maxRecDepth 2000 in
/-- A function is bound, and called in the next statement with a number. -/
theorem boundCall_sentinel :
    let function := Form.function ["!", "x"] [.expr (Form.name "x").bare]
    let call := Form.application [⟨.name "f!", []⟩, sentinel, ⟨.literal (.integer 1), []⟩]
    let program := [Statement.bind [⟨"f!", function.bare⟩], .expr call.bare]
    let callee := Value.closure ["!", "x"] [.expr (Form.name "x").bare] Environment.global.frame
    let there := Environment.global.frame.bind "f!" callee
    parseSource "let f! <- \x7b ! x | x; \x7d; f! 1;" = .ok program ∧
      StatementsMeet .bare .global program there call ∧ there.get? "!" = some .bang ∧
      (evaluateTail .bare 3 there call).run .start = .ok (.call callee [.bang, .integer 1]) .start := by
  intro function call program callee there
  have hparse : parseSource "let f! <- \x7b ! x | x; \x7d; f! 1;" =
      .ok [.bind [⟨"f!", (Form.function ["!", "x"] [.expr (Form.name "x").bare]).bare⟩],
        .expr (Form.application [⟨.name "f!", []⟩, ⟨.name "!", []⟩, ⟨.literal (.integer 1), []⟩]).bare] := by cbv
  have hrun : (execute .bare 4 .global (.bind [⟨"f!", function.bare⟩])).run .start =
      .ok (.nothing, there) .start := rfl
  have hmeets : StatementsMeet .bare .global program there call := .later hrun (.first (.expr .here))
  have hbang : IsBangName ⟨.name "f!", []⟩ := ⟨"f", rfl⟩
  obtain ⟨_, _, hcalls⟩ := runSources_sentinel 0 [] [] []
  obtain ⟨hthere, others, hothers, hcall⟩ := hcalls .bare _ program hparse _ _ there hbang hmeets
  obtain rfl : [⟨.literal (.integer 1), []⟩] = others := (List.cons.inj hothers).2
  refine ⟨hparse, hmeets, hthere, ?_⟩
  rw [hcall 0]
  rfl

end CurriedScript
