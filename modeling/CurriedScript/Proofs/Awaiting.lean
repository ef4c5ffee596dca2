import CurriedScript.Proofs.Capabilities
import CurriedScript.Proofs.Shape

/-!
# Closures await a parameter

The grammar leaves no function without parameters or body and no application
without elements, and a call that gives a closure all it waits for runs the body.
So what a session can get at waits for something, and where an error shows that
something did not, a loader has made it up (`runSources_awaits`).
-/

namespace CurriedScript

/-! ## Forms of a shape -/

section
variable {P : Condition}

mutual
theorem Expr.forms_of_every : ∀ x : Expr, x.Every P → ∀ form ∈ x.forms, P.form form
  | ⟨form, _⟩, h => form.forms_of_every h.1

theorem Form.forms_of_every : ∀ form : Form, form.Every P → ∀ part ∈ form.forms, P.form part
  | .chain left _ right, h =>
    List.forall_mem_cons.mpr ⟨h.1,
      List.forall_mem_append.mpr ⟨left.forms_of_every h.2.1, right.forms_of_every h.2.2⟩⟩
  | .application elements, h => List.forall_mem_cons.mpr ⟨h.1, exprForms_of_every elements h.2⟩
  | .function _ body, h => List.forall_mem_cons.mpr ⟨h.1, statementForms_of_every body h.2⟩
  | .conditional cases, h => List.forall_mem_cons.mpr ⟨h.1, caseForms_of_every cases h.2⟩
  | .name _, h | .literal _, h | .builtin _, h => List.forall_mem_singleton.mpr h

theorem Case.forms_of_every : ∀ case : Case, case.Every P → ∀ form ∈ case.forms, P.form form
  | ⟨condition, body⟩, h =>
    List.forall_mem_append.mpr ⟨condition.forms_of_every h.2.1, statementForms_of_every body h.2.2⟩

theorem Statement.forms_of_every : ∀ s : Statement, s.Every P → ∀ form ∈ s.forms, P.form form
  | .use _, _ => by simp [Statement.forms]
  | .bind bindings, h => bindingForms_of_every bindings h.2
  | .expr x, h => x.forms_of_every h.2

theorem Binding.forms_of_every : ∀ binding : Binding, binding.Every P → ∀ form ∈ binding.forms, P.form form
  | ⟨_, value⟩, h => value.forms_of_every h.2

theorem exprForms_of_every : ∀ xs : List Expr, exprsEvery P xs → ∀ form ∈ exprForms xs, P.form form
  | [], _ => by simp [exprForms]
  | x :: rest, h => List.forall_mem_append.mpr ⟨x.forms_of_every h.1, exprForms_of_every rest h.2⟩

theorem caseForms_of_every : ∀ cases : List Case, casesEvery P cases → ∀ form ∈ caseForms cases, P.form form
  | [], _ => by simp [caseForms]
  | first :: rest, h => List.forall_mem_append.mpr ⟨first.forms_of_every h.1, caseForms_of_every rest h.2⟩

theorem statementForms_of_every : ∀ statements : List Statement, statementsEvery P statements →
    ∀ form ∈ statementForms statements, P.form form
  | [], _ => by simp [statementForms]
  | s :: rest, h => List.forall_mem_append.mpr ⟨s.forms_of_every h.1, statementForms_of_every rest h.2⟩

theorem bindingForms_of_every : ∀ bindings : List Binding, bindingsEvery P bindings →
    ∀ form ∈ bindingForms bindings, P.form form
  | [], _ => by simp [bindingForms]
  | first :: rest, h => List.forall_mem_append.mpr ⟨first.forms_of_every h.1, bindingForms_of_every rest h.2⟩
end

end

inductive WrittenIn (calls : List (Host × String)) (form : Form) : Prop
  | source {host : Host} {source : String} {program : List Statement} : (host, source) ∈ calls →
      parseSource source = .ok program → form ∈ statementForms program → WrittenIn calls form
  | module {host : Host} {source name text : String} {program : List Statement} : (host, source) ∈ calls →
      host.loader name = .ok text → parseSource text = .ok program → form ∈ statementForms program →
      WrittenIn calls form

theorem WrittenIn.shape {calls : List (Host × String)} {form : Form} (h : WrittenIn calls form) :
    CurriedScript.shape.form form := by
  cases h with
  | source _ hparse hform => exact statementForms_of_every _ (parseSource_shape hparse) form hform
  | module _ _ hparse hform => exact statementForms_of_every _ (parseSource_shape hparse) form hform

/-! ## Closures of literals -/

/-- The environments that closures of the literal have captured when so many of its
parameters are bound: any at first, and a frame more for each call with too few
arguments. -/
inductive Closes (F : Form → Prop) (all : List String) (body : List Statement) : Nat → Environment → Prop
  | literal (env : Environment) : (∀ form ∈ (Form.function all body).forms, F form) → Closes F all body 0 env
  | call {applied : Nat} {env : Environment} {arguments : List Value} : Closes F all body applied env →
      applied + arguments.length < all.length →
      Closes F all body (applied + arguments.length) (env.extend ((all.drop applied).zip arguments))

/-- If the value is a closure, it is one of a literal of these forms, has a body to run
and awaits at least one of the parameters of the literal. -/
def Value.Awaits (F : Form → Prop) : Value → Prop
  | .closure parameters body env =>
    body ≠ [] ∧ ∃ all applied, parameters = all.drop applied ∧ applied < all.length ∧ Closes F all body applied env
  | _ => True

section
variable {F : Form → Prop} {parameters : List String} {body : List Statement} {env : Environment} {v : Value}

theorem Closes.forms {all : List String} {applied : Nat} (h : Closes F all body applied env) :
    ∀ form ∈ (Form.function all body).forms, F form := by
  induction h with
  | literal env hforms => exact hforms
  | call _ _ ih => exact ih

theorem awaits_of_kind (hkind : v.kind ≠ .function) : v.Awaits F := by
  cases v with
  | closure => exact absurd rfl hkind
  | _ => trivial

theorem awaits_literal (hF : ∀ form, F form → shape.form form)
    (hforms : ∀ form ∈ (Form.function parameters body).forms, F form) :
    (Value.closure parameters body env).Awaits F := by
  obtain ⟨hparameters, _, hbody⟩ := hF _ (List.forall_mem_cons.mp hforms).1
  exact ⟨hbody, parameters, 0, rfl, List.length_pos_iff.mpr hparameters, .literal env hforms⟩

theorem awaits_remainder {arguments : List Value} (h : (Value.closure parameters body env).Awaits F)
    (hlt : arguments.length < parameters.length) :
    (Value.closure (parameters.drop arguments.length) body (env.extend (parameters.zip arguments))).Awaits F := by
  obtain ⟨hbody, all, applied, rfl, _, hcloses⟩ := h
  have hlt : applied + arguments.length < all.length := by
    rw [List.length_drop] at hlt
    omega
  exact ⟨hbody, all, applied + arguments.length, List.drop_drop, hlt, .call hcloses hlt⟩

theorem awaits_body (h : (Value.closure parameters body env).Awaits F) : ∀ form ∈ statementForms body, F form := by
  obtain ⟨_, all, applied, _, _, hcloses⟩ := h
  exact (List.forall_mem_cons.mp hcloses.forms).2

theorem repr_injective {m n : Nat} (h : m.repr = n.repr) : m = n := by
  have hdigits : Nat.toDigits 10 m = Nat.toDigits 10 n := by rw [← Nat.toList_repr, h, Nat.toList_repr]
  rw [← Nat.ofDigitChars_ten_toDigits (n := m), hdigits, Nat.ofDigitChars_ten_toDigits]

/-- It shows that it awaits something. -/
theorem awaits_display (h : v.Awaits F) (hkind : v.kind = .function) : v.display ≠ "<function/0>" := by
  cases v with
  | closure parameters body env =>
    obtain ⟨_, all, applied, rfl, hlt, _⟩ := h
    have hpositive : (all.drop applied).length ≠ (0 : Nat) := by
      rw [List.length_drop]
      omega
    intro hzero
    have hshown : "<function/" ++ (all.drop applied).length.repr ++ ">" = "<function/" ++ (0 : Nat).repr ++ ">" :=
      hzero
    rw [String.append_left_inj, String.append_right_inj] at hshown
    exact hpositive (repr_injective hshown)
  | _ => cases hkind

end

/-! ## Sessions -/

def transcript (printed : List Value) : String := String.join (printed.map fun v => v.display ++ "\n")

theorem transcript_append (printed : List Value) (v : Value) :
    transcript (printed ++ [v]) = transcript printed ++ v.display ++ "\n" := by
  simp [transcript, String.join_append, String.append_assoc]

inductive Error.ShowsEmpty : Error → Prop
  | application : ShowsEmpty (.type .emptyApplication)
  | condition : ShowsEmpty (.type (.conditionNotBoolean .function "<function/0>"))

def Contract.awaiting (P : Value → Prop) (given : Error → Prop) : Contract World where
  good world := ∃ printed : List Value, (∀ v ∈ printed, v.All P) ∧ world.output = transcript printed
  error e := e.ShowsEmpty → given e
  change _ := False

section
variable (P : Value → Prop) (given : Error → Prop)

theorem awaiting_uncounted : (Contract.awaiting P given).Uncounted where
  good _ _ hworld := hworld
  change _ hf := hf.elim

variable {P}

theorem printLine_awaiting (host : Host) {v : Value} (hv : v.All P) :
    (Contract.awaiting P given).Met (fun _ => True) (printLine host v.display) := by
  refine Contract.write (fun _ hshows => nomatch hshows) ?_ fun _ hf => hf.elim
  rintro world ⟨printed, hprinted, houtput⟩
  refine ⟨printed ++ [v], List.forall_mem_append.mpr ⟨hprinted, by simpa using hv⟩, ?_⟩
  rw [transcript_append, ← houtput, String.append_assoc]

theorem readLine_awaiting : (Contract.awaiting P given).Met (fun _ => True) readLine :=
  Contract.readLine (fun _ hshows => nomatch hshows) (fun _ _ hworld => hworld) fun _ hf => hf.elim

end

def Value.Ordinary (F : Form → Prop) (v : Value) : Prop := v.Awaits F ∧ v.Granted Builtin.all

theorem ordinary_of_kind (F : Form → Prop) {v : Value} (hfunction : v.kind ≠ .function)
    (hbuiltin : v.kind ≠ .builtin) :
    v.Ordinary F :=
  ⟨awaits_of_kind hfunction, granted_of_kind _ hbuiltin⟩

theorem upheld_awaiting {F : Form → Prop} {host : Host} {given : Error → Prop}
    (hF : ∀ form, F form → shape.form form)
    (hbuiltins : host.builtins ⊆ Builtin.all) (hgiven : ∀ name e, host.loader name = .error e → given e)
    (hmodules : ∀ name source program, host.loader name = .ok source → parseSource source = .ok program →
      ∀ form ∈ statementForms program, F form) :
    Upheld (Contract.awaiting (Value.Ordinary F) given) (Value.Ordinary F) F host where
  data _ := ordinary_of_kind F
  listed builtin hlisted := by
    refine ⟨awaits_of_kind (by simp [Value.kind]), fun other hother => ?_⟩
    cases hother
    exact hbuiltins hlisted
  closure _ _ _ hforms := ⟨awaits_literal hF hforms, granted_of_kind _ (by simp [Value.kind])⟩
  remainder _ _ _ _ h hlt := ⟨awaits_remainder h.1 hlt, granted_of_kind _ (by simp [Value.kind])⟩
  body _ _ _ h := awaits_body h.1
  modules := hmodules
  raised e he hshows := by
    cases he with
    | emptyApplication hform => exact absurd (hF _ hform) (by simp [shape])
    | condition hv =>
      generalize hkind : Value.kind _ = kind at hshows
      generalize hdisplay : Value.display _ = text at hshows
      cases hshows
      exact absurd hdisplay (awaits_display hv.self.1 hkind)
    | @load name _ hfails =>
      cases hfails with
      | missing hload => exact hgiven name e hload
      | broken => cases hshows
    | _ => cases hshows
  countCall := (awaiting_uncounted _ given).countCall fun _ _ hshows => nomatch hshows
  printLine _ _ _ hv := printLine_awaiting given host hv
  readLine _ _ := readLine_awaiting given
  supplied _ _ hsupplied := absurd hsupplied.2 (not_granted_supplied (List.Subset.refl _))

/-- **Closures await a parameter.** Whatever sources run in a session with default builtins
and any loaders, each closure that can be reached from a result, a name or a printed value
comes from a literal of these sources or of their modules. The literal has a body, and
fewer of its parameters are bound than there are. So no closure shows as `<function/0>`,
also in an error, and no run comes to an empty application: an error that says so is one
that a loader gave in the place of a module, and loaders that only fail to load give none. -/
theorem runSources_awaits {calls : List (Host × String)} (hcalls : ∀ call ∈ calls, call.1.builtins ⊆ Builtin.all)
    (fuel : Nat) (input : List UInt8) :
    let (results, session) := Session.runSources fuel calls (.start input)
    ∃ printed, session.world.output = transcript printed ∧
      (∀ v u, .ok v ∈ results ∨ session.environment.Binds v ∨ v ∈ printed → v.Reaches u →
        u.Awaits (WrittenIn calls) ∧ (u.kind = .function → u.display ≠ "<function/0>")) ∧
      (∀ e, .error (.failure e) ∈ results → e.ShowsEmpty → ∃ call ∈ calls, ∃ name, call.1.loader name = .error e) ∧
      ((∀ call ∈ calls, OnlyFailsToLoad call.1.loader) → ∀ e, .error (.failure e) ∈ results →
        e ≠ .type .emptyApplication ∧
          ∀ text, e = .type (.conditionNotBoolean .function text) → text ≠ "<function/0>") := by
  let P := Value.Ordinary (WrittenIn calls)
  let given (e : Error) : Prop := ∃ call ∈ calls, ∃ name, call.1.loader name = .error e
  have hmet : ∀ call ∈ calls, ((Contract.awaiting P given).session P).Met (Value.All P)
      (Session.runSource call.1 fuel call.2) := fun call hcall =>
    runSource_met
      (upheld_awaiting (fun _ => WrittenIn.shape) (hcalls call hcall)
        (fun name _ hload => ⟨call, hcall, name, hload⟩)
        fun _ _ _ hload hparse _ => .module hcall hload hparse)
      (awaiting_uncounted P given) (fun e he hshows => by cases hshows <;> cases he)
      fuel fun _ hparse _ => .source hcall hparse
  have hstart : ((Contract.awaiting P given).session P).good (.start input) :=
    ⟨Environment.all_global fun _ => ordinary_of_kind _, [], by simp, rfl⟩
  obtain ⟨hvalues, herrors, ⟨henv, printed, hprinted, houtput⟩, _⟩ := runSources_met hmet hstart rfl
  refine ⟨printed, houtput, fun v u hv hu => ?_, herrors, fun hloaders e he => ?_⟩
  · have hordinary : u.Ordinary (WrittenIn calls) := by
      rcases hv with hv | hv | hv
      · exact hvalues v hv u hu
      · exact henv v hv u hu
      · exact hprinted v hv u hu
    exact ⟨hordinary.1, awaits_display hordinary.1⟩
  · have hnot : ¬ e.ShowsEmpty := fun hshows => by
      obtain ⟨call, hcall, name, hload⟩ := herrors e he hshows
      obtain ⟨_, _, rfl⟩ := hloaders call hcall name e hload
      cases hshows
    refine ⟨?_, ?_⟩
    · rintro rfl
      exact hnot .application
    · rintro _ rfl rfl
      exact hnot .condition

/-- What a loader makes up is passed on. -/
example :
    (Session.runSources 9 [(.ofLoader fun _ => .error (.type .emptyApplication), "use \"m\";")] (.start [])).1 =
    [.error (.failure (.type .emptyApplication))] := by cbv

def partialPair : List (Host × String) :=
  let loader (name : String) : Except Error String :=
    if name = "pair" then .ok "let pair <- \x7b a b | a; \x7d;" else .error (.moduleLoad name "no such module")
  [(.ofLoader loader, "use \"pair\"; let first <- pair 1;"),
    (.ofLoader loader, "\x7b#print\x7d first; cond | first -> 1; end;")]

set_option maxRecDepth 2000 in
theorem partialPair_awaits :
    (∀ call ∈ partialPair, call.1.builtins ⊆ Builtin.all) ∧
      (∀ call ∈ partialPair, OnlyFailsToLoad call.1.loader) ∧
      ∃ session, Session.runSources 19 partialPair (.start []) =
          ([.ok .nothing, .error (.failure (.type (.conditionNotBoolean .function "<function/1>")))], session) ∧
        session.world.output = "<function/1>\n" ∧
        (∀ v u, session.environment.Binds v → v.Reaches u → u.Awaits (WrittenIn partialPair)) ∧
        ∀ e, .error (.failure e) ∈ (Session.runSources 19 partialPair (.start [])).1 →
          e ≠ .type .emptyApplication := by
  have hbuiltins : ∀ call ∈ partialPair, call.1.builtins ⊆ Builtin.all := by
    simp [partialPair, Host.ofLoader]
  have hloaders : ∀ call ∈ partialPair, OnlyFailsToLoad call.1.loader := by
    intro call hcall name e hload
    obtain rfl | rfl : call = partialPair[0] ∨ call = partialPair[1] := by simpa [partialPair] using hcall
    all_goals
      simp only [partialPair, Host.ofLoader, List.getElem_cons_zero, List.getElem_cons_succ] at hload
      split at hload <;> cases hload
      exact ⟨_, _, rfl⟩
  have hrun : (Session.runSources 19 partialPair (.start [])).1 =
      [.ok .nothing, .error (.failure (.type (.conditionNotBoolean .function "<function/1>")))] := by cbv
  have houtput : (Session.runSources 19 partialPair (.start [])).2.world.output = "<function/1>\n" := by cbv
  obtain ⟨_, _, hawaits, _, herrors⟩ := runSources_awaits hbuiltins 19 []
  refine ⟨hbuiltins, hloaders, _, Prod.ext hrun rfl, houtput, fun v u hv hu => ?_, fun e he => ?_⟩
  · exact (hawaits v u (.inr (.inl hv)) hu).1
  · exact (herrors hloaders e he).1

end CurriedScript
