import CurriedScript.Evaluate
import CurriedScript.Proofs.Ends

/-!
# How runs change the world

A run writes after what is written, takes from the front of the input and only
counts up: `World.Later`. The parts of evaluation that turn to the host, but for
the count of calls, end at once and count nothing: `Run.Uncounted`.
-/

namespace CurriedScript

def finalState {ε σ α : Type} : EStateM.Result ε σ α → σ
  | .ok _ state => state
  | .error _ state => state

/-- There may be more output and more calls, and input may have been taken. -/
structure World.Later (world later : World) : Prop where
  output : ∃ printed, later.output = world.output ++ printed
  input : later.input <:+ world.input
  calls : world.calls ≤ later.calls

theorem World.Later.refl (world : World) : world.Later world :=
  ⟨⟨"", by simp⟩, List.suffix_rfl, Nat.le_refl _⟩

theorem World.Later.trans {w₁ w₂ w₃ : World} (h : w₁.Later w₂) (h' : w₂.Later w₃) : w₁.Later w₃ := by
  obtain ⟨printed, hp⟩ := h.output
  obtain ⟨printed', hp'⟩ := h'.output
  refine ⟨⟨printed ++ printed', ?_⟩, h'.input.trans h.input, Nat.le_trans h.calls h'.calls⟩
  rw [hp', hp, String.append_assoc]

namespace Run

variable {α β : Type}

theorem fail_bind (e : Error) (f : α → Run β) : fail e >>= f = fail e := rfl

/-- From every world the run ends, and it counts no calls. -/
def Uncounted (m : Run α) : Prop :=
  ∀ world, ∃ result left, m.run world = settled result left ∧ world.Later left ∧ left.calls = world.calls

theorem Uncounted.pure (a : α) : Uncounted (Pure.pure a) :=
  fun world => ⟨.ok a, world, rfl, .refl world, rfl⟩

theorem Uncounted.fail (e : Error) : Uncounted (CurriedScript.fail e : Run α) :=
  fun world => ⟨.error e, world, rfl, .refl world, rfl⟩

theorem Uncounted.bind {m : Run α} {f : α → Run β} (h : Uncounted m) (hf : ∀ a, Uncounted (f a)) :
    Uncounted (m >>= f) := by
  intro world
  obtain ⟨result, left, hm, hlater, hcalls⟩ := h world
  cases result with
  | error e => exact ⟨.error e, left, run_bind_error hm, hlater, hcalls⟩
  | ok a =>
    obtain ⟨result, left', hfa, hlater', hcalls'⟩ := hf a left
    exact ⟨result, left', (run_bind_ok hm).trans hfa, hlater.trans hlater', hcalls'.trans hcalls⟩

def Advances (m : Run α) : Prop := ∀ world : World, world.Later (finalState (m.run world))

theorem Advances.pure (a : α) : Advances (Pure.pure a) := fun world => .refl world

theorem Advances.throw (halt : Halt) : Advances (throw halt : Run α) := fun world => .refl world

theorem Advances.bind {m : Run α} {f : α → Run β} (h : Advances m) (hf : ∀ a, Advances (f a)) :
    Advances (m >>= f) := by
  intro world
  have hm := h world
  cases hr : m.run world with
  | error halt left =>
    rw [run_bind_error hr]
    rw [hr] at hm
    exact hm
  | ok a left =>
    rw [run_bind_ok hr]
    rw [hr] at hm
    exact hm.trans (hf a left)

theorem finalState_settled (result : Except Error α) (left : World) : finalState (settled result left) = left := by
  cases result <;> rfl

theorem Uncounted.advances {m : Run α} (h : Uncounted m) : Advances m := by
  intro world
  obtain ⟨result, left, hm, hlater, _⟩ := h world
  rw [hm, finalState_settled]
  exact hlater

end Run

open Run

/-! ## Input and output -/

theorem lineSpan_append (bytes : List UInt8) : (lineSpan bytes).1 ++ (lineSpan bytes).2 = bytes := by
  induction bytes with
  | nil => rfl
  | cons byte rest ih =>
    unfold lineSpan
    by_cases h : byte = 10
    · simp [h]
    · simp [h, ih]

theorem write_uncounted (host : Host) (text : String) : Uncounted (write host text) := by
  intro world
  unfold write
  cases host.outputFault with
  | some reason => exact ⟨.error (.io reason), world, rfl, .refl world, rfl⟩
  | none =>
    refine ⟨.ok (), { world with output := world.output ++ text }, rfl, ?_, rfl⟩
    exact ⟨⟨text, rfl⟩, List.suffix_rfl, Nat.le_refl _⟩

theorem takeInput_uncounted (count : Nat) : Uncounted (takeInput count) := by
  intro world
  refine ⟨.ok world.input, { world with input := world.input.drop count }, rfl, ?_, rfl⟩
  exact ⟨⟨"", by simp⟩, List.drop_suffix _ _, Nat.le_refl _⟩

/-- A line is taken also if it is no text. Nothing but the input matters, and nothing else
changes. -/
theorem readLine_run (input : List UInt8) :
    ∃ result : Except Error String, (∀ e, result = .error e → ∃ reason, e = .io reason) ∧
      ∀ world : World, world.input = input →
        readLine.run world = settled result { world with input := (lineSpan input).2 } := by
  cases h : String.fromUTF8? ⟨(lineSpan input).1.toArray⟩ with
  | some text =>
    refine ⟨.ok (String.ofList (withoutLineEnd text.toList)), fun _ he => (by cases he), ?_⟩
    rintro world rfl
    simp only [readLine, EStateM.run_bind, EStateM.run_get, EStateM.run_set, h]
    rfl
  | none =>
    refine ⟨.error (.io "stream did not contain valid UTF-8"), fun _ he => ⟨_, (Except.error.inj he).symm⟩, ?_⟩
    rintro world rfl
    simp only [readLine, EStateM.run_bind, EStateM.run_get, EStateM.run_set, h]
    rfl

theorem readLine_uncounted : Uncounted readLine := by
  intro world
  obtain ⟨result, _, hrun⟩ := readLine_run world.input
  exact ⟨result, _, hrun world rfl, ⟨⟨"", by simp⟩, ⟨_, lineSpan_append world.input⟩, Nat.le_refl _⟩, rfl⟩

/-! ## The count of calls -/

theorem countCall_run_none {host : Host} (h : host.callLimit = none) (world : World) :
    (countCall host).run world = .ok () { world with calls := world.calls + 1 } := by
  simp [countCall, h]

theorem countCall_run_of_lt {host : Host} {limit : Nat} (h : host.callLimit = some limit) {world : World}
    (hlt : world.calls < limit) : (countCall host).run world = .ok () { world with calls := world.calls + 1 } := by
  simp [countCall, h, Nat.not_le.mpr hlt]

theorem countCall_run_of_le {host : Host} {limit : Nat} (h : host.callLimit = some limit) {world : World}
    (hle : limit ≤ world.calls) : (countCall host).run world = .error (.failure (.callLimit limit)) world := by
  simp [countCall, h, hle, fail]

theorem World.later_counted (world : World) : world.Later { world with calls := world.calls + 1 } :=
  ⟨⟨"", by simp⟩, List.suffix_rfl, Nat.le_succ _⟩

theorem countCall_advances (host : Host) : Advances (countCall host) := by
  intro world
  cases hlimit : host.callLimit with
  | none =>
    rw [countCall_run_none hlimit]
    exact world.later_counted
  | some limit =>
    rcases Nat.lt_or_ge world.calls limit with hlt | hle
    · rw [countCall_run_of_lt hlimit hlt]
      exact world.later_counted
    · rw [countCall_run_of_le hlimit hle]
      exact .refl world

/-! ## What the evaluator asks of its host -/

theorem lookup_uncounted (env : Environment) (name : String) : Uncounted (lookup env name) := by
  unfold lookup
  cases env.get? name with
  | some value => exact .pure value
  | none => exact .fail _

theorem builtinNamed_uncounted (host : Host) (name : String) : Uncounted (builtinNamed host name) := by
  unfold builtinNamed
  cases Builtin.find? host.builtins name with
  | some builtin => exact .pure _
  | none => exact .fail _

def IsModule (loader : Loader) (m : String) (statements : List Statement) : Prop :=
  ∃ source, loader m = .ok source ∧ parseSource source = .ok statements

/-- Loading the module gives the error: that of the loader, or that its source is no
program. -/
inductive LoadFails (loader : Loader) (m : String) : Error → Prop
  | missing {e : Error} : loader m = .error e → LoadFails loader m e
  | broken {source : String} {e : Error} : loader m = .ok source → parseSource source = .error e →
      LoadFails loader m (.moduleLoad m e.message)

def OnlyFailsToLoad (loader : Loader) : Prop :=
  ∀ m e, loader m = .error e → ∃ name reason, e = .moduleLoad name reason

theorem LoadFails.moduleLoad {loader : Loader} (hloader : OnlyFailsToLoad loader) {m : String} {e : Error}
    (h : LoadFails loader m e) : ∃ name reason, e = .moduleLoad name reason := by
  cases h with
  | missing hsource => exact hloader m e hsource
  | broken => exact ⟨_, _, rfl⟩

theorem loadModule_of_isModule {host : Host} {m : String} {statements : List Statement}
    (h : IsModule host.loader m statements) : loadModule host m = pure statements := by
  obtain ⟨source, hsource, hparse⟩ := h
  simp only [loadModule, loadSource, hsource, pure_bind, hparse]

theorem loadModule_of_loadFails {host : Host} {m : String} {e : Error} (h : LoadFails host.loader m e) :
    loadModule host m = fail e := by
  cases h with
  | missing hsource => simp only [loadModule, loadSource, hsource, fail_bind]
  | broken hsource hparse => simp only [loadModule, loadSource, hsource, pure_bind, hparse]

/-- A module loads as the statements of its source, or not at all. -/
theorem isModule_or_loadFails (loader : Loader) (m : String) :
    (∃ statements, IsModule loader m statements) ∨ ∃ e, LoadFails loader m e := by
  cases hsource : loader m with
  | error e => exact .inr ⟨e, .missing hsource⟩
  | ok source =>
    cases hparse : parseSource source with
    | error e => exact .inr ⟨_, .broken hsource hparse⟩
    | ok statements => exact .inl ⟨statements, source, hsource, hparse⟩

theorem loadModule_uncounted (host : Host) (name : String) : Uncounted (loadModule host name) := by
  obtain ⟨statements, h⟩ | ⟨e, h⟩ := isModule_or_loadFails host.loader name
  · rw [loadModule_of_isModule h]
    exact .pure statements
  · rw [loadModule_of_loadFails h]
    exact .fail e

theorem Primitive.pureRun_uncounted (result : Except Error Value) : Uncounted (pureRun result) := by
  cases result with
  | ok value => exact .pure value
  | error e => exact .fail e

theorem Primitive.run_uncounted (host : Host) (primitive : Primitive) (arguments : List Value) :
    Uncounted (primitive.run host arguments) := by
  cases primitive with
  | print =>
    match arguments with
    | [value] => exact (write_uncounted host (value.display ++ "\n")).bind fun _ => .pure _
    | [] => exact pureRun_uncounted (wrongArity .print 1 0)
    | _ :: _ :: rest => exact pureRun_uncounted (wrongArity .print 1 (rest.length + 2))
  | read => exact readLine_uncounted.bind fun _ => .pure _
  | _ => exact pureRun_uncounted _

end CurriedScript
