import CurriedScript.Proofs.Capabilities
import CurriedScript.Proofs.Threads

/-!
# The errors of runs

What each class of error says about the host and the builtins of a run:
`Error.Arises`. No run ends in a lexical or a syntax error. Those of a module are an
error of loading it, which the modules around it pass on.
-/

namespace CurriedScript

open Run

/-! ## Classes of errors -/

/-- How the error can arise under the host if there are no builtins but those of the
table. -/
def Error.Arises (host : Host) (table : List Builtin) : Error → Prop
  | .lex _ _ | .parse _ _ _ => False
  | .moduleLoad name reason => ∃ m, LoadFails host.loader m (.moduleLoad name reason)
  | .unknownBuiltin name => Builtin.find? host.builtins name = none
  | .arity name _ _ => ∃ builtin ∈ table, builtin.name = name
  | .io _ => Primitive.print.builtin ∈ table ∨ Primitive.read.builtin ∈ table
  | .callLimit limit => host.callLimit = some limit
  | .unbound _ | .type _ | .noMatch | .notCallable _ => True

def Contract.taxonomy (host : Host) (table : List Builtin) : Contract World where
  good _ := True
  error := Error.Arises host table
  change _ := False

section
variable (host : Host) (table : List Builtin)

theorem taxonomy_uncounted : (Contract.taxonomy host table).Uncounted where
  good _ _ hworld := hworld
  change _ hf := hf.elim

theorem printLine_taxonomy {line : String} (hprint : Primitive.print.builtin ∈ table) :
    (Contract.taxonomy host table).Met (fun _ => True) (printLine host line) :=
  Contract.write (fun _ => Or.inl hprint) (fun _ _ => trivial) fun _ hf => hf.elim

theorem readLine_taxonomy (hread : Primitive.read.builtin ∈ table) :
    (Contract.taxonomy host table).Met (fun _ => True) readLine :=
  Contract.readLine (fun _ => Or.inr hread) (fun _ _ _ => trivial) fun _ hf => hf.elim

variable {host table} (hloader : OnlyFailsToLoad host.loader) (htable : table ⊆ Builtin.all)
include hloader htable

theorem raised_arises {e : Error} (he : Raised host (Value.Granted table) (fun _ => True) e) :
    e.Arises host table := by
  cases he with
  | unknownBuiltin hnone => exact hnone
  | @load m _ hfails =>
    obtain ⟨name, reason, rfl⟩ := hfails.moduleLoad hloader
    exact ⟨m, hfails⟩
  | arity _ _ hgranted => exact ⟨_, granted_primitive htable hgranted, rfl⟩
  | _ => trivial

theorem upheld_taxonomy (hbuiltins : host.builtins ⊆ table) :
    Upheld (Contract.taxonomy host table) (Value.Granted table) (fun _ => True) host :=
  upheld_granted htable hbuiltins (fun _ => raised_arises hloader htable)
    ((taxonomy_uncounted host table).countCall fun _ hlimit => hlimit)
    (fun hprint _ => printLine_taxonomy host table hprint) (readLine_taxonomy host table)

theorem execute_arises (hbuiltins : host.builtins ⊆ table) {env : Environment}
    (henv : env.All (Value.Granted table))
    {fuel : Nat} {s : Statement} {world left : World} {e : Error}
    (hrun : (execute host fuel env s).run world = .error (.failure e) left) : e.Arises host table := by
  have hmet := (evaluator_met (upheld_taxonomy hloader htable hbuiltins) fuel).execute s henv fun _ _ => trivial
  have hallows := hmet.allows world trivial
  rw [hrun] at hallows
  exact hallows.1

end

/-! ## Modules in modules -/

/-- Using the module comes, through the modules between, to using the inner one, in the
world `there`. -/
inductive ComesTo (host : Host) (inner : String) (there : World) : Environment → World → String → Prop
  | here {env : Environment} : ComesTo host inner there env there inner
  | through {env env' : Environment} {world world' : World} {outer next : String} {before after : List Statement} :
      IsModule host.loader outer (before ++ .use next :: after) →
      Ends (thread host · env before) world (.ok env') world' → ComesTo host inner there env' world' next →
      ComesTo host inner there env world outer

/-- Modules pass on that an inner one cannot be loaded. -/
theorem ComesTo.fails {host : Host} {inner : String} {e : Error} {there : World}
    (hfails : LoadFails host.loader inner e)
    {env : Environment} {world : World} {m : String} (h : ComesTo host inner there env world m) :
    Ends (execute host · env (.use m)) world (.error e) there := by
  induction h with
  | @here env =>
    refine ⟨1, ?_⟩
    dsimp only
    rw [execute_use_fails host hfails]
    rfl
  | @through env env' world world' outer next before after hmodule hbefore _ ih =>
    obtain ⟨n, hn⟩ := hbefore.enough fun _ _ h => thread_fuel_le host h env before
    obtain ⟨k, hk⟩ := ih.enough fun _ _ h => execute_fuel_le host h env' (.use next)
    have hstatements : (thread host (max n k) env (before ++ .use next :: after)).run world =
        .error (.failure e) there := by
      rw [thread_append, run_bind_ok (hn (max n k) (Nat.le_max_left n k))]
      exact run_bind_error (hk (max n k) (Nat.le_max_right n k))
    refine ⟨max n k + 1, ?_⟩
    dsimp only
    rw [execute_use host hmodule]
    exact run_bind_error hstatements

/-- **Errors stay in their classes.** With a loader that only fails to load, and no builtins
but the default ones in its table and its environment, a statement fails with no lexical
or syntax error, with the call limit only if its host has that limit, and with an error
of loading only where loading a module gives that error: the loader's own, or that the
module so named is no program. With no builtin in the table or in reach it fails with no
error of arity or of input and output. What loading a module fails with is passed on at
any depth of modules around it. -/
theorem execute_taxonomy {host : Host} (hloader : OnlyFailsToLoad host.loader)
    (htable : host.builtins ⊆ Builtin.all)
    {env : Environment} (henv : ∀ v, env.Binds v → ∀ builtin, v.Reaches (.builtin builtin) → builtin ∈ Builtin.all)
    (s : Statement) (world : World) :
    (∀ fuel e left, (execute host fuel env s).run world = .error (.failure e) left →
      ¬ e.IsSyntax ∧
      (∀ name reason, e = .moduleLoad name reason → ∃ m, LoadFails host.loader m e) ∧
      (∀ limit, e = .callLimit limit → host.callLimit = some limit) ∧
      (host.builtins = [] → (∀ v, env.Binds v → ∀ builtin, ¬ v.Reaches (.builtin builtin)) →
        (∀ name expected found, e ≠ .arity name expected found) ∧ ∀ reason, e ≠ .io reason)) ∧
    ∀ m inner e there, ComesTo host inner there env world m → LoadFails host.loader inner e →
      Ends (execute host · env (.use m)) world (.error e) there := by
  refine ⟨fun fuel e left hrun => ?_, fun m inner e there h hfails => h.fails hfails⟩
  have hgranted : env.All (Value.Granted Builtin.all) := fun v hv u hu builtin hbuiltin =>
    henv v hv builtin (hbuiltin ▸ hu)
  have hall : e.Arises host Builtin.all := execute_arises hloader (fun _ h => h) htable hgranted hrun
  refine ⟨fun hsyntax => ?_, ?_, ?_, fun hbuiltins hreach => ?_⟩
  · cases e <;> first | exact hall | exact hsyntax
  · rintro name reason rfl
    exact hall
  · rintro limit rfl
    exact hall
  · have hnone : e.Arises host [] :=
      execute_arises hloader (by simp) (by simp [hbuiltins])
        (fun v hv u hu builtin hbuiltin => absurd (hbuiltin ▸ hu) (hreach v hv builtin)) hrun
    refine ⟨?_, ?_⟩
    · rintro name expected found rfl
      simp [Error.Arises] at hnone
    · rintro reason rfl
      simp [Error.Arises] at hnone

def brokenInside : Host where
  builtins := []
  loader name :=
    if name = "outer" then .ok "let x <- 1; use \"inner\";"
    else if name = "inner" then .ok "\n\"\\q\";"
    else .error (.moduleLoad name "no such module")
  callLimit := some 0
  outputFault := none
  functions := []

theorem brokenInside_onlyFailsToLoad : OnlyFailsToLoad brokenInside.loader := by
  intro m e h
  unfold brokenInside at h
  dsimp only at h
  split at h
  · cases h
  split at h
  · cases h
  · cases h
    exact ⟨_, _, rfl⟩

theorem useOuter_taxonomy :
    let e := Error.moduleLoad "inner" "[line 2] LexError: \\q is not an escape sequence"
    (OnlyFailsToLoad brokenInside.loader ∧ brokenInside.builtins ⊆ Builtin.all) ∧
      (LoadFails brokenInside.loader "inner" e ∧ ComesTo brokenInside "inner" .start .global .start "outer") ∧
      Ends (execute brokenInside · .global (.use "outer")) .start (.error e) .start ∧
      (brokenInside.builtins = [] ∧ ∀ v, Environment.global.Binds v → ∀ builtin, ¬ v.Reaches (.builtin builtin)) ∧
      ∀ fuel e left, (execute brokenInside fuel .global (.use "outer")).run .start = .error (.failure e) left →
        ∀ reason, e ≠ .io reason := by
  intro e
  have hscan : scan "\n\"\\q\";" = .error (.lex 2 (.invalidEscape 'q')) := by decide +kernel
  have hparse : parseSource "\n\"\\q\";" = .error (.lex 2 (.invalidEscape 'q')) := by
    rw [parseSource, hscan]
    rfl
  have hmessage : Error.moduleLoad "inner" (Error.lex 2 (.invalidEscape 'q')).message = e := by decide +kernel
  have hfails : LoadFails brokenInside.loader "inner" e := by
    rw [← hmessage]
    exact .broken rfl hparse
  have houter : IsModule brokenInside.loader "outer"
      ([.bind [⟨"x", (Form.literal (.integer 1)).bare⟩]] ++ .use "inner" :: []) := ⟨_, rfl, by cbv⟩
  have hbefore : Ends (thread brokenInside · .global [.bind [⟨"x", (Form.literal (.integer 1)).bare⟩]]) .start
      (.ok (Environment.global.frame.bind "x" (.integer 1))) .start := ⟨4, rfl⟩
  have hcomes : ComesTo brokenInside "inner" .start .global .start "outer" := .through houter hbefore .here
  have hreach : ∀ v, Environment.global.Binds v → ∀ builtin, ¬ v.Reaches (.builtin builtin) :=
    fun v hv builtin hu =>
    absurd (Environment.all_global (fun _ _ => granted_of_kind []) v hv _ hu builtin rfl) (by simp)
  have htable : brokenInside.builtins ⊆ Builtin.all := by simp [brokenInside]
  obtain ⟨hclasses, hmodules⟩ := execute_taxonomy brokenInside_onlyFailsToLoad htable
    (fun v hv builtin hu => absurd hu (hreach v hv builtin)) (.use "outer") .start
  refine ⟨⟨brokenInside_onlyFailsToLoad, htable⟩, ⟨hfails, hcomes⟩, hmodules "outer" "inner" e .start hcomes hfails,
    ⟨rfl, hreach⟩, ?_⟩
  intro fuel e left hrun
  exact ((hclasses fuel e left hrun).2.2.2 rfl hreach).2

end CurriedScript
