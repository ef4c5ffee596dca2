import CurriedScript.Proofs.Threads
import Mathlib

/-!
# Using a module is including it

`executeEach_sameEnd_flat`: statements run as they do with the statements of its module
in the place of each `use`, and so on in these. Both threads go through the same
environments. The flat one needs less fuel, by the depth to which modules use others.
-/

namespace CurriedScript

open Run

/-! ## Flat programs -/

/-- One of the statements of `outer`, and not of a body in it, is a `use` of `inner`. -/
def Uses (loader : Loader) (inner outer : String) : Prop :=
  ∃ statements, IsModule loader outer statements ∧ .use inner ∈ statements

inductive Needs (loader : Loader) (program : List Statement) : String → Prop
  | direct {m : String} : .use m ∈ program → Needs loader program m
  | through {inner outer : String} : Needs loader program outer → Uses loader inner outer →
      Needs loader program inner

/-- The second program has no `use` among its statements, and what the module of each
`use` flattens to in its place. -/
inductive Flattens (loader : Loader) : List Statement → List Statement → Prop
  | nil : Flattens loader [] []
  | use {m : String} {statements inner rest flat : List Statement} : IsModule loader m statements →
      Flattens loader statements inner → Flattens loader rest flat →
      Flattens loader (.use m :: rest) (inner ++ flat)
  | keep {s : Statement} {rest flat : List Statement} : (∀ m, s ≠ .use m) → Flattens loader rest flat →
      Flattens loader (s :: rest) (s :: flat)

variable {loader : Loader}

theorem IsModule.unique {m : String} {statements statements' : List Statement} (h : IsModule loader m statements)
    (h' : IsModule loader m statements') : statements = statements' := by
  obtain ⟨source, hsource, hparse⟩ := h
  obtain ⟨source', hsource', hparse'⟩ := h'
  cases hsource.symm.trans hsource'
  cases hparse.symm.trans hparse'
  rfl

theorem Flattens.unique {program flat flat' : List Statement} (h : Flattens loader program flat)
    (h' : Flattens loader program flat') : flat = flat' := by
  induction h generalizing flat' with
  | nil =>
    cases h'
    rfl
  | use hmodule _ _ ihinner ihrest =>
    cases h' with
    | use hmodule' hinner' hrest' =>
      cases hmodule.unique hmodule'
      rw [ihinner hinner', ihrest hrest']
    | keep hkeep _ => exact absurd rfl (hkeep _)
  | keep hkeep _ ih =>
    cases h' with
    | use => exact absurd rfl (hkeep _)
    | keep _ hrest' => rw [ih hrest']

theorem Flattens.not_use {program flat : List Statement} (h : Flattens loader program flat) (m : String) :
    .use m ∉ flat := by
  induction h with
  | nil => simp
  | use _ _ _ ihinner ihrest => simp [ihinner, ihrest]
  | keep hkeep _ ih => simpa [ih] using (hkeep m).symm

/-- A program can be flattened if the modules it uses can. -/
theorem flattens_of_modules (program : List Statement) (h : ∀ m, .use m ∈ program →
      ∃ statements inner, IsModule loader m statements ∧ Flattens loader statements inner) :
    ∃ flat, Flattens loader program flat := by
  induction program with
  | nil => exact ⟨[], .nil⟩
  | cons s rest ih =>
    obtain ⟨flat, hflat⟩ := ih fun m hm => h m (List.mem_cons_of_mem s hm)
    cases s with
    | use m =>
      obtain ⟨statements, inner, hmodule, hinner⟩ := h m (List.mem_cons_self ..)
      exact ⟨inner ++ flat, .use hmodule hinner hflat⟩
    | bind bindings => exact ⟨_, .keep (by simp) hflat⟩
    | expr x => exact ⟨_, .keep (by simp) hflat⟩

/-- Modules that do not use each other in a circle can be flattened, the innermost first. -/
theorem flattens_of_wellFounded {program : List Statement}
    (hload : ∀ m, Needs loader program m → ∃ statements, IsModule loader m statements)
    (hmodules : WellFounded fun inner outer => Needs loader program outer ∧ Uses loader inner outer) :
    ∃ flat, Flattens loader program flat := by
  have hneeded : ∀ m, Needs loader program m →
      ∃ statements inner, IsModule loader m statements ∧ Flattens loader statements inner := by
    intro m
    induction m using hmodules.induction with
    | h outer ih =>
      intro houter
      obtain ⟨statements, hmodule⟩ := hload outer houter
      obtain ⟨inner, hinner⟩ := flattens_of_modules statements fun m hm =>
        have huses : Uses loader m outer := ⟨statements, hmodule, hm⟩
        ih m ⟨houter, huses⟩ (.through houter huses)
      exact ⟨statements, inner, hmodule, hinner⟩
  exact flattens_of_modules program fun m hm => hneeded m (.direct hm)

/-! ## Bounds on both sides -/

section
variable {host : Host} {program flat : List Statement}

theorem Flattens.thread_le (h : Flattens host.loader program flat) (fuel : Nat) (env : Environment) :
    Le (thread host fuel env program) (thread host fuel env flat) := by
  induction h generalizing fuel env with
  | nil => exact .refl _
  | use hmodule _ _ ihinner ihrest =>
    cases fuel with
    | zero => exact outOfFuel_le _
    | succ fuel =>
      simp only [thread, execute_use host hmodule, bind_assoc, pure_bind, thread_append]
      refine Le.bind ?_ fun env => ihrest (fuel + 1) env
      exact (ihinner fuel env).trans (thread_fuel_le host (Nat.le_succ fuel) env _)
  | keep _ _ ih => exact (Le.refl _).bind fun r => ih fuel r.2

/-- The fuel that a flat program saves is the depth of its modules. -/
theorem Flattens.le_thread (h : Flattens host.loader program flat) :
    ∃ depth, ∀ fuel env, Le (thread host fuel env flat) (thread host (fuel + depth) env program) := by
  induction h with
  | nil => exact ⟨0, fun _ _ => .refl _⟩
  | @use m statements inner rest flat hmodule _ _ ihinner ihrest =>
    obtain ⟨depth, hinner⟩ := ihinner
    obtain ⟨depth', hrest⟩ := ihrest
    refine ⟨max depth depth' + 1, fun fuel env => ?_⟩
    simp only [← Nat.add_assoc, thread, execute_use host hmodule, bind_assoc, pure_bind, thread_append]
    refine Le.bind ?_ fun env => ?_
    · exact (hinner fuel env).trans (thread_fuel_le host (by omega) env statements)
    · exact (hrest fuel env).trans (thread_fuel_le host (by omega) env rest)
  | keep _ _ ih =>
    obtain ⟨depth, ih⟩ := ih
    exact ⟨depth, fun fuel env => (execute_fuel_le host (Nat.le_add_right _ _) env _).bind fun r => ih fuel r.2⟩

end

/-- **`use` is inclusion.** If all modules that a program uses can be loaded, and do not use
each other in a circle, there is one flat program with their statements in the place of
each `use`. From every environment and world both diverge, or fail with the same error,
or leave the same environment. The worlds that they leave are the same. -/
theorem executeEach_sameEnd_flat {host : Host} {program : List Statement}
    (hload : ∀ m, Needs host.loader program m → ∃ statements, IsModule host.loader m statements)
    (hmodules : WellFounded fun inner outer => Needs host.loader program outer ∧ Uses host.loader inner outer) :
    ∃ flat, (∀ other, Flattens host.loader program other ↔ other = flat) ∧ (∀ m, .use m ∉ flat) ∧
      ∀ value env world, SameEnd (fun r r' => r.2 = r'.2)
        (fun fuel => executeEach (execute host fuel) value env program)
        (fun fuel => executeEach (execute host fuel) value env flat) world := by
  obtain ⟨flat, hflat⟩ := flattens_of_wellFounded hload hmodules
  refine ⟨flat, fun other => ⟨fun h => h.unique hflat, ?_⟩, hflat.not_use, fun value env world => ?_⟩
  · rintro rfl
    exact hflat
  · obtain ⟨depth, hdepth⟩ := hflat.le_thread
    refine sameEnd_of_map ?_
    simp only [executeEach_thread]
    exact sameEnd_of_le (fun fuel => ⟨fuel, hflat.thread_le fuel env⟩) (fun fuel => ⟨_, hdepth fuel env⟩) world

def rebinding : Host where
  builtins := []
  loader name :=
    if name = "outer" then .ok "let x <- 1; use \"inner\"; let x <- 2;"
    else if name = "inner" then .ok "let f <- \x7b y | x; \x7d;"
    else .error (.moduleLoad name "no such module")
  callLimit := none
  outputFault := none
  functions := []

def bindInteger (name : String) (n : Int) : Statement := .bind [⟨name, (Form.literal (.integer n)).bare⟩]

def bindFunction : Statement := .bind [⟨"f", (Form.function ["y"] [.expr (Form.name "x").bare]).bare⟩]

def callFunction : Statement := .expr (Form.application [(Form.name "f").bare, (Form.name "x").bare]).bare

theorem rebinding_outer : IsModule rebinding.loader "outer" [bindInteger "x" 1, .use "inner", bindInteger "x" 2] :=
  ⟨_, rfl, by cbv⟩

theorem rebinding_inner : IsModule rebinding.loader "inner" [bindFunction] := ⟨_, rfl, by cbv⟩

theorem rebinding_uses {inner outer : String} (h : Uses rebinding.loader inner outer) :
    inner = "inner" ∧ outer = "outer" := by
  obtain ⟨statements, hmodule, hinner⟩ := h
  by_cases houter : outer = "outer"
  · subst houter
    rw [hmodule.unique rebinding_outer] at hinner
    simpa [bindInteger] using hinner
  by_cases hother : outer = "inner"
  · subst hother
    rw [hmodule.unique rebinding_inner] at hinner
    simp [bindFunction] at hinner
  obtain ⟨source, hsource, _⟩ := hmodule
  simp [rebinding, houter, hother] at hsource

/-- The function is called after the name that it captured is bound again. -/
theorem callFunction_sameEnd_flat :
    let program := [Statement.use "outer", callFunction]
    let flat := [bindInteger "x" 1, bindFunction, bindInteger "x" 2, callFunction]
    (∀ m, Needs rebinding.loader program m → ∃ statements, IsModule rebinding.loader m statements) ∧
    (WellFounded fun inner outer => Needs rebinding.loader program outer ∧ Uses rebinding.loader inner outer) ∧
    SameEnd (fun r r' => r.2 = r'.2) (fun fuel => executeEach (execute rebinding fuel) .nothing .global program)
      (fun fuel => executeEach (execute rebinding fuel) .nothing .global flat) .start ∧
    ∃ env, Ends (fun fuel => executeEach (execute rebinding fuel) .nothing .global program) .start
      (.ok (.integer 1, env)) ⟨[], "", 1⟩ := by
  intro program flat
  have hload : ∀ m, Needs rebinding.loader program m → ∃ statements, IsModule rebinding.loader m statements := by
    rintro m (hm | ⟨_, huses⟩)
    · obtain rfl : m = "outer" := by simpa [program, callFunction] using hm
      exact ⟨_, rebinding_outer⟩
    · rw [(rebinding_uses huses).1]
      exact ⟨_, rebinding_inner⟩
  have hmodules : WellFounded fun inner outer =>
      Needs rebinding.loader program outer ∧ Uses rebinding.loader inner outer := by
    refine ⟨fun outer => ⟨outer, fun inner h => ⟨inner, fun innermost h' => ?_⟩⟩⟩
    exact absurd ((rebinding_uses h'.2).2.symm.trans (rebinding_uses h.2).1) (by decide)
  obtain ⟨other, hflat, -, hsame⟩ := executeEach_sameEnd_flat hload hmodules
  have hinner : Flattens rebinding.loader [bindFunction] [bindFunction] := .keep (by simp [bindFunction]) .nil
  have houter : Flattens rebinding.loader [bindInteger "x" 1, .use "inner", bindInteger "x" 2]
      [bindInteger "x" 1, bindFunction, bindInteger "x" 2] :=
    .keep (by simp [bindInteger]) (.use rebinding_inner hinner (.keep (by simp [bindInteger]) .nil))
  obtain rfl := (hflat flat).mp (.use rebinding_outer houter (.keep (by simp [callFunction]) .nil))
  exact ⟨hload, hmodules, hsame .nothing .global .start, _, 9, by cbv⟩

end CurriedScript
