import CurriedScript.Proofs.Ends
import CurriedScript.Proofs.Worlds

/-!
# The thread of environments

Statements run one after another for the environment that they leave, which is all that
a `use` needs of the statements of its module: `execute_use`.
-/

namespace CurriedScript

open Run

def thread (host : Host) (fuel : Nat) : Environment → List Statement → Run Environment
  | env, [] => return env
  | env, s :: rest => do
    let (_, env) ← execute host fuel env s
    thread host fuel env rest

variable (host : Host)

theorem executeEach_thread (fuel : Nat) (value : Value) (env : Environment) (statements : List Statement) :
    Prod.snd <$> executeEach (execute host fuel) value env statements = thread host fuel env statements := by
  induction statements generalizing value env with
  | nil => rfl
  | cons s rest ih => simp only [executeEach, thread, map_bind, ih]

theorem thread_append (fuel : Nat) (env : Environment) (before after : List Statement) :
    thread host fuel env (before ++ after) = (do
      let env ← thread host fuel env before
      thread host fuel env after) := by
  induction before generalizing env with
  | nil => rfl
  | cons s before ih => simp only [List.cons_append, thread, ih, bind_assoc]

theorem thread_fuel_le {n m : Nat} (h : n ≤ m) (env : Environment) (statements : List Statement) :
    Le (thread host n env statements) (thread host m env statements) := by
  induction statements generalizing env with
  | nil => exact .refl _
  | cons s rest ih => exact (execute_fuel_le host h env s).bind fun r => ih r.2

/-! ## Modules -/

theorem execute_use {m : String} {statements : List Statement} (hmodule : IsModule host.loader m statements)
    (fuel : Nat) (env : Environment) :
    execute host (fuel + 1) env (.use m) = (do
      let env ← thread host fuel env statements
      return (.nothing, env)) := by
  simp only [execute, loadModule_of_isModule hmodule, pure_bind,
    ← executeEach_thread host fuel .nothing env statements,
    bind_map_left]

theorem execute_use_fails {m : String} {e : Error} (hfails : LoadFails host.loader m e) (fuel : Nat)
    (env : Environment) : execute host (fuel + 1) env (.use m) = fail e := by
  simp only [execute, loadModule_of_loadFails hfails, fail_bind]

end CurriedScript
