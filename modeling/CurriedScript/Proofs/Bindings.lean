import CurriedScript.Proofs.Currying

/-!
# Bindings in one frame

`execute_bind_sameEnd`: a `let` of several bindings is a sequence of lets of one binding
each. Every value is evaluated where the names before it are bound, a name that is bound
twice to the newer value. Only the frames differ, and with them what closures capture.
-/

namespace CurriedScript

open Run

def separateLets (bindings : List Binding) : List Statement := bindings.map fun binding => .bind [binding]

abbrev AlikeOnAll (env env' : Environment) : Prop := AlikeOn (fun _ => True) (fun _ => True) env env'

theorem AlikeOnAll.sameLookups {env env' : Environment} (h : AlikeOnAll env env') (n : String) :
    Option.Rel SameLookups (env.get? n) (env'.get? n) := by
  have hn := h n trivial
  generalize env.get? n = found, env'.get? n = found' at hn
  cases hn with
  | none => exact .none
  | some hv => exact .some hv.sameLookups

/-- What both leave: no value, the same lookups, and a frame for each binding only in the
second environment. -/
structure SeparatedAlike (env env' : Environment) (bindings : List Binding) (bound : Environment)
    (r : Value × Environment) : Prop where
  value : r.1 = .nothing
  lookups : AlikeOnAll bound r.2
  depth : bound.depth = env.depth
  depth_separate : r.2.depth = env'.depth + bindings.length

theorem bindEach_separate (host : Host) (fuel : Nat) (bindings : List Binding) {env env' : Environment}
    (h : AlikeOnAll env env') :
    Rel (SeparatedAlike env env' bindings) (bindEach (evaluate host fuel) env bindings)
      (executeEach (execute host (fuel + 1)) .nothing env' (separateLets bindings)) := by
  induction bindings generalizing env env' with
  | nil => exact .pure ⟨rfl, h, rfl, rfl⟩
  | cons binding rest ih =>
    have hframe : AlikeOnAll env env'.frame := h
    simp only [bindEach, separateLets, List.map_cons, executeEach, execute, bind_assoc, pure_bind]
    refine ((lockstep _ host fuel).evaluate binding.value (hframe.mono fun _ _ => trivial)).bind fun v v' hv => ?_
    have hbound : AlikeOnAll (env.bind binding.name v) (env'.frame.bind binding.name v') :=
      .bind (hframe.mono fun _ _ => trivial) hv
    refine (ih hbound).mono fun bound r hr => ⟨hr.value, hr.lookups, hr.depth, ?_⟩
    rw [hr.depth_separate, Environment.depth, Environment.depth, List.length_cons, Nat.add_right_comm,
      Nat.add_assoc]

theorem execute_bind_separate (host : Host) (fuel : Nat) (bindings : List Binding) (env : Environment) :
    Rel (fun r r' => r.1 = .nothing ∧ SeparatedAlike env.frame env bindings r.2 r')
      (execute host (fuel + 1) env (.bind bindings))
      (executeEach (execute host (fuel + 1)) .nothing env (separateLets bindings)) := by
  have hframe : AlikeOnAll env.frame env := .refl env
  rw [execute, ← bind_pure (executeEach _ _ _ _)]
  exact (bindEach_separate host fuel bindings hframe).bind fun bound r hr => .pure ⟨rfl, hr⟩

/-- **A `let` is a sequence of lets.** From every environment and world a `let` of several
bindings and lets of one binding each, in order, both diverge, or fail with the same error,
or leave environments in which every name has the same value, up to environments that
closures captured. The first is one frame deeper then, the second one for each binding. The
worlds that they leave are the same. -/
theorem execute_bind_sameEnd (host : Host) (bindings : List Binding) (env : Environment) (world : World) :
    SameEnd (fun r r' => r.1 = .nothing ∧ r'.1 = .nothing ∧
        (∀ n, Option.Rel SameLookups (r.2.get? n) (r'.2.get? n)) ∧
        r.2.depth = env.depth + 1 ∧ r'.2.depth = env.depth + bindings.length)
      (fun fuel => execute host fuel env (.bind bindings))
      (fun fuel => executeEach (execute host fuel) .nothing env (separateLets bindings)) world := by
  cases bindings with
  | nil =>
    have hframe : AlikeOnAll env.frame env := .refl env
    exact .finish (.nothing, env.frame) (.nothing, env) world ⟨rfl, rfl, hframe.sameLookups, rfl, rfl⟩ ⟨1, rfl⟩
      ⟨1, rfl⟩
  | cons binding rest =>
    have hrel : ∀ fuel, Rel (fun r r' => r.1 = .nothing ∧ SeparatedAlike env.frame env (binding :: rest) r.2 r')
        (execute host fuel env (.bind (binding :: rest)))
        (executeEach (execute host fuel) .nothing env (separateLets (binding :: rest))) := by
      intro fuel
      cases fuel with
      | zero => exact .throw _
      | succ fuel => exact execute_bind_separate host fuel (binding :: rest) env
    refine (sameEnd_of_rel hrel world).mono fun r r' hr => ?_
    obtain ⟨hnothing, hr⟩ := hr
    exact ⟨hnothing, hr.value, hr.lookups.sameLookups, hr.depth, hr.depth_separate⟩

end CurriedScript
