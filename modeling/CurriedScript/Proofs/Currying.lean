import CurriedScript.Proofs.Lockstep

/-!
# Currying

`apply_append_sameEnd`: arguments can be passed all at once or in two parts. The
values that come out hold environments with different frames, but every name has
the same value in them.
-/

namespace CurriedScript

open Run

/-- The same value but for the environments that closures captured, and these
give such values in turn to every name. -/
inductive SameLookups : Value → Value → Prop
  | refl (v : Value) : SameLookups v v
  | closure {parameters : List String} {body : List Statement} {env env' : Environment} :
      (∀ n, Option.Rel SameLookups (env.get? n) (env'.get? n)) →
      SameLookups (.closure parameters body env) (.closure parameters body env')

theorem Alike.sameLookups {v v' : Value} (h : Alike (fun _ => True) v v') : SameLookups v v' :=
  @Alike.rec (fun _ => True) (fun v v' _ => SameLookups v v') (fun o o' _ => Option.Rel SameLookups o o')
    .refl (fun _ ih => .closure fun n => ih n (.inl trivial)) (fun _ ih => .some ih) .none v v' h

/-! ## Frames -/

theorem Environment.bindAll_append (env : Environment) (bs cs : List (String × Value)) :
    env.bindAll (bs ++ cs) = (env.bindAll bs).bindAll cs := by
  induction bs generalizing env with
  | nil => rfl
  | cons b bs ih => exact ih _

theorem Environment.get?_bindAll_congr {env env' : Environment} (h : ∀ n, env.get? n = env'.get? n)
    (bs : List (String × Value)) (n : String) : (env.bindAll bs).get? n = (env'.bindAll bs).get? n := by
  induction bs generalizing env env' with
  | nil => exact h n
  | cons b bs ih => exact ih fun n => by simp only [Environment.get?, h n]

theorem zip_append_right (parameters : List String) (xs ys : List Value) :
    parameters.zip (xs ++ ys) = parameters.zip xs ++ (parameters.drop xs.length).zip ys := by
  induction xs generalizing parameters with
  | nil => simp
  | cons x xs ih =>
    cases parameters with
    | nil => rfl
    | cons p parameters => simp [ih]

/-- A frame split in two gives the same values, also to names bound twice. -/
theorem get?_extend_append (env : Environment) (parameters : List String) (xs ys : List Value) (n : String) :
    (env.extend (parameters.zip (xs ++ ys))).get? n =
      ((env.extend (parameters.zip xs)).extend ((parameters.drop xs.length).zip ys)).get? n := by
  rw [zip_append_right, Environment.extend, Environment.bindAll_append]
  have hframe : ∀ n, (env.extend (parameters.zip xs)).get? n = (env.extend (parameters.zip xs)).frame.get? n :=
    fun _ => rfl
  exact Environment.get?_bindAll_congr hframe _ n

/-! ## Calls in two parts -/

section
variable (host : Host) (parameters : List String) (body : List Statement) (env : Environment) {xs ys : List Value}

theorem apply_append_of_lt (n : Nat) (h : xs.length < parameters.length) :
    Rel (Alike fun _ => True) (apply host n (.closure parameters body env) (xs ++ ys))
      (do let v ← apply host n (.closure parameters body env) xs; apply host n v ys) := by
  cases n with
  | zero => exact .throw _
  | succ n =>
    have hscope : AlikeOn (fun _ => True) (fun _ => True) (env.extend (parameters.zip (xs ++ ys)))
        ((env.extend (parameters.zip xs)).extend ((parameters.drop xs.length).zip ys)) :=
      .of_eq fun n _ => get?_extend_append env parameters xs ys n
    -- both are now one call, of closures that wait for the same arguments
    rw [apply_partial host n h, pure_bind]
    by_cases hlt : (xs ++ ys).length < parameters.length
    · have hlt' : ys.length < (parameters.drop xs.length).length := by
        rw [List.length_append] at hlt
        rw [List.length_drop]
        omega
      rw [apply_partial host n hlt, apply_partial host n hlt', List.drop_drop, List.length_append]
      exact .pure (.closure fun n _ => hscope n trivial)
    · have hle : parameters.length ≤ (xs ++ ys).length := Nat.le_of_not_lt hlt
      have hle' : (parameters.drop xs.length).length ≤ ys.length := by
        rw [List.length_append] at hle
        rw [List.length_drop]
        omega
      have hleftover : (xs ++ ys).drop parameters.length = ys.drop (parameters.drop xs.length).length := by
        rw [List.drop_append, List.drop_eq_nil_of_le (Nat.le_of_lt h), List.nil_append, List.length_drop]
      rw [apply_saturated host n hle, apply_saturated host n hle', hleftover]
      have hsame : List.Forall₂ (Alike fun _ => True) (ys.drop (parameters.drop xs.length).length) _ :=
        List.forall₂_same.mpr fun v _ => .refl v
      exact call_rel (lockstep _ host n) body (hscope.mono fun _ _ => trivial) hsame

theorem apply_append_of_eq (n : Nat) (h : xs.length = parameters.length) (hys : ys ≠ []) :
    apply host (n + 1) (.closure parameters body env) (xs ++ ys) =
      (do let v ← apply host (n + 1) (.closure parameters body env) xs; apply host n v ys) := by
  rw [apply_saturated host n (by simp [h]), apply_saturated host n (Nat.le_of_eq h.symm), ← h, List.drop_left,
    List.drop_length, zip_append_right, h, List.drop_length, List.zip_nil_left, List.append_nil]
  obtain ⟨y, ys, rfl⟩ := List.exists_cons_of_ne_nil hys
  simp only [call, bind_assoc, pure_bind]

/-- **Currying.** Passing arguments all at once, and passing at first some that the
closure still waits for and to its value the rest, both diverge, or both fail
with the same error, or give values with the same lookups, in the same world. -/
theorem apply_append_sameEnd (hxs : xs.length ≤ parameters.length) (hys : ys ≠ []) (world : World) :
    SameEnd SameLookups (apply host · (.closure parameters body env) (xs ++ ys))
      (fun n => do let v ← apply host n (.closure parameters body env) xs; apply host n v ys) world := by
  rcases Nat.lt_or_eq_of_le hxs with h | h
  · exact (sameEnd_of_rel (fun n => apply_append_of_lt host parameters body env n h) world).mono
      fun _ _ => Alike.sameLookups
  · refine (sameEnd_of_le (fun n => ?_) (fun n => ⟨n + 1, ?_⟩) world).mono fun v v' hv => hv ▸ .refl v
    · cases n with
      | zero => exact ⟨0, outOfFuel_le _⟩
      | succ n =>
        refine ⟨n + 1, ?_⟩
        rw [apply_append_of_eq host parameters body env n h hys]
        exact (Le.refl _).bind fun v => apply_fuel_le host (Nat.le_succ n) v ys
    · rw [apply_append_of_eq host parameters body env n h hys]
      exact (apply_fuel_le host (Nat.le_succ n) _ xs).bind fun v => .refl _

end

def second : Value := .closure ["a", "a"] [.expr (Form.name "a").bare] .global

/-- The arguments of a name that is bound twice, passed one by one. -/
theorem apply_second_sameEnd :
    [Value.integer 1].length ≤ 2 ∧ [Value.integer 2] ≠ [] ∧
      SameEnd SameLookups (apply .bare · second [.integer 1, .integer 2])
        (fun n => do let v ← apply .bare n second [.integer 1]; apply .bare n v [.integer 2]) .start ∧
      Ends (apply .bare · second [.integer 1, .integer 2]) .start (.ok (.integer 2)) ⟨[], "", 1⟩ :=
  ⟨by decide, by simp, @apply_append_sameEnd .bare ["a", "a"] _ .global [.integer 1] _ (by decide) (by simp) .start,
    5, rfl⟩

end CurriedScript
