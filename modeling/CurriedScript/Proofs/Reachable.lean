import CurriedScript.Value

/-!
# Reachable values

What can be got at from a value: the value itself, and whatever its closures have
captured, directly or through others. Bindings that later ones hide count too.
-/

namespace CurriedScript

inductive Environment.Binds : Environment → Value → Prop
  | here (name : String) (v : Value) (outer : Environment) : Binds (.bind name v outer) v
  | bind {name : String} {w v : Value} {outer : Environment} : Binds outer v → Binds (.bind name w outer) v
  | frame {outer : Environment} {v : Value} : Binds outer v → Binds (.frame outer) v

inductive Value.Reaches : Value → Value → Prop
  | refl (v : Value) : Reaches v v
  | captured {parameters : List String} {body : List Statement} {env : Environment} {w u : Value} :
      env.Binds w → Reaches w u → Reaches (.closure parameters body env) u

def Value.All (P : Value → Prop) (v : Value) : Prop := ∀ u, v.Reaches u → P u

def Environment.All (P : Value → Prop) (env : Environment) : Prop := ∀ v, env.Binds v → v.All P

variable {P : Value → Prop} {env : Environment} {v : Value}

theorem Value.All.self (h : v.All P) : P v := h v (.refl v)

theorem Value.all_closure {parameters : List String} {body : List Statement} :
    (Value.closure parameters body env).All P ↔ P (.closure parameters body env) ∧ env.All P := by
  constructor
  · intro h
    exact ⟨h.self, fun w hw u hu => h u (.captured hw hu)⟩
  · rintro ⟨hself, henv⟩ u hu
    cases hu with
    | refl => exact hself
    | captured hw hu => exact henv _ hw u hu

theorem Value.all_of_kind (hkind : v.kind ≠ .function) : v.All P ↔ P v := by
  refine ⟨Value.All.self, fun h u hu => ?_⟩
  cases hu with
  | refl => exact h
  | captured => exact absurd rfl hkind

namespace Environment

theorem all_empty : Environment.empty.All P := fun _ h => by cases h

theorem All.frame (h : env.All P) : env.frame.All P := by
  intro v hv
  cases hv with
  | frame hv => exact h v hv

theorem All.bind {name : String} (h : env.All P) (hv : v.All P) : (env.bind name v).All P := by
  intro w hw
  cases hw with
  | here => exact hv
  | bind hw => exact h w hw

theorem All.bindAll {bindings : List (String × Value)} (h : env.All P) (hb : ∀ b ∈ bindings, b.2.All P) :
    (env.bindAll bindings).All P := by
  induction bindings generalizing env with
  | nil => exact h
  | cons b rest ih =>
    obtain ⟨hb, hrest⟩ := List.forall_mem_cons.mp hb
    exact ih (h.bind hb) hrest

/-- A scope with arguments in it. -/
theorem All.extend {parameters : List String} {arguments : List Value} (h : env.All P)
    (harguments : ∀ x ∈ arguments, x.All P) : (env.extend (parameters.zip arguments)).All P :=
  h.frame.bindAll fun b hb => harguments b.2 (List.of_mem_zip hb).2

theorem binds_of_get? : ∀ {env : Environment} {name : String} {v : Value}, env.get? name = some v → env.Binds v
  | .empty, _, _, h => by cases h
  | .frame _, _, _, h => .frame (binds_of_get? h)
  | .bind other w outer, name, v, h => by
    rw [get?] at h
    by_cases he : other = name
    · rw [if_pos he] at h
      cases h
      exact .here other w outer
    · rw [if_neg he] at h
      exact .bind (binds_of_get? h)

theorem All.get? {name : String} (h : env.All P) (hv : env.get? name = some v) : v.All P :=
  h v (binds_of_get? hv)

theorem all_global (hdata : ∀ v : Value, v.kind ≠ .function → v.kind ≠ .builtin → P v) : global.All P := by
  refine all_empty.frame.bindAll ?_
  simp only [List.forall_mem_cons]
  refine ⟨?_, ?_, ?_, ?_, by simp⟩ <;> exact (Value.all_of_kind (by simp [Value.kind])).mpr
    (hdata _ (by simp [Value.kind]) (by simp [Value.kind]))

end Environment

end CurriedScript
