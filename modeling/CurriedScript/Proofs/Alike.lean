import CurriedScript.Proofs.BuiltinsRelated
import CurriedScript.Proofs.FreeNames

/-!
# Values that are alike

Two values are alike if they are the same but for the environments that closures
captured, and these give values that are alike to each name that the body can
read. Builtins do not tell such values apart: `alike_unseen`.
-/

namespace CurriedScript

/-- Names in `kept` are compared though nothing reads them. -/
inductive Alike (kept : String → Prop) : Value → Value → Prop
  | refl (v : Value) : Alike kept v v
  | closure {parameters : List String} {body : List Statement} {env env' : Environment} :
      (∀ n, Reads kept (statementUses body) ((bodyFree body).filter (· ∉ parameters)) n →
        Option.Rel (Alike kept) (env.get? n) (env'.get? n)) →
      Alike kept (.closure parameters body env) (.closure parameters body env')

def AlikeOn (kept names : String → Prop) (env env' : Environment) : Prop :=
  ∀ n, names n → Option.Rel (Alike kept) (env.get? n) (env'.get? n)

variable {kept names names' : String → Prop} {env env' : Environment} {v v' : Value}

/-! ## Environments -/

theorem AlikeOn.of_eq (h : ∀ n, names n → env.get? n = env'.get? n) : AlikeOn kept names env env' := by
  intro n hn
  rw [h n hn]
  cases env'.get? n with
  | none => exact .none
  | some v => exact .some (.refl v)

theorem AlikeOn.refl (env : Environment) : AlikeOn kept names env env := .of_eq fun _ _ => rfl

theorem AlikeOn.mono (h : AlikeOn kept names env env') (hn : ∀ n, names' n → names n) :
    AlikeOn kept names' env env' := fun n hn' => h n (hn n hn')

theorem AlikeOn.frame (h : AlikeOn kept names env env') : AlikeOn kept names env.frame env'.frame := h

theorem AlikeOn.bind {name : String} (h : AlikeOn kept (fun n => names n ∧ n ≠ name) env env')
    (hv : Alike kept v v') : AlikeOn kept names (env.bind name v) (env'.bind name v') := by
  intro n hn
  simp only [Environment.get?]
  by_cases he : name = n
  · rw [if_pos he, if_pos he]
    exact .some hv
  · rw [if_neg he, if_neg he]
    exact h n ⟨hn, Ne.symm he⟩

theorem AlikeOn.bindAll {xs xs' : List Value} (hxs : List.Forall₂ (Alike kept) xs xs') :
    ∀ {parameters : List String} {env env' : Environment},
      AlikeOn kept (fun n => names n ∧ n ∉ parameters.take xs.length) env env' →
      AlikeOn kept names (env.bindAll (parameters.zip xs)) (env'.bindAll (parameters.zip xs')) := by
  induction hxs with
  | nil =>
    intro parameters env env' h
    rw [List.zip_nil_right]
    exact h.mono fun n hn => ⟨hn, by simp⟩
  | @cons x x' xs xs' hx _ ih =>
    intro parameters env env' h
    cases parameters with
    | nil => exact h.mono fun n hn => ⟨hn, by simp⟩
    | cons p parameters =>
      refine ih (AlikeOn.bind (h.mono fun n hn => ⟨hn.1.1, ?_⟩) hx)
      simpa using ⟨hn.2, hn.1.2⟩

/-- Arguments in scope: what is left to bind is what the body does not read. -/
theorem AlikeOn.scope {parameters free uses : List String} {xs xs' : List Value}
    (h : AlikeOn kept (Reads kept uses (free.filter (· ∉ parameters))) env env')
    (hxs : List.Forall₂ (Alike kept) xs xs') :
    AlikeOn kept (Reads kept uses (free.filter (· ∉ parameters.drop xs.length)))
      (env.extend (parameters.zip xs)) (env'.extend (parameters.zip xs')) := by
  refine AlikeOn.bindAll hxs (h.frame.mono ?_)
  rintro n ⟨hn | hn | hn, htake⟩
  · exact .inl hn
  · exact .of_use hn
  · obtain ⟨hfree, hdrop⟩ := List.mem_filter.mp hn
    refine .inr (.inr (List.mem_filter.mpr ⟨hfree, ?_⟩))
    rw [decide_eq_true_eq] at hdrop ⊢
    rw [← List.take_append_drop xs.length parameters, List.mem_append]
    exact fun hmem => hmem.elim htake hdrop

/-! ## Values -/

theorem Alike.closure_inv {parameters : List String} {body : List Statement}
    (h : Alike kept (.closure parameters body env) v') :
    ∃ env', v' = .closure parameters body env' ∧
      AlikeOn kept (Reads kept (statementUses body) ((bodyFree body).filter (· ∉ parameters))) env env' := by
  cases h with
  | refl => exact ⟨env, rfl, .refl env⟩
  | closure h => exact ⟨_, rfl, h⟩

theorem Alike.display_eq (h : Alike kept v v') : v.display = v'.display := by
  cases h <;> rfl

/-! ## Builtins -/

def Value.stripped : Value → Value
  | .closure parameters body _ => .closure parameters body .empty
  | v => v

theorem alike_unseen : Unseen (Alike kept) Value.stripped where
  keeps := ⟨fun v hkind => by cases v <;> first | rfl | exact absurd rfl hkind, fun _ body _ => ⟨body, .empty, rfl⟩⟩
  refl := .refl
  same _ _ h := by cases h <;> rfl

end CurriedScript
