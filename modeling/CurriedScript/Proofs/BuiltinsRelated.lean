import CurriedScript.Builtin.Run
import CurriedScript.Proofs.Ends
import Mathlib.Data.List.Forall2

/-!
# Builtins on related values

Builtins read data, the kinds of values and what they display, and functions of hosts
see no more than that. So a relation between values that differ only in what closures
hold is kept by all of them: `Builtin.run_related`.
-/

namespace CurriedScript

/-- The function changes at most the bodies and environments of closures. -/
structure KeepsData (f : Value → Value) : Prop where
  data : ∀ v : Value, v.kind ≠ .function → f v = v
  closure : ∀ parameters body env, ∃ body' env', f (.closure parameters body env) = .closure parameters body' env'

def OfData {α : Type} (g : Value → α) : Prop :=
  ∀ parameters body env body' env', g (.closure parameters body env) = g (.closure parameters body' env')

section
variable {f : Value → Value} (hf : KeepsData f)
include hf

theorem KeepsData.congr {α : Type} {g : Value → α} (hg : OfData g) (v : Value) : g (f v) = g v := by
  by_cases hkind : v.kind = .function
  · cases v with
    | closure parameters body env =>
      obtain ⟨body', env', h⟩ := hf.closure parameters body env
      rw [h]
      exact hg _ _ _ _ _
    | _ => cases hkind
  · rw [hf.data v hkind]

end

/-! ## Related values -/

/-- Related values are the same to a function that changes only what closures hold. -/
structure Unseen (R : Value → Value → Prop) (f : Value → Value) : Prop where
  keeps : KeepsData f
  refl : ∀ v, R v v
  same : ∀ v v', R v v' → f v = f v'

section
variable {R : Value → Value → Prop} {f : Value → Value} (h : Unseen R f) {v v' : Value}
include h

theorem Unseen.congr {α : Type} {g : Value → α} (hg : OfData g) (hv : R v v') : g v = g v' :=
  calc
    g v = g (f v) := (h.keeps.congr hg v).symm
    _ = g (f v') := by rw [h.same v v' hv]
    _ = g v' := h.keeps.congr hg v'

theorem Unseen.kind_eq (hv : R v v') : v.kind = v'.kind := h.congr (fun _ _ _ _ _ => rfl) hv

theorem Unseen.display_eq (hv : R v v') : v.display = v'.display := h.congr (fun _ _ _ _ _ => rfl) hv

theorem Unseen.eq_of_kind (hv : R v v') (hkind : v.kind ≠ .function) : v = v' :=
  calc
    v = f v := (h.keeps.data v hkind).symm
    _ = f v' := h.same v v' hv
    _ = v' := h.keeps.data v' (h.kind_eq hv ▸ hkind)

end

theorem map_eq_of_forall₂ {α β : Type} {R : α → α → Prop} {g : α → β} (hg : ∀ x y, R x y → g x = g y)
    {xs ys : List α} (hxs : List.Forall₂ R xs ys) : xs.map g = ys.map g := by
  rw [← List.forall₂_eq_eq_eq, List.forall₂_map_left_iff, List.forall₂_map_right_iff]
  exact hxs.imp hg

namespace Primitive

/-! ## Functions of pairs -/

structure OnPairs (primitive : Primitive) (g : List Value → Except Error Value) : Prop where
  arity : ∀ xs : List Value, xs.length ≠ 2 → g xs = wrongArity primitive 2 xs.length
  left : ∀ v, OfData fun x => g [x, v]
  right : ∀ v, OfData fun x => g [v, x]

theorem OnPairs.map {f : Value → Value} (hf : KeepsData f) {primitive : Primitive}
    {g : List Value → Except Error Value}
    (hg : OnPairs primitive g) (xs : List Value) : g (xs.map f) = g xs := by
  by_cases hlength : xs.length = 2
  · obtain ⟨a, b, rfl⟩ := List.length_eq_two.mp hlength
    calc
      g [f a, f b] = g [a, f b] := hf.congr (hg.left (f b)) a
      _ = g [a, b] := hf.congr (hg.right a) b
  · rw [hg.arity _ (by simpa using hlength), hg.arity _ hlength, List.length_map]

theorem arithmetic_onPairs (primitive : Primitive) (onIntegers : Int → Int → Int)
    (onFloats : Binary64 → Binary64 → Binary64) : OnPairs primitive (arithmetic primitive onIntegers onFloats) where
  arity xs h := by
    unfold arithmetic
    split <;> first | exact absurd rfl h | rfl
  left v := by cases v <;> exact fun _ _ _ _ _ => rfl
  right v := by cases v <;> exact fun _ _ _ _ _ => rfl

theorem addValues_onPairs : OnPairs .add addValues where
  arity xs h := by
    unfold addValues
    split
    · exact absurd rfl h
    · exact (arithmetic_onPairs .add _ _).arity xs h
  left v := by cases v <;> exact fun _ _ _ _ _ => rfl
  right v := by cases v <;> exact fun _ _ _ _ _ => rfl

theorem eqValues_onPairs : OnPairs .eq eqValues where
  arity xs h := by
    unfold eqValues
    split <;> first | exact absurd rfl h | rfl
  left v := by cases v <;> exact fun _ _ _ _ _ => rfl
  right v := by cases v <;> exact fun _ _ _ _ _ => rfl

theorem gtValues_onPairs : OnPairs .gt gtValues where
  arity xs h := by
    unfold gtValues
    split <;> first | exact absurd rfl h | rfl
  left v := by cases v <;> exact fun _ _ _ _ _ => rfl
  right v := by cases v <;> exact fun _ _ _ _ _ => rfl

theorem chooseValue_of_length {xs : List Value} (h : xs.length ≠ 3) :
    chooseValue xs = wrongArity .choose 3 xs.length := by
  unfold chooseValue
  split <;> first | exact absurd rfl h | rfl

/-! ## All primitives -/

section
variable {R : Value → Value → Prop} {f : Value → Value} (h : Unseen R f) {xs xs' : List Value}
include h

theorem onPairs_related {primitive : Primitive} {g : List Value → Except Error Value} (hg : OnPairs primitive g)
    (hxs : List.Forall₂ R xs xs') : Run.Rel R (pureRun (g xs)) (pureRun (g xs')) := by
  rw [← hg.map h.keeps xs, map_eq_of_forall₂ h.same hxs, hg.map h.keeps xs']
  exact .refl h.refl _

theorem chooseValue_related (hxs : List.Forall₂ R xs xs') :
    Run.Rel R (pureRun (chooseValue xs)) (pureRun (chooseValue xs')) := by
  by_cases hlength : xs.length = 3
  · match hxs with
    | .cons (a := condition) (b := condition') hcondition (.cons hyes (.cons hno .nil)) =>
      cases condition with
      | closure =>
        cases condition' with
        | closure => exact .throw _
        | _ => cases h.kind_eq hcondition
      | boolean b =>
        obtain rfl := h.eq_of_kind hcondition (by simp [Value.kind])
        cases b with
        | true => exact .pure hyes
        | false => exact .pure hno
      | _ =>
        obtain rfl := h.eq_of_kind hcondition (by simp [Value.kind])
        exact .throw _
  · rw [chooseValue_of_length hlength, chooseValue_of_length (hxs.length_eq ▸ hlength), hxs.length_eq]
    exact .throw _

theorem print_related (host : Host) (hxs : List.Forall₂ R xs xs') :
    Run.Rel R (Primitive.print.run host xs) (Primitive.print.run host xs') := by
  match hxs with
  | .nil => exact .throw _
  | .cons hv .nil =>
    unfold run
    dsimp only
    rw [h.display_eq hv]
    exact .refl h.refl _
  | .cons _ (.cons _ hrest) =>
    simp only [run, hrest.length_eq, List.length_cons]
    exact .throw _

theorem run_related (host : Host) (primitive : Primitive) (hxs : List.Forall₂ R xs xs') :
    Run.Rel R (primitive.run host xs) (primitive.run host xs') := by
  cases primitive with
  | print => exact print_related h host hxs
  | read => exact .refl h.refl _
  | add => exact onPairs_related h addValues_onPairs hxs
  | sub => exact onPairs_related h (arithmetic_onPairs _ _ _) hxs
  | eq => exact onPairs_related h eqValues_onPairs hxs
  | gt => exact onPairs_related h gtValues_onPairs hxs
  | choose => exact chooseValue_related h hxs

end

end Primitive

/-! ## Functions of hosts -/

inductive Request.Related (R : Value → Value → Prop) : Request Value → Request Value → Prop
  | call {callee callee' : Value} {xs xs' : List Value} : R callee callee' → List.Forall₂ R xs xs' →
      Related R (.call callee xs) (.call callee' xs')
  | run (names : List String) {xs xs' : List Value} (statements : List Statement) : List.Forall₂ R xs xs' →
      Related R (.run names xs statements) (.run names xs' statements)

section
variable {R : Value → Value → Prop} {g : Value → Value} (h : Unseen R g) {xs xs' : List Value}
include h

theorem Unseen.shown_eq {v v' : Value} (hv : R v v') : v.shown = v'.shown := h.congr (fun _ _ _ _ _ => rfl) hv

theorem Unseen.operand (hxs : List.Forall₂ R xs xs') (operand : Operand) :
    R (operand.value xs) (operand.value xs') := by
  cases operand with
  | made atom => exact h.refl _
  | held index =>
    simp only [Operand.value]
    induction hxs generalizing index with
    | nil => exact h.refl _
    | cons hx _ ih =>
      cases index with
      | zero => exact hx
      | succ index => simpa using ih index

theorem Unseen.operands (hxs : List.Forall₂ R xs xs') (operands : List Operand) :
    List.Forall₂ R (operands.map (·.value xs)) (operands.map (·.value xs')) := by
  induction operands with
  | nil => exact .nil
  | cons operand _ ih => exact .cons (h.operand hxs operand) ih

theorem Unseen.request (hxs : List.Forall₂ R xs xs') (request : Request Operand) :
    Request.Related R (request.map (·.value xs)) (request.map (·.value xs')) := by
  cases request with
  | call callee arguments => exact .call (h.operand hxs callee) (h.operands hxs arguments)
  | run names values statements => exact .run names statements (h.operands hxs values)

variable (host : Host) {ask ask' : Request Value → Run Value}
  (hask : ∀ {request request'}, Request.Related R request request' → Run.Rel R (ask request) (ask' request'))
include hask

/-- It sees the same of related values, and so makes the same move. -/
theorem HostFunction.step_related (f : HostFunction) {goOn goOn' : List Value → List Seen → Run Value}
    (hgoOn : ∀ {xs xs'} seen, List.Forall₂ R xs xs' → Run.Rel R (goOn xs seen) (goOn' xs' seen))
    (hxs : List.Forall₂ R xs xs') (seen : List Seen) :
    Run.Rel R (f.step host ask goOn xs seen) (f.step host ask' goOn' xs' seen) := by
  have happend : ∀ {v v'}, R v v' → List.Forall₂ R (xs ++ [v]) (xs' ++ [v']) :=
    fun hv => List.rel_append hxs (.cons hv .nil)
  unfold HostFunction.step
  cases f.next host.toSettings seen with
  | answer operand => exact .pure (h.operand hxs operand)
  | fail e => exact .throw _
  | write text => exact (Run.Rel.refl (fun _ => rfl) _).bind fun _ _ _ => hgoOn _ hxs
  | take count =>
    refine (Run.Rel.refl (fun _ => rfl) _).bind fun bytes _ hbytes => ?_
    rw [← hbytes]
    exact hgoOn _ hxs
  | ask request =>
    refine (hask (h.request hxs request)).bind fun v v' hv => ?_
    rw [← h.shown_eq hv]
    exact hgoOn _ (happend hv)
  | attempt request =>
    refine (hask (h.request hxs request)).attempt.bind fun answer answer' hanswer => ?_
    cases hanswer with
    | ok hv =>
      dsimp only
      rw [← h.shown_eq hv]
      exact hgoOn _ (happend hv)
    | error e => exact hgoOn _ hxs

theorem HostFunction.run_related (f : HostFunction) (fuel : Nat) (hxs : List.Forall₂ R xs xs') :
    Run.Rel R (f.run host ask fuel xs) (f.run host ask' fuel xs') := by
  have hmoves : ∀ fuel {xs xs'} seen, List.Forall₂ R xs xs' →
      Run.Rel R (f.moves host ask fuel xs seen) (f.moves host ask' fuel xs' seen) := by
    intro fuel
    induction fuel with
    | zero => exact fun _ _ => .throw _
    | succ fuel ih => exact fun seen hxs => f.step_related h host hask ih hxs seen
  have hseen : xs.map (Seen.argument ·.shown) = xs'.map (.argument ·.shown) :=
    map_eq_of_forall₂ (fun _ _ hx => by rw [h.shown_eq hx]) hxs
  unfold HostFunction.run
  rw [← hseen]
  exact hmoves fuel _ hxs

theorem Builtin.run_related (builtin : Builtin) (fuel : Nat) (hxs : List.Forall₂ R xs xs') :
    Run.Rel R (builtin.run host ask fuel xs) (builtin.run host ask' fuel xs') := by
  obtain ⟨name, primitive | index⟩ := builtin
  · exact primitive.run_related h host hxs
  · cases hf : host.functions[index]? with
    | none =>
      rw [run_missing host ask fuel name xs hf, run_missing host ask' fuel name xs' hf]
      exact .throw _
    | some f =>
      rw [run_supplied host ask fuel name xs hf, run_supplied host ask' fuel name xs' hf]
      exact f.run_related h host hask fuel hxs

end

end CurriedScript
