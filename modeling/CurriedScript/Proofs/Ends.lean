import CurriedScript.Evaluate.Fuel

/-!
# How runs end

A family of runs, one for each amount of fuel, ends in a result if some amount
is enough for it and diverges if none is. `SameEnd` compares two families from
one world without regard to fuel: `sameEnd_of_le` gets it from two bounds,
`sameEnd_of_map` from a part of the values, and `sameEnd_of_rel` from runs that agree
step by step.
-/

namespace CurriedScript

def settled {α : Type} : Except Error α → World → EStateM.Result Halt World α
  | .ok a, left => .ok a left
  | .error e, left => .error (.failure e) left

def Ends {α : Type} (m : Nat → Run α) (world : World) (result : Except Error α) (left : World) : Prop :=
  ∃ fuel, (m fuel).run world = settled result left

def Diverges {α : Type} (m : Nat → Run α) (world : World) : Prop :=
  ∀ fuel, ∃ left, (m fuel).run world = .error .outOfFuel left

/-- Both never end, or both end in the same error, or both in values that are
related by `R`. The worlds that they leave are the same. -/
inductive SameEnd {α β : Type} (R : α → β → Prop) (m : Nat → Run α) (m' : Nat → Run β) (world : World) :
    Prop where
  | diverge (h : Diverges m world) (h' : Diverges m' world)
  | fail (e : Error) (left : World) (h : Ends m world (.error e) left) (h' : Ends m' world (.error e) left)
  | finish (a : α) (b : β) (left : World) (hab : R a b) (h : Ends m world (.ok a) left)
      (h' : Ends m' world (.ok b) left)

open Run

variable {α β γ δ : Type}

theorem settled_or_outOfFuel (r : EStateM.Result Halt World α) :
    (∃ result left, r = settled result left) ∨ ∃ left, r = .error .outOfFuel left := by
  match r with
  | .ok a left => exact .inl ⟨.ok a, left, rfl⟩
  | .error (.failure e) left => exact .inl ⟨.error e, left, rfl⟩
  | .error .outOfFuel left => exact .inr ⟨left, rfl⟩

theorem settled_ne_outOfFuel (result : Except Error α) (left left' : World) :
    settled result left ≠ .error .outOfFuel left' := by
  cases result <;> simp [settled]

theorem settled_inj {result result' : Except Error α} {left left' : World} :
    settled result left = settled result' left' ↔ result = result' ∧ left = left' := by
  cases result <;> cases result' <;> simp [settled]

theorem ends_or_diverges (m : Nat → Run α) (world : World) :
    (∃ result left, Ends m world result left) ∨ Diverges m world := by
  by_cases h : ∃ result left, Ends m world result left
  · exact .inl h
  · refine .inr fun fuel => ?_
    rcases settled_or_outOfFuel ((m fuel).run world) with ⟨result, left, hr⟩ | hr
    · exact absurd ⟨result, left, fuel, hr⟩ h
    · exact hr

theorem Ends.of_le {m m' : Nat → Run α} (h : ∀ n, ∃ k, Le (m n) (m' k)) {world left : World}
    {result : Except Error α} (he : Ends m world result left) : Ends m' world result left := by
  obtain ⟨n, hn⟩ := he
  obtain ⟨k, hk⟩ := h n
  rcases hk world with ⟨left', hl⟩ | hr
  · exact absurd (hn.symm.trans hl) (settled_ne_outOfFuel _ _ _)
  · exact ⟨k, hr.trans hn⟩

theorem Diverges.of_le {m m' : Nat → Run α} (h : ∀ n, ∃ k, Le (m' n) (m k)) {world : World}
    (hd : Diverges m world) : Diverges m' world := by
  intro n
  obtain ⟨k, hk⟩ := h n
  rcases hk world with hl | hr
  · exact hl
  · obtain ⟨left, hl⟩ := hd k
    exact ⟨left, hr.symm.trans hl⟩

/-- Families that bound each other end alike. -/
theorem sameEnd_of_le {m m' : Nat → Run α} (h : ∀ n, ∃ k, Le (m n) (m' k))
    (h' : ∀ n, ∃ k, Le (m' n) (m k)) (world : World) : SameEnd Eq m m' world := by
  rcases ends_or_diverges m world with ⟨result, left, he⟩ | hd
  · cases result with
    | ok a => exact .finish a a left rfl he (he.of_le h)
    | error e => exact .fail e left he (he.of_le h)
  · exact .diverge hd (hd.of_le h')

def Interleave (m m' : Nat → Run α) : Prop :=
  (∀ n, ∃ k, Le (m n) (m' k)) ∧ ∀ n, ∃ k, Le (m' n) (m k)

namespace Interleave

variable {m m' m'' : Nat → Run α}

theorem symm (h : Interleave m m') : Interleave m' m := ⟨h.2, h.1⟩

theorem trans (h : Interleave m m') (h' : Interleave m' m'') : Interleave m m'' := by
  refine ⟨fun n => ?_, fun n => ?_⟩
  · obtain ⟨k, hk⟩ := h.1 n
    obtain ⟨l, hl⟩ := h'.1 k
    exact ⟨l, hk.trans hl⟩
  · obtain ⟨k, hk⟩ := h'.2 n
    obtain ⟨l, hl⟩ := h.2 k
    exact ⟨l, hk.trans hl⟩

theorem sameEnd (h : Interleave m m') (world : World) : SameEnd Eq m m' world := sameEnd_of_le h.1 h.2 world

end Interleave

theorem SameEnd.mono {R S : α → β → Prop} (hRS : ∀ a b, R a b → S a b) {m : Nat → Run α}
    {m' : Nat → Run β} {world : World} (h : SameEnd R m m' world) : SameEnd S m m' world := by
  cases h with
  | diverge h h' => exact .diverge h h'
  | fail e left h h' => exact .fail e left h h'
  | finish a b left hab h h' => exact .finish a b left (hRS a b hab) h h'

/-! ## Parts of values -/

theorem run_map_settled (f : α → γ) {m : Run α} {world left : World} {result : Except Error α}
    (h : m.run world = settled result left) : (f <$> m).run world = settled (result.map f) left := by
  rw [map_eq_pure_bind]
  cases result with
  | ok a => exact run_bind_ok h
  | error e => exact run_bind_error h

theorem Ends.of_map {f : α → γ} {m : Nat → Run α} {world left : World} {result : Except Error γ}
    (h : Ends (fun n => f <$> m n) world result left) :
    ∃ result', result'.map f = result ∧ Ends m world result' left := by
  obtain ⟨n, hn⟩ := h
  rcases settled_or_outOfFuel ((m n).run world) with ⟨result', left', hr⟩ | ⟨left', hr⟩
  · obtain ⟨rfl, rfl⟩ := settled_inj.mp ((run_map_settled f hr).symm.trans hn)
    exact ⟨result', rfl, n, hr⟩
  · have hout : (f <$> m n).run world = .error .outOfFuel left' := by
      rw [map_eq_pure_bind, run_bind_error hr]
    exact absurd (hn.symm.trans hout) (settled_ne_outOfFuel _ _ _)

theorem Diverges.of_map {f : α → γ} {m : Nat → Run α} {world : World} (h : Diverges (fun n => f <$> m n) world) :
    Diverges m world := by
  intro n
  obtain ⟨left, hn⟩ := h n
  rcases settled_or_outOfFuel ((m n).run world) with ⟨result, left', hr⟩ | hr
  · exact absurd ((run_map_settled f hr).symm.trans hn) (settled_ne_outOfFuel _ _ _)
  · exact hr

/-- Families end alike in the part of their values that is compared. -/
theorem sameEnd_of_map {f : α → γ} {g : β → γ} {m : Nat → Run α} {m' : Nat → Run β} {world : World}
    (h : SameEnd Eq (fun n => f <$> m n) (fun n => g <$> m' n) world) :
    SameEnd (fun a b => f a = g b) m m' world := by
  cases h with
  | diverge h h' => exact .diverge h.of_map h'.of_map
  | fail e left h h' =>
    obtain ⟨_ | _, hresult, h⟩ := h.of_map
    · obtain ⟨_ | _, hresult', h'⟩ := h'.of_map
      · cases hresult
        cases hresult'
        exact .fail _ left h h'
      · cases hresult'
    · cases hresult
  | finish c d left hcd h h' =>
    obtain ⟨_ | a, hresult, h⟩ := h.of_map
    · cases hresult
    · obtain ⟨_ | b, hresult', h'⟩ := h'.of_map
      · cases hresult'
      · exact .finish a b left ((Except.ok.inj hresult).trans (hcd.trans (Except.ok.inj hresult').symm)) h h'

/-! ## Runs in step -/

inductive ResultRel (R : α → β → Prop) : EStateM.Result Halt World α → EStateM.Result Halt World β → Prop where
  | ok {a : α} {b : β} {left : World} (h : R a b) : ResultRel R (.ok a left) (.ok b left)
  | error (halt : Halt) (left : World) : ResultRel R (.error halt left) (.error halt left)

namespace Run

def Rel (R : α → β → Prop) (m : Run α) (m' : Run β) : Prop :=
  ∀ world, ResultRel R (m.run world) (m'.run world)

variable {R : α → β → Prop} {S : γ → δ → Prop}

theorem Rel.pure {a : α} {b : β} (h : R a b) : Rel R (Pure.pure a) (Pure.pure b) := fun _ => .ok h

theorem Rel.throw (halt : Halt) : Rel R (throw halt) (throw halt) := fun world => .error halt world

theorem Rel.refl {R : α → α → Prop} (h : ∀ a, R a a) (m : Run α) : Rel R m m := by
  intro world
  cases m.run world with
  | ok a left => exact .ok (h a)
  | error halt left => exact .error halt left

theorem Rel.bind {m : Run α} {m' : Run β} {f : α → Run γ} {f' : β → Run δ} (h : Rel R m m')
    (hf : ∀ a b, R a b → Rel S (f a) (f' b)) : Rel S (m >>= f) (m' >>= f') := by
  intro world
  have h := h world
  cases hm : m.run world with
  | ok a left =>
    rw [hm] at h
    generalize hm' : m'.run world = r at h
    cases h with
    | ok hab =>
      rw [run_bind_ok hm, run_bind_ok hm']
      exact hf _ _ hab left
  | error halt left =>
    rw [hm] at h
    generalize hm' : m'.run world = r at h
    cases h with
    | error =>
      rw [run_bind_error hm, run_bind_error hm']
      exact .error halt left

inductive AnswerRel (R : α → β → Prop) : Except Error α → Except Error β → Prop where
  | ok {a : α} {b : β} (h : R a b) : AnswerRel R (.ok a) (.ok b)
  | error (e : Error) : AnswerRel R (.error e) (.error e)

theorem Rel.attempt {m : Run α} {m' : Run β} (h : Rel R m m') :
    Rel (AnswerRel R) (CurriedScript.attempt m) (CurriedScript.attempt m') := by
  intro world
  have h := h world
  rw [attempt_run, attempt_run]
  generalize m.run world = r, m'.run world = r' at h
  cases h with
  | ok h => exact .ok (.ok h)
  | error halt left =>
    cases halt with
    | failure e => exact .ok (.error e)
    | outOfFuel => exact .error _ left

theorem Rel.mono {R' : α → β → Prop} (hR : ∀ a b, R a b → R' a b) {m : Run α} {m' : Run β} (h : Rel R m m') :
    Rel R' m m' := by
  intro world
  generalize hm : m.run world = r, hm' : m'.run world = r'
  have h := h world
  rw [hm, hm'] at h
  cases h with
  | ok h => exact .ok (hR _ _ h)
  | error halt left => exact .error halt left

end Run

/-- Families that go in step end alike. -/
theorem sameEnd_of_rel {R : α → β → Prop} {m : Nat → Run α} {m' : Nat → Run β}
    (h : ∀ n, Rel R (m n) (m' n)) (world : World) : SameEnd R m m' world := by
  rcases ends_or_diverges m world with ⟨result, left, n, hn⟩ | hd
  · have hr := h n world
    generalize hn' : (m' n).run world = r at hr
    rw [hn] at hr
    cases result with
    | ok a => cases hr with | ok hab => exact .finish _ _ left hab ⟨n, hn⟩ ⟨n, hn'⟩
    | error e => cases hr with | error => exact .fail e left ⟨n, hn⟩ ⟨n, hn'⟩
  · refine .diverge hd fun n => ?_
    obtain ⟨left, hl⟩ := hd n
    have hr := h n world
    rw [hl] at hr
    generalize hn' : (m' n).run world = r at hr ⊢
    cases hr with | error => exact ⟨left, rfl⟩

/-! ## A host to try runs on -/

def Host.bare : Host := .ofLoader fun name => .error (.moduleLoad name "no such module")

def World.start : World := ⟨[], "", 0⟩

end CurriedScript
