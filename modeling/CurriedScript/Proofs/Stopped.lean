import CurriedScript.Proofs.Worlds

/-!
# Runs that are stopped on their way

Of two runs that do the same, one may be stopped by an error of its own while the
other goes on: `Stopped`. It has written and read no more then than the other does.
`sameEnd_or_stopped` says so of families of runs.
-/

namespace CurriedScript

open Run

/-- What stops a run: its errors, and where the other run is before and after it.
There is no way back. -/
structure Stop where
  error : Error → Prop
  before : World → Prop
  after : World → Prop
  later : ∀ {world later}, world.Later later → after world → after later

variable {stop : Stop} {α β : Type}

inductive StoppedResult (stop : Stop) {α : Type} (world : World) :
    EStateM.Result Halt World α → EStateM.Result Halt World α → Prop
  | same (r : EStateM.Result Halt World α) : stop.before (finalState r) → StoppedResult stop world r r
  | cut {e : Error} {left : World} {r : EStateM.Result Halt World α} : stop.error e → stop.after (finalState r) →
      world.Later left → left.Later (finalState r) → StoppedResult stop world (.error (.failure e) left) r

structure Stopped (stop : Stop) {α : Type} (m m' : Run α) : Prop where
  advances : Advances m'
  run : ∀ world, stop.before world → StoppedResult stop world (m.run world) (m'.run world)

theorem StoppedResult.of_later {earlier world : World} (h : earlier.Later world)
    {r r' : EStateM.Result Halt World α} (hr : StoppedResult stop world r r') :
    StoppedResult stop earlier r r' := by
  cases hr with
  | same _ hbefore => exact .same _ hbefore
  | cut he hafter hleft hfinal => exact .cut he hafter (h.trans hleft) hfinal

namespace Stopped

theorem refl {m : Run α} (hadvances : Advances m)
    (hbefore : ∀ world, stop.before world → stop.before (finalState (m.run world))) : Stopped stop m m :=
  ⟨hadvances, fun world hworld => .same _ (hbefore world hworld)⟩

theorem throw (halt : Halt) : Stopped stop (throw halt : Run α) (throw halt) :=
  refl (.throw halt) fun _ hworld => hworld

theorem bind {m m' : Run α} {f f' : α → Run β} (h : Stopped stop m m') (hf : ∀ a, Stopped stop (f a) (f' a)) :
    Stopped stop (m >>= f) (m' >>= f') := by
  refine ⟨h.advances.bind fun a => (hf a).advances, fun world hworld => ?_⟩
  have hlater := h.advances world
  have hrun := h.run world hworld
  generalize hm : m.run world = r, hm' : m'.run world = r' at hrun hlater
  cases hrun with
  | same _ hbefore =>
    cases r with
    | error halt left =>
      rw [run_bind_error hm, run_bind_error hm']
      exact .same _ hbefore
    | ok a left =>
      rw [run_bind_ok hm, run_bind_ok hm']
      exact ((hf a).run left hbefore).of_later hlater
  | cut he hafter hleft hfinal =>
    rw [run_bind_error hm]
    cases r' with
    | error halt left' =>
      rw [run_bind_error hm']
      exact .cut he hafter hleft hfinal
    | ok a left' =>
      -- the other run goes on, from where it would have been stopped
      rw [run_bind_ok hm']
      have hrest := (hf a).advances left'
      exact .cut he (stop.later hrest hafter) hleft (hfinal.trans hrest)

theorem sequencing : Sequencing (Stopped stop) :=
  ⟨fun a => refl (.pure a) fun _ hworld => hworld, throw, bind⟩

end Stopped

/-! ## Families of runs -/

theorem Ends.enough {m : Nat → Run α} (hm : ∀ n k, n ≤ k → Le (m n) (m k)) {world left : World}
    {result : Except Error α} (h : Ends m world result left) :
    ∃ enough, ∀ fuel, enough ≤ fuel → (m fuel).run world = settled result left := by
  obtain ⟨n, hn⟩ := h
  refine ⟨n, fun fuel hfuel => ?_⟩
  rcases hm n fuel hfuel world with ⟨_, hout⟩ | hsame
  · exact absurd (hn.symm.trans hout) (settled_ne_outOfFuel _ _ _)
  · exact hsame.trans hn

theorem Ends.unique {m : Nat → Run α} (hm : ∀ n k, n ≤ k → Le (m n) (m k)) {world left left' : World}
    {result result' : Except Error α} (h : Ends m world result left) (h' : Ends m world result' left') :
    result = result' ∧ left = left' := by
  obtain ⟨n, hn⟩ := h.enough hm
  obtain ⟨k, hk⟩ := h'.enough hm
  have hboth : settled result left = settled result' left' :=
    (hn (max n k) (by omega)).symm.trans (hk (max n k) (by omega))
  exact settled_inj.mp hboth

theorem SameEnd.ends {m m' : Nat → Run α} (hm : ∀ n k, n ≤ k → Le (m n) (m k)) {world left : World}
    {result : Except Error α} (h : SameEnd Eq m m' world) (hends : Ends m world result left) :
    Ends m' world result left := by
  cases h with
  | diverge hdiverges _ =>
    obtain ⟨n, hn⟩ := hends
    obtain ⟨_, hout⟩ := hdiverges n
    exact absurd (hn.symm.trans hout) (settled_ne_outOfFuel _ _ _)
  | fail e left₀ h h' =>
    obtain ⟨rfl, rfl⟩ := hends.unique hm h
    exact h'
  | finish a b left₀ hab h h' =>
    obtain ⟨rfl, rfl⟩ := hends.unique hm h
    exact hab ▸ h'

/-- The families end alike, or the first fails on the way of the second. -/
theorem sameEnd_or_stopped {m m' : Nat → Run α} (hm : ∀ n k, n ≤ k → Le (m n) (m k))
    (h : ∀ n, Stopped stop (m n) (m' n)) (world : World) (hworld : stop.before world) :
    SameEnd Eq m m' world ∨ ∃ e left, stop.error e ∧ Ends m world (.error e) left ∧ world.Later left ∧
      ∃ enough, ∀ fuel, enough ≤ fuel → left.Later (finalState ((m' fuel).run world)) := by
  rcases ends_or_diverges m world with ⟨result, left, hends⟩ | hdiverges
  · obtain ⟨n, hn⟩ := hends
    have hrun := (h n).run world hworld
    generalize hn' : (m' n).run world = r at hrun
    rw [hn] at hrun
    match result with
    | .ok a =>
      cases hrun with
      | same => exact .inl (.finish a a left rfl ⟨n, hn⟩ ⟨n, hn'⟩)
    | .error e =>
      cases hrun with
      | same => exact .inl (.fail e left ⟨n, hn⟩ ⟨n, hn'⟩)
      | cut he _ hleft _ =>
        refine .inr ⟨e, left, he, ⟨n, hn⟩, hleft, ?_⟩
        obtain ⟨enough, henough⟩ := Ends.enough hm ⟨n, hn⟩
        refine ⟨enough, fun fuel hfuel => ?_⟩
        have hrun := (h fuel).run world hworld
        rw [henough fuel hfuel] at hrun
        generalize (m' fuel).run world = r' at hrun ⊢
        cases hrun with
        | same => exact .refl left
        | cut _ _ _ hfinal => exact hfinal
  · refine .inl (.diverge hdiverges fun n => ?_)
    obtain ⟨left, hleft⟩ := hdiverges n
    have hrun := (h n).run world hworld
    rw [hleft] at hrun
    generalize (m' n).run world = r at hrun ⊢
    cases hrun with
    | same => exact ⟨left, rfl⟩

end CurriedScript
