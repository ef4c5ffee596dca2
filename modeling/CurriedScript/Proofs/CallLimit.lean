import CurriedScript.Proofs.Hosts
import CurriedScript.Proofs.Stopped
import CurriedScript.Session

/-!
# What a call limit changes

`runStatement_callLimit`: as long as a statement makes no more calls than the
limit allows, it runs as it does without one; at the first call beyond it, it
stops. Without a limit the calls are counted too, so the run without one tells
which of the two happens: `Capped`.
-/

namespace CurriedScript

open Run

/-- What a run with the limit gives, beside what it gives without: the same, or the
limit's error on the way from `world` to where the other run stopped. -/
inductive CappedResult (limit : Nat) {α : Type} (world : World) :
    EStateM.Result Halt World α → EStateM.Result Halt World α → Prop
  | same (r : EStateM.Result Halt World α) : (finalState r).calls ≤ limit → CappedResult limit world r r
  | cut (left : World) (r : EStateM.Result Halt World α) : limit < (finalState r).calls → world.Later left →
      left.Later (finalState r) → CappedResult limit world (.error (.failure (.callLimit limit)) left) r

structure Capped (limit : Nat) {α : Type} (m m' : Run α) : Prop where
  advances : Advances m'
  run : ∀ world, world.calls ≤ limit → CappedResult limit world (m.run world) (m'.run world)

variable {limit : Nat} {α β : Type}

def Stop.calls (limit : Nat) : Stop where
  error e := e = .callLimit limit
  before world := world.calls ≤ limit
  after world := limit < world.calls
  later hlater hlt := Nat.lt_of_lt_of_le hlt hlater.calls

theorem cappedResult_iff {world : World} {r r' : EStateM.Result Halt World α} :
    CappedResult limit world r r' ↔ StoppedResult (Stop.calls limit) world r r' := by
  constructor
  · rintro (⟨_, hle⟩ | ⟨left, _, hlt, hleft, hfinal⟩)
    · exact .same _ hle
    · exact .cut rfl hlt hleft hfinal
  · rintro (⟨_, hle⟩ | ⟨rfl, hlt, hleft, hfinal⟩)
    · exact .same _ hle
    · exact .cut _ _ hlt hleft hfinal

theorem capped_iff {m m' : Run α} : Capped limit m m' ↔ Stopped (Stop.calls limit) m m' := by
  constructor
  · exact fun h => ⟨h.advances, fun world hworld => cappedResult_iff.mp (h.run world hworld)⟩
  · exact fun h => ⟨h.advances, fun world hworld => cappedResult_iff.mpr (h.run world hworld)⟩

namespace Capped

theorem of_uncounted {m : Run α} (h : Uncounted m) : Capped limit m m := by
  refine ⟨h.advances, fun world hworld => .same _ ?_⟩
  obtain ⟨result, left, hm, _, hcalls⟩ := h world
  rw [hm, finalState_settled, hcalls]
  exact hworld

theorem throw (halt : Halt) : Capped limit (throw halt : Run α) (throw halt) := capped_iff.mpr (.throw halt)

theorem bind {m m' : Run α} {f f' : α → Run β} (h : Capped limit m m') (hf : ∀ a, Capped limit (f a) (f' a)) :
    Capped limit (m >>= f) (m' >>= f') :=
  capped_iff.mpr ((capped_iff.mp h).bind fun a => capped_iff.mp (hf a))

theorem sequencing : Sequencing (Capped limit) := ⟨fun a => of_uncounted (.pure a), throw, bind⟩

theorem countCall {host host' : Host} (h : host.callLimit = some limit) (h' : host'.callLimit = none) :
    Capped limit (countCall host) (countCall host') := by
  refine ⟨countCall_advances host', fun world hworld => ?_⟩
  rw [countCall_run_none h']
  rcases Nat.lt_or_eq_of_le hworld with hlt | heq
  · rw [countCall_run_of_lt h hlt]
    exact .same _ hlt
  · rw [countCall_run_of_le h (Nat.le_of_eq heq.symm)]
    exact .cut world _ (by simp [finalState, heq]) (.refl world) world.later_counted

end Capped

def Host.withLimit (host : Host) (callLimit : Option Nat) : Host := { host with callLimit := callLimit }

def HostFunction.IgnoresLimit (f : HostFunction) : Prop :=
  ∀ settings limit, f.next { settings with callLimit := limit } = f.next settings

theorem hosts_capped {host : Host} (hpasses : ∀ f ∈ host.functions, f.PassesErrors)
    (hignores : ∀ f ∈ host.functions, f.IgnoresLimit) (limit : Nat) :
    HostsRelated (Capped limit) (host.withLimit (some limit)) (host.withLimit none) where
  sequencing := Capped.sequencing
  countCall := .countCall rfl rfl
  builtinNamed name := .of_uncounted (builtinNamed_uncounted (host.withLimit none) name)
  loadModule name := .of_uncounted (loadModule_uncounted (host.withLimit none) name)
  primitive primitive arguments := .of_uncounted (primitive.run_uncounted (host.withLimit none) arguments)
  functions := rfl
  function f hf := by
    have hsame := hignores f hf host.toSettings
    refine (hpasses f hf).related ((hsame (some limit)).trans (hsame none).symm) (fun text => ?_) fun count => ?_
    · exact .of_uncounted (write_uncounted (host.withLimit none) text)
    · exact .of_uncounted (takeInput_uncounted count)

/-! ## Statements of a session -/

theorem runStatement_run (host : Host) (fuel : Nat) (s : Statement) (session : Session) :
    (Session.runStatement host fuel s).run session =
      match (execute host fuel session.environment s).run { session.world with calls := 0 } with
      | .ok (value, environment) world => .ok value ⟨environment, world⟩
      | .error halt world => .error halt { session with world := world } := by
  unfold Session.runStatement
  simp only [EStateM.run_bind, EStateM.run_get]
  cases (execute host fuel session.environment s).run { session.world with calls := 0 } <;> rfl

/-- **The call limit is exact and otherwise invisible.** Take any amount of fuel, and
let `free` be what the statement gives without a limit, as far as that fuel takes
it. If it has made no more calls than the limit by then, the run with the limit
is the same. If it has made more, the run with the limit has failed: it has kept
the environment, and all that it printed and read the other run did too. The
calls that the session made before do not count. Functions of the host must not look
at the limit or go on after its error. -/
theorem runStatement_callLimit {host : Host} (hpasses : ∀ f ∈ host.functions, f.PassesErrors)
    (hignores : ∀ f ∈ host.functions, f.IgnoresLimit) (limit : Nat) (s : Statement) (session : Session)
    (fuel : Nat) :
    let free := (Session.runStatement (host.withLimit none) fuel s).run session
    let limited := (Session.runStatement (host.withLimit (some limit)) fuel s).run session
    ((finalState free).world.calls ≤ limit → limited = free) ∧
    (limit < (finalState free).world.calls → ∃ left : World,
      limited = .error (.failure (.callLimit limit)) ⟨session.environment, left⟩ ∧
        World.Later { session.world with calls := 0 } left ∧ left.Later (finalState free).world) ∧
    ∀ calls, (Session.runStatement (host.withLimit (some limit)) fuel s).run
      { session with world := { session.world with calls := calls } } = limited := by
  have hrun := ((evaluator_related (hosts_capped hpasses hignores limit) fuel).2.2.2.2 session.environment s).run
    { session.world with calls := 0 } (Nat.zero_le _)
  simp only [runStatement_run]
  generalize (execute (host.withLimit (some limit)) fuel session.environment s).run
    { session.world with calls := 0 } = r at *
  generalize (execute (host.withLimit none) fuel session.environment s).run
    { session.world with calls := 0 } = r' at *
  cases hrun with
  | same _ hle =>
    refine ⟨fun _ => rfl, fun hlt => ?_, fun _ => trivial⟩
    cases r <;> exact absurd hlt (Nat.not_lt.mpr hle)
  | cut left _ hlt hleft hfinal =>
    refine ⟨fun hle => ?_, fun _ => ⟨left, rfl, hleft, ?_⟩, fun _ => trivial⟩
    · cases r' <;> exact absurd hlt (Nat.not_lt.mpr hle)
    · cases r' <;> exact hfinal

/-- A function that goes on after errors hides the one of the limit. -/
example :
    let tries : HostFunction := ⟨fun _ seen =>
      if seen.length = 1 then .attempt (.call (.held 0) [.made .bang]) else .answer (.made .nothing)⟩
    let host := { Host.bare with builtins := [⟨"try", .supplied 0⟩], functions := [tries] }
    let function := Form.function ["x"] [.expr (Form.name "x").bare]
    let s : Statement := .expr (Form.application [(Form.builtin "try").bare, function.bare]).bare
    (Session.runStatement (host.withLimit none) 19 s).run (.start []) = .ok .nothing ⟨.global, ⟨[], "", 1⟩⟩ ∧
      (Session.runStatement (host.withLimit (some 0)) 19 s).run (.start []) =
        .ok .nothing ⟨.global, ⟨[], "", 0⟩⟩ :=
  ⟨rfl, rfl⟩

/-- `{f| {#relay} f f;} {f| {#relay} f f;};` -/
def selfRelay : Statement :=
  let body := Form.application [(Form.builtin "relay").bare, (Form.name "f").bare, (Form.name "f").bare]
  let function := (Form.function ["f"] [.expr body.bare]).bare
  .expr (Form.application [function, function]).bare

/-- Without a limit it makes a third call, and with one of two it fails then. -/
theorem selfRelay_callLimit :
    (∀ f ∈ Host.relaying.functions, f.PassesErrors) ∧ (∀ f ∈ Host.relaying.functions, f.IgnoresLimit) ∧
      2 < (finalState
        ((Session.runStatement (Host.relaying.withLimit none) 19 selfRelay).run (.start []))).world.calls ∧
      ∃ left, (Session.runStatement (Host.relaying.withLimit (some 2)) 19 selfRelay).run (.start []) =
        .error (.failure (.callLimit 2)) ⟨.global, left⟩ := by
  have hpasses : ∀ f ∈ Host.relaying.functions, f.PassesErrors := List.forall_mem_singleton.mpr relay_passesErrors
  have hignores : ∀ f ∈ Host.relaying.functions, f.IgnoresLimit := List.forall_mem_singleton.mpr fun _ _ => rfl
  have hlt : 2 < (finalState ((Session.runStatement (Host.relaying.withLimit none) 19 selfRelay).run
      (.start []))).world.calls := by decide +kernel
  obtain ⟨left, hlimited, _⟩ := (runStatement_callLimit hpasses hignores 2 selfRelay (.start []) 19).2.1 hlt
  exact ⟨hpasses, hignores, hlt, left, hlimited⟩

end CurriedScript
