import CurriedScript.Proofs.CallLimit
import CurriedScript.Proofs.FirstFault
import CurriedScript.Proofs.Kept

/-!
# Sessions of sources

A session runs one source after another, and goes on after those that fail. It may
be given another host between them. `runSources_met`: a contract that each of its
runs meets is met by all of them together.
-/

namespace CurriedScript

open Run

namespace Session

/-- Runs sources, each with its host, also those after one that fails. -/
def runSources (fuel : Nat) : List (Host × String) → Session → List (Except Halt Value) × Session
  | [], session => ([], session)
  | (host, source) :: rest, session =>
    let (result, session) :=
      match (runSource host fuel source).run session with
      | .ok value session => (.ok value, session)
      | .error halt session => (.error halt, session)
    let (results, session) := runSources fuel rest session
    (result :: results, session)

section
variable {fuel : Nat} {host : Host} {source : String} {rest : List (Host × String)} {session left : Session}

theorem runSources_ok {v : Value} (hrun : (runSource host fuel source).run session = .ok v left) :
    runSources fuel ((host, source) :: rest) session =
      (.ok v :: (runSources fuel rest left).1, (runSources fuel rest left).2) := by
  simp only [runSources, hrun]

theorem runSources_error {halt : Halt} (hrun : (runSource host fuel source).run session = .error halt left) :
    runSources fuel ((host, source) :: rest) session =
      (.error halt :: (runSources fuel rest left).1, (runSources fuel rest left).2) := by
  simp only [runSources, hrun]

end

end Session

/-! ## Errors of sources -/

def Error.IsSyntax : Error → Prop
  | .lex _ _ | .parse _ _ _ => True
  | _ => False

theorem scanFrom_isSyntax {line : Nat} {text : List Char} {e : Error} (h : scanFrom line text = .error e) :
    e.IsSyntax := by
  fun_induction scanFrom line text generalizing e with
  | case1 line => cases h
  | case2 line c cs piece rest hstep _ ih => exact ih h
  | case3 line c cs kind literal lexeme rest hstep _ ih =>
    cases hrest : scanFrom (line + newlines lexeme) rest with
    | ok after => rw [hrest] at h; cases h
    | error e' => rw [hrest] at h; cases h; exact ih hrest
  | case4 => cases h; trivial

theorem parse_isSyntax {tokens : List Token} {e : Error} (h : parse tokens = .error e) : e.IsSyntax := by
  rw [parse_eq] at h
  cases hm : Parser.plain (Parser.statements (fun _ => false) tokens) with
  | ok found => rw [hm] at h; cases h
  | error e' =>
    rw [hm] at h
    cases h
    obtain ⟨_, rest, fault, _, rfl, _⟩ := (Grammar.statements_oneAhead (fun _ => false) tokens).error hm
    cases rest <;> trivial

theorem parseSource_isSyntax {source : String} {e : Error} (h : parseSource source = .error e) : e.IsSyntax := by
  unfold parseSource at h
  cases hscan : scan source with
  | error e' =>
    rw [hscan] at h
    cases h
    exact scanFrom_isSyntax hscan
  | ok tokens =>
    rw [hscan] at h
    exact parse_isSyntax h

/-! ## Contracts of sessions -/

def Contract.session (c : Contract World) (P : Value → Prop) : Contract Session where
  good session := session.environment.All P ∧ c.good session.world
  error := c.error
  change f := ∃ g, c.change g ∧ f = fun session => { session with world := g session.world }

section
variable {c : Contract World} {P : Value → Prop} {F : Form → Prop} {host : Host} (h : Upheld c P F host)
include h

theorem runStatement_met (hc : c.Uncounted) (fuel : Nat) {s : Statement} (hs : ∀ form ∈ s.forms, F form) :
    (c.session P).Met (Value.All P) (Session.runStatement host fuel s) := by
  constructor
  · rintro ⟨env, world⟩ ⟨henv, hworld⟩
    have hrun := ((evaluator_met h fuel).execute s henv hs).allows _ (hc.good world 0 hworld)
    rw [runStatement_run]
    generalize (execute host fuel env s).run { world with calls := 0 } = r at hrun
    match r with
    | .ok (v, env') left => exact ⟨hrun.1.1, hrun.1.2, hrun.2⟩
    | .error (.failure e) left => exact ⟨hrun.1, henv, hrun.2⟩
    | .error .outOfFuel left => exact ⟨henv, hrun⟩
  · rintro _ ⟨f, hf, rfl⟩ ⟨env, world⟩ ⟨henv, hworld⟩
    have hrun := ((evaluator_met h fuel).execute s henv hs).unnoticed f hf _ (hc.good world 0 hworld)
    rw [runStatement_run, runStatement_run]
    dsimp only
    rw [← hc.change f hf, hrun]
    match (execute host fuel env s).run { world with calls := 0 } with
    | .ok (v, env') left => rfl
    | .error halt left => rfl

theorem runStatements_met (hc : c.Uncounted) (fuel : Nat) {statements : List Statement}
    (hs : ∀ form ∈ statementForms statements, F form) {v : Value} (hv : v.All P) :
    (c.session P).Met (Value.All P) (Session.runStatements host fuel v statements) := by
  induction statements generalizing v with
  | nil => exact .pure hv
  | cons s rest ih =>
    obtain ⟨hs, hrest⟩ := List.forall_mem_append.mp hs
    exact (runStatement_met h hc fuel hs).bind fun _ hv => ih hrest hv

theorem runSource_met (hc : c.Uncounted) (hfaults : ∀ e : Error, e.IsSyntax → c.error e) (fuel : Nat)
    {source : String}
    (hsource : ∀ program, parseSource source = .ok program → ∀ form ∈ statementForms program, F form) :
    (c.session P).Met (Value.All P) (Session.runSource host fuel source) := by
  unfold Session.runSource
  cases hparse : parseSource source with
  | error e => exact .fail (hfaults e (parseSource_isSyntax hparse))
  | ok program =>
    exact runStatements_met h hc fuel (hsource program hparse)
      (h.all_data (by simp [Value.kind]) (by simp [Value.kind]))

end

theorem runSources_met {c : Contract Session} {A : Value → Prop} {fuel : Nat} {calls : List (Host × String)}
    (hcalls : ∀ call ∈ calls, c.Met A (Session.runSource call.1 fuel call.2)) {session : Session}
    (hsession : c.good session) {results : List (Except Halt Value)} {last : Session}
    (hrun : Session.runSources fuel calls session = (results, last)) :
    (∀ v, .ok v ∈ results → A v) ∧ (∀ e, .error (.failure e) ∈ results → c.error e) ∧ c.good last ∧
      ∀ f, c.change f → Session.runSources fuel calls (f session) = (results, f last) := by
  induction calls generalizing session results with
  | nil =>
    cases hrun
    exact ⟨by simp, by simp, hsession, fun _ _ => rfl⟩
  | cons call rest ih =>
    obtain ⟨host, source⟩ := call
    obtain ⟨hfirst, hrest⟩ := List.forall_mem_cons.mp hcalls
    have hallows := hfirst.allows session hsession
    have hunnoticed : ∀ f, c.change f → (Session.runSource host fuel source).run (f session) =
        mapState f ((Session.runSource host fuel source).run session) :=
      fun f hf => hfirst.unnoticed f hf session hsession
    dsimp only at hallows
    cases hr : (Session.runSource host fuel source).run session with
    | ok v left =>
      rw [hr] at hallows hunnoticed
      obtain ⟨hv, hleft⟩ := hallows
      rw [Session.runSources_ok hr, Prod.mk.injEq] at hrun
      obtain ⟨rfl, rfl⟩ := hrun
      obtain ⟨hvalues, herrors, hlast, hchange⟩ := ih hrest hleft rfl
      refine ⟨?_, by simpa using herrors, hlast, fun f hf => ?_⟩
      · simpa using ⟨hv, hvalues⟩
      · rw [Session.runSources_ok (hunnoticed f hf), hchange f hf]
    | error halt left =>
      rw [hr] at hallows hunnoticed
      have hleft : c.good left := by cases halt with
        | failure e => exact hallows.2
        | outOfFuel => exact hallows
      rw [Session.runSources_error hr, Prod.mk.injEq] at hrun
      obtain ⟨rfl, rfl⟩ := hrun
      obtain ⟨hvalues, herrors, hlast, hchange⟩ := ih hrest hleft rfl
      refine ⟨by simpa using hvalues, fun e he => ?_, hlast, fun f hf => ?_⟩
      · rcases List.mem_cons.mp he with heq | he
        · cases heq
          exact hallows.1
        · exact herrors e he
      · rw [Session.runSources_error (hunnoticed f hf), hchange f hf]

end CurriedScript
