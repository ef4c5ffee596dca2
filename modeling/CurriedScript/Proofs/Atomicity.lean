import CurriedScript.Proofs.Chunks
import CurriedScript.Proofs.Sources

/-!
# What a session keeps of calls that fail

`runSources_atomic`: a text that is no program changes nothing. A program that fails
at a statement leaves the environment of the statements before it, and what that
statement read and printed; nothing behind it is run. So the environment of a
session is the one that the statements that succeeded come to without the others:
`Session.replay`.
-/

namespace CurriedScript

open Run

/-! ## What was printed before -/

def World.behind (printed : String) (world : World) : World := { world with output := printed ++ world.output }

def Contract.output : Contract World where
  good _ := True
  error _ := True
  change f := ∃ printed, f = World.behind printed

theorem output_uncounted : Contract.output.Uncounted where
  good _ _ _ := trivial
  change := by
    rintro _ ⟨_, rfl⟩ _ _
    rfl

theorem write_output (host : Host) (text : String) : Contract.output.Met (fun _ => True) (write host text) := by
  refine Contract.write (fun _ => trivial) (fun _ _ => trivial) ?_
  rintro _ ⟨_, rfl⟩ _
  simp [World.behind, String.append_assoc]

theorem change_output_input (f : World → World) (hf : Contract.output.change f) (world : World)
    (input : List UInt8) :
    f { world with input := input } = { f world with input := input } := by
  obtain ⟨_, rfl⟩ := hf
  rfl

theorem upheld_output (host : Host) : Upheld Contract.output (fun _ => True) (fun _ => True) host where
  data _ _ _ := trivial
  listed _ _ := trivial
  closure _ _ _ _ := trivial
  remainder _ _ _ _ _ _ := trivial
  body _ _ _ _ _ _ := trivial
  modules _ _ _ _ _ _ _ := trivial
  raised _ _ := trivial
  countCall := output_uncounted.countCall fun _ _ => trivial
  printLine _ _ v _ := write_output host (v.display ++ "\n")
  readLine _ _ := Contract.readLine (fun _ => trivial) (fun _ _ _ => trivial) change_output_input
  supplied _ _ _ := {
    error := fun _ => trivial
    builtin := fun _ => trivial
    form := fun _ => trivial
    write := write_output host
    take := Contract.takeInput (fun _ _ _ => trivial) change_output_input }

theorem execute_behind (host : Host) (fuel : Nat) (env : Environment) (s : Statement) (printed : String)
    (world : World) :
    (execute host fuel env s).run (world.behind printed) =
      mapState (World.behind printed) ((execute host fuel env s).run world) :=
  ((evaluator_met (upheld_output host) fuel).execute s (fun _ _ _ _ => trivial) fun _ _ => trivial).unnoticed _
    ⟨printed, rfl⟩ world trivial

namespace Session

/-! ## One statement -/

section
variable {host : Host} {fuel : Nat} {s : Statement} {session left : Session} {v : Value} {halt : Halt}

/-- A statement finds nothing of the session but its environment and its input. -/
theorem runStatement_alone :
    (runStatement host fuel s).run session =
      match (execute host fuel session.environment s).run ⟨session.world.input, "", 0⟩ with
      | .ok (value, environment) world => .ok value ⟨environment, world.behind session.world.output⟩
      | .error halt world => .error halt ⟨session.environment, world.behind session.world.output⟩ := by
  have hworld :
      { session.world with calls := 0 } = World.behind session.world.output ⟨session.world.input, "", 0⟩ := by
    simp [World.behind]
  rw [runStatement_run, hworld, execute_behind]
  cases (execute host fuel session.environment s).run ⟨session.world.input, "", 0⟩ <;> rfl

theorem runStatement_ok (hrun : (runStatement host fuel s).run session = .ok v left) :
    ∃ world, (execute host fuel session.environment s).run ⟨session.world.input, "", 0⟩ =
      .ok (v, left.environment) world := by
  rw [runStatement_alone] at hrun
  match hr : (execute host fuel session.environment s).run ⟨session.world.input, "", 0⟩ with
  | .ok (value, environment) world =>
    rw [hr] at hrun
    cases hrun
    exact ⟨world, rfl⟩
  | .error _ _ =>
    rw [hr] at hrun
    cases hrun

theorem runStatement_error (hrun : (runStatement host fuel s).run session = .error halt left) :
    (execute host fuel session.environment s).run { session.world with calls := 0 } = .error halt left.world ∧
      left.environment = session.environment := by
  rw [runStatement_run] at hrun
  match hr : (execute host fuel session.environment s).run { session.world with calls := 0 } with
  | .ok (value, environment) world =>
    rw [hr] at hrun
    cases hrun
  | .error _ _ =>
    rw [hr] at hrun
    cases hrun
    exact ⟨rfl, rfl⟩

end

/-! ## Programs that fail -/

/-- Before the statement `s` come `done`, which succeed and lead from `before` to `mid`.
There `s` fails, with all its calls to make, and leaves `world`. -/
structure FailsAt (host : Host) (fuel : Nat) (value : Value) (done : List Statement) (before mid : Session)
    (s : Statement) (halt : Halt) (world : World) : Prop where
  succeed : ∃ last, (runStatements host fuel value done).run before = .ok last mid
  fails : (execute host fuel mid.environment s).run { mid.world with calls := 0 } = .error halt world

section
variable {host : Host} {fuel : Nat} {value : Value} {before mid left : Session} {halt : Halt} {world : World}

theorem FailsAt.run {done : List Statement} {s : Statement}
    (h : FailsAt host fuel value done before mid s halt world)
    (rest : List Statement) :
    (runStatements host fuel value (done ++ s :: rest)).run before = .error halt ⟨mid.environment, world⟩ := by
  obtain ⟨last, hdone⟩ := h.succeed
  rw [runStatements_append, EStateM.run_bind, hdone]
  simp only [runStatements, EStateM.run_bind, runStatement_run, h.fails]

theorem exists_failsAt {statements : List Statement}
    (hrun : (runStatements host fuel value statements).run before = .error halt left) :
    ∃ done s rest mid world, statements = done ++ s :: rest ∧
      FailsAt host fuel value done before mid s halt world := by
  induction statements generalizing value before with
  | nil => cases hrun
  | cons s rest ih =>
    rw [runStatements, EStateM.run_bind] at hrun
    cases hs : (runStatement host fuel s).run before with
    | error halt' left' =>
      rw [hs] at hrun
      cases hrun
      exact ⟨[], s, rest, before, _, rfl, ⟨_, rfl⟩, (runStatement_error hs).1⟩
    | ok v mid =>
      rw [hs] at hrun
      obtain ⟨done, s', rest', mid', world, rfl, ⟨last, hdone⟩, hfails⟩ := ih hrun
      refine ⟨s :: done, s', rest', mid', world, rfl, ⟨last, ?_⟩, hfails⟩
      rw [runStatements, EStateM.run_bind, hs]
      exact hdone

/-! ## Sources that fail -/

theorem runSource_rejected {source : String} {e : Error} (hparse : parseSource source = .error e) :
    (runSource host fuel source).run before = .error (.failure e) before := by
  simp only [runSource, hparse]
  rfl

theorem runSource_failsAt {source : String} {done rest : List Statement} {s : Statement}
    (hparse : parseSource source = .ok (done ++ s :: rest))
    (h : FailsAt host fuel .nothing done before mid s halt world) :
    (runSource host fuel source).run before = .error halt ⟨mid.environment, world⟩ := by
  simp only [runSource, hparse]
  exact h.run rest

theorem runSource_error {source : String} (hrun : (runSource host fuel source).run before = .error halt left) :
    (∃ e, parseSource source = .error e) ∨ ∃ done s rest mid world, parseSource source = .ok (done ++ s :: rest) ∧
      FailsAt host fuel .nothing done before mid s halt world := by
  cases hparse : parseSource source with
  | error e => exact .inl ⟨e, rfl⟩
  | ok program =>
    simp only [runSource, hparse] at hrun
    obtain ⟨done, s, rest, mid, world, rfl, hfails⟩ := exists_failsAt hrun
    exact .inr ⟨done, s, rest, mid, world, rfl, hfails⟩

end

/-! ## One call after others -/

def outcome {σ α : Type} : EStateM.Result Halt σ α → Except Halt α
  | .ok a _ => .ok a
  | .error halt _ => .error halt

theorem runSources_cons (fuel : Nat) (host : Host) (source : String) (rest : List (Host × String))
    (session : Session) :
    let run := (runSource host fuel source).run session
    runSources fuel ((host, source) :: rest) session =
      (outcome run :: (runSources fuel rest (finalState run)).1, (runSources fuel rest (finalState run)).2) := by
  intro run
  cases hrun : run with
  | ok v left => exact runSources_ok hrun
  | error halt left => exact runSources_error hrun

/-- A call runs in the session that the calls before it leave. -/
theorem runSources_behind (fuel : Nat) (earlier : List (Host × String)) (host : Host) (source : String)
    (later : List (Host × String)) (session : Session) :
    let run := (runSource host fuel source).run (runSources fuel earlier session).2
    (runSources fuel (earlier ++ (host, source) :: later) session).1[earlier.length]? = some (outcome run) ∧
      (runSources fuel (earlier ++ [(host, source)]) session).2 = finalState run := by
  induction earlier generalizing session with
  | nil => simp [runSources_cons, runSources]
  | cons call earlier ih =>
    obtain ⟨first, text⟩ := call
    simpa [runSources_cons] using ih _

/-! ## What succeeds -/

structure Commit where
  host : Host
  statement : Statement
  input : List UInt8

def commits (host : Host) (fuel : Nat) : List Statement → Session → List Commit
  | [], _ => []
  | s :: rest, session =>
    match (runStatement host fuel s).run session with
    | .ok _ left => ⟨host, s, session.world.input⟩ :: commits host fuel rest left
    | .error _ _ => []

def sourceCommits (host : Host) (fuel : Nat) (source : String) (session : Session) : List Commit :=
  match parseSource source with
  | .ok statements => commits host fuel statements session
  | .error _ => []

def sessionCommits (fuel : Nat) : List (Host × String) → Session → List Commit
  | [], _ => []
  | (host, source) :: rest, session =>
    sourceCommits host fuel source session ++
      sessionCommits fuel rest (finalState ((runSource host fuel source).run session))

/-- The environment that statements come to, one after another and each with its own
input, if none of them fails. -/
def replay (fuel : Nat) : Environment → List Commit → Option Environment
  | env, [] => some env
  | env, ⟨host, s, input⟩ :: rest =>
    match (execute host fuel env s).run ⟨input, "", 0⟩ with
    | .ok (_, env) _ => replay fuel env rest
    | .error _ _ => none

section
variable {host : Host} {fuel : Nat}

theorem replay_commits (statements : List Statement) (value : Value) (session : Session) (others : List Commit) :
    replay fuel session.environment (commits host fuel statements session ++ others) =
      replay fuel (finalState ((runStatements host fuel value statements).run session)).environment others := by
  induction statements generalizing value session with
  | nil => rfl
  | cons s rest ih =>
    rw [commits, runStatements, EStateM.run_bind]
    cases hs : (runStatement host fuel s).run session with
    | ok v left =>
      obtain ⟨world, hexecute⟩ := runStatement_ok hs
      simp only [List.cons_append, replay, hexecute]
      exact ih v left
    | error halt left => exact congrArg (replay fuel · others) (runStatement_error hs).2.symm

theorem replay_sourceCommits (source : String) (session : Session) (others : List Commit) :
    replay fuel session.environment (sourceCommits host fuel source session ++ others) =
      replay fuel (finalState ((runSource host fuel source).run session)).environment others := by
  unfold sourceCommits runSource
  cases parseSource source with
  | ok statements => exact replay_commits statements .nothing session others
  | error e => rfl

theorem replay_sessionCommits (calls : List (Host × String)) (session : Session) :
    replay fuel session.environment (sessionCommits fuel calls session) =
      some (runSources fuel calls session).2.environment := by
  induction calls generalizing session with
  | nil => rfl
  | cons call rest ih =>
    obtain ⟨host, source⟩ := call
    rw [sessionCommits, replay_sourceCommits, ih, runSources_cons]

end

end Session

/-- **Statements are atomic, in whole sessions.** Whatever calls fail: a text that is no
program leaves the session as it is. If statement `s` of a program fails behind those
of `done`, the environment is the one after `done`, the streams are as `s` left them,
whatever stands behind it, and the next statement has all its calls to make. No call
fails in another way. So the environment of the session is the one that the statements
that succeeded come to without the others, each with the input that it saw.
Statements that run out of fuel are among those that fail. -/
theorem runSources_atomic (fuel : Nat) (calls : List (Host × String)) (session : Session) :
    (∀ earlier host source later, calls = earlier ++ (host, source) :: later →
      let before := (Session.runSources fuel earlier session).2
      let after := (Session.runSources fuel (earlier ++ [(host, source)]) session).2
      let result := (Session.runSources fuel calls session).1[earlier.length]?
      (∀ e, parseSource source = .error e → result = some (.error (.failure e)) ∧ after = before) ∧
      (∀ done s rest mid halt world, parseSource source = .ok (done ++ s :: rest) →
        Session.FailsAt host fuel .nothing done before mid s halt world →
          result = some (.error halt) ∧ after = ⟨mid.environment, world⟩) ∧
      (∀ halt, result = some (.error halt) →
        (∃ e, parseSource source = .error e) ∨
          ∃ done s rest mid world, parseSource source = .ok (done ++ s :: rest) ∧
            Session.FailsAt host fuel .nothing done before mid s halt world) ∧
      ∀ next s, (Session.runStatement next fuel s).run after =
        (Session.runStatement next fuel s).run { after with world := { after.world with calls := 0 } }) ∧
    Session.replay fuel session.environment (Session.sessionCommits fuel calls session) =
      some (Session.runSources fuel calls session).2.environment := by
  refine ⟨?_, Session.replay_sessionCommits calls session⟩
  rintro earlier host source later rfl before after result
  obtain ⟨hresult, hafter⟩ := Session.runSources_behind fuel earlier host source later session
  have hends : ∀ {halt left}, (Session.runSource host fuel source).run before = .error halt left →
      result = some (.error halt) ∧ after = left := fun hrun =>
    ⟨hresult.trans (congrArg (some ∘ Session.outcome) hrun), hafter.trans (congrArg finalState hrun)⟩
  refine ⟨fun e hparse => hends (Session.runSource_rejected hparse),
    fun done s rest mid halt world hparse hfails => hends (Session.runSource_failsAt hparse hfails),
    fun halt hhalt => ?_, fun next s => by rw [runStatement_run, runStatement_run]⟩
  have houtcome := Option.some.inj (hresult.symm.trans hhalt)
  cases hrun : (Session.runSource host fuel source).run before with
  | ok v left =>
    rw [hrun] at houtcome
    cases houtcome
  | error halt' left =>
    rw [hrun] at houtcome
    cases houtcome
    exact Session.runSource_error hrun

def failing : List (Host × String) :=
  [(Host.bare, "let a <- 1; let b <- a, c <- d; b;"), (Host.bare, "let b")]

set_option maxRecDepth 2000 in
theorem failing_atomic :
    let bindA := Statement.bind [⟨"a", (Form.literal (.integer 1)).bare⟩]
    let bindB := Statement.bind [⟨"b", (Form.name "a").bare⟩, ⟨"c", (Form.name "d").bare⟩]
    let kept := Environment.global.frame.bind "a" (.integer 1)
    parseSource "let a <- 1; let b <- a, c <- d; b;" = .ok ([bindA] ++ bindB :: [.expr (Form.name "b").bare]) ∧
    parseSource "let b" = .error (.parse 1 "<eof>" .missingLeftArrow) ∧
    Session.FailsAt Host.bare 9 .nothing [bindA] (.start []) ⟨kept, ⟨[], "", 0⟩⟩ bindB (.failure (.unbound "d"))
      ⟨[], "", 0⟩ ∧
    (Session.runSources 9 failing (.start [])).1[0]? = some (.error (.failure (.unbound "d"))) ∧
    (Session.runSources 9 failing (.start [])).2 = ⟨kept, ⟨[], "", 0⟩⟩ ∧
    Session.replay 9 .global [⟨Host.bare, bindA, []⟩] = some kept := by
  have hfirst : parseSource "let a <- 1; let b <- a, c <- d; b;" =
      .ok [.bind [⟨"a", (Form.literal (.integer 1)).bare⟩],
        .bind [⟨"b", (Form.name "a").bare⟩, ⟨"c", (Form.name "d").bare⟩], .expr (Form.name "b").bare] := by cbv
  have hsecond : parseSource "let b" = .error (.parse 1 "<eof>" .missingLeftArrow) := by cbv
  intro bindA bindB kept
  have hfails : Session.FailsAt Host.bare 9 .nothing [bindA] (.start []) ⟨kept, ⟨[], "", 0⟩⟩ bindB
      (.failure (.unbound "d")) ⟨[], "", 0⟩ := ⟨⟨_, rfl⟩, rfl⟩
  have hcommits : Session.sessionCommits 9 failing (.start []) = [⟨Host.bare, bindA, []⟩] := by
    simp only [failing, Session.sessionCommits, Session.sourceCommits, hfirst, hsecond]
    rfl
  obtain ⟨hcalls, hreplay⟩ := runSources_atomic 9 failing (.start [])
  obtain ⟨hresult, hmid⟩ := (hcalls [] _ _ _ rfl).2.1 [bindA] bindB _ _ _ _ hfirst hfails
  have hlast := ((hcalls [_] _ _ [] rfl).1 _ hsecond).2.trans hmid
  refine ⟨hfirst, hsecond, hfails, hresult, hlast, ?_⟩
  rw [hcommits] at hreplay
  exact hreplay.trans (congrArg (fun session => some session.environment) hlast)

end CurriedScript
