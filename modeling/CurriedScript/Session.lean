import CurriedScript.Evaluate

/-!
# Sessions

A session runs statements one after another. A statement that fails changes
nothing in the environment, though what it read and printed stays read and
printed, and every statement may make the full number of calls.
-/

namespace CurriedScript

structure Session where
  environment : Environment
  world : World

abbrev SessionRun := EStateM Halt Session

namespace Session

def start (input : List UInt8) : Session := ⟨.global, ⟨input, "", 0⟩⟩

def runStatement (host : Host) (fuel : Nat) (statement : Statement) : SessionRun Value := do
  let session ← get
  match (execute host fuel session.environment statement).run { session.world with calls := 0 } with
  | .ok (value, environment) world =>
    set (Session.mk environment world)
    return value
  | .error halt world =>
    set { session with world := world }
    throw halt

/-- Runs statements up to the first that fails. The result is the last value. -/
def runStatements (host : Host) (fuel : Nat) : Value → List Statement → SessionRun Value
  | value, [] => return value
  | _, statement :: rest => do
    let value ← runStatement host fuel statement
    runStatements host fuel value rest

def runSource (host : Host) (fuel : Nat) (source : String) : SessionRun Value :=
  match parseSource source with
  | .ok statements => runStatements host fuel .nothing statements
  | .error e => throw (.failure e)

def runEach (host : Host) (fuel : Nat) :
    List Statement → Session → List (Except Halt Value) × Session
  | [], session => ([], session)
  | statement :: rest, session =>
    let (result, session) :=
      match (runStatement host fuel statement).run session with
      | .ok value session => (.ok value, session)
      | .error halt session => (.error halt, session)
    let (results, session) := runEach host fuel rest session
    (result :: results, session)

def loadPrelude (host : Host) (fuel : Nat) : SessionRun Value := runSource host fuel "use \"std\";"

end Session

end CurriedScript
