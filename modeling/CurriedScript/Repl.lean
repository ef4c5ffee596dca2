import CurriedScript.Session
import CurriedScript.Text.Split

/-!
# The prompt

Each line of the input is run as a program of its own in one session. Values
other than nothing are shown, and errors are shown and forgotten.
-/

namespace CurriedScript.Repl

def write (text : String) (session : Session) : Session :=
  { session with world := { session.world with output := session.world.output ++ text } }

def respond (host : Host) (fuel : Nat) (session : Session) (line : String) : Session :=
  match (Session.runSource host fuel line).run session with
  | .ok .nothing session => session
  | .ok value session => write (value.display ++ "\n") session
  | .error (.failure e) session => write ("Error: " ++ e.message ++ "\n") session
  | .error .outOfFuel session => write "Error: out of fuel\n" session

def withoutReturn (line : List Char) : List Char :=
  if line.getLast? = some '\r' then line.dropLast else line

def lines (text : List Char) : List (List Char) :=
  let pieces := Text.split '\n' text
  let last := pieces.getLast?.getD []
  pieces.dropLast.map withoutReturn ++ if last.isEmpty then [] else [last]

def respondEach (host : Host) (fuel : Nat) : Session → List String → Session
  | session, [] => write "> " session
  | session, line :: rest => respondEach host fuel (respond host fuel (write "> " session) line) rest

/-- Everything written in answer to an input. Programs find nothing to read. -/
def transcript (loader : Loader) (fuel : Nat) (input : String) : String :=
  let host := Host.ofLoader loader
  let session :=
    match (Session.loadPrelude host fuel).run (Session.start []) with
    | .ok _ session | .error _ session => session
  (respondEach host fuel session ((lines input.toList).map String.ofList)).world.output

end CurriedScript.Repl
