import CurriedScript.Host.Function

/-!
# Hosts

A host fixes what a run may use: builtins, modules, the number of calls, and the
functions behind builtins that are no primitives. What a run changes is the world: the
input left, the output so far, and the calls made. A run that fails keeps the world it
failed in.
-/

namespace CurriedScript

structure Host extends Settings where
  functions : List HostFunction

def Host.ofLoader (loader : Loader) : Host :=
  { builtins := Builtin.all, loader := loader, callLimit := none, outputFault := none, functions := [] }

structure World where
  input : List UInt8
  output : String
  calls : Nat

/-- Why a run has no result. Running out of fuel says nothing about the program. -/
inductive Halt where
  | failure (error : Error)
  | outOfFuel

abbrev Run := EStateM Halt World

def fail {α : Type} (e : Error) : Run α := throw (.failure e)

def outOfFuel {α : Type} : Run α := throw .outOfFuel

/-- The error of a run as its value, in the state that it left. -/
def attempt {σ α : Type} (m : EStateM Halt σ α) : EStateM Halt σ (Except Error α) := fun s =>
  match m s with
  | .ok a s => .ok (.ok a) s
  | .error (.failure e) s => .ok (.error e) s
  | .error .outOfFuel s => .error .outOfFuel s

def countCall (host : Host) : Run Unit := do
  let world ← get
  match host.callLimit with
  | none => set { world with calls := world.calls + 1 }
  | some limit =>
    if limit ≤ world.calls then fail (.callLimit limit)
    else set { world with calls := world.calls + 1 }

def write (host : Host) (text : String) : Run Unit :=
  match host.outputFault with
  | some reason => fail (.io reason)
  | none => modify fun world => { world with output := world.output ++ text }

def printLine (host : Host) (line : String) : Run Unit := write host (line ++ "\n")

/-- The bytes up to and with the first line feed, and what follows them. -/
def lineSpan : List UInt8 → List UInt8 × List UInt8
  | [] => ([], [])
  | byte :: rest =>
    if byte = 10 then ([byte], rest)
    else
      let (line, rest) := lineSpan rest
      (byte :: line, rest)

def withoutLineEnd (text : List Char) : List Char :=
  (text.reverse.dropWhile fun c => c = '\n' || c = '\r').reverse

/-- The input that is left, of which so many bytes are taken. -/
def takeInput (count : Nat) : Run (List UInt8) := do
  let world ← get
  set { world with input := world.input.drop count }
  return world.input

/-- Takes a line from the input, also one that is no text. -/
def readLine : Run String := do
  let world ← get
  let (line, rest) := lineSpan world.input
  set { world with input := rest }
  match String.fromUTF8? ⟨line.toArray⟩ with
  | some text => return String.ofList (withoutLineEnd text.toList)
  | none => fail (.io "stream did not contain valid UTF-8")

end CurriedScript
