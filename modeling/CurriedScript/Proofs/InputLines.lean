import CurriedScript.Proofs.Atomicity
import CurriedScript.Proofs.Hosts

/-!
# Lines of the input

`runSources_reads`: the calls of `read` in a session take the lines of the input one after
another, wherever in the program they are and whatever fails. What a line is read as
depends on its bytes only, and behind the last line there are only empty ones.
-/

namespace CurriedScript

open Run

/-! ## Segments -/

def segments : List UInt8 → List (List UInt8)
  | [] => []
  | byte :: rest =>
    if byte = 10 then [byte] :: segments rest
    else
      match segments rest with
      | [] => [[byte]]
      | segment :: others => (byte :: segment) :: others

theorem lineSpan_cons {byte : UInt8} (h : byte ≠ 10) (rest : List UInt8) :
    lineSpan (byte :: rest) = (byte :: (lineSpan rest).1, (lineSpan rest).2) := by
  rw [lineSpan, if_neg h]

theorem segments_cons (byte : UInt8) (rest : List UInt8) :
    segments (byte :: rest) = (lineSpan (byte :: rest)).1 :: segments (lineSpan (byte :: rest)).2 := by
  induction rest generalizing byte with
  | nil => by_cases h : byte = 10 <;> simp [segments, lineSpan, h]
  | cons next rest ih =>
    by_cases h : byte = 10
    · simp [segments, lineSpan, h]
    · rw [segments, if_neg h, lineSpan_cons h, ih next]

theorem flatten_segments (bytes : List UInt8) : (segments bytes).flatten = bytes := by
  fun_induction segments bytes with
  | case1 => rfl
  | case2 rest ih => simp [ih]
  | case3 byte rest h hrest ih => simpa [hrest] using ih
  | case4 byte rest h segment others hrest ih => simpa [hrest] using ih

/-- A line is the first segment, and leaves the others. -/
theorem lineSpan_segments (bytes : List UInt8) :
    (lineSpan bytes).1 = (segments bytes).head?.getD [] ∧ segments (lineSpan bytes).2 = (segments bytes).tail := by
  cases bytes with
  | nil => exact ⟨rfl, rfl⟩
  | cons byte rest =>
    rw [segments_cons]
    exact ⟨rfl, rfl⟩

/-! ## What a line is read as -/

def IsLineEnd (c : Char) : Prop := c = '\n' ∨ c = '\r'

/-- What `read` answers for the bytes it takes: their text up to the line ends at its end,
or an error if they are no text. -/
inductive Answers : List UInt8 → Except Error Value → Prop
  | text {kept ends : List Char} : (∀ c ∈ ends, IsLineEnd c) → (∀ c, kept.getLast? = some c → ¬ IsLineEnd c) →
      Answers (String.ofList (kept ++ ends)).toUTF8.data.toList (.ok (.string (String.ofList kept)))
  | noText {bytes : List UInt8} : (∀ text : String, text.toUTF8.data.toList ≠ bytes) →
      Answers bytes (.error (.io "stream did not contain valid UTF-8"))

theorem withoutLineEnd_append (text : List Char) : ∃ ends, text = withoutLineEnd text ++ ends ∧
    (∀ c ∈ ends, IsLineEnd c) ∧ ∀ c, (withoutLineEnd text).getLast? = some c → ¬ IsLineEnd c := by
  refine ⟨(text.reverse.takeWhile fun c => c = '\n' || c = '\r').reverse, ?_, fun c hc => ?_, fun c hc => ?_⟩
  · rw [withoutLineEnd, ← List.reverse_append, List.takeWhile_append_dropWhile, List.reverse_reverse]
  · simpa [IsLineEnd] using List.mem_takeWhile_imp (List.mem_reverse.mp hc)
  · have hnot := List.head?_dropWhile_not (fun c => c = '\n' || c = '\r') text.reverse
    rw [withoutLineEnd, List.getLast?_reverse] at hc
    rw [hc] at hnot
    simpa [IsLineEnd] using hnot

theorem withoutLineEnd_of_ends {kept ends : List Char} (hends : ∀ c ∈ ends, IsLineEnd c)
    (hkept : ∀ c, kept.getLast? = some c → ¬ IsLineEnd c) : withoutLineEnd (kept ++ ends) = kept := by
  have hdrop : kept.reverse.dropWhile (fun c => c = '\n' || c = '\r') = kept.reverse := by
    cases hlast : kept.reverse with
    | nil => rfl
    | cons c rest =>
      have hc := hkept c (by rw [← List.head?_reverse, hlast]; rfl)
      exact List.dropWhile_cons_of_neg (by simpa [IsLineEnd] using hc)
  rw [withoutLineEnd, List.reverse_append, List.dropWhile_append_of_pos, hdrop, List.reverse_reverse]
  exact fun c hc => by simpa [IsLineEnd] using hends c (List.mem_reverse.mp hc)

/-- The answer depends on the bytes only. -/
theorem Answers.unique {bytes : List UInt8} {answer answer' : Except Error Value} (h : Answers bytes answer)
    (h' : Answers bytes answer') : answer = answer' := by
  cases h with
  | @text kept ends hends hkept =>
    generalize hbytes : (String.ofList (kept ++ ends)).toUTF8.data.toList = bytes at h'
    cases h' with
    | @text kept' ends' hends' hkept' =>
      have hstring : String.ofList (kept ++ ends) = String.ofList (kept' ++ ends') :=
        String.toByteArray_inj.mp (ByteArray.ext (Array.toList_inj.mp hbytes))
      rw [← withoutLineEnd_of_ends hends hkept, ← withoutLineEnd_of_ends hends' hkept',
        String.ofList_injective hstring]
    | noText h' => exact absurd hbytes (h' _)
  | noText h =>
    cases h' with
    | text => exact absurd rfl (h _)
    | noText => rfl

theorem answers_nil : Answers [] (.ok (.string "")) := by
  have hempty : (String.ofList ([] ++ [])).toUTF8.data.toList = [] := rfl
  rw [← hempty]
  exact .text (by simp) (by simp)

/-- `read` takes a line and changes nothing else. -/
theorem read_answers (host : Host) (arguments : List Value) (world : World) : ∃ answer,
    Answers (lineSpan world.input).1 answer ∧
      (Primitive.read.run host arguments).run world =
        settled answer { world with input := (lineSpan world.input).2 } := by
  cases h : String.fromUTF8? ⟨(lineSpan world.input).1.toArray⟩ with
  | some text =>
    obtain ⟨ends, htext, hends, hkept⟩ := withoutLineEnd_append text.toList
    refine ⟨.ok (.string (String.ofList (withoutLineEnd text.toList))), ?_, ?_⟩
    · have hbytes :
        (lineSpan world.input).1 = (String.ofList (withoutLineEnd text.toList ++ ends)).toUTF8.data.toList := by
        rw [← htext, String.ofList_toList]
        unfold String.fromUTF8? at h
        split at h <;> cases h
        rfl
      rw [hbytes]
      exact .text hends hkept
    · simp only [Primitive.run, readLine, EStateM.run_bind, EStateM.run_get, EStateM.run_set, h]
      rfl
  | none =>
    refine ⟨.error (.io "stream did not contain valid UTF-8"), .noText fun text htext => ?_, ?_⟩
    · have hbytes : text.toByteArray = ⟨(lineSpan world.input).1.toArray⟩ := by rw [← htext]; rfl
      unfold String.fromUTF8? at h
      rw [dif_pos (hbytes ▸ text.isValidUTF8)] at h
      cases h
    · simp only [Primitive.run, readLine, EStateM.run_bind, EStateM.run_get, EStateM.run_set, h]
      rfl

/-! ## Calls in order -/

structure ReadCall where
  before : List UInt8
  answer : Except Error Value
  after : List UInt8

inductive TakeLines : List UInt8 → List ReadCall → List UInt8 → Prop
  | nil {input : List UInt8} : TakeLines input [] input
  | cons {input left : List UInt8} {answer : Except Error Value} {calls : List ReadCall} :
      Answers (lineSpan input).1 answer → TakeLines (lineSpan input).2 calls left →
      TakeLines input (⟨input, answer, (lineSpan input).2⟩ :: calls) left

theorem TakeLines.append {input mid left : List UInt8} {calls others : List ReadCall}
    (h : TakeLines input calls mid)
    (h' : TakeLines mid others left) : TakeLines input (calls ++ others) left := by
  induction h with
  | nil => exact h'
  | cons hanswer _ ih => exact .cons hanswer (ih h')

structure TakesSegment (bytes : List UInt8) (k : Nat) (call : ReadCall) : Prop where
  before : call.before = ((segments bytes).drop k).flatten
  after : call.after = ((segments bytes).drop (k + 1)).flatten
  answers : ∀ segment, (segments bytes)[k]? = some segment → Answers segment call.answer
  usedUp : (segments bytes)[k]? = none → call.answer = .ok (.string "")

theorem TakeLines.left_eq {input left : List UInt8} {calls : List ReadCall} (h : TakeLines input calls left) :
    left = ((segments input).drop calls.length).flatten := by
  induction h with
  | nil => exact (flatten_segments _).symm
  | @cons input left _ calls _ _ ih =>
    rw [ih, (lineSpan_segments input).2, List.length_cons, ← List.drop_one, List.drop_drop, Nat.add_comm]

theorem TakeLines.takesSegment {input left : List UInt8} {calls : List ReadCall} (h : TakeLines input calls left)
    {k : Nat}
    {call : ReadCall} (hcall : calls[k]? = some call) : TakesSegment input k call := by
  induction h generalizing k with
  | nil => cases hcall
  | @cons input left answer calls hanswer _ ih =>
    obtain ⟨hline, hrest⟩ := lineSpan_segments input
    cases k with
    | zero =>
      cases hcall
      refine ⟨(flatten_segments input).symm, ?_, fun segment hsegment => ?_, fun hnone => ?_⟩
      · rw [List.drop_one, ← hrest, flatten_segments]
      · rw [hline, List.head?_eq_getElem?, hsegment] at hanswer
        exact hanswer
      · rw [hline, List.head?_eq_getElem?, hnone] at hanswer
        exact hanswer.unique answers_nil
    | succ k =>
      obtain ⟨hbefore, hafter, hanswers, hused⟩ := ih hcall
      simp only [hrest, List.drop_tail, List.getElem?_tail] at hbefore hafter hanswers hused
      exact ⟨hbefore, hafter, hanswers, hused⟩

/-! ## The calls of a run -/

/-- The calls of `read` that a run makes from a state, in order. `Step` says which calls the
steps make that the run is put together from. -/
inductive ReadCalls {σ : Type} (Step : {α : Type} → EStateM Halt σ α → σ → List ReadCall → Prop) :
    {α : Type} → EStateM Halt σ α → σ → List ReadCall → Prop
  | step {α : Type} {m : EStateM Halt σ α} {s : σ} {calls : List ReadCall} :
      Step m s calls → ReadCalls Step m s calls
  | goesOn {α β : Type} {m : EStateM Halt σ α} {f : α → EStateM Halt σ β} {s left : σ} {a : α}
      {calls others : List ReadCall} : m.run s = .ok a left → ReadCalls Step m s calls →
      ReadCalls Step (f a) left others → ReadCalls Step (m >>= f) s (calls ++ others)
  | stops {α β : Type} {m : EStateM Halt σ α} {f : α → EStateM Halt σ β} {s left : σ} {halt : Halt}
      {calls : List ReadCall} : m.run s = .error halt left → ReadCalls Step m s calls →
      ReadCalls Step (m >>= f) s calls
  | attempted {α : Type} {m : EStateM Halt σ α} {s : σ} {calls : List ReadCall} : ReadCalls Step m s calls →
      ReadCalls Step (attempt m) s calls

inductive RunStep (host : Host) : {α : Type} → Run α → World → List ReadCall → Prop
  | pure {α : Type} (a : α) (world : World) : RunStep host (Pure.pure a) world []
  | throw {α : Type} (halt : Halt) (world : World) : RunStep host (MonadExcept.throw halt : Run α) world []
  | countCall (world : World) : RunStep host (countCall host) world []
  | write (text : String) (world : World) : RunStep host (write host text) world []
  | look (world : World) : RunStep host (takeInput 0) world []
  | read {arguments : List Value} {world left : World} {answer : Except Error Value} :
      (Primitive.read.run host arguments).run world = settled answer left →
      RunStep host (Primitive.read.run host arguments) world [⟨world.input, answer, left.input⟩]

inductive SessionStep (host : Host) (fuel : Nat) : {α : Type} → SessionRun α → Session → List ReadCall → Prop
  | pure {α : Type} (a : α) (session : Session) : SessionStep host fuel (Pure.pure a) session []
  | throw {α : Type} (halt : Halt) (session : Session) :
      SessionStep host fuel (MonadExcept.throw halt : SessionRun α) session []
  | statement {s : Statement} {session : Session} {calls : List ReadCall} :
      ReadCalls (RunStep host) (execute host fuel session.environment s) { session.world with calls := 0 } calls →
      SessionStep host fuel (Session.runStatement host fuel s) session calls

inductive SourcesRead (fuel : Nat) : List (Host × String) → Session → List ReadCall → Prop
  | nil (session : Session) : SourcesRead fuel [] session []
  | cons {host : Host} {source : String} {rest : List (Host × String)} {session : Session}
      {calls others : List ReadCall} :
      ReadCalls (SessionStep host fuel) (Session.runSource host fuel source) session calls →
      SourcesRead fuel rest (finalState ((Session.runSource host fuel source).run session)) others →
      SourcesRead fuel ((host, source) :: rest) session (calls ++ others)

/-! ## Runs take lines -/

theorem finalState_attempt {σ α : Type} (m : EStateM Halt σ α) (s : σ) :
    finalState ((attempt m).run s) = finalState (m.run s) := by
  rw [attempt_run]
  split <;> simp [finalState, *]

/-- Where steps take lines, so do the runs that are put together from them. -/
theorem ReadCalls.takeLines {σ α : Type} {Step : {α : Type} → EStateM Halt σ α → σ → List ReadCall → Prop}
    {input : σ → List UInt8}
    (hstep : ∀ {α : Type} {m : EStateM Halt σ α} {s calls}, Step m s calls →
      TakeLines (input s) calls (input (finalState (m.run s))))
    {m : EStateM Halt σ α} {s : σ} {calls : List ReadCall} (h : ReadCalls Step m s calls) :
    TakeLines (input s) calls (input (finalState (m.run s))) := by
  induction h with
  | step h => exact hstep h
  | goesOn hrun _ _ ih ih' =>
    rw [hrun] at ih
    rw [EStateM.run_bind, hrun]
    exact ih.append ih'
  | stops hrun _ ih =>
    rw [hrun] at ih
    rw [EStateM.run_bind, hrun]
    exact ih
  | attempted _ ih =>
    rw [finalState_attempt]
    exact ih

theorem countCall_input (host : Host) (world : World) :
    (finalState ((countCall host).run world)).input = world.input := by
  cases hlimit : host.callLimit with
  | none => rw [countCall_run_none hlimit]; rfl
  | some limit =>
    rcases Nat.lt_or_ge world.calls limit with hlt | hle
    · rw [countCall_run_of_lt hlimit hlt]
      rfl
    · rw [countCall_run_of_le hlimit hle]
      rfl

theorem write_input (host : Host) (text : String) (world : World) :
    (finalState ((write host text).run world)).input = world.input := by
  unfold write
  cases host.outputFault <;> rfl

theorem RunStep.takeLines {host : Host} {α : Type} {m : Run α} {world : World} {calls : List ReadCall}
    (h : RunStep host m world calls) : TakeLines world.input calls (finalState (m.run world)).input := by
  cases h with
  | pure | throw => exact .nil
  | countCall =>
    rw [countCall_input]
    exact .nil
  | write =>
    rw [write_input]
    exact .nil
  | look => exact .nil
  | @read arguments _ left answer hrun =>
    obtain ⟨answer', hanswer, hrun'⟩ := read_answers host arguments world
    obtain ⟨rfl, rfl⟩ := settled_inj.mp (hrun.symm.trans hrun')
    rw [hrun', finalState_settled]
    exact .cons hanswer .nil

theorem SessionStep.takeLines {host : Host} {fuel : Nat} {α : Type} {m : SessionRun α} {session : Session}
    {calls : List ReadCall} (h : SessionStep host fuel m session calls) :
    TakeLines session.world.input calls (finalState (m.run session)).world.input := by
  cases h with
  | pure | throw => exact .nil
  | @statement s _ _ h =>
    have hlines := h.takeLines RunStep.takeLines
    rw [runStatement_run]
    generalize (execute host fuel session.environment s).run { session.world with calls := 0 } = r at hlines
    match r with
    | .ok (v, env) left => exact hlines
    | .error halt left => exact hlines

theorem SourcesRead.takeLines {fuel : Nat} {requests : List (Host × String)} {session : Session}
    {calls : List ReadCall}
    (h : SourcesRead fuel requests session calls) :
    TakeLines session.world.input calls (Session.runSources fuel requests session).2.world.input := by
  induction h with
  | nil => exact .nil
  | cons hsource _ ih =>
    rw [Session.runSources_cons]
    exact (hsource.takeLines SessionStep.takeLines).append ih

/-! ## Every run has calls -/

/-- The function may look at the input but takes none of it. -/
def HostFunction.LeavesInput (f : HostFunction) : Prop :=
  ∀ settings seen count, f.next settings seen = .take count → count = 0

def HasReads {σ α : Type} (Step : {α : Type} → EStateM Halt σ α → σ → List ReadCall → Prop)
    (m : EStateM Halt σ α) : Prop :=
  ∀ s, ∃ calls, ReadCalls Step m s calls

theorem HasReads.bind {σ α β : Type} {Step : {α : Type} → EStateM Halt σ α → σ → List ReadCall → Prop}
    {m : EStateM Halt σ α} {f : α → EStateM Halt σ β} (h : HasReads Step m) (hf : ∀ a, HasReads Step (f a)) :
    HasReads Step (m >>= f) := by
  intro s
  obtain ⟨calls, hcalls⟩ := h s
  cases hrun : m.run s with
  | error halt left => exact ⟨calls, .stops hrun hcalls⟩
  | ok a left =>
    obtain ⟨others, hothers⟩ := hf a left
    exact ⟨calls ++ others, .goesOn hrun hcalls hothers⟩

section
variable {host : Host} {α : Type}

theorem hasReads_pure (a : α) : HasReads (RunStep host) (pure a) := fun world => ⟨[], .step (.pure a world)⟩

theorem hasReads_throw (halt : Halt) : HasReads (RunStep host) (throw halt : Run α) :=
  fun world => ⟨[], .step (.throw halt world)⟩

theorem write_hasReads (text : String) : HasReads (RunStep host) (write host text) :=
  fun world => ⟨[], .step (.write text world)⟩

theorem primitive_hasReads (primitive : Primitive) (arguments : List Value) :
    HasReads (RunStep host) (primitive.run host arguments) := by
  have hpure : ∀ result, HasReads (RunStep host) (Primitive.pureRun result) := fun result => by
    cases result with
    | ok value => exact hasReads_pure value
    | error e => exact hasReads_throw _
  cases primitive with
  | print =>
    match arguments with
    | [value] => exact (write_hasReads (value.display ++ "\n")).bind fun _ => hasReads_pure _
    | [] => exact hpure (Primitive.wrongArity .print 1 0)
    | _ :: _ :: rest => exact hpure (Primitive.wrongArity .print 1 (rest.length + 2))
  | read =>
    intro world
    obtain ⟨answer, -, hrun⟩ := read_answers host arguments world
    exact ⟨_, .step (.read hrun)⟩
  | _ => exact hpure _

theorem loadModule_hasReads (name : String) : HasReads (RunStep host) (loadModule host name) := by
  obtain ⟨statements, h⟩ | ⟨e, h⟩ := isModule_or_loadFails host.loader name
  · rw [loadModule_of_isModule h]
    exact hasReads_pure statements
  · rw [loadModule_of_loadFails h]
    exact hasReads_throw _

theorem hostsRelated_hasReads (hleaves : ∀ f ∈ host.functions, f.LeavesInput) :
    HostsRelated (fun m _ => HasReads (RunStep host) m) host host where
  sequencing := ⟨hasReads_pure, hasReads_throw, HasReads.bind⟩
  countCall := fun world => ⟨[], .step (.countCall world)⟩
  builtinNamed name := by
    unfold builtinNamed
    cases Builtin.find? host.builtins name with
    | some builtin => exact hasReads_pure _
    | none => exact hasReads_throw _
  loadModule := loadModule_hasReads
  primitive := primitive_hasReads
  functions := rfl
  function f hf := {
    next := rfl
    write := write_hasReads
    take := fun seen count htake world => by
      rw [hleaves f hf _ seen count htake]
      exact ⟨[], .step (.look world)⟩
    attempt := fun _ _ _ _ _ _ hm world => by
      obtain ⟨calls, hcalls⟩ := hm world
      exact ⟨calls, .attempted hcalls⟩ }

end

section
variable {host : Host} (hleaves : ∀ f ∈ host.functions, f.LeavesInput) (fuel : Nat)
include hleaves

theorem runStatement_hasReads (s : Statement) :
    HasReads (SessionStep host fuel) (Session.runStatement host fuel s) := by
  intro session
  obtain ⟨-, -, -, -, hexecute⟩ := evaluator_related (hostsRelated_hasReads hleaves) fuel
  obtain ⟨calls, hcalls⟩ := hexecute session.environment s { session.world with calls := 0 }
  exact ⟨calls, .step (.statement hcalls)⟩

theorem runSource_hasReads (source : String) :
    HasReads (SessionStep host fuel) (Session.runSource host fuel source) := by
  have hstatements : ∀ statements v,
      HasReads (SessionStep host fuel) (Session.runStatements host fuel v statements) := by
    intro statements
    induction statements with
    | nil => exact fun v session => ⟨[], .step (.pure v session)⟩
    | cons s rest ih => exact fun _ => (runStatement_hasReads hleaves fuel s).bind ih
  unfold Session.runSource
  cases parseSource source with
  | ok statements => exact hstatements statements _
  | error e => exact fun session => ⟨[], .step (.throw _ session)⟩

end

theorem exists_sourcesRead {requests : List (Host × String)}
    (hleaves : ∀ request ∈ requests, ∀ f ∈ request.1.functions, f.LeavesInput) (fuel : Nat) (session : Session) :
    ∃ calls, SourcesRead fuel requests session calls := by
  induction requests generalizing session with
  | nil => exact ⟨[], .nil session⟩
  | cons request rest ih =>
    obtain ⟨host, source⟩ := request
    obtain ⟨hhost, hrest⟩ := List.forall_mem_cons.mp hleaves
    obtain ⟨calls, hcalls⟩ := runSource_hasReads hhost fuel source session
    obtain ⟨others, hothers⟩ := ih hrest (finalState ((Session.runSource host fuel source).run session))
    exact ⟨calls ++ others, .cons hcalls hothers⟩

/-- **Input lines are neither lost nor repeated.** In every session, whatever its sources call
`read` from and whichever of them fail, the calls of `read` take the segments of the input
one after another: each takes the segment in its place, also one that is no text, answers
for it alone, and answers the empty string where there are no segments left. The session
leaves the segments that no call took. Functions of hosts may call `read`, also from within
what they go on after, but must take no input by themselves. -/
theorem runSources_reads {requests : List (Host × String)}
    (hleaves : ∀ request ∈ requests, ∀ f ∈ request.1.functions, f.LeavesInput) (fuel : Nat) (session : Session) :
    (∃ calls, SourcesRead fuel requests session calls) ∧
    ∀ calls, SourcesRead fuel requests session calls →
      (∀ k call, calls[k]? = some call → TakesSegment session.world.input k call) ∧
      (Session.runSources fuel requests session).2.world.input =
        ((segments session.world.input).drop calls.length).flatten := by
  refine ⟨exists_sourcesRead hleaves fuel session, fun calls h => ⟨fun k call hcall => ?_, ?_⟩⟩
  · exact h.takeLines.takesSegment hcall
  · exact h.takeLines.left_eq

theorem relay_leavesInput : relay.LeavesInput := by
  intro settings seen count
  unfold relay
  dsimp only
  split <;> simp

def twoSources : List (Host × String) :=
  [(Host.relaying, "let f <- \x7b x | \x7b#relay\x7d \x7b#read\x7d x; \x7d; f 1; f 1; f 1;"),
    (Host.bare, "\x7b#read\x7d 1;")]

theorem twoSources_reads :
    let input := [97, 13, 10, 255, 10, 98, 10, 99]
    (∀ request ∈ twoSources, ∀ f ∈ request.1.functions, f.LeavesInput) ∧
    ∃ first second third, SourcesRead 9 twoSources (.start input) [first, second, third] ∧
      first.answer = .ok (.string "a") ∧ second.answer = .error (.io "stream did not contain valid UTF-8") ∧
      third.answer = .ok (.string "b") ∧ (Session.runSources 9 twoSources (.start input)).2.world.input = [99] := by
  intro input
  have hleaves : ∀ request ∈ twoSources, ∀ f ∈ request.1.functions, f.LeavesInput := by
    simp [twoSources, Host.relaying, Host.bare, Host.ofLoader, relay_leavesInput]
  have hlast : (Session.runSources 9 twoSources (.start input)).2.world.input = [99] := by cbv
  have hsegments : segments input = [[97, 13, 10], [255, 10], [98, 10], [99]] := by decide
  have htext : ∀ kept ends, (∀ c ∈ ends, IsLineEnd c) → (∀ c, kept.getLast? = some c → ¬ IsLineEnd c) →
      Answers (String.ofList (kept ++ ends)).toUTF8.data.toList (.ok (.string (String.ofList kept))) :=
        fun _ _ => .text
  have hfirst : Answers [97, 13, 10] (.ok (.string "a")) :=
    htext ['a'] ['\r', '\n'] (by simp [IsLineEnd]) (by simp [IsLineEnd])
  have hsecond : Answers [255, 10] (.error (.io "stream did not contain valid UTF-8")) := by
    refine .noText fun text htext => ?_
    have hbytes : text.toByteArray = ⟨#[255, 10]⟩ := ByteArray.ext (Array.toList_inj.mp htext)
    exact absurd (hbytes ▸ text.isValidUTF8) (by decide)
  have hthird : Answers [98, 10] (.ok (.string "b")) :=
    htext ['b'] ['\n'] (by simp [IsLineEnd]) (by simp [IsLineEnd])
  obtain ⟨⟨calls, hcalls⟩, hall⟩ := runSources_reads hleaves 9 (.start input)
  obtain ⟨htakes, hleft⟩ := hall calls hcalls
  have hinput : (Session.start input).world.input = input := rfl
  rw [hlast, hinput, hsegments] at hleft
  have hlength : calls.length = 3 := by
    generalize calls.length = n at hleft
    rcases n with _ | _ | _ | _ | n
    case succ.succ.succ.zero => rfl
    all_goals simp at hleft
  obtain ⟨first, second, third, rfl⟩ := List.length_eq_three.mp hlength
  refine ⟨hleaves, first, second, third, hcalls, ?_, ?_, ?_, hlast⟩
  · exact ((htakes 0 first rfl).answers _ (by rw [hinput, hsegments]; rfl)).unique hfirst
  · exact ((htakes 1 second rfl).answers _ (by rw [hinput, hsegments]; rfl)).unique hsecond
  · exact ((htakes 2 third rfl).answers _ (by rw [hinput, hsegments]; rfl)).unique hthird

end CurriedScript
