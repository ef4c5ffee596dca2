import CurriedScript.Proofs.Ends
import CurriedScript.Proofs.Lines
import CurriedScript.Proofs.ParserComplete
import CurriedScript.Session
import Mathlib

/-!
# Programs one after another

`runSource_joined`: a program and a text, joined by a newline, are the statements of
the program and then those of the text, or the error of the text further down,
and running the joined text is running one and then the other.
-/

namespace CurriedScript

open CurriedScript.Parser Grammar

/-! ## Statements before others -/

theorem statements_before : ∀ {ts : List Token} {program : List Statement}, IsStatements ts program →
    ∀ rest : List Token,
    plain (statements (fun _ => false) (ts ++ rest)) =
      (plain (statements (fun _ => false) rest)).map fun found => (program ++ found.1, found.2)
  | _, _, .nil, rest => by
    cases h : plain (statements (fun _ => false) rest) <;> simp [h, Except.map]
  | _, _, @IsStatements.cons ts us s others h h', rest => by
    obtain ⟨k, hk, ho⟩ := h.head
    have hgo := @statements_go_on k ho (fun _ => false) (by simp)
    have ih := statements_before h' rest
    rw [List.append_assoc, plain_statements_of_head (headKind_append h.ne_nil ▸ hk), if_neg hgo, h.complete,
      ok_bind]
    dsimp only
    rw [ih]
    cases plain (statements (fun _ => false) rest) <;> rfl

theorem parseSource_joined {a : String} {program : List Statement} (ha : parseSource a = .ok program) (b : String) :
    parseSource (a ++ "\n" ++ b) =
      match parseSource b with
      | .ok others => .ok (program ++ others)
      | .error e => .error (e.down (newlines a.toList + 1)) := by
  obtain ⟨tokens, hscan, hparse⟩ := bind_eq_ok.mp ha
  obtain ⟨before, rfl, hbefore, hscans⟩ := scanFrom_more hscan
  have hprogram := parse_before hbefore rfl hparse
  have htext : (a ++ "\n" ++ b).toList = a.toList ++ '\n' :: b.toList := by simp
  have hjoined : scan (a ++ "\n" ++ b) = (scanFrom (1 + (newlines a.toList + 1)) b.toList).map (before ++ ·) := by
    have hnewline : StepsTo '\n' b.toList (.skip ['\n'] b.toList) := .blank rfl
    rw [scan, htext, hscans '\n' b.toList (separates_mark (by decide)), scanFrom_skip hnewline.eq, ← Nat.add_assoc]
    rfl
  unfold parseSource
  rw [hjoined, scanFrom_down, ← scan]
  cases hb : scan b with
  | error e => rfl
  | ok after =>
    have hended : Ended after := by
      obtain ⟨_, rfl, _⟩ := scanFrom_more hb
      exact ⟨_, List.mem_append_right _ (List.mem_singleton_self _), rfl⟩
    have hdown := parse_down (newlines a.toList + 1) hended
    have hmore : ∀ rest, parse (before ++ rest) = (parse rest).map (program ++ ·) := by
      intro rest
      rw [parse_eq, statements_before hprogram, parse_eq]
      cases plain (statements (fun _ => false) rest) <;> rfl
    simp only [Except.map, ok_bind, hmore, hdown]
    cases parse after <;> rfl

/-! ## Runs one after another -/

theorem runStatements_append (host : Host) (fuel : Nat) (before after : List Statement) (value : Value) :
    Session.runStatements host fuel value (before ++ after) =
      (do
        let value ← Session.runStatements host fuel value before
        Session.runStatements host fuel value after) := by
  induction before generalizing value with
  | nil => rfl
  | cons statement before ih =>
    simp only [List.cons_append, Session.runStatements, ih, bind_assoc]

/-- The value before the first statement is not the result. -/
theorem runStatements_of_ne_nil (host : Host) (fuel : Nat) {statements : List Statement} (h : statements ≠ [])
    (value value' : Value) :
    Session.runStatements host fuel value statements = Session.runStatements host fuel value' statements := by
  cases statements with
  | nil => exact absurd rfl h
  | cons statement statements => rfl

/-- Running a text after a program that ran is running what is left of the joined text. -/
theorem runSource_of_append {a b joined : String} {program others : List Statement}
    (ha : parseSource a = .ok program)
    (hb : parseSource b = .ok others) (hjoined : parseSource joined = .ok (program ++ others)) (hne : others ≠ [])
    {host : Host} {fuel : Nat} {session session' : Session} {value : Value}
    (hrun : (Session.runSource host fuel a).run session = .ok value session') :
    (Session.runSource host fuel joined).run session = (Session.runSource host fuel b).run session' := by
  simp only [Session.runSource, ha, hb, hjoined] at hrun ⊢
  rw [runStatements_append, EStateM.run_bind, hrun]
  exact congrArg (·.run session') (runStatements_of_ne_nil host fuel hne value .nothing)

/-- **Parsing is a homomorphism on chunks.** Behind a source that is a program and a
newline, every text is the same program as alone, or has the same error on the
line that it is moved to. So a program with a statement in it runs behind another
one as it does after that one has run. -/
theorem runSource_joined {a : String} {program : List Statement} (ha : parseSource a = .ok program) (b : String) :
    (∀ others, parseSource b = .ok others → parseSource (a ++ "\n" ++ b) = .ok (program ++ others)) ∧
    (∀ line fault, parseSource b = .error (.lex line fault) →
      parseSource (a ++ "\n" ++ b) = .error (.lex (line + 1 + newlines a.toList) fault)) ∧
    (∀ line lexeme fault, parseSource b = .error (.parse line lexeme fault) →
      parseSource (a ++ "\n" ++ b) = .error (.parse (line + 1 + newlines a.toList) lexeme fault)) ∧
    ∀ others, parseSource b = .ok others → others ≠ [] → ∀ (host : Host) (fuel : Nat) (session session' : Session)
      (value : Value), (Session.runSource host fuel a).run session = .ok value session' →
        (Session.runSource host fuel (a ++ "\n" ++ b)).run session =
          (Session.runSource host fuel b).run session' := by
  have hjoined := parseSource_joined ha b
  have hline : ∀ line, line + (newlines a.toList + 1) = line + 1 + newlines a.toList := fun line => by omega
  have hok : ∀ others, parseSource b = .ok others → parseSource (a ++ "\n" ++ b) = .ok (program ++ others) := by
    intro others hb
    rw [hjoined, hb]
  refine ⟨hok, fun line fault hb => ?_, fun line lexeme fault hb => ?_, fun others hb hne host fuel _ _ _ hrun =>
    ?_⟩
  · rw [hjoined, hb, ← hline]
    rfl
  · rw [hjoined, hb, ← hline]
    rfl
  · exact runSource_of_append ha hb (hok others hb) hne hrun

set_option maxRecDepth 2000 in
/-- A binding, and after it a use of the name or a stray parenthesis. -/
theorem bindThenName_joined :
    parseSource ("let x <- 1;" ++ "\n" ++ ")") = .error (.parse 2 ")" .missingExpression) ∧
    ∃ ran, (Session.runSource Host.bare 5 "let x <- 1;").run (.start []) = .ok .nothing ran ∧
      (Session.runSource Host.bare 5 ("let x <- 1;" ++ "\n" ++ "x;")).run (.start []) =
        (Session.runSource Host.bare 5 "x;").run ran := by
  have ha : parseSource "let x <- 1;" = .ok [.bind [⟨"x", (Form.literal (.integer 1)).bare⟩]] := by cbv
  have hb : parseSource "x;" = .ok [.expr (Form.name "x").bare] := by cbv
  have herror : parseSource ")" = .error (.parse 1 ")" .missingExpression) := by cbv
  have hrun : (Session.runSource Host.bare 5 "let x <- 1;").run (.start []) =
      .ok .nothing ⟨Environment.global.frame.bind "x" (.integer 1), ⟨[], "", 0⟩⟩ := by cbv
  exact ⟨(runSource_joined ha ")").2.2.1 1 ")" .missingExpression herror, _, hrun,
    (runSource_joined ha "x;").2.2.2 _ hb (by simp) Host.bare 5 (.start []) _ .nothing hrun⟩

end CurriedScript
