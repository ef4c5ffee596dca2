import CurriedScript.Proofs.Numbers
import CurriedScript.Proofs.Spacing
import CurriedScript.Proofs.StringPieces

/-!
# The line of a faulty escape

`scan_escape_line`: a faulty escape in a string is reported on the last line of the
source. That is the line it is on only if no newline comes behind it.
-/

namespace CurriedScript

/-! ## Positions -/

section
variable {source text : List Char} {before : List Token} {line : Nat}

/-- The line is counted from the start of the source. -/
theorem CutsTo.line_eq (h : CutsTo source before line text) :
    ∃ start, source = start ++ text ∧ line = 1 + newlines start := by
  induction h with
  | start => exact ⟨[], rfl, rfl⟩
  | @skip _ _ c cs blank rest _ hstep ih =>
    obtain ⟨start, hsource, hline⟩ := ih
    have hsplits := step_splits c cs
    rw [hstep] at hsplits
    refine ⟨start ++ blank, ?_, ?_⟩
    · rw [hsource, List.append_assoc, hsplits.2]
    · rw [hline, newlines_append, Nat.add_assoc]
  | @token _ _ c cs lexeme rest _ _ _ hstep ih =>
    obtain ⟨start, hsource, hline⟩ := ih
    have hsplits := step_splits c cs
    rw [hstep] at hsplits
    refine ⟨start ++ lexeme, ?_, ?_⟩
    · rw [hsource, List.append_assoc, hsplits.2]
    · rw [hline, newlines_append, Nat.add_assoc]

/-- What the source goes on with behind the text that is still to cut changes nothing before it. -/
theorem CutsTo.append (h : CutsTo source before line text) (hne : text ≠ []) (more : List Char) :
    CutsTo (source ++ more) before line (text ++ more) := by
  induction h with
  | start => exact .start
  | skip _ hstep ih => exact .skip (ih (by simp)) (step_skip_append hstep more)
  | @token _ _ c cs _ _ _ _ _ hstep ih =>
    have hleaves : (step c cs).Leaves := by rwa [hstep]
    refine .token (ih (by simp)) ((step_append more hleaves).trans ?_)
    rw [hstep]
    rfl

/-- A text that is not cut to its end has a fault somewhere. -/
theorem CutsTo.exists_fault (h : CutsTo source before line text) {there : Nat} {fault : LexFault}
    (herror : scanFrom line text = .error (.lex there fault)) :
    ∃ tokens last c cs, CutsTo source tokens last (c :: cs) ∧ step c cs = .fault fault := by
  fun_induction scanFrom line text generalizing before with
  | case1 => cases herror
  | case2 line c cs blank rest hstep _ ih => exact ih (h.skip hstep) herror
  | case3 line c cs kind literal lexeme rest hstep _ ih =>
    refine ih (h.token hstep) ?_
    cases hrest : scanFrom (line + newlines lexeme) rest with
    | error e =>
      rw [hrest] at herror
      exact herror
    | ok tokens =>
      rw [hrest] at herror
      cases herror
  | case4 line c cs fault hstep =>
    cases herror
    exact ⟨_, _, c, cs, h, hstep⟩

end

/-! ## Faults of escapes -/

def LexFault.InEscape : LexFault → Prop
  | .invalidEscape _ | .truncatedEscape | .invalidCodePoint _ => True
  | _ => False

/-- Only strings have faults of escapes. -/
theorem hasFault_of_step {c : Char} {cs : List Char} {fault : LexFault} (hstep : step c cs = .fault fault)
    (hfault : fault.InEscape) : c = '"' ∧ HasFault cs fault := by
  have hkind := stepsTo_step c cs
  generalize step c cs = s at hstep hkind
  -- the faults of all other steps are none of an escape
  cases hkind with
  | blank | mark => cases hstep
  | comment =>
    unfold commentStep at hstep
    split at hstep <;> cases hstep
    cases hfault
  | builtin =>
    unfold builtinStep at hstep
    dsimp only at hstep
    split at hstep
    · split at hstep <;> cases hstep
      cases hfault
    · cases hstep
      cases hfault
  | string =>
    unfold stringStep at hstep
    split at hstep
    · cases hstep
    · next hbody =>
      cases hstep
      exact ⟨rfl, stringBody_eq_error.mp hbody⟩
  | number =>
    unfold numberStep at hstep
    dsimp only at hstep
    split at hstep
    · cases hstep
    · split at hstep <;> cases hstep
      cases hfault
    · cases hstep
      cases hfault
  | name =>
    unfold nameStep at hstep
    dsimp only at hstep
    split at hstep
    · cases hstep
    split at hstep
    · cases hstep
    split at hstep <;> cases hstep
    cases hfault
  | stray =>
    cases hstep
    cases hfault
  | symbol =>
    unfold symbolStep at hstep
    dsimp only at hstep
    split at hstep <;> cases hstep
    cases hfault

theorem FaultyPiece.inEscape {text : List Char} {fault : LexFault} (h : FaultyPiece text fault) :
    fault.InEscape := by
  cases h <;> trivial

theorem faultLine_of_inEscape {fault : LexFault} (h : fault.InEscape) (line : Nat) (text : List Char) :
    faultLine fault line text = line + newlines text := by
  cases fault <;> first | rfl | cases h

def CutShort (rest : List Char) : Prop :=
  ∃ digits, rest = 'x' :: digits ∧ digits.length < 4 ∧ ∀ c ∈ digits, ∃ value, IsHexDigit c value

theorem FaultyPiece.append {rest : List Char} {fault : LexFault} (h : FaultyPiece ('\\' :: rest) fault)
    (hshort : ¬ CutShort rest) (more : List Char) : FaultyPiece ('\\' :: (rest ++ more)) fault := by
  cases h with
  | letter h => exact .letter h
  | surrogate h hlow hhigh => exact .surrogate h hlow hhigh
  | @digits rest h =>
    refine .digits fun a b c d after n hmore hnumber => ?_
    have hdigits : rest ++ more = [a, b, c, d] ++ after := hmore
    rcases List.append_eq_append_iff.mp hdigits with ⟨missing, hfour, -⟩ | ⟨after, rfl, -⟩
    · have hlength : rest.length + missing.length = 4 := by simpa using (congrArg List.length hfour).symm
      cases missing with
      | nil =>
        rw [List.append_nil] at hfour
        subst hfour
        exact h a b c d [] n rfl hnumber
      | cons e missing =>
        refine hshort ⟨rest, rfl, by simp at hlength; omega, fun digit hdigit => ?_⟩
        obtain ⟨i, j, k, l, hi, hj, hk, hl, -⟩ := isHexNumber_four.mp hnumber
        have hmem : digit ∈ [a, b, c, d] := by
          rw [hfour]
          exact List.mem_append_left _ hdigit
        simp only [List.mem_cons, List.not_mem_nil, or_false] at hmem
        simp only [← hexValue?_eq_some]
        rcases hmem with rfl | rfl | rfl | rfl
        · exact ⟨i, hi⟩
        · exact ⟨j, hj⟩
        · exact ⟨k, hk⟩
        · exact ⟨l, hl⟩
    · exact h a b c d after n rfl hnumber

/-! ## The escape that stops the scanner -/

/-- Behind the front, in a string that the scanner comes to, is a backslash that starts a
faulty escape and no other before it in the string. -/
structure StopsAtEscape (source front rest : List Char) (fault : LexFault) : Prop where
  source_eq : source = front ++ '\\' :: rest
  faulty : FaultyPiece ('\\' :: rest) fault
  inString : ∃ start pieces before line, front = start ++ '"' :: bodyText pieces ∧
    CutsTo source before line ('"' :: (bodyText pieces ++ '\\' :: rest))

namespace StopsAtEscape
variable {front rest : List Char} {fault : LexFault}

theorem scan_eq {source : String} (h : StopsAtEscape source.toList front rest fault) :
    scan source = .error (.lex (1 + newlines front + newlines rest) fault) := by
  obtain ⟨start, pieces, before, line, rfl, hcuts⟩ := h.inString
  have hbody : HasFault (bodyText pieces ++ '\\' :: rest) fault := ⟨pieces, _, rfl, .inl h.faulty⟩
  have hstep : step '"' (bodyText pieces ++ '\\' :: rest) = .fault fault := by
    rw [StepsTo.string.eq, stringStep, stringBody_of_hasFault hbody]
  obtain ⟨start', hsource, hline⟩ := hcuts.line_eq
  have hsame : start ++ '"' :: (bodyText pieces ++ '\\' :: rest) =
      start' ++ '"' :: (bodyText pieces ++ '\\' :: rest) := by
    rw [← hsource, h.source_eq]
    simp
  obtain rfl := List.append_cancel_right hsame
  rw [hcuts.scan_error hstep, faultLine_of_inEscape h.faulty.inEscape, hline]
  simp [newlines, Nat.add_assoc]

theorem append {source : List Char} (h : StopsAtEscape source front rest fault) (hshort : ¬ CutShort rest)
    (more : List Char) : StopsAtEscape (source ++ more) front (rest ++ more) fault where
  source_eq := by rw [h.source_eq, List.append_assoc, List.cons_append]
  faulty := h.faulty.append hshort more
  inString := by
    obtain ⟨start, pieces, before, line, hfront, hcuts⟩ := h.inString
    have happend := hcuts.append (by simp) more
    rw [List.cons_append, List.append_assoc, List.cons_append] at happend
    exact ⟨start, pieces, before, line, hfront, happend⟩

end StopsAtEscape

/-- Every faulty escape that is reported stopped the scanner somewhere. -/
theorem stopsAtEscape_of_error {source : String} {line : Nat} {fault : LexFault} (hfault : fault.InEscape)
    (h : scan source = .error (.lex line fault)) : ∃ front rest, StopsAtEscape source.toList front rest fault := by
  obtain ⟨before, line, c, cs, hcuts, hstep⟩ := CutsTo.start.exists_fault h
  obtain ⟨rfl, pieces, after, rfl, hfaulty | ⟨rfl, -⟩⟩ := hasFault_of_step hstep hfault
  · obtain ⟨rest, rfl⟩ : ∃ rest, after = '\\' :: rest := by cases hfaulty <;> exact ⟨_, rfl⟩
    obtain ⟨start, hsource, -⟩ := hcuts.line_eq
    refine ⟨start ++ '"' :: bodyText pieces, rest, ?_, hfaulty, start, pieces, before, line, rfl, hcuts⟩
    rw [hsource]
    simp
  · cases hfault

/-- **A faulty escape is reported on the last line of the source.** Every error of an escape
comes from the first faulty escape of a string that the scanner comes to. The line is that of
the escape and all newlines behind it, so it is the line of the escape only where there are
none. What is put behind the source leaves the fault as it is, unless the source ends within
the digits of the escape, and moves it down by its newlines. -/
theorem scan_escape_line (source : String) :
    (∀ line fault, fault.InEscape → scan source = .error (.lex line fault) →
      ∃ front rest, StopsAtEscape source.toList front rest fault) ∧
    ∀ front rest fault, StopsAtEscape source.toList front rest fault →
      scan source = .error (.lex (1 + newlines front + newlines rest) fault) ∧
      (scan source = .error (.lex (1 + newlines front) fault) ↔ '\n' ∉ rest) ∧
      (¬ CutShort rest → ∀ more : String,
        scan (source ++ more) =
          .error (.lex (1 + newlines front + newlines rest + newlines more.toList) fault)) := by
  refine ⟨fun line fault hfault h => stopsAtEscape_of_error hfault h, fun front rest fault h => ⟨h.scan_eq, ?_, ?_⟩⟩
  · rw [h.scan_eq, ← List.count_eq_zero, ← newlines]
    simp
  · intro hshort more
    have hmore := h.append hshort more.toList
    rw [← String.toList_append] at hmore
    rw [hmore.scan_eq, newlines_append, ← Nat.add_assoc]

/-- The escape is on the second line, and a newline behind the string moves its line. -/
theorem secondLine_escape_line :
    StopsAtEscape "\"a\n\\q\"".toList "\"a\n".toList "q\"".toList (.invalidEscape 'q') ∧
      (∃ front rest, StopsAtEscape "\"a\n\\q\"".toList front rest (.invalidEscape 'q')) ∧
      scan "\"a\n\\q\"" = .error (.lex 2 (.invalidEscape 'q')) ∧
      scan ("\"a\n\\q\"" ++ ";\n") = .error (.lex 3 (.invalidEscape 'q')) := by
  have hstops : StopsAtEscape "\"a\n\\q\"".toList "\"a\n".toList "q\"".toList (.invalidEscape 'q') :=
    ⟨rfl, .letter (by decide), [],
      [⟨_, 'a', .plain (by decide) (by decide)⟩, ⟨_, '\n', .plain (by decide) (by decide)⟩], [], 1, rfl, .start⟩
  have hlong : ¬ CutShort "q\"".toList := by
    rintro ⟨digits, hq, -⟩
    simp at hq
  obtain ⟨herror, hline⟩ := scan_escape_line "\"a\n\\q\""
  obtain ⟨hscan, -, hmore⟩ := hline _ _ _ hstops
  exact ⟨hstops, herror _ _ trivial hscan, hscan, hmore hlong ";\n"⟩

/-- The string is on the first line, and so is its escape; with a newline behind the string
the error is on the second line. -/
theorem escapeBeforeNewline_line :
    StopsAtEscape "\"\\q\"".toList ['"'] "q\"".toList (.invalidEscape 'q') ∧
      StopsAtEscape "\"\\q\"\n".toList ['"'] "q\"\n".toList (.invalidEscape 'q') ∧
      scan "\"\\q\"" = .error (.lex (1 + newlines ['"']) (.invalidEscape 'q')) ∧
      scan "\"\\q\"\n" = .error (.lex 2 (.invalidEscape 'q')) ∧ 2 ≠ 1 + newlines ['"'] := by
  have hfaulty : ∀ rest, FaultyPiece ('\\' :: 'q' :: rest) (.invalidEscape 'q') := fun _ => .letter (by decide)
  have hstops : StopsAtEscape "\"\\q\"".toList ['"'] "q\"".toList (.invalidEscape 'q') :=
    ⟨rfl, hfaulty _, [], [], [], 1, rfl, .start⟩
  have hnewline : StopsAtEscape "\"\\q\"\n".toList ['"'] "q\"\n".toList (.invalidEscape 'q') :=
    ⟨rfl, hfaulty _, [], [], [], 1, rfl, .start⟩
  exact ⟨hstops, hnewline, hstops.scan_eq, hnewline.scan_eq, by decide⟩

end CurriedScript
