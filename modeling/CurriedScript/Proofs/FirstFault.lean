import CurriedScript.Proofs.Delivered
import CurriedScript.Proofs.Lines
import CurriedScript.Proofs.OneAhead

/-!
# The token at which a program fails

The parser looks one token ahead and fails as late as it can: what a production has
read where it fails goes on to a text of the grammar, and so goes on to a program.
`parse_error_first`: the token of an error is the first that is in no program.
-/

namespace CurriedScript.Grammar

open CurriedScript.Parser

variable {tokens : List Token}

/-! ## Texts that go on -/

def Text {α : Type} (IsText : List Token → α → Prop) (ts : List Token) : Prop := ∃ x, IsText ts x

def IsParameters (ts : List Token) : Prop :=
  ∃ names bar, ts = names ++ [bar] ∧ names ≠ [] ∧ (∀ t ∈ names, t.kind = .bang ∨ t.kind = .identifier) ∧
    bar.kind = .pipe

def IsBody (ts : List Token) : Prop := ∃ ss, IsStatements ts ss ∧ ss ≠ []

def IsCasesEnd (ts : List Token) : Prop := ∃ us stop, ts = us ++ [stop] ∧ stop.kind = .endWord ∧ Text IsCases us

/-- A primary from behind its first token, which is of the kind. -/
def Closes (kind : TokenKind) (ts : List Token) : Prop :=
  ∀ opening : Token, opening.kind = kind → Text IsPrimary (opening :: ts)

theorem text_application {ts : List Token} {xs : List Expr} (h : IsElements ts xs) (hne : xs ≠ []) :
    Text IsApplication ts := by
  cases xs with
  | nil => exact absurd rfl hne
  | cons x others => exact ⟨_, applied_sound h⟩

theorem IsElements.snoc :
    ∀ {ts xs}, IsElements ts xs → ∀ {us x}, IsElement us x → IsElements (ts ++ us) (xs ++ [x])
  | _, _, .nil, us, _, h => by simpa using IsElements.cons h .nil
  | _, _, .cons h h', _, _, hx => by
    rw [List.append_assoc]
    exact .cons h (h'.snoc hx)

theorem IsElement.alone {ts : List Token} {x : Expr} (h : IsElement ts x) : IsElements ts [x] := by
  simpa using IsElements.cons h .nil

theorem IsStatement.alone {ts : List Token} {s : Statement} (h : IsStatement ts s) : IsStatements ts [s] := by
  simpa using IsStatements.cons h .nil

theorem isElements_stub : IsElements [stub .identifier] [⟨.name "x", []⟩] :=
  IsElement.alone (.plain (.name rfl))

theorem text_chain_stub : Text IsChain [stub .identifier] := by
  obtain ⟨_, h⟩ := text_application isElements_stub (by simp)
  exact ⟨_, .application h⟩

theorem IsApplication.snoc {ts : List Token} {x : Expr} (h : IsApplication ts x) :
    Text IsApplication (ts ++ [stub .identifier]) := by
  have hstub : IsElement [stub .identifier] ⟨.name "x", []⟩ := .plain (.name rfl)
  cases h with
  | alone h _ | call h _ | bangCall h _ => exact text_application (h.snoc hstub) (by simp)

/-- A chain goes on with a name, so a condition that would end in a type name need not. -/
theorem IsChain.snoc {ts : List Token} {x : Expr} (h : IsChain ts x) : Text IsChain (ts ++ [stub .identifier]) := by
  cases h with
  | application h =>
    obtain ⟨_, h⟩ := h.snoc
    exact ⟨_, .application h⟩
  | chain h ho h' =>
    obtain ⟨_, h'⟩ := h'.snoc
    rw [List.append_assoc]
    exact ⟨_, .chain h ho h'⟩

theorem isBody_stub : IsBody [stub .identifier, stub .semicolon] := by
  obtain ⟨_, h⟩ := text_chain_stub
  exact ⟨_, .cons (.expr h rfl) .nil, by simp⟩

theorem text_case {bar arrow : Token} {ts us : List Token} (hbar : bar.kind = .pipe) (hts : Text IsChain ts)
    (hend : ¬ EndsInType ts) (harrow : arrow.kind = .rightArrow) (hus : IsBody us) :
    Text IsCase (bar :: ts ++ arrow :: us) := by
  obtain ⟨_, hts⟩ := hts
  obtain ⟨_, hus, hne⟩ := hus
  exact ⟨_, .mk hbar hts hend harrow hus hne⟩

theorem IsCasesEnd.closes {ts : List Token} (h : IsCasesEnd ts) : Closes .condWord ts := by
  rintro opening ho
  obtain ⟨us, stop, rfl, hstop, _, hus⟩ := h
  exact ⟨_, .conditional ho hus hstop⟩

theorem closes_function {ts us : List Token} {closing : Token} (hts : IsParameters ts) (hus : IsBody us)
    (hclosing : closing.kind = .closeBrace) : Closes .openBrace (ts ++ (us ++ [closing])) := by
  rintro opening ho
  obtain ⟨names, bar, rfl, hne, hkinds, hbar⟩ := hts
  obtain ⟨_, hus, hss⟩ := hus
  have hfunction := IsPrimary.function ho hne hkinds hbar hus hss hclosing
  rw [List.append_assoc, List.cons_append] at hfunction
  exact ⟨_, by simpa using hfunction⟩

theorem viable_condition {bar : Token} {ts : List Token} (hbar : bar.kind = .pipe) (hts : Text IsChain ts) :
    Viable IsCasesEnd (bar :: ts) := by
  obtain ⟨_, hts⟩ := hts
  have hend : ¬ EndsInType (ts ++ [stub .identifier]) := by
    rw [endsInType_append (by simp), endsInType_singleton]
    simp
  obtain ⟨_, h⟩ := text_case hbar hts.snoc hend (stub_kind .rightArrow) isBody_stub
  exact ⟨[.identifier, .rightArrow, .identifier, .semicolon, .endWord], _, stub .endWord, by simp, rfl, _, .one h⟩

theorem viable_cases : Viable IsCasesEnd [] := by
  obtain ⟨kinds, h⟩ := viable_condition (stub_kind .pipe) text_chain_stub
  exact ⟨.pipe :: .identifier :: kinds, by simpa using h⟩

/-! ## What has been read -/

/-- What is read in front of the rest is settled by where the rest is. -/
theorem of_read {P : List Token → Prop} {ts rest : List Token} (htokens : tokens = ts ++ rest)
    (h : ∃ us, tokens = us ++ rest ∧ P us) : P ts := by
  obtain ⟨us, hus, hP⟩ := h
  rwa [List.append_cancel_right (htokens.symm.trans hus)]

theorem parameters_isParameters {names : List String} {rest : List Token}
    (h : plain (parameters tokens) = .ok (names, rest)) : ∃ ts, tokens = ts ++ rest ∧ IsParameters ts := by
  obtain ⟨ts, bar, rfl, hne, hkinds, hbar, _⟩ := parameters_sound h
  exact ⟨ts ++ [bar], by simp, ts, bar, rfl, hne, hkinds, hbar⟩

/-! ## Lists without expressions in them -/

theorem arrowTypes_oneAhead (tokens : List Token) :
    OneAhead (fun ts => ∀ t : Token, t.kind = .typename → Text IsSignature (t :: ts))
      (fun us => plain (arrowTypes us)) tokens := by
  refine .congr plain_arrowTypes (.next? (.pure _) fun arrow us htokens harrow => ?_)
  refine .expect ⟨[.typename], fun t ht => ⟨_, .more ht harrow (.one rfl)⟩⟩ fun first vs hus hfirst => ?_
  refine .bind (arrowTypes_oneAhead vs) (fun ts hts => .of fun t ht => ?_) fun _ _ _ _ _ => .pure _
  obtain ⟨_, h⟩ := hts first hfirst
  exact ⟨_, .more ht harrow h⟩
termination_by tokens.length

theorem signature_oneAhead (tokens : List Token) :
    OneAhead (Text IsSignature) (fun us => plain (signature us)) tokens := by
  refine .congr plain_signature (.expect ⟨[.typename], _, .one rfl⟩ fun first us _ hfirst => ?_)
  exact .bind (arrowTypes_oneAhead us) (fun ts hts => .of (hts first hfirst)) fun _ _ _ _ _ => .pure _

theorem parameters_oneAhead (tokens : List Token) :
    OneAhead IsParameters (fun us => plain (parameters us)) tokens := by
  have hnames : ∀ t ∈ tokens.takeWhile isParameter, isParameter t = true := fun t ht =>
    List.all_eq_true.mp List.all_takeWhile t ht
  have hstop : ∀ t ∈ (tokens.dropWhile isParameter).head?, isParameter t = false := fun t ht => by
    simpa [Option.mem_def.mp ht] using List.head?_dropWhile_not isParameter tokens
  rw [← List.takeWhile_append_dropWhile (p := isParameter) (l := tokens)]
  generalize tokens.takeWhile isParameter = names, tokens.dropWhile isParameter = rest at hnames hstop
  by_cases hne : names = []
  · subst hne
    have hX : Viable IsParameters [] := ⟨[.identifier, .pipe], [stub .identifier], _, rfl, by simp⟩
    refine .of_head (fun us hus => ?_) (.fail hX .missingParameters)
    exact (@plain_parameters_append [] us hnames (hus ▸ hstop)).trans (if_pos rfl)
  · have hkinds : ∀ t ∈ names, t.kind = .bang ∨ t.kind = .identifier := fun t ht => by
      simpa [isParameter] using hnames t ht
    have hsome : ¬ names.isEmpty = true := by simpa using hne
    refine .of_append (fun us hus => (plain_parameters_append hnames (hus ▸ hstop)).trans (if_neg hsome)) ?_
    exact .expect ⟨[.pipe], names, _, rfl, hne, hkinds, rfl⟩ fun _ _ _ _ => .pure _

/-! ## Productions -/

theorem primary?_opening {t : Token} {rest : List Token} {q : List Token → Except Error (Expr × List Token)}
    (hp : ∀ us, plain? (primary? (t :: us)) = do return some (← q us)) (h : OneAhead (Closes t.kind) q rest) :
    OneAhead (Text IsPrimary) (orNothing fun us => plain? (primary? us)) (t :: rest) := by
  have hq : ∀ us, orNothing (fun us => plain? (primary? us)) (t :: us) =
      q us >>= fun found => .ok (some found.1, found.2) := by
    intro us
    simp only [orNothing, hp]
    cases q us <;> rfl
  exact .cons hq (.bind h (fun ts hts => .of (hts t rfl)) fun expr _ _ _ _ => .pure (some expr))

theorem statements_of_head (ends : TokenKind → Bool) (tokens : List Token) :
    (∀ us, us.head? = tokens.head? → plain (statements ends us) = .ok ([], us)) ∨
    (∀ us, us.head? = tokens.head? → plain (statements ends us) = do
      let (first, rest) ← plain (statement us)
      let (others, rest) ← plain (statements ends rest)
      return (first :: others, rest)) := by
  cases tokens with
  | nil =>
    refine .inl fun us hus => ?_
    cases us <;> cases hus
    exact plain_statements_nil ends
  | cons t rest =>
    have hhead : ∀ us : List Token, us.head? = (t :: rest).head? → headKind us = some t.kind :=
      fun us hus => headKind_congr hus
    by_cases hk : (t.kind = .eof || ends t.kind) = true
    · exact .inl fun us hus => (plain_statements_of_head (hhead us hus)).trans (if_pos hk)
    · exact .inr fun us hus => (plain_statements_of_head (hhead us hus)).trans (if_neg hk)

-- What was read before a production goes on to a text with what the production reads: `sound`
-- says what it was. The measures are as in the productions, with the lengths of what is left.
mutual
theorem statement_oneAhead (tokens : List Token) :
    OneAhead (Text IsStatement) (fun us => plain (statement us)) tokens := by
  refine .congr plain_statement (.bind (clause_oneAhead tokens) ?_ fun s ts rest htokens hs => ?_)
  · exact fun ts hts => ⟨[.semicolon], hts _ rfl⟩
  have hts := of_read htokens (clause_sound (fun us _ => sound us) hs)
  exact .expect ⟨[.semicolon], _, hts _ rfl⟩ fun _ _ _ _ => .pure _
termination_by 16 * tokens.length + 5

/-- What can stand before the `;` of a statement. -/
theorem clause_oneAhead (tokens : List Token) :
    OneAhead (fun ts => ∀ stop : Token, stop.kind = .semicolon → Text IsStatement (ts ++ [stop]))
      (fun us => plain (clause us)) tokens := by
  refine .congr plain_clause (.next?_swap (fun word us _ hword => ?_) (.next?_swap (fun word us _ hword => ?_) ?_))
  · exact .expect ⟨[.string], fun _ hstop => ⟨_, .use hword rfl hstop⟩⟩ fun _ _ _ _ => .pure _
  · refine .bind (bindings_oneAhead us) (fun ts ⟨_, h⟩ => ?_) fun _ _ _ _ _ => .pure _
    exact .of fun _ hstop => ⟨_, .bind hword h hstop⟩
  · refine .bind (chain_oneAhead tokens) (fun ts ⟨_, h⟩ => ?_) fun _ _ _ _ _ => .pure _
    exact .of fun _ hstop => ⟨_, .expr h hstop⟩
termination_by 16 * tokens.length + 4

theorem bindings_oneAhead (tokens : List Token) :
    OneAhead (Text IsBindings) (fun us => plain (bindings us)) tokens := by
  refine .congr plain_bindings (.bind (binding_oneAhead tokens) ?_ fun b ts rest htokens hb => ?_)
  · exact fun ts ⟨_, h⟩ => .of ⟨_, .one h⟩
  have hlt := plain_rest hb
  have hts := of_read htokens (binding_sound (fun us _ => sound us) hb)
  refine .next? (.pure _) fun comma us hus hcomma => ?_
  refine .bind (bindings_oneAhead us) (fun us ⟨_, h⟩ => ?_) fun _ _ _ _ _ => .pure _
  exact .of ⟨_, .more hts hcomma h⟩
termination_by 16 * tokens.length + 1

theorem binding_oneAhead (tokens : List Token) :
    OneAhead (Text IsBinding) (fun us => plain (binding us)) tokens := by
  refine .congr plain_binding ?_
  obtain ⟨_, hstub⟩ := text_chain_stub
  cases hname : (next? .identifier tokens).or (next? .symbolic tokens) with
  | none =>
    obtain ⟨hid, hsym⟩ := Option.or_eq_none_iff.mp hname
    have hX : Viable (Text IsBinding) [] := ⟨[.identifier, .leftArrow, .identifier], _, .mk (.inl rfl) rfl hstub⟩
    refine .of_head (fun us hus => ?_) (.fail hX .notBindable)
    rw [next?_congr hus hid, next?_congr hus hsym]
    rfl
  | some found =>
    obtain ⟨name, rest⟩ := found
    obtain ⟨rfl, hkind⟩ := bindable_eq_some.mp hname
    refine .cons (fun us => by rw [bindable_eq_some.mpr ⟨rfl, hkind⟩]) (.expect ?_ fun arrow us _ harrow => ?_)
    · exact ⟨[.leftArrow, .identifier], _, .mk hkind rfl hstub⟩
    · exact .bind (chain_oneAhead us) (fun ts ⟨_, h⟩ => .of ⟨_, .mk hkind harrow h⟩) fun _ _ _ _ _ => .pure _
termination_by 16 * tokens.length

theorem chain_oneAhead (tokens : List Token) :
    OneAhead (Text IsChain) (fun us => plain (chain us)) tokens := by
  refine .congr plain_chain (.bind (application_oneAhead tokens) ?_ fun x ts rest htokens hx => ?_)
  · exact fun ts ⟨_, h⟩ => .of ⟨_, .application h⟩
  have hlt := plain_rest hx
  obtain ⟨hts, _⟩ := of_read htokens (application_sound (fun us _ => sound us) hx)
  refine .next? (.pure _) fun operator us hus hop => ?_
  refine .bind (chain_oneAhead us) (fun us ⟨_, h⟩ => ?_) fun _ _ _ _ _ => .pure _
  exact .of ⟨_, .chain hts hop h⟩
termination_by 16 * tokens.length + 3

theorem application_oneAhead (tokens : List Token) :
    OneAhead (Text IsApplication) (fun us => plain (application us)) tokens := by
  refine .congr plain_application (.bind? (element?_oneAhead tokens) ?_ (fun _ _ => rfl) ?_ ?_)
  · exact fun ts ⟨_, h⟩ => .of (text_application h.alone (by simp))
  · exact .fail ⟨[.identifier], text_application isElements_stub (by simp)⟩ _
  intro x ts rest htokens hx
  have hlt := plain?_rest hx
  obtain ⟨hts, _⟩ := of_read htokens (element_sound (fun us _ => sound us) hx)
  refine .bind (elements_oneAhead rest) (fun us ⟨_, h⟩ => ?_) fun _ _ _ _ _ => .pure _
  exact .of (text_application (.cons hts h) (by simp))
termination_by 16 * tokens.length + 2

theorem elements_oneAhead (tokens : List Token) :
    OneAhead (Text IsElements) (fun us => plain (elements us)) tokens := by
  refine .congr plain_elements (.bind? (element?_oneAhead tokens) ?_ (fun _ _ => rfl) (.pure _) ?_)
  · exact fun ts ⟨_, h⟩ => .of ⟨_, h.alone⟩
  intro x ts rest htokens hx
  have hlt := plain?_rest hx
  obtain ⟨hts, _⟩ := of_read htokens (element_sound (fun us _ => sound us) hx)
  refine .bind (elements_oneAhead rest) (fun us ⟨_, h⟩ => ?_) fun _ _ _ _ _ => .pure _
  exact .of ⟨_, .cons hts h⟩
termination_by 16 * tokens.length + 2

theorem element?_oneAhead (tokens : List Token) :
    OneAhead (Text IsElement) (orNothing fun us => plain? (element? us)) tokens := by
  refine .congr orNothing_element? (.bind? (primary?_oneAhead tokens) ?_ (fun _ _ => rfl) (.pure _) ?_)
  · exact fun ts ⟨_, h⟩ => .of ⟨_, .plain h⟩
  rintro ⟨form, earlier⟩ ts rest htokens hx
  have hts := of_read htokens (primary_sound (fun us _ => sound us) hx)
  refine .next? (.pure _) fun colon us _ hcolon => ?_
  refine .bind (signature_oneAhead us) (fun us ⟨_, h⟩ => ?_) fun _ _ _ _ _ => .pure _
  exact .of ⟨_, .typed hts hcolon h⟩
termination_by 16 * tokens.length + 1

theorem primary?_oneAhead (tokens : List Token) :
    OneAhead (Text IsPrimary) (orNothing fun us => plain? (primary? us)) tokens := by
  cases tokens with
  | nil =>
    refine .of_head (fun us hus => orNothing_none ?_) (.pure none)
    cases us <;> cases hus
    exact plain_primary?_nil
  | cons t rest =>
    have hX : Viable (Text IsPrimary) [] := ⟨[.identifier], _, .name rfl⟩
    cases hk : t.kind with
    | openBrace =>
      refine primary?_opening (fun us => ?_) (hk ▸ function_oneAhead rest)
      rw [plain_primary?_cons, hk]
    | openParen =>
      refine primary?_opening (fun us => ?_) (hk ▸ group_oneAhead rest)
      rw [plain_primary?_cons, hk]
    | condWord =>
      refine primary?_opening (fun us => ?_) (hk ▸ conditional_oneAhead rest)
      rw [plain_primary?_cons, hk]
    | string | integer | float =>
      cases hl : t.literal with
      | some literal =>
        refine .cons (fun us => orNothing_some ?_) (.pure (some (Form.literal literal).bare))
        simp only [plain_primary?_cons, hk, hl]
      | none =>
        refine .of_head (of_head?_cons fun us => orNothing_error ?_) (.fail hX .literalWithoutValue)
        simp only [plain_primary?_cons, hk, hl]
    | identifier =>
      refine .cons (fun us => orNothing_some ?_) (.pure (some (Form.name t.lexeme).bare))
      rw [plain_primary?_cons, hk]
    | builtin =>
      refine .cons (fun us => orNothing_some ?_) (.pure (some (Form.builtin t.text).bare))
      rw [plain_primary?_cons, hk]
    | bang =>
      refine .of_head (of_head?_cons fun us => orNothing_error ?_) (.fail hX .loneBang)
      rw [plain_primary?_cons, hk]
    | _ =>
      refine .of_head (of_head?_cons fun us => orNothing_none ?_) (.pure none)
      rw [plain_primary?_cons, hk]
termination_by 16 * tokens.length

theorem group_oneAhead (tokens : List Token) :
    OneAhead (Closes .openParen) (fun us => plain (group us)) tokens := by
  refine .congr plain_group (.next?_swap (fun operator us _ hop => ?_) ?_)
  · exact .expect ⟨[.closeParen], fun _ ho => ⟨_, .operator ho hop rfl⟩⟩ fun _ _ _ _ => .pure _
  · refine .bind (chain_oneAhead tokens) (fun ts ⟨_, h⟩ => ?_) fun x ts rest htokens hx => ?_
    · exact ⟨[.closeParen], fun _ ho => ⟨_, .group ho h rfl⟩⟩
    obtain ⟨hts, _⟩ := of_read htokens (chain_sound (fun us _ => sound us) hx)
    exact .expect ⟨[.closeParen], fun _ ho => ⟨_, .group ho hts rfl⟩⟩ fun _ _ _ _ => .pure _
termination_by 16 * tokens.length + 4

theorem function_oneAhead (tokens : List Token) :
    OneAhead (Closes .openBrace) (fun us => plain (function us)) tokens := by
  refine .congr plain_function (.bind (parameters_oneAhead tokens) ?_ fun names ts rest htokens hnames => ?_)
  · exact fun ts hts => ⟨[.identifier, .semicolon, .closeBrace], closes_function hts isBody_stub rfl⟩
  have hlt := plain_rest hnames
  have hts : IsParameters ts := of_read htokens (parameters_isParameters hnames)
  refine .bind (body_oneAhead endsFunction .emptyFunctionBody rest) ?_ fun ss us rest' hrest hss => ?_
  · exact fun us hus => ⟨[.closeBrace], closes_function hts hus rfl⟩
  have hus : IsBody us := ⟨_, of_read hrest (body_sound (sound _) hss)⟩
  exact .expect ⟨[.closeBrace], closes_function hts hus rfl⟩ fun _ _ _ _ => .pure _
termination_by 16 * tokens.length

theorem body_oneAhead (ends : TokenKind → Bool) (empty : ParseFault) (tokens : List Token) :
    OneAhead IsBody (fun us => plain (body ends empty us)) tokens := by
  obtain h | h := statements_of_head ends tokens
  · refine .of_head (fun us hus => ?_) (.fail ⟨[.identifier, .semicolon], isBody_stub⟩ empty)
    rw [plain_body, h us hus]
    rfl
  · refine .of_head (fun us hus => ?_) (someStatements_oneAhead ends tokens)
    rw [plain_body, h us hus]
    cases plain (statement us) with
    | error e => rfl
    | ok found => cases hs : plain (statements ends found.2) <;> simp only [ok_bind, hs] <;> rfl
termination_by 16 * tokens.length + 7

theorem statements_oneAhead (ends : TokenKind → Bool) (tokens : List Token) :
    OneAhead (Text IsStatements) (fun us => plain (statements ends us)) tokens := by
  obtain h | h := statements_of_head ends tokens
  · exact .of_head h (.pure [])
  · exact .of_head h ((someStatements_oneAhead ends tokens).mono fun ts ⟨ss, h, _⟩ => ⟨ss, h⟩)
termination_by 16 * tokens.length + 7

/-- What bodies and lists of statements are where a statement begins. -/
theorem someStatements_oneAhead (ends : TokenKind → Bool) (tokens : List Token) :
    OneAhead IsBody (fun us => do
      let (first, rest) ← plain (statement us)
      let (others, rest) ← plain (statements ends rest)
      return (first :: others, rest)) tokens := by
  refine .bind (statement_oneAhead tokens) (fun ts ⟨_, h⟩ => ?_) fun s ts rest htokens hs => ?_
  · exact .of ⟨_, h.alone, by simp⟩
  have hlt := plain_rest hs
  have hts := of_read htokens (statement_sound (fun us _ => sound us) hs)
  refine .bind (statements_oneAhead ends rest) (fun us ⟨_, h⟩ => ?_) fun _ _ _ _ _ => .pure _
  exact .of ⟨_, .cons hts h, by simp⟩
termination_by 16 * tokens.length + 6

theorem conditional_oneAhead (tokens : List Token) :
    OneAhead (Closes .condWord) (fun us => plain (conditional us)) tokens := by
  have hX : ∀ us, IsCasesEnd us → Viable (Closes .condWord) us := fun us hus => .of hus.closes
  cases hend : next? .endWord tokens with
  | some found =>
    obtain ⟨stop, rest⟩ := found
    obtain ⟨rfl, hstop⟩ := next?_eq_some.mp hend
    refine .of_head (of_head?_cons fun us => ?_) (.fail (viable_cases.trans hX) .missingCases)
    rw [plain_conditional, next?_eq_some.mpr ⟨rfl, hstop⟩]
    rfl
  | none =>
    have hp : ∀ us, us.head? = tokens.head? → plain (conditional us) = (do
        let (cases, rest) ← plain (cases us)
        return ((Form.conditional cases).bare, rest)) := fun us hus => by
      rw [plain_conditional, next?_congr hus hend]
      rfl
    exact .of_head hp (.bind (cases_oneAhead tokens) hX fun _ _ _ _ _ => .pure _)
termination_by 16 * tokens.length + 1

theorem cases_oneAhead (tokens : List Token) :
    OneAhead IsCasesEnd (fun us => plain (cases us)) tokens := by
  refine .congr plain_cases (.expect viable_cases fun bar us hus hbar => ?_)
  refine .bind (chain_oneAhead us) (fun ts hts => viable_condition hbar hts) fun x ts rest htokens hx => ?_
  have hlt := plain_rest hx
  obtain ⟨hts, htake⟩ := of_read htokens (chain_sound (fun us _ => sound us) hx)
  refine .expect (viable_condition hbar ⟨_, hts⟩) fun arrow vs hvs harrow => ?_
  have hend : ¬ EndsInType ts := fun he => htake he (by simp [headKind, hvs, harrow])
  refine .bind (body_oneAhead endsCase .emptyCaseBody vs) (fun us hus => ?_) fun ss us zs hzs hss => ?_
  · obtain ⟨_, h⟩ := text_case hbar ⟨_, hts⟩ hend harrow hus
    exact ⟨[.endWord], _, stub .endWord, by simp, rfl, _, .one h⟩
  have hle := plain_rest hss
  obtain ⟨hbody, hne⟩ := of_read hzs (body_sound (sound _) hss)
  obtain ⟨_, hcase⟩ := text_case hbar ⟨_, hts⟩ hend harrow ⟨_, hbody, hne⟩
  refine .next?_swap (fun stop us _ hstop => .pure _) ?_
  refine .bind (cases_oneAhead zs) ?_ fun _ _ _ _ _ => .pure _
  rintro _ ⟨ts, stop, rfl, hstop, _, hts⟩
  exact .of ⟨_, stop, by simp, hstop, _, .more hcase hts⟩
termination_by 16 * tokens.length
end

/-! ## The end of the program -/

/-- What goes on to the text of a program goes on to one with its end. -/
theorem Delivered.of_viable {before after : List Token} (h : Delivered (before ++ after))
    (hviable : Viable (Text IsStatements) before) :
    ∃ more program, Delivered (before ++ more) ∧ parse (before ++ more) = .ok program := by
  obtain ⟨kinds, program, hprogram⟩ := hviable
  refine ⟨kinds.map stub ++ [.eof 0], program, ⟨?_, fun t ht hkind => ?_⟩, ?_⟩
  · exact ⟨before ++ kinds.map stub, .eof 0, by rw [List.append_assoc], hprogram.noEof, rfl⟩
  · simp only [List.mem_append, List.mem_map, List.mem_singleton] at ht
    rcases ht with ht | ⟨_, _, rfl⟩ | rfl
    · exact h.literals t (by simp [ht]) hkind
    · rfl
    · simp [IsLiteral, Token.eof] at hkind
  · rw [parse_eq_ok, ← List.append_assoc]
    exact ⟨_, hprogram.complete (fun _ => false) [.eof 0] (by simp) (by simp [headKind, Token.eof])⟩

/-- **The token of a syntax error is the first that is in no program.** The tokens before
it go on to a program, and with it every list has the same error. -/
theorem parse_error_first (htokens : Delivered tokens) {e : Error} (h : parse tokens = .error e) :
    ∃ before t after fault, tokens = before ++ t :: after ∧
      e = .parse t.line (if t.kind = .eof then "<eof>" else t.lexeme) fault ∧
      (∃ more program, Delivered (before ++ more) ∧ parse (before ++ more) = .ok program) ∧
      ∀ more, parse (before ++ t :: more) = .error e := by
  have hfirst : plain (statements (fun _ => false) tokens) = .error e := by
    rw [parse_eq] at h
    cases hm : plain (statements (fun _ => false) tokens) with
    | error e' => rw [hm] at h; cases h; rfl
    | ok found => rw [hm] at h; cases h
  obtain ⟨before, rest, fault, rfl, he, hviable, hlocal⟩ :=
    (statements_oneAhead (fun _ => false) tokens).error hfirst
  cases rest with
  | nil =>
    -- what goes on to a text has no end in it
    obtain ⟨front, eof, heq, _, heof⟩ := htokens.ended
    obtain ⟨_, _, hprogram⟩ := hviable
    rw [List.append_nil] at heq
    exact absurd heof (hprogram.noEof eof (by simp [heq]))
  | cons t after =>
    refine ⟨before, t, after, fault, rfl, he, htokens.of_viable hviable, fun more => ?_⟩
    rw [parse_eq, hlocal (t :: more) rfl]
    rfl

set_option maxRecDepth 2000 in
/-- A function in a case in which `end` comes before the `;` of a statement. -/
theorem endInFunction_error_first :
    ∃ tokens, scan "cond | x ->\n \x7b y | f y end;" = .ok tokens ∧
      parse tokens = .error (.parse 2 "end" .missingSemicolon) ∧
      ∃ before t after fault, tokens = before ++ t :: after ∧
        Error.parse 2 "end" .missingSemicolon =
          .parse t.line (if t.kind = .eof then "<eof>" else t.lexeme) fault ∧
        (∃ more program, Delivered (before ++ more) ∧ parse (before ++ more) = .ok program) ∧
        ∀ more, parse (before ++ t :: more) = .error (.parse 2 "end" .missingSemicolon) := by
  have hscan : scan "cond | x ->\n \x7b y | f y end;" = .ok [⟨.condWord, "cond", none, 1⟩,
      ⟨.pipe, "|", none, 1⟩, ⟨.identifier, "x", none, 1⟩, ⟨.rightArrow, "->", none, 1⟩,
      ⟨.openBrace, "\x7b", none, 2⟩,
      ⟨.identifier, "y", none, 2⟩, ⟨.pipe, "|", none, 2⟩, ⟨.identifier, "f", none, 2⟩,
      ⟨.identifier, "y", none, 2⟩, ⟨.endWord, "end", none, 2⟩, ⟨.semicolon, ";", none, 2⟩, .eof 2] := by
    cbv
  refine ⟨_, hscan, ?error, parse_error_first (scan_delivered hscan) ?error⟩
  cbv

end CurriedScript.Grammar
