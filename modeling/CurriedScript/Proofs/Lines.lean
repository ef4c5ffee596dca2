import CurriedScript.Proofs.Productions
import CurriedScript.Proofs.Seams

/-!
# Programs further down

`scanFrom_down` and `parse_down`: a text that starts some lines further down has
the same tokens and is the same program, or has the same error, that many lines
further down. Nothing else of a program depends on lines.
-/

namespace CurriedScript

def Token.down (k : Nat) (t : Token) : Token := { t with line := t.line + k }

def Error.down (k : Nat) : Error → Error
  | .lex line fault => .lex (line + k) fault
  | .parse line lexeme fault => .parse (line + k) lexeme fault
  | e => e

@[simp] theorem Token.down_kind (k : Nat) (t : Token) : (t.down k).kind = t.kind := rfl

@[simp] theorem Token.down_lexeme (k : Nat) (t : Token) : (t.down k).lexeme = t.lexeme := rfl

@[simp] theorem Token.down_literal (k : Nat) (t : Token) : (t.down k).literal = t.literal := rfl

@[simp] theorem Token.down_text (k : Nat) (t : Token) : (t.down k).text = t.text := rfl

theorem faultLine_down (k : Nat) (fault : LexFault) (line : Nat) (text : List Char) :
    faultLine fault (line + k) text = faultLine fault line text + k := by
  cases fault with
  | unterminatedString | unterminatedComment | invalidEscape | truncatedEscape | invalidCodePoint =>
    exact Nat.add_right_comm line k (newlines text)
  | _ => rfl

theorem scanFrom_down (k line : Nat) (text : List Char) :
    scanFrom (line + k) text =
      match scanFrom line text with
      | .ok tokens => .ok (tokens.map (Token.down k))
      | .error e => .error (e.down k) := by
  fun_induction scanFrom line text with
  | case1 line =>
    rw [scanFrom]
    rfl
  | case2 line c cs piece rest hstep _ ih =>
    rw [scanFrom_skip hstep, Nat.add_right_comm, ih]
  | case3 line c cs kind literal lexeme rest hstep _ ih =>
    rw [scanFrom_token hstep, Nat.add_right_comm, ih]
    cases scanFrom (line + newlines lexeme) rest <;> rfl
  | case4 line c cs fault hstep =>
    rw [scanFrom_fault hstep, faultLine_down]
    rfl

namespace Parser

variable {α β : Type} {k : Nat} {tokens rest : List Token}

def Ended (tokens : List Token) : Prop := ∃ t ∈ tokens, t.kind = .eof

theorem Ended.tail {t : Token} (h : Ended (t :: rest)) (ht : t.kind ≠ .eof) : Ended rest := by
  obtain ⟨u, hu, hk⟩ := h
  rcases List.mem_cons.mp hu with rfl | hu
  · exact absurd hk ht
  · exact ⟨u, hu, hk⟩

theorem Ended.next {kind : TokenKind} {t : Token} (h : Ended tokens) (hnext : next? kind tokens = some (t, rest))
    (hk : kind ≠ .eof) : rest.length < tokens.length ∧ Ended rest := by
  obtain ⟨rfl, hkind⟩ := next?_eq_some.mp hnext
  exact ⟨by simp, h.tail (hkind ▸ hk)⟩

theorem Ended.dropParameters (h : Ended tokens) : Ended (tokens.dropWhile isParameter) := by
  obtain ⟨t, ht, hk⟩ := h
  rw [← List.takeWhile_append_dropWhile (p := isParameter) (l := tokens)] at ht
  rcases List.mem_append.mp ht with ht | ht
  · have hp := List.all_eq_true.mp List.all_takeWhile t ht
    simp [isParameter, hk] at hp
  · exact ⟨t, ht, hk⟩

/-- Two results of a production, of which the second is some lines further down. -/
inductive Moved (k : Nat) : Except Error (α × List Token) → Except Error (α × List Token) → Prop
  | ok (a : α) {rest : List Token} : Ended rest → Moved k (.ok (a, rest)) (.ok (a, rest.map (Token.down k)))
  | error (e : Error) : Moved k (.error e) (.error (e.down k))

inductive Moved? (k : Nat) : Except Error (Option (α × List Token)) → Except Error (Option (α × List Token)) → Prop
  | nothing : Moved? k (.ok none) (.ok none)
  | found (a : α) {rest : List Token} :
    Ended rest → Moved? k (.ok (some (a, rest))) (.ok (some (a, rest.map (Token.down k))))
  | error (e : Error) : Moved? k (.error e) (.error (e.down k))

section
variable {T : Except Error β → Except Error β → Prop} {P : List Token → Prop}
  (herror : ∀ e, T (.error e) (.error (e.down k)))
include herror

theorem Moved.bind {m : Except Error (α × { rest : List Token // P rest })} {m' : Except Error (α × List Token)}
    {f f' : α × List Token → Except Error β} (h : Moved k (plain m) m')
    (hf : ∀ a rest, P rest → Ended rest → T (f (a, rest)) (f' (a, rest.map (Token.down k)))) :
    T (plain m >>= f) (m' >>= f') := by
  cases m with
  | error e => cases h; exact herror e
  | ok found =>
    obtain ⟨a, rest, hrest⟩ := found
    cases h with
    | ok _ hended => exact hf a rest hrest hended

theorem Moved?.bind {m : Except Error (Option (α × { rest : List Token // P rest }))}
    {m' : Except Error (Option (α × List Token))} {f f' : Option (α × List Token) → Except Error β}
    (h : Moved? k (plain? m) m') (hnone : T (f none) (f' none))
    (hf : ∀ a rest, P rest → Ended rest → T (f (some (a, rest))) (f' (some (a, rest.map (Token.down k))))) :
    T (plain? m >>= f) (m' >>= f') := by
  cases m with
  | error e => cases h; exact herror e
  | ok found =>
    cases found with
    | none => cases h; exact hnone
    | some found =>
      obtain ⟨a, rest, hrest⟩ := found
      cases h with
      | found _ hended => exact hf a rest hrest hended

end

theorem next?_down (k : Nat) (kind : TokenKind) (tokens : List Token) :
    next? kind (tokens.map (Token.down k)) =
      (next? kind tokens).map fun found => (found.1.down k, found.2.map (Token.down k)) := by
  cases tokens with
  | nil => rfl
  | cons t rest => by_cases h : t.kind = kind <;> simp [next?, h]

theorem faultAt_down (h : Ended tokens) (fault : ParseFault) :
    faultAt (tokens.map (Token.down k)) fault = (faultAt tokens fault).down k := by
  cases tokens with
  | nil => obtain ⟨t, ht, _⟩ := h; cases ht
  | cons t rest => rfl

theorem expect_moved {kind : TokenKind} {fault : ParseFault}
    {f f' : Token × List Token → Except Error (β × List Token)} (hk : kind ≠ .eof) (h : Ended tokens)
    (hf : ∀ t rest, rest.length < tokens.length → Ended rest →
      Moved k (f (t, rest)) (f' (t.down k, rest.map (Token.down k)))) :
    Moved k (plain (expect kind fault tokens) >>= f)
      (plain (expect kind fault (tokens.map (Token.down k))) >>= f') := by
  rw [plain_expect, plain_expect, next?_down]
  cases hnext : next? kind tokens with
  | none =>
    dsimp only [Option.map]
    rw [faultAt_down h]
    exact .error _
  | some found =>
    obtain ⟨t, rest⟩ := found
    obtain ⟨hlt, hended⟩ := h.next hnext hk
    exact hf t rest hlt hended

/-! ## Lists without expressions in them -/

theorem arrowTypes_moved (tokens : List Token) (h : Ended tokens) :
    Moved k (plain (arrowTypes tokens)) (plain (arrowTypes (tokens.map (Token.down k)))) := by
  rw [plain_arrowTypes, plain_arrowTypes, next?_down]
  cases hnext : next? .rightArrow tokens with
  | none => exact .ok [] h
  | some found =>
    obtain ⟨_, rest⟩ := found
    obtain ⟨hlt, hended⟩ := h.next hnext (by simp)
    refine expect_moved (by simp) hended fun first rest' hlt' hended => ?_
    exact (arrowTypes_moved rest' hended).bind .error fun others rest _ hended => .ok _ hended
termination_by tokens.length

theorem signature_moved (h : Ended tokens) :
    Moved k (plain (signature tokens)) (plain (signature (tokens.map (Token.down k)))) := by
  rw [plain_signature, plain_signature]
  refine expect_moved (by simp) h fun first rest _ hended => ?_
  exact (arrowTypes_moved rest hended).bind .error fun others rest _ hended => .ok _ hended

theorem parameters_moved (h : Ended tokens) :
    Moved k (plain (parameters tokens)) (plain (parameters (tokens.map (Token.down k)))) := by
  have hp : isParameter ∘ Token.down k = isParameter := rfl
  rw [plain_parameters, plain_parameters, List.takeWhile_map, List.dropWhile_map, hp]
  simp only [List.isEmpty_map, List.map_map]
  split
  · rw [faultAt_down h]
    exact .error _
  · exact expect_moved (by simp) h.dropParameters fun _ rest _ hended => .ok _ hended

/-! ## Productions -/

mutual
theorem statement_moved (tokens : List Token) (h : Ended tokens) :
    Moved k (plain (statement tokens)) (plain (statement (tokens.map (Token.down k)))) := by
  rw [plain_statement, plain_statement]
  refine (clause_moved tokens h).bind .error fun statement rest _ hended => ?_
  exact expect_moved (by simp) hended fun _ _ _ hended => .ok _ hended
termination_by 16 * tokens.length + 5

theorem clause_moved (tokens : List Token) (h : Ended tokens) :
    Moved k (plain (clause tokens)) (plain (clause (tokens.map (Token.down k)))) := by
  rw [plain_clause, plain_clause, next?_down, next?_down]
  cases huse : next? .useWord tokens with
  | some found =>
    obtain ⟨_, rest⟩ := found
    obtain ⟨_, hended⟩ := h.next huse (by simp)
    exact expect_moved (by simp) hended fun _ _ _ hended => .ok _ hended
  | none =>
    cases hlet : next? .letWord tokens with
    | some found =>
      obtain ⟨_, rest⟩ := found
      obtain ⟨hlt, hended⟩ := h.next hlet (by simp)
      exact (bindings_moved rest hended).bind .error fun _ _ _ hended => .ok _ hended
    | none => exact (chain_moved tokens h).bind .error fun _ _ _ hended => .ok _ hended
termination_by 16 * tokens.length + 4

theorem bindings_moved (tokens : List Token) (h : Ended tokens) :
    Moved k (plain (bindings tokens)) (plain (bindings (tokens.map (Token.down k)))) := by
  rw [plain_bindings, plain_bindings]
  refine (binding_moved tokens h).bind .error fun first rest hlt hended => ?_
  dsimp only
  rw [next?_down]
  cases hnext : next? .comma rest with
  | none => exact .ok _ hended
  | some found =>
    obtain ⟨_, us⟩ := found
    obtain ⟨hlt', hended⟩ := hended.next hnext (by simp)
    exact (bindings_moved us hended).bind .error fun _ _ _ hended => .ok _ hended
termination_by 16 * tokens.length + 1

theorem binding_moved (tokens : List Token) (h : Ended tokens) :
    Moved k (plain (binding tokens)) (plain (binding (tokens.map (Token.down k)))) := by
  rw [plain_binding, plain_binding, next?_down, next?_down, ← Option.map_or]
  cases hname : (next? .identifier tokens).or (next? .symbolic tokens) with
  | none =>
    dsimp only [Option.map]
    rw [faultAt_down h]
    exact .error _
  | some found =>
    obtain ⟨name, rest⟩ := found
    have hrest : rest.length < tokens.length ∧ Ended rest := by
      rcases Option.or_eq_some_iff.mp hname with hname | ⟨_, hname⟩
      · exact h.next hname (by simp)
      · exact h.next hname (by simp)
    refine expect_moved (by simp) hrest.2 fun _ rest' hlt hended => ?_
    exact (chain_moved rest' hended).bind .error fun _ _ _ hended => .ok _ hended
termination_by 16 * tokens.length

theorem chain_moved (tokens : List Token) (h : Ended tokens) :
    Moved k (plain (chain tokens)) (plain (chain (tokens.map (Token.down k)))) := by
  rw [plain_chain, plain_chain]
  refine (application_moved tokens h).bind .error fun left rest hlt hended => ?_
  dsimp only
  rw [next?_down]
  cases hnext : next? .symbolic rest with
  | none => exact .ok _ hended
  | some found =>
    obtain ⟨operator, us⟩ := found
    obtain ⟨hlt', hended⟩ := hended.next hnext (by simp)
    exact (chain_moved us hended).bind .error fun _ _ _ hended => .ok _ hended
termination_by 16 * tokens.length + 3

theorem application_moved (tokens : List Token) (h : Ended tokens) :
    Moved k (plain (application tokens)) (plain (application (tokens.map (Token.down k)))) := by
  rw [plain_application, plain_application]
  refine (element?_moved tokens h).bind .error ?_ fun first rest hlt hended => ?_
  · dsimp only
    rw [faultAt_down h]
    exact .error _
  · exact (elements_moved rest hended).bind .error fun _ _ _ hended => .ok _ hended
termination_by 16 * tokens.length + 2

theorem elements_moved (tokens : List Token) (h : Ended tokens) :
    Moved k (plain (elements tokens)) (plain (elements (tokens.map (Token.down k)))) := by
  rw [plain_elements, plain_elements]
  refine (element?_moved tokens h).bind .error (.ok _ h) fun first rest hlt hended => ?_
  exact (elements_moved rest hended).bind .error fun _ _ _ hended => .ok _ hended
termination_by 16 * tokens.length + 2

theorem element?_moved (tokens : List Token) (h : Ended tokens) :
    Moved? k (plain? (element? tokens)) (plain? (element? (tokens.map (Token.down k)))) := by
  rw [plain_element?, plain_element?]
  refine (primary?_moved tokens h).bind .error .nothing fun expr rest hlt hended => ?_
  dsimp only
  rw [next?_down]
  cases hnext : next? .colon rest with
  | none => exact .found _ hended
  | some found =>
    obtain ⟨_, us⟩ := found
    obtain ⟨_, hended⟩ := hended.next hnext (by simp)
    exact (signature_moved hended).bind .error fun _ _ _ hended => .found _ hended
termination_by 16 * tokens.length + 1

theorem primary?_moved (tokens : List Token) (h : Ended tokens) :
    Moved? k (plain? (primary? tokens)) (plain? (primary? (tokens.map (Token.down k)))) := by
  cases tokens with
  | nil => obtain ⟨t, ht, _⟩ := h; cases ht
  | cons t rest =>
    rw [List.map_cons, plain_primary?_cons, plain_primary?_cons, Token.down_kind, Token.down_lexeme,
      Token.down_text,
      Token.down_literal]
    have hrest : t.kind ≠ .eof → Ended rest := h.tail
    cases hk : t.kind with
    | openBrace =>
      exact (function_moved rest (hrest (by simp [hk]))).bind .error fun _ _ _ hended => .found _ hended
    | openParen => exact (group_moved rest (hrest (by simp [hk]))).bind .error fun _ _ _ hended => .found _ hended
    | condWord =>
      exact (conditional_moved rest (hrest (by simp [hk]))).bind .error fun _ _ _ hended => .found _ hended
    | string | integer | float =>
      cases t.literal with
      | some literal => exact .found _ (hrest (by simp [hk]))
      | none => exact .error _
    | identifier | builtin => exact .found _ (hrest (by simp [hk]))
    | bang => exact .error _
    | _ => exact .nothing
termination_by 16 * tokens.length

theorem group_moved (tokens : List Token) (h : Ended tokens) :
    Moved k (plain (group tokens)) (plain (group (tokens.map (Token.down k)))) := by
  rw [plain_group, plain_group, next?_down]
  cases hnext : next? .symbolic tokens with
  | some found =>
    obtain ⟨operator, rest⟩ := found
    obtain ⟨_, hended⟩ := h.next hnext (by simp)
    exact expect_moved (by simp) hended fun _ _ _ hended => .ok _ hended
  | none =>
    refine (chain_moved tokens h).bind .error fun expr rest _ hended => ?_
    exact expect_moved (by simp) hended fun _ _ _ hended => .ok _ hended
termination_by 16 * tokens.length + 4

theorem function_moved (tokens : List Token) (h : Ended tokens) :
    Moved k (plain (function tokens)) (plain (function (tokens.map (Token.down k)))) := by
  rw [plain_function, plain_function]
  refine (parameters_moved h).bind .error fun names rest hlt hended => ?_
  refine (body_moved endsFunction .emptyFunctionBody rest hended).bind .error fun body rest' _ hended => ?_
  exact expect_moved (by simp) hended fun _ _ _ hended => .ok _ hended
termination_by 16 * tokens.length

theorem body_moved (ends : TokenKind → Bool) (empty : ParseFault) (tokens : List Token) (h : Ended tokens) :
    Moved k (plain (body ends empty tokens)) (plain (body ends empty (tokens.map (Token.down k)))) := by
  rw [plain_body, plain_body]
  refine (statements_moved ends tokens h).bind .error fun statements rest _ hended => ?_
  dsimp only
  split
  · rw [faultAt_down h]
    exact .error _
  · exact .ok _ hended
termination_by 16 * tokens.length + 7

theorem statements_moved (ends : TokenKind → Bool) (tokens : List Token) (h : Ended tokens) :
    Moved k (plain (statements ends tokens)) (plain (statements ends (tokens.map (Token.down k)))) := by
  cases tokens with
  | nil => obtain ⟨t, ht, _⟩ := h; cases ht
  | cons t rest =>
    rw [List.map_cons, plain_statements_cons, plain_statements_cons, Token.down_kind]
    split
    · exact .ok [] h
    · refine (statement_moved (t :: rest) h).bind .error fun first us hlt hended => ?_
      exact (statements_moved ends us hended).bind .error fun _ _ _ hended => .ok _ hended
termination_by 16 * tokens.length + 6

theorem conditional_moved (tokens : List Token) (h : Ended tokens) :
    Moved k (plain (conditional tokens)) (plain (conditional (tokens.map (Token.down k)))) := by
  rw [plain_conditional, plain_conditional, next?_down, Option.isSome_map]
  split
  · rw [faultAt_down h]
    exact .error _
  · exact (cases_moved tokens h).bind .error fun _ _ _ hended => .ok _ hended
termination_by 16 * tokens.length + 1

theorem cases_moved (tokens : List Token) (h : Ended tokens) :
    Moved k (plain (cases tokens)) (plain (cases (tokens.map (Token.down k)))) := by
  rw [plain_cases, plain_cases]
  refine expect_moved (by simp) h fun _ rest₁ hlt₁ hended => ?_
  refine (chain_moved rest₁ hended).bind .error fun condition rest₂ hlt₂ hended => ?_
  refine expect_moved (by simp) hended fun _ rest₃ hlt₃ hended => ?_
  refine (body_moved endsCase .emptyCaseBody rest₃ hended).bind .error fun body rest₄ hle₄ hended => ?_
  dsimp only
  rw [next?_down]
  cases hnext : next? .endWord rest₄ with
  | some found =>
    obtain ⟨_, rest⟩ := found
    exact .ok _ (hended.next hnext (by simp)).2
  | none => exact (cases_moved rest₄ hended).bind .error fun _ _ _ hended => .ok _ hended
termination_by 16 * tokens.length
end

end Parser

open CurriedScript.Parser

theorem parse_down (k : Nat) {tokens : List Token} (h : Ended tokens) :
    parse (tokens.map (Token.down k)) =
      match parse tokens with
      | .ok program => .ok program
      | .error e => .error (e.down k) := by
  have hmoved := statements_moved (k := k) (fun _ => false) tokens h
  rw [parse_eq, parse_eq]
  generalize plain (statements (fun _ => false) tokens) = m at hmoved ⊢
  generalize plain (statements (fun _ => false) (tokens.map (Token.down k))) = m' at hmoved ⊢
  cases hmoved <;> rfl

end CurriedScript
