import CurriedScript.Program.Parser

/-!
# Productions without bounds

The productions carry a proof that they leave less than they were given. Here
each has its equation for the bare list that it leaves, which is what proofs
about the parser rewrite with.
-/

namespace CurriedScript.Parser

variable {α β γ δ : Type} {P : List Token → Prop}

def plain (result : Except Error (α × { rest : List Token // P rest })) : Except Error (α × List Token) :=
  result.map fun found => (found.1, found.2.1)

def plain? (result : Except Error (Option (α × { rest : List Token // P rest }))) :
    Except Error (Option (α × List Token)) :=
  result.map (Option.map fun found => (found.1, found.2.1))

theorem plain_rest {rest : List Token} {a : α} {m : Except Error (α × { rest : List Token // P rest })}
    (h : plain m = .ok (a, rest)) : P rest := by
  cases m with
  | error e => cases h
  | ok found => cases h; exact found.2.2

theorem plain?_rest {rest : List Token} {a : α} {m : Except Error (Option (α × { rest : List Token // P rest }))}
    (h : plain? m = .ok (some (a, rest))) : P rest := by
  cases m with
  | error e => cases h
  | ok found =>
    cases found with
    | none => cases h
    | some found => cases h; exact found.2.2

def headKind (tokens : List Token) : Option TokenKind := tokens.head?.map (·.kind)

def next? (kind : TokenKind) : List Token → Option (Token × List Token)
  | [] => none
  | t :: rest => if t.kind = kind then some (t, rest) else none

theorem next?_eq (kind : TokenKind) (tokens : List Token) :
    next? kind tokens = (accept kind tokens).map fun found => (found.1, found.2.1) := by
  cases tokens with
  | nil => rfl
  | cons t rest =>
    simp only [next?, accept]
    split <;> rfl

theorem next?_eq_some {kind : TokenKind} {tokens rest : List Token} {t : Token} :
    next? kind tokens = some (t, rest) ↔ tokens = t :: rest ∧ t.kind = kind := by
  cases tokens with
  | nil => simp [next?]
  | cons u us =>
    simp only [next?]
    split
    · rename_i h
      constructor
      · rintro ⟨⟩; exact ⟨rfl, h⟩
      · rintro ⟨⟨⟩, _⟩; rfl
    · rename_i h
      constructor
      · intro h'; cases h'
      · rintro ⟨⟨⟩, h'⟩; exact absurd h' h

theorem next?_eq_none {kind : TokenKind} {tokens : List Token} :
    next? kind tokens = none ↔ headKind tokens ≠ some kind := by
  cases tokens with
  | nil => simp [next?, headKind]
  | cons t rest => simp [next?, headKind]

theorem bind_eq_ok {m : Except Error α} {f : α → Except Error β} {b : β} :
    m >>= f = .ok b ↔ ∃ a, m = .ok a ∧ f a = .ok b := by
  cases m <;> simp [bind, Except.bind]

@[simp] theorem ok_bind (a : α) (f : α → Except Error β) : (Except.ok a >>= f) = f a := rfl

theorem map_bind {m : Except Error α} {f : α → Except Error β} {v : α → γ} {w : β → δ}
    {g : γ → Except Error δ} (h : ∀ x, (f x).map w = g (v x)) : (m >>= f).map w = m.map v >>= g := by
  cases m with
  | error e => rfl
  | ok x => exact h x

theorem plain_expect (kind : TokenKind) (fault : ParseFault) (tokens : List Token) :
    plain (expect kind fault tokens) =
      match next? kind tokens with
      | some found => .ok found
      | none => .error (faultAt tokens fault) := by
  rw [next?_eq]
  unfold expect
  cases accept kind tokens <;> rfl

theorem expect_eq_ok {kind : TokenKind} {fault : ParseFault} {tokens rest : List Token} {t : Token} :
    plain (expect kind fault tokens) = .ok (t, rest) ↔ tokens = t :: rest ∧ t.kind = kind := by
  rw [plain_expect, ← next?_eq_some]
  cases next? kind tokens <;> simp

/-! ## Lists without expressions in them -/

theorem plain_arrowTypes (tokens : List Token) :
    plain (arrowTypes tokens) =
      match next? .rightArrow tokens with
      | none => .ok ([], tokens)
      | some (_, rest) => do
        let (first, rest) ← plain (expect .typename .missingNextType rest)
        let (others, rest) ← plain (arrowTypes rest)
        return (first.lexeme :: others, rest) := by
  rw [arrowTypes, next?_eq]
  cases accept .rightArrow tokens with
  | none => rfl
  | some found => exact map_bind fun _ => map_bind fun _ => rfl

theorem plain_signature (tokens : List Token) :
    plain (signature tokens) = (do
      let (first, rest) ← plain (expect .typename .missingType tokens)
      let (others, rest) ← plain (arrowTypes rest)
      return (first.lexeme :: others, rest)) := by
  unfold signature
  exact map_bind fun _ => map_bind fun _ => rfl

theorem plain_parameters (tokens : List Token) :
    plain (parameters tokens) =
      if (tokens.takeWhile isParameter).isEmpty then .error (faultAt tokens .missingParameters)
      else do
        let (_, rest) ← plain (expect .pipe .missingParameterBar (tokens.dropWhile isParameter))
        return ((tokens.takeWhile isParameter).map (·.lexeme), rest) := by
  unfold parameters
  dsimp only
  split
  · rfl
  · exact map_bind fun _ => rfl

/-- The names are up to the first token that is none. -/
theorem plain_parameters_append {names us : List Token} (hnames : ∀ t ∈ names, isParameter t = true)
    (hus : ∀ t ∈ us.head?, isParameter t = false) :
    plain (parameters (names ++ us)) =
      if names.isEmpty then .error (faultAt (names ++ us) .missingParameters)
      else do
        let (_, rest) ← plain (expect .pipe .missingParameterBar us)
        return (names.map (·.lexeme), rest) := by
  have hstop : us.takeWhile isParameter = [] ∧ us.dropWhile isParameter = us := by
    cases us with
    | nil => exact ⟨rfl, rfl⟩
    | cons t us => simp [hus t rfl]
  rw [plain_parameters, List.takeWhile_append_of_pos hnames, List.dropWhile_append_of_pos hnames, hstop.1, hstop.2,
    List.append_nil]

/-! ## Productions -/

theorem plain_statement (tokens : List Token) :
    plain (statement tokens) = (do
      let (statement, rest) ← plain (clause tokens)
      let (_, rest) ← plain (expect .semicolon .missingSemicolon rest)
      return (statement, rest)) := by
  rw [statement]
  exact map_bind fun _ => map_bind fun _ => rfl

theorem plain_clause (tokens : List Token) :
    plain (clause tokens) =
      match next? .useWord tokens with
      | some (_, rest) => do
        let (module, rest) ← plain (expect .string .missingModuleName rest)
        return (.use module.text, rest)
      | none =>
        match next? .letWord tokens with
        | some (_, rest) => do
          let (bindings, rest) ← plain (bindings rest)
          return (.bind bindings, rest)
        | none => do
          let (expr, rest) ← plain (chain tokens)
          return (.expr expr, rest) := by
  rw [clause, next?_eq, next?_eq]
  cases accept .useWord tokens with
  | some found => exact map_bind fun _ => rfl
  | none =>
    cases accept .letWord tokens with
    | some found => exact map_bind fun _ => rfl
    | none => exact map_bind fun _ => rfl

theorem plain_bindings (tokens : List Token) :
    plain (bindings tokens) = (do
      let (first, rest) ← plain (binding tokens)
      match next? .comma rest with
      | none => return ([first], rest)
      | some (_, rest) =>
        let (others, rest) ← plain (bindings rest)
        return (first :: others, rest)) := by
  rw [bindings]
  refine map_bind fun ⟨first, rest, h⟩ => ?_
  dsimp only
  rw [next?_eq]
  cases accept .comma rest with
  | none => rfl
  | some found => exact map_bind fun _ => rfl

theorem bindable_eq_some {tokens rest : List Token} {name : Token} :
    (next? .identifier tokens).or (next? .symbolic tokens) = some (name, rest) ↔
      tokens = name :: rest ∧ (name.kind = .identifier ∨ name.kind = .symbolic) := by
  constructor
  · intro h
    rcases Option.or_eq_some_iff.mp h with h | ⟨_, h⟩
    · exact ⟨(next?_eq_some.mp h).1, .inl (next?_eq_some.mp h).2⟩
    · exact ⟨(next?_eq_some.mp h).1, .inr (next?_eq_some.mp h).2⟩
  · rintro ⟨rfl, h | h⟩ <;> simp [next?, h]

theorem plain_binding (tokens : List Token) :
    plain (binding tokens) =
      match (next? .identifier tokens).or (next? .symbolic tokens) with
      | none => .error (faultAt tokens .notBindable)
      | some (name, rest) => do
        let (_, rest) ← plain (expect .leftArrow .missingLeftArrow rest)
        let (value, rest) ← plain (chain rest)
        return (⟨name.lexeme, value⟩, rest) := by
  rw [binding, next?_eq, next?_eq, ← Option.map_or]
  cases (accept .identifier tokens).or (accept .symbolic tokens) with
  | none => rfl
  | some found => exact map_bind fun _ => map_bind fun _ => rfl

theorem plain_chain (tokens : List Token) :
    plain (chain tokens) = (do
      let (left, rest) ← plain (application tokens)
      match next? .symbolic rest with
      | none => return (left, rest)
      | some (operator, rest) =>
        let (right, rest) ← plain (chain rest)
        return ((Form.chain left operator.lexeme right).bare, rest)) := by
  rw [chain]
  refine map_bind fun ⟨left, rest, h⟩ => ?_
  dsimp only
  rw [next?_eq]
  cases accept .symbolic rest with
  | none => rfl
  | some found => exact map_bind fun _ => rfl

theorem plain_application (tokens : List Token) :
    plain (application tokens) = (do
      match ← plain? (element? tokens) with
      | none => throw (faultAt tokens .missingExpression)
      | some (first, rest) =>
        let (others, rest) ← plain (elements rest)
        return (applied first others, rest)) := by
  rw [application]
  exact map_bind fun
    | none => rfl
    | some _ => map_bind fun _ => rfl

theorem plain_elements (tokens : List Token) :
    plain (elements tokens) = (do
      match ← plain? (element? tokens) with
      | none => return ([], tokens)
      | some (first, rest) =>
        let (others, rest) ← plain (elements rest)
        return (first :: others, rest)) := by
  rw [elements]
  exact map_bind fun
    | none => rfl
    | some _ => map_bind fun _ => rfl

theorem plain_element? (tokens : List Token) :
    plain? (element? tokens) = (do
      match ← plain? (primary? tokens) with
      | none => return none
      | some (expr, rest) =>
        match next? .colon rest with
        | none => return some (expr, rest)
        | some (_, rest) =>
          let (signature, rest) ← plain (signature rest)
          return some (⟨expr.form, signature⟩, rest)) := by
  rw [element?]
  refine map_bind fun found => ?_
  match found with
  | none => rfl
  | some ⟨expr, rest, h⟩ =>
    dsimp only [Option.map]
    rw [next?_eq]
    cases accept .colon rest with
    | none => rfl
    | some found => exact map_bind fun _ => rfl

theorem plain_primary?_nil : plain? (primary? []) = .ok none := by
  rw [primary?]
  rfl

theorem plain_primary?_cons (t : Token) (rest : List Token) :
    plain? (primary? (t :: rest)) =
      match t.kind with
      | .openBrace => do return some (← plain (function rest))
      | .openParen => do return some (← plain (group rest))
      | .condWord => do return some (← plain (conditional rest))
      | .string | .integer | .float =>
        match t.literal with
        | some literal => .ok (some ((Form.literal literal).bare, rest))
        | none => .error (faultAt (t :: rest) .literalWithoutValue)
      | .identifier => .ok (some ((Form.name t.lexeme).bare, rest))
      | .builtin => .ok (some ((Form.builtin t.text).bare, rest))
      | .bang => .error (faultAt (t :: rest) .loneBang)
      | _ => .ok none := by
  rw [primary?]
  cases t.kind with
  | openBrace | openParen | condWord => exact map_bind fun _ => rfl
  | string | integer | float => cases t.literal <;> rfl
  | _ => rfl

theorem plain_group (tokens : List Token) :
    plain (group tokens) =
      match next? .symbolic tokens with
      | some (operator, rest) => do
        let (_, rest) ← plain (expect .closeParen .unclosedSection rest)
        return ((Form.name operator.lexeme).bare, rest)
      | none => do
        let (expr, rest) ← plain (chain tokens)
        let (_, rest) ← plain (expect .closeParen .unclosedGroup rest)
        return (expr, rest) := by
  rw [group, next?_eq]
  cases accept .symbolic tokens with
  | some found => exact map_bind fun _ => rfl
  | none => exact map_bind fun _ => map_bind fun _ => rfl

theorem plain_function (tokens : List Token) :
    plain (function tokens) = (do
      let (parameters, rest) ← plain (parameters tokens)
      let (body, rest) ← plain (body endsFunction .emptyFunctionBody rest)
      let (_, rest) ← plain (expect .closeBrace .unclosedFunction rest)
      return ((Form.function parameters body).bare, rest)) := by
  rw [function]
  exact map_bind fun _ => map_bind fun _ => map_bind fun _ => rfl

theorem plain_body (ends : TokenKind → Bool) (empty : ParseFault) (tokens : List Token) :
    plain (body ends empty tokens) = (do
      let (statements, rest) ← plain (statements ends tokens)
      if statements.isEmpty then throw (faultAt tokens empty)
      return (statements, rest)) := by
  rw [body]
  refine map_bind fun ⟨statements, rest, h⟩ => ?_
  dsimp only
  split <;> rfl

theorem plain_statements_nil (ends : TokenKind → Bool) : plain (statements ends []) = .ok ([], []) := by
  rw [statements]
  rfl

theorem plain_statements_cons (ends : TokenKind → Bool) (t : Token) (tokens : List Token) :
    plain (statements ends (t :: tokens)) =
      if t.kind = .eof || ends t.kind then .ok ([], t :: tokens)
      else do
        let (first, rest) ← plain (statement (t :: tokens))
        let (others, rest) ← plain (statements ends rest)
        return (first :: others, rest) := by
  rw [statements]
  split
  · rfl
  · exact map_bind fun _ => map_bind fun _ => rfl

theorem plain_conditional (tokens : List Token) :
    plain (conditional tokens) =
      if (next? .endWord tokens).isSome then .error (faultAt tokens .missingCases)
      else do
        let (cases, rest) ← plain (cases tokens)
        return ((Form.conditional cases).bare, rest) := by
  rw [conditional, next?_eq, Option.isSome_map]
  split
  · rfl
  · exact map_bind fun _ => rfl

theorem plain_cases (tokens : List Token) :
    plain (cases tokens) = (do
      let (_, rest) ← plain (expect .pipe .missingConditionBar tokens)
      let (condition, rest) ← plain (chain rest)
      let (_, rest) ← plain (expect .rightArrow .missingRightArrow rest)
      let (body, rest) ← plain (body endsCase .emptyCaseBody rest)
      match next? .endWord rest with
      | some (_, rest) => return ([⟨condition, body⟩], rest)
      | none =>
        let (others, rest) ← plain (cases rest)
        return (⟨condition, body⟩ :: others, rest)) := by
  rw [cases]
  refine map_bind fun _ => map_bind fun _ => map_bind fun _ => map_bind fun ⟨body, rest, h⟩ => ?_
  dsimp only
  rw [next?_eq]
  cases accept .endWord rest with
  | none => exact map_bind fun _ => rfl
  | some found => rfl

end CurriedScript.Parser

namespace CurriedScript

open Parser

theorem parse_eq (tokens : List Token) : parse tokens = (plain (statements (fun _ => false) tokens)).map (·.1) := by
  unfold parse plain
  cases statements (fun _ => false) tokens <;> rfl

end CurriedScript
