import CurriedScript.Proofs.OneAhead

/-!
# Productions with open calls

The productions of the parser are defined along a measure, so that they end is part
of their definition. Here they are without one. `Production.once` is a production in
which the calls are open: they may leave whatever they like, and need not come back.
`Production.within` closes the calls up to a depth and gives up on what goes deeper.
A loop is a production that calls itself for its next pass.
-/

namespace CurriedScript.Parser

variable {α β : Type}

/-! ## Attempts -/

abbrev Attempt (α : Type) := ExceptT Error Option α

def known (result : Except Error α) : Attempt α := ExceptT.mk (some result)

def unfinished : Attempt α := ExceptT.mk none

theorem known_ne_unfinished (result : Except Error α) : known result ≠ unfinished := by
  intro h
  cases h

theorem known_inj {result result' : Except Error α} (h : known result = known result') : result = result' :=
  Option.some.inj h

theorem map_known (f : α → β) (result : Except Error α) : f <$> known result = known (result.map f) := by
  cases result <;> rfl

theorem known_bind (a : α) (f : α → Attempt β) : known (.ok a) >>= f = f a := rfl

theorem unfinished_bind (f : α → Attempt β) : unfinished >>= f = unfinished := rfl

/-- The result, or none yet and a cause for that. -/
inductive Gives (Cause : Prop) (attempt : Attempt α) (result : Except Error α) : Prop where
  | known (h : attempt = known result)
  | unfinished (h : attempt = unfinished) (hcause : Cause)

namespace Gives

variable {Cause : Prop} {m : Attempt α} {r : Except Error α}

theorem of (r : Except Error α) : Gives Cause (Parser.known r) r := .known rfl

theorem bind {f : α → Attempt β} {g : α → Except Error β} (h : Gives Cause m r)
    (hf : ∀ a, r = .ok a → Gives Cause (f a) (g a)) : Gives Cause (m >>= f) (r >>= g) := by
  cases h with
  | known h =>
    subst h
    cases r with
    | error e => exact .known rfl
    | ok a => exact hf a rfl
  | unfinished h hcause =>
    subst h
    exact .unfinished rfl hcause

theorem bind? {p : List Token → Except Error (Option (α × List Token))} {us : List Token}
    {m : Attempt (Option α × List Token)} {f : Option α × List Token → Attempt β}
    {g : Option (α × List Token) → Except Error β} (h : Gives Cause m (orNothing p us))
    (hnone : Gives Cause (f (none, us)) (g none))
    (hsome : ∀ a rest, orNothing p us = .ok (some a, rest) → Gives Cause (f (some a, rest)) (g (some (a, rest)))) :
    Gives Cause (m >>= f) (p us >>= g) := by
  cases h with
  | known h =>
    subst h
    match hp : p us with
    | .error e =>
      rw [orNothing_error hp]
      exact .known rfl
    | .ok none =>
      rw [orNothing_none hp]
      exact hnone
    | .ok (some (a, rest)) =>
      rw [orNothing_some hp]
      exact hsome a rest (orNothing_some hp)
  | unfinished h hcause =>
    subst h
    exact .unfinished rfl hcause

end Gives

/-! ## Productions -/

/-- What can be read, by what is found. The loops are `statements`, `elements`, `bindings`,
`names`, `arrowTypes` and `cases`. -/
inductive Production : Type → Type where
  | statement : Production Statement
  | clause : Production Statement
  | bindings : Production (List Binding)
  | binding : Production Binding
  | chain : Production Expr
  | application : Production Expr
  | elements : Production (List Expr)
  | element : Production (Option Expr)
  | primary : Production (Option Expr)
  | group : Production Expr
  | function : Production Expr
  | parameters : Production (List String)
  | names : Production (List String)
  | body (ends : TokenKind → Bool) (empty : ParseFault) : Production (List Statement)
  | statements (ends : TokenKind → Bool) : Production (List Statement)
  | conditional : Production Expr
  | cases : Production (List Case)
  | signature : Production (List String)
  | arrowTypes : Production (List String)

namespace Production

def result : {α : Type} → Production α → List Token → Except Error (α × List Token)
  | _, .statement, tokens => plain (Parser.statement tokens)
  | _, .clause, tokens => plain (Parser.clause tokens)
  | _, .bindings, tokens => plain (Parser.bindings tokens)
  | _, .binding, tokens => plain (Parser.binding tokens)
  | _, .chain, tokens => plain (Parser.chain tokens)
  | _, .application, tokens => plain (Parser.application tokens)
  | _, .elements, tokens => plain (Parser.elements tokens)
  | _, .element, tokens => orNothing (fun us => plain? (Parser.element? us)) tokens
  | _, .primary, tokens => orNothing (fun us => plain? (Parser.primary? us)) tokens
  | _, .group, tokens => plain (Parser.group tokens)
  | _, .function, tokens => plain (Parser.function tokens)
  | _, .parameters, tokens => plain (Parser.parameters tokens)
  | _, .names, tokens => .ok ((tokens.takeWhile isParameter).map (·.lexeme), tokens.dropWhile isParameter)
  | _, .body ends empty, tokens => plain (Parser.body ends empty tokens)
  | _, .statements ends, tokens => plain (Parser.statements ends tokens)
  | _, .conditional, tokens => plain (Parser.conditional tokens)
  | _, .cases, tokens => plain (Parser.cases tokens)
  | _, .signature, tokens => plain (Parser.signature tokens)
  | _, .arrowTypes, tokens => plain (Parser.arrowTypes tokens)

def FindsNothing : {α : Type} → Production α → α → Prop
  | _, .element, found => found = none
  | _, .primary, found => found = none
  | _, .elements, found => found = []
  | _, .names, found => found = []
  | _, .statements _, found => found = []
  | _, .arrowTypes, found => found = []
  | _, _, _ => False

abbrev Caller := (β : Type) → Production β → List Token → Attempt (β × List Token)

def once (call : Caller) : {α : Type} → Production α → List Token → Attempt (α × List Token)
  | _, .statement, tokens => do
    let (found, rest) ← call _ .clause tokens
    let (_, rest) ← known (plain (expect .semicolon .missingSemicolon rest))
    return (found, rest)
  | _, .clause, tokens =>
    match next? .useWord tokens with
    | some (_, rest) => do
      let (module, rest) ← known (plain (expect .string .missingModuleName rest))
      return (.use module.text, rest)
    | none =>
      match next? .letWord tokens with
      | some (_, rest) => do
        let (found, rest) ← call _ .bindings rest
        return (.bind found, rest)
      | none => do
        let (expr, rest) ← call _ .chain tokens
        return (.expr expr, rest)
  | _, .bindings, tokens => do
    let (first, rest) ← call _ .binding tokens
    match next? .comma rest with
    | none => return ([first], rest)
    | some (_, rest) =>
      let (others, rest) ← call _ .bindings rest
      return (first :: others, rest)
  | _, .binding, tokens =>
    match (next? .identifier tokens).or (next? .symbolic tokens) with
    | none => throw (faultAt tokens .notBindable)
    | some (name, rest) => do
      let (_, rest) ← known (plain (expect .leftArrow .missingLeftArrow rest))
      let (value, rest) ← call _ .chain rest
      return (⟨name.lexeme, value⟩, rest)
  | _, .chain, tokens => do
    let (left, rest) ← call _ .application tokens
    match next? .symbolic rest with
    | none => return (left, rest)
    | some (operator, rest) =>
      let (right, rest) ← call _ .chain rest
      return ((Form.chain left operator.lexeme right).bare, rest)
  | _, .application, tokens => do
    let (found, rest) ← call _ .element tokens
    match found with
    | none => throw (faultAt tokens .missingExpression)
    | some first =>
      let (others, rest) ← call _ .elements rest
      return (applied first others, rest)
  | _, .elements, tokens => do
    let (found, rest) ← call _ .element tokens
    match found with
    | none => return ([], tokens)
    | some first =>
      let (others, rest) ← call _ .elements rest
      return (first :: others, rest)
  | _, .element, tokens => do
    let (found, rest) ← call _ .primary tokens
    match found with
    | none => return (none, rest)
    | some expr =>
      match next? .colon rest with
      | none => return (some expr, rest)
      | some (_, rest) =>
        let (types, rest) ← call _ .signature rest
        return (some ⟨expr.form, types⟩, rest)
  | _, .primary, [] => return (none, [])
  | _, .primary, t :: rest =>
    match t.kind with
    | .openBrace => do
      let (expr, rest) ← call _ .function rest
      return (some expr, rest)
    | .openParen => do
      let (expr, rest) ← call _ .group rest
      return (some expr, rest)
    | .condWord => do
      let (expr, rest) ← call _ .conditional rest
      return (some expr, rest)
    | .string | .integer | .float =>
      match t.literal with
      | some literal => return (some (Form.literal literal).bare, rest)
      | none => throw (faultAt (t :: rest) .literalWithoutValue)
    | .identifier => return (some (Form.name t.lexeme).bare, rest)
    | .builtin => return (some (Form.builtin t.text).bare, rest)
    | .bang => throw (faultAt (t :: rest) .loneBang)
    | _ => return (none, t :: rest)
  | _, .group, tokens =>
    match next? .symbolic tokens with
    | some (operator, rest) => do
      let (_, rest) ← known (plain (expect .closeParen .unclosedSection rest))
      return ((Form.name operator.lexeme).bare, rest)
    | none => do
      let (expr, rest) ← call _ .chain tokens
      let (_, rest) ← known (plain (expect .closeParen .unclosedGroup rest))
      return (expr, rest)
  | _, .function, tokens => do
    let (lexemes, rest) ← call _ .parameters tokens
    let (inside, rest) ← call _ (.body endsFunction .emptyFunctionBody) rest
    let (_, rest) ← known (plain (expect .closeBrace .unclosedFunction rest))
    return ((Form.function lexemes inside).bare, rest)
  | _, .parameters, tokens => do
    let (lexemes, rest) ← call _ .names tokens
    if lexemes.isEmpty then throw (faultAt rest .missingParameters)
    let (_, rest) ← known (plain (expect .pipe .missingParameterBar rest))
    return (lexemes, rest)
  | _, .names, [] => return ([], [])
  | _, .names, t :: rest => do
    if isParameter t then
      let (others, rest) ← call _ .names rest
      return (t.lexeme :: others, rest)
    else return ([], t :: rest)
  | _, .body ends empty, tokens => do
    let (inside, rest) ← call _ (.statements ends) tokens
    if inside.isEmpty then throw (faultAt rest empty)
    return (inside, rest)
  | _, .statements _, [] => return ([], [])
  | _, .statements ends, t :: tokens => do
    if t.kind = .eof || ends t.kind then return ([], t :: tokens)
    let (first, rest) ← call _ .statement (t :: tokens)
    let (others, rest) ← call _ (.statements ends) rest
    return (first :: others, rest)
  | _, .conditional, tokens => do
    if (next? .endWord tokens).isSome then throw (faultAt tokens .missingCases)
    let (found, rest) ← call _ .cases tokens
    return ((Form.conditional found).bare, rest)
  | _, .cases, tokens => do
    let (_, rest) ← known (plain (expect .pipe .missingConditionBar tokens))
    let (condition, rest) ← call _ .chain rest
    let (_, rest) ← known (plain (expect .rightArrow .missingRightArrow rest))
    let (inside, rest) ← call _ (.body endsCase .emptyCaseBody) rest
    match next? .endWord rest with
    | some (_, rest) => return ([⟨condition, inside⟩], rest)
    | none =>
      let (others, rest) ← call _ .cases rest
      return (⟨condition, inside⟩ :: others, rest)
  | _, .signature, tokens => do
    let (first, rest) ← known (plain (expect .typename .missingType tokens))
    let (others, rest) ← call _ .arrowTypes rest
    return (first.lexeme :: others, rest)
  | _, .arrowTypes, tokens =>
    match next? .rightArrow tokens with
    | none => return ([], tokens)
    | some (_, rest) => do
      let (first, rest) ← known (plain (expect .typename .missingNextType rest))
      let (others, rest) ← call _ .arrowTypes rest
      return (first.lexeme :: others, rest)

def within : Nat → Caller
  | 0, _, _, _ => unfinished
  | depth + 1, _, p, tokens => p.once (within depth) tokens

end Production

end CurriedScript.Parser
