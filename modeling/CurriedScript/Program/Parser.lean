import CurriedScript.Error
import CurriedScript.Program
import CurriedScript.Token.Scan

/-!
# Parsing programs

Each production reads as much as it can from the start of a list of tokens and
returns what is left, which is less than it was given. All operators associate
to the right and none binds tighter than another.
-/

namespace CurriedScript

def Token.text (t : Token) : String :=
  match t.literal with
  | some (.string text) => text
  | _ => t.lexeme

namespace Parser

abbrev Rest (tokens : List Token) := { rest : List Token // rest.length < tokens.length }

abbrev Left (tokens : List Token) := { rest : List Token // rest.length ≤ tokens.length }

def faultAt (tokens : List Token) (fault : ParseFault) : Error :=
  match tokens with
  | [] => .parse 0 "<eof>" fault
  | t :: _ => .parse t.line (if t.kind = .eof then "<eof>" else t.lexeme) fault

def accept (kind : TokenKind) (tokens : List Token) : Option (Token × Rest tokens) :=
  match tokens with
  | [] => none
  | t :: rest => if t.kind = kind then some (t, ⟨rest, Nat.lt_succ_self _⟩) else none

def expect (kind : TokenKind) (fault : ParseFault) (tokens : List Token) :
    Except Error (Token × Rest tokens) :=
  match accept kind tokens with
  | some found => .ok found
  | none => .error (faultAt tokens fault)

/-! ## Lists without expressions in them -/

def arrowTypes (tokens : List Token) : Except Error (List String × Left tokens) := do
  match accept .rightArrow tokens with
  | none => return ([], ⟨tokens, Nat.le_refl _⟩)
  | some (_, ⟨rest, h⟩) =>
    let (first, ⟨rest, h'⟩) ← expect .typename .missingNextType rest
    let (others, ⟨rest, h''⟩) ← arrowTypes rest
    return (first.lexeme :: others, ⟨rest, by omega⟩)
termination_by tokens.length

def signature (tokens : List Token) : Except Error (List String × Rest tokens) := do
  let (first, ⟨rest, h⟩) ← expect .typename .missingType tokens
  let (others, ⟨rest, h'⟩) ← arrowTypes rest
  return (first.lexeme :: others, ⟨rest, by omega⟩)

def isParameter (t : Token) : Bool := t.kind = .bang || t.kind = .identifier

def parameters (tokens : List Token) : Except Error (List String × Rest tokens) := do
  let names := tokens.takeWhile isParameter
  if names.isEmpty then throw (faultAt tokens .missingParameters)
  let (_, ⟨rest, h⟩) ← expect .pipe .missingParameterBar (tokens.dropWhile isParameter)
  have := (List.dropWhile_sublist isParameter (l := tokens)).length_le
  return (names.map (·.lexeme), ⟨rest, by omega⟩)

def sentinel : Expr := (Form.name "!").bare

def isBangCall : Expr → Bool
  | ⟨.name name, _⟩ => name.toList.getLast? = some '!'
  | _ => false

/-- What a run of elements is: one alone is itself, more are an application. -/
def applied (first : Expr) (others : List Expr) : Expr :=
  if isBangCall first then (Form.application (first :: sentinel :: others)).bare
  else if others.isEmpty then first
  else (Form.application (first :: others)).bare

/-! ## Productions -/

def endsFunction (kind : TokenKind) : Bool := kind = .closeBrace

def endsCase (kind : TokenKind) : Bool := kind = .pipe || kind = .endWord

mutual
def statement (tokens : List Token) : Except Error (Statement × Rest tokens) := do
  let (statement, ⟨rest, h⟩) ← clause tokens
  let (_, ⟨rest, h'⟩) ← expect .semicolon .missingSemicolon rest
  return (statement, ⟨rest, by omega⟩)
termination_by 16 * tokens.length + 5

def clause (tokens : List Token) : Except Error (Statement × Rest tokens) := do
  match accept .useWord tokens with
  | some (_, ⟨rest, h⟩) =>
    let (module, ⟨rest, h'⟩) ← expect .string .missingModuleName rest
    return (.use module.text, ⟨rest, by omega⟩)
  | none =>
    match accept .letWord tokens with
    | some (_, ⟨rest, h⟩) =>
      let (bindings, ⟨rest, h'⟩) ← bindings rest
      return (.bind bindings, ⟨rest, by omega⟩)
    | none =>
      let (expr, rest) ← chain tokens
      return (.expr expr, rest)
termination_by 16 * tokens.length + 4

def bindings (tokens : List Token) : Except Error (List Binding × Rest tokens) := do
  let (first, ⟨rest, h⟩) ← binding tokens
  match accept .comma rest with
  | none => return ([first], ⟨rest, h⟩)
  | some (_, ⟨rest, h'⟩) =>
    let (others, ⟨rest, h''⟩) ← bindings rest
    return (first :: others, ⟨rest, by omega⟩)
termination_by 16 * tokens.length + 1

def binding (tokens : List Token) : Except Error (Binding × Rest tokens) := do
  match (accept .identifier tokens).or (accept .symbolic tokens) with
  | none => throw (faultAt tokens .notBindable)
  | some (name, ⟨rest, h⟩) =>
    let (_, ⟨rest, h'⟩) ← expect .leftArrow .missingLeftArrow rest
    let (value, ⟨rest, h''⟩) ← chain rest
    return (⟨name.lexeme, value⟩, ⟨rest, by omega⟩)
termination_by 16 * tokens.length

def chain (tokens : List Token) : Except Error (Expr × Rest tokens) := do
  let (left, ⟨rest, h⟩) ← application tokens
  match accept .symbolic rest with
  | none => return (left, ⟨rest, h⟩)
  | some (operator, ⟨rest, h'⟩) =>
    let (right, ⟨rest, h''⟩) ← chain rest
    return ((Form.chain left operator.lexeme right).bare, ⟨rest, by omega⟩)
termination_by 16 * tokens.length + 3

def application (tokens : List Token) : Except Error (Expr × Rest tokens) := do
  match ← element? tokens with
  | none => throw (faultAt tokens .missingExpression)
  | some (first, ⟨rest, h⟩) =>
    let (others, ⟨rest, h'⟩) ← elements rest
    return (applied first others, ⟨rest, by omega⟩)
termination_by 16 * tokens.length + 2

def elements (tokens : List Token) : Except Error (List Expr × Left tokens) := do
  match ← element? tokens with
  | none => return ([], ⟨tokens, Nat.le_refl _⟩)
  | some (first, ⟨rest, h⟩) =>
    let (others, ⟨rest, h'⟩) ← elements rest
    return (first :: others, ⟨rest, by omega⟩)
termination_by 16 * tokens.length + 2

def element? (tokens : List Token) : Except Error (Option (Expr × Rest tokens)) := do
  match ← primary? tokens with
  | none => return none
  | some (expr, ⟨rest, h⟩) =>
    match accept .colon rest with
    | none => return some (expr, ⟨rest, h⟩)
    | some (_, ⟨rest, h'⟩) =>
      let (signature, ⟨rest, h''⟩) ← signature rest
      return some (⟨expr.form, signature⟩, ⟨rest, by omega⟩)
termination_by 16 * tokens.length + 1

def primary? : (tokens : List Token) → Except Error (Option (Expr × Rest tokens))
  | [] => .ok none
  | t :: rest => do
    match t.kind with
    | .openBrace =>
      let (expr, ⟨left, h⟩) ← function rest
      return some (expr, ⟨left, Nat.lt_succ_of_lt h⟩)
    | .openParen =>
      let (expr, ⟨left, h⟩) ← group rest
      return some (expr, ⟨left, Nat.lt_succ_of_lt h⟩)
    | .condWord =>
      let (expr, ⟨left, h⟩) ← conditional rest
      return some (expr, ⟨left, Nat.lt_succ_of_lt h⟩)
    | .string | .integer | .float =>
      match t.literal with
      | some literal => return some ((Form.literal literal).bare, ⟨rest, Nat.lt_succ_self _⟩)
      | none => throw (faultAt (t :: rest) .literalWithoutValue)
    | .identifier => return some ((Form.name t.lexeme).bare, ⟨rest, Nat.lt_succ_self _⟩)
    | .builtin => return some ((Form.builtin t.text).bare, ⟨rest, Nat.lt_succ_self _⟩)
    | .bang => throw (faultAt (t :: rest) .loneBang)
    | _ => return none
termination_by tokens => 16 * tokens.length

def group (tokens : List Token) : Except Error (Expr × Rest tokens) := do
  match accept .symbolic tokens with
  | some (operator, ⟨rest, h⟩) =>
    let (_, ⟨rest, h'⟩) ← expect .closeParen .unclosedSection rest
    return ((Form.name operator.lexeme).bare, ⟨rest, by omega⟩)
  | none =>
    let (expr, ⟨rest, h⟩) ← chain tokens
    let (_, ⟨rest, h'⟩) ← expect .closeParen .unclosedGroup rest
    return (expr, ⟨rest, by omega⟩)
termination_by 16 * tokens.length + 4

def function (tokens : List Token) : Except Error (Expr × Rest tokens) := do
  let (parameters, ⟨rest, h⟩) ← parameters tokens
  let (body, ⟨rest, h'⟩) ← body endsFunction .emptyFunctionBody rest
  let (_, ⟨rest, h''⟩) ← expect .closeBrace .unclosedFunction rest
  return ((Form.function parameters body).bare, ⟨rest, by omega⟩)
termination_by 16 * tokens.length

/-- Statements up to a token that ends them, at least one. -/
def body (ends : TokenKind → Bool) (empty : ParseFault) (tokens : List Token) :
    Except Error (List Statement × Left tokens) := do
  let (statements, rest) ← statements ends tokens
  if statements.isEmpty then throw (faultAt tokens empty)
  return (statements, rest)
termination_by 16 * tokens.length + 7

/-- Statements up to a token that ends them, or to the end of the program. -/
def statements (ends : TokenKind → Bool) :
    (tokens : List Token) → Except Error (List Statement × Left tokens)
  | [] => .ok ([], ⟨[], Nat.le_refl _⟩)
  | t :: tokens => do
    if t.kind = .eof || ends t.kind then return ([], ⟨t :: tokens, Nat.le_refl _⟩)
    let (first, ⟨rest, h⟩) ← statement (t :: tokens)
    let (others, ⟨rest, h'⟩) ← statements ends rest
    return (first :: others, ⟨rest, by omega⟩)
termination_by tokens => 16 * tokens.length + 6
decreasing_by all_goals omega

def conditional (tokens : List Token) : Except Error (Expr × Rest tokens) := do
  if (accept .endWord tokens).isSome then throw (faultAt tokens .missingCases)
  let (cases, rest) ← cases tokens
  return ((Form.conditional cases).bare, rest)
termination_by 16 * tokens.length + 1

def cases (tokens : List Token) : Except Error (List Case × Rest tokens) := do
  let (_, ⟨rest, h₁⟩) ← expect .pipe .missingConditionBar tokens
  let (condition, ⟨rest, h₂⟩) ← chain rest
  let (_, ⟨rest, h₃⟩) ← expect .rightArrow .missingRightArrow rest
  let (body, ⟨rest, h₄⟩) ← body endsCase .emptyCaseBody rest
  match accept .endWord rest with
  | some (_, ⟨rest, h₅⟩) => return ([⟨condition, body⟩], ⟨rest, by omega⟩)
  | none =>
    let (others, ⟨rest, h₅⟩) ← cases rest
    return (⟨condition, body⟩ :: others, ⟨rest, by omega⟩)
termination_by 16 * tokens.length
end

end Parser

def parse (tokens : List Token) : Except Error (List Statement) :=
  (Parser.statements (fun _ => false) tokens).map (·.1)

def parseSource (source : String) : Except Error (List Statement) := do
  parse (← scan source)

end CurriedScript
