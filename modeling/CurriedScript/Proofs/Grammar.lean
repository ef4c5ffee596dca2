import CurriedScript.Program.Parser

/-!
# The grammar

Which lists of tokens are programs, and of which tree each is the text. A
production is a relation between the tokens of a text, all of them, and its
tree. A chain leans to the right and its operators have no precedence, an
element alone and a chain in parentheses are themselves, and a name that ends in
`!` and heads an application is followed by `!`.

The rules leave one choice open, whether an arrow after a type name goes on with
an annotation or ends the condition of a case. It goes on with the annotation:
a condition never ends in a type name.
-/

namespace CurriedScript.Grammar

def EndsInType (ts : List Token) : Prop := ∃ t ∈ ts.getLast?, t.kind = .typename

def IsBangName : Expr → Prop
  | ⟨.name name, _⟩ => ∃ start, name = start ++ "!"
  | _ => False

def IsLiteral (kind : TokenKind) : Prop := kind = .string ∨ kind = .integer ∨ kind = .float

/-- `TYPENAME ('->' TYPENAME)*` -/
inductive IsSignature : List Token → List String → Prop
  | one {t : Token} : t.kind = .typename → IsSignature [t] [t.lexeme]
  | more {t arrow : Token} {ts : List Token} {names : List String} : t.kind = .typename →
      arrow.kind = .rightArrow → IsSignature ts names → IsSignature (t :: arrow :: ts) (t.lexeme :: names)

mutual
/-- `use | let | symchain ';'` -/
inductive IsStatement : List Token → Statement → Prop
  | use {word module stop : Token} : word.kind = .useWord → module.kind = .string → stop.kind = .semicolon →
      IsStatement [word, module, stop] (.use module.text)
  | bind {word stop : Token} {ts : List Token} {bs : List Binding} : word.kind = .letWord → IsBindings ts bs →
      stop.kind = .semicolon → IsStatement (word :: ts ++ [stop]) (.bind bs)
  | expr {ts : List Token} {x : Expr} {stop : Token} : IsChain ts x → stop.kind = .semicolon →
      IsStatement (ts ++ [stop]) (.expr x)

/-- `binding (',' binding)*` -/
inductive IsBindings : List Token → List Binding → Prop
  | one {ts : List Token} {b : Binding} : IsBinding ts b → IsBindings ts [b]
  | more {ts us : List Token} {comma : Token} {b : Binding} {bs : List Binding} : IsBinding ts b →
      comma.kind = .comma → IsBindings us bs → IsBindings (ts ++ comma :: us) (b :: bs)

/-- `(IDENTIFIER | SYMBOLIC) '<-' symchain` -/
inductive IsBinding : List Token → Binding → Prop
  | mk {name arrow : Token} {ts : List Token} {x : Expr} : name.kind = .identifier ∨ name.kind = .symbolic →
      arrow.kind = .leftArrow → IsChain ts x → IsBinding (name :: arrow :: ts) ⟨name.lexeme, x⟩

/-- `application (SYMBOLIC symchain)?` -/
inductive IsChain : List Token → Expr → Prop
  | application {ts : List Token} {x : Expr} : IsApplication ts x → IsChain ts x
  | chain {ts us : List Token} {operator : Token} {left right : Expr} : IsApplication ts left →
      operator.kind = .symbolic → IsChain us right →
      IsChain (ts ++ operator :: us) ⟨.chain left operator.lexeme right, []⟩

/-- `typedPrimary+` -/
inductive IsApplication : List Token → Expr → Prop
  | alone {ts : List Token} {x : Expr} : IsElements ts [x] → ¬ IsBangName x → IsApplication ts x
  | call {ts : List Token} {x y : Expr} {others : List Expr} : IsElements ts (x :: y :: others) →
      ¬ IsBangName x → IsApplication ts ⟨.application (x :: y :: others), []⟩
  | bangCall {ts : List Token} {x : Expr} {others : List Expr} : IsElements ts (x :: others) → IsBangName x →
      IsApplication ts ⟨.application (x :: ⟨.name "!", []⟩ :: others), []⟩

inductive IsElements : List Token → List Expr → Prop
  | nil : IsElements [] []
  | cons {ts us : List Token} {x : Expr} {others : List Expr} : IsElement ts x → IsElements us others →
      IsElements (ts ++ us) (x :: others)

/-- `primary (':' TYPENAME ('->' TYPENAME)*)?` -/
inductive IsElement : List Token → Expr → Prop
  | plain {ts : List Token} {x : Expr} : IsPrimary ts x → IsElement ts x
  | typed {ts us : List Token} {colon : Token} {form : Form} {earlier names : List String} :
      IsPrimary ts ⟨form, earlier⟩ → colon.kind = .colon → IsSignature us names →
      IsElement (ts ++ colon :: us) ⟨form, names⟩

/-- `funcLiteral | literal | IDENTIFIER | BUILTIN | '(' (SYMBOLIC | symchain) ')' | cond` -/
inductive IsPrimary : List Token → Expr → Prop
  | literal {t : Token} {literal : Literal} : IsLiteral t.kind → t.literal = some literal →
      IsPrimary [t] ⟨.literal literal, []⟩
  | name {t : Token} : t.kind = .identifier → IsPrimary [t] ⟨.name t.lexeme, []⟩
  | builtin {t : Token} : t.kind = .builtin → IsPrimary [t] ⟨.builtin t.text, []⟩
  | operator {opening operator closing : Token} : opening.kind = .openParen → operator.kind = .symbolic →
      closing.kind = .closeParen → IsPrimary [opening, operator, closing] ⟨.name operator.lexeme, []⟩
  | group {opening closing : Token} {ts : List Token} {x : Expr} : opening.kind = .openParen → IsChain ts x →
      closing.kind = .closeParen → IsPrimary (opening :: ts ++ [closing]) x
  | function {opening bar closing : Token} {names ts : List Token} {body : List Statement} :
      opening.kind = .openBrace → names ≠ [] → (∀ t ∈ names, t.kind = .bang ∨ t.kind = .identifier) →
      bar.kind = .pipe → IsStatements ts body → body ≠ [] → closing.kind = .closeBrace →
      IsPrimary (opening :: names ++ bar :: ts ++ [closing]) ⟨.function (names.map (·.lexeme)) body, []⟩
  | conditional {word stop : Token} {ts : List Token} {cases : List Case} : word.kind = .condWord →
      IsCases ts cases → stop.kind = .endWord → IsPrimary (word :: ts ++ [stop]) ⟨.conditional cases, []⟩

/-- `statement*` -/
inductive IsStatements : List Token → List Statement → Prop
  | nil : IsStatements [] []
  | cons {ts us : List Token} {s : Statement} {others : List Statement} : IsStatement ts s →
      IsStatements us others → IsStatements (ts ++ us) (s :: others)

inductive IsCases : List Token → List Case → Prop
  | one {ts : List Token} {c : Case} : IsCase ts c → IsCases ts [c]
  | more {ts us : List Token} {c : Case} {others : List Case} : IsCase ts c → IsCases us others →
      IsCases (ts ++ us) (c :: others)

/-- `'|' symchain '->' statement+` -/
inductive IsCase : List Token → Case → Prop
  | mk {bar arrow : Token} {ts us : List Token} {condition : Expr} {body : List Statement} : bar.kind = .pipe →
      IsChain ts condition → ¬ EndsInType ts → arrow.kind = .rightArrow → IsStatements us body → body ≠ [] →
      IsCase (bar :: ts ++ arrow :: us) ⟨condition, body⟩
end

mutual
theorem IsChain.ne_nil : ∀ {ts x}, IsChain ts x → ts ≠ []
  | _, _, .application h => h.ne_nil
  | _, _, .chain _ _ _ => by simp
theorem IsApplication.ne_nil : ∀ {ts x}, IsApplication ts x → ts ≠ []
  | _, _, .alone h _ => h.ne_nil (by simp)
  | _, _, .call h _ => h.ne_nil (by simp)
  | _, _, .bangCall h _ => h.ne_nil (by simp)
theorem IsElements.ne_nil : ∀ {ts xs}, IsElements ts xs → xs ≠ [] → ts ≠ []
  | _, _, .nil, h => absurd rfl h
  | _, _, .cons h _, _ => by simp [h.ne_nil]
theorem IsElement.ne_nil : ∀ {ts x}, IsElement ts x → ts ≠ []
  | _, _, .plain h => h.ne_nil
  | _, _, .typed _ _ _ => by simp
theorem IsPrimary.ne_nil : ∀ {ts x}, IsPrimary ts x → ts ≠ []
  | _, _, .literal _ _ | _, _, .name _ | _, _, .builtin _ | _, _, .operator _ _ _ => by simp
  | _, _, .group _ _ _ | _, _, .function _ _ _ _ _ _ _ | _, _, .conditional _ _ _ => by simp
end

theorem IsStatement.ne_nil {ts : List Token} {s : Statement} (h : IsStatement ts s) : ts ≠ [] := by
  cases h <;> simp

end CurriedScript.Grammar
