import CurriedScript.Proofs.Lexemes
import CurriedScript.Proofs.ParserComplete

/-!
# Shapes of parsed trees

`parseSource_shape`: in the tree of a source no list is empty that the grammar
fills, a name that ends in `!` stands only in applications, and every name,
operator and type is spelled as the lexeme that it was.
-/

namespace CurriedScript

/-- What is asked of each part of a tree, apart from its parts. -/
structure Condition where
  form : Form → Prop
  signature : List String → Prop
  case : Case → Prop
  statement : Statement → Prop
  binding : Binding → Prop

mutual
def Expr.Every (P : Condition) : Expr → Prop
  | ⟨form, signature⟩ => form.Every P ∧ P.signature signature

def Form.Every (P : Condition) : Form → Prop
  | .chain left operator right => P.form (.chain left operator right) ∧ left.Every P ∧ right.Every P
  | .application elements => P.form (.application elements) ∧ exprsEvery P elements
  | .function parameters body => P.form (.function parameters body) ∧ statementsEvery P body
  | .conditional cases => P.form (.conditional cases) ∧ casesEvery P cases
  | .name name => P.form (.name name)
  | .literal literal => P.form (.literal literal)
  | .builtin name => P.form (.builtin name)

def Case.Every (P : Condition) : Case → Prop
  | ⟨condition, body⟩ => P.case ⟨condition, body⟩ ∧ condition.Every P ∧ statementsEvery P body

def Statement.Every (P : Condition) : Statement → Prop
  | .use module => P.statement (.use module)
  | .bind bindings => P.statement (.bind bindings) ∧ bindingsEvery P bindings
  | .expr expr => P.statement (.expr expr) ∧ expr.Every P

def Binding.Every (P : Condition) : Binding → Prop
  | ⟨name, value⟩ => P.binding ⟨name, value⟩ ∧ value.Every P

def exprsEvery (P : Condition) : List Expr → Prop
  | [] => True
  | expr :: rest => expr.Every P ∧ exprsEvery P rest

def casesEvery (P : Condition) : List Case → Prop
  | [] => True
  | case :: rest => case.Every P ∧ casesEvery P rest

def statementsEvery (P : Condition) : List Statement → Prop
  | [] => True
  | statement :: rest => statement.Every P ∧ statementsEvery P rest

def bindingsEvery (P : Condition) : List Binding → Prop
  | [] => True
  | binding :: rest => binding.Every P ∧ bindingsEvery P rest
end

section
variable {P : Condition}

theorem Form.Every.self {form : Form} (h : form.Every P) : P.form form := by
  cases form with
  | name | literal | builtin => exact h
  | _ => exact h.1

theorem Expr.Every.form {x : Expr} (h : x.Every P) : x.form.Every P := by
  cases x
  exact h.1

theorem Case.Every.condition {c : Case} (h : c.Every P) : c.condition.form.Every P := by
  cases c
  exact h.2.1.form

theorem Case.Every.body {c : Case} (h : c.Every P) : statementsEvery P c.body := by
  cases c
  exact h.2.2

theorem Binding.Every.value {binding : Binding} (h : binding.Every P) : binding.value.form.Every P := by
  cases binding
  exact h.2.form

theorem every_of_mem_exprs {xs : List Expr} (h : exprsEvery P xs) {x : Expr} (hx : x ∈ xs) : x.Every P := by
  induction xs with
  | nil => cases hx
  | cons y rest ih =>
    rcases List.mem_cons.mp hx with rfl | hx
    · exact h.1
    · exact ih h.2 hx

theorem every_of_mem_cases {cases : List Case} (h : casesEvery P cases) {c : Case} (hc : c ∈ cases) :
    c.Every P := by
  induction cases with
  | nil => cases hc
  | cons d rest ih =>
    rcases List.mem_cons.mp hc with rfl | hc
    · exact h.1
    · exact ih h.2 hc

end

/-! ## From the grammar to the tree -/

open CurriedScript.Parser Grammar

/-- What the productions add to a tree meets the condition, where the tokens up to the end
of the text have the property. A group and an element alone add nothing. -/
structure Condition.Produced (P : Condition) (Q : List Token → Prop) : Prop where
  scanned {line : Nat} {text : List Char} {tokens : List Token} : scanFrom line text = .ok tokens → Q tokens
  after {ts rest : List Token} : Q (ts ++ rest) → Q rest
  statement {ts rest : List Token} {s : Statement} : IsStatement ts s → Q (ts ++ rest) → P.statement s
  binding {ts rest : List Token} {b : Binding} : IsBinding ts b → Q (ts ++ rest) → P.binding b
  chain {ts us rest : List Token} {operator : Token} {left right : Expr} : IsApplication ts left →
    operator.kind = .symbolic → IsChain us right → Q (operator :: us ++ rest) →
    P.form (.chain left operator.lexeme right)
  call {ts rest : List Token} {x y : Expr} {others : List Expr} : IsElements ts (x :: y :: others) →
    ¬ IsBangName x → Q (ts ++ rest) → P.form (.application (x :: y :: others))
  bangCall {ts rest : List Token} {x : Expr} {others : List Expr} : IsElements ts (x :: others) → IsBangName x →
    Q (ts ++ rest) → P.form (.application (x :: sentinel :: others))
  sentinel : P.form (.name "!")
  signature {ts rest : List Token} {names : List String} : IsSignature ts names → Q (ts ++ rest) → P.signature names
  unsigned : P.signature []
  literal (literal : Literal) : P.form (.literal literal)
  name {t : Token} {rest : List Token} : t.kind = .identifier ∨ t.kind = .symbolic → Q (t :: rest) →
    P.form (.name t.lexeme)
  builtin {t : Token} {rest : List Token} : t.kind = .builtin → Q (t :: rest) → P.form (.builtin t.text)
  function {names rest : List Token} {bar : Token} {body : List Statement} : names ≠ [] →
    (∀ t ∈ names, t.kind = .bang ∨ t.kind = .identifier) → bar.kind = .pipe → body ≠ [] → Q (names ++ bar :: rest) →
    P.form (.function (names.map (·.lexeme)) body)
  conditional {ts : List Token} {cases : List Case} : IsCases ts cases → P.form (.conditional cases)
  case {ts rest : List Token} {c : Case} : IsCase ts c → Q (ts ++ rest) → P.case c

section
variable {P : Condition} {Q : List Token → Prop} (hp : P.Produced Q)
include hp

theorem Condition.Produced.tail {t : Token} {rest : List Token} (hq : Q (t :: rest)) : Q rest := by
  rw [← List.singleton_append] at hq
  exact hp.after hq

namespace Grammar

-- Every production hands the tokens on to its parts, each with those behind it.
mutual
theorem IsStatement.every : ∀ {ts s}, IsStatement ts s → ∀ rest, Q (ts ++ rest) → s.Every P
  | _, _, h@(.use _ _ _), _, hq => hp.statement h hq
  | _, _, h@(.bind _ h' _), _, hq => by
    have hstatement := hp.statement h hq
    rw [List.append_assoc] at hq
    exact ⟨hstatement, h'.every _ (hp.tail hq)⟩
  | _, _, h@(.expr h' _), _, hq => by
    have hstatement := hp.statement h hq
    rw [List.append_assoc] at hq
    exact ⟨hstatement, h'.every _ hq⟩

theorem IsBindings.every : ∀ {ts bs}, IsBindings ts bs → ∀ rest, Q (ts ++ rest) → bindingsEvery P bs
  | _, _, .one h, rest, hq => ⟨h.every rest hq, trivial⟩
  | _, _, .more h _ h', rest, hq => by
    rw [List.append_assoc] at hq
    exact ⟨h.every _ hq, h'.every rest (hp.tail (hp.after hq))⟩

theorem IsBinding.every : ∀ {ts b}, IsBinding ts b → ∀ rest, Q (ts ++ rest) → b.Every P
  | _, _, h@(.mk _ _ h'), rest, hq => ⟨hp.binding h hq, h'.every rest (hp.tail (hp.tail hq))⟩

theorem IsChain.every : ∀ {ts x}, IsChain ts x → ∀ rest, Q (ts ++ rest) → x.Every P
  | _, _, .application h, rest, hq => h.every rest hq
  | _, _, .chain h ho h', rest, hq => by
    rw [List.append_assoc] at hq
    exact ⟨⟨hp.chain h ho h' (hp.after hq), h.every _ hq, h'.every rest (hp.tail (hp.after hq))⟩, hp.unsigned⟩

theorem IsApplication.every : ∀ {ts x}, IsApplication ts x → ∀ rest, Q (ts ++ rest) → x.Every P
  | _, _, .alone h _, rest, hq => (h.every rest hq).1
  | _, _, .call h hx, rest, hq => ⟨⟨hp.call h hx hq, h.every rest hq⟩, hp.unsigned⟩
  | _, _, .bangCall h hx, rest, hq => by
    obtain ⟨hhead, hothers⟩ := h.every rest hq
    exact ⟨⟨hp.bangCall h hx hq, hhead, ⟨hp.sentinel, hp.unsigned⟩, hothers⟩, hp.unsigned⟩

theorem IsElements.every : ∀ {ts xs}, IsElements ts xs → ∀ rest, Q (ts ++ rest) → exprsEvery P xs
  | _, _, .nil, _, _ => trivial
  | _, _, .cons h h', rest, hq => by
    rw [List.append_assoc] at hq
    exact ⟨h.every _ hq, h'.every rest (hp.after hq)⟩

theorem IsElement.every : ∀ {ts x}, IsElement ts x → ∀ rest, Q (ts ++ rest) → x.Every P
  | _, _, .plain h, rest, hq => h.every rest hq
  | _, _, .typed h _ hsig, rest, hq => by
    rw [List.append_assoc] at hq
    exact ⟨(h.every _ hq).1, hp.signature hsig (hp.tail (hp.after hq))⟩

theorem IsPrimary.every : ∀ {ts x}, IsPrimary ts x → ∀ rest, Q (ts ++ rest) → x.Every P
  | _, _, .literal _ _, _, _ => ⟨hp.literal _, hp.unsigned⟩
  | _, _, .name hk, _, hq => ⟨hp.name (.inl hk) hq, hp.unsigned⟩
  | _, _, .builtin hk, _, hq => ⟨hp.builtin hk hq, hp.unsigned⟩
  | _, _, .operator _ hk _, _, hq => ⟨hp.name (.inr hk) (hp.tail hq), hp.unsigned⟩
  | _, _, .group _ h _, _, hq => by
    rw [List.append_assoc] at hq
    exact h.every _ (hp.tail hq)
  | _, _, .function _ hne hn hb h hbody _, _, hq => by
    rw [List.append_assoc, List.append_assoc] at hq
    have hnames := hp.tail hq
    exact ⟨⟨hp.function hne hn hb hbody hnames, h.every _ (hp.tail (hp.after hnames))⟩, hp.unsigned⟩
  | _, _, .conditional _ h _, _, hq => by
    rw [List.append_assoc] at hq
    exact ⟨⟨hp.conditional h, h.every _ (hp.tail hq)⟩, hp.unsigned⟩

theorem IsStatements.every : ∀ {ts ss}, IsStatements ts ss → ∀ rest, Q (ts ++ rest) → statementsEvery P ss
  | _, _, .nil, _, _ => trivial
  | _, _, .cons h h', rest, hq => by
    rw [List.append_assoc] at hq
    exact ⟨h.every _ hq, h'.every rest (hp.after hq)⟩

theorem IsCases.every : ∀ {ts cs}, IsCases ts cs → ∀ rest, Q (ts ++ rest) → casesEvery P cs
  | _, _, .one h, rest, hq => ⟨h.every rest hq, trivial⟩
  | _, _, .more h h', rest, hq => by
    rw [List.append_assoc] at hq
    exact ⟨h.every _ hq, h'.every rest (hp.after hq)⟩

theorem IsCase.every : ∀ {ts c}, IsCase ts c → ∀ rest, Q (ts ++ rest) → c.Every P
  | _, _, h@(.mk _ h' _ _ hbody _), rest, hq => by
    have hcase := hp.case h hq
    rw [List.append_assoc] at hq
    exact ⟨hcase, h'.every _ (hp.tail hq), hbody.every rest (hp.tail (hp.after (hp.tail hq)))⟩
end

end Grammar

/-- What meets the condition at every production meets it in the tree of a source. -/
theorem Condition.Produced.parseSource {source : String} {program : List Statement}
    (h : parseSource source = .ok program) : statementsEvery P program := by
  obtain ⟨tokens, hscan, hparse⟩ := bind_eq_ok.mp h
  obtain ⟨before, rfl, hbefore, _⟩ := scanFrom_more hscan
  exact (parse_before hbefore rfl hparse).every hp _ (hp.scanned hscan)

end

/-! ## Tokens of a source -/

def Token.Alone (t : Token) : Prop := IsToken t.kind t.literal t.lexeme.toList

/-- Every lexeme is its token by itself, or a keyword before a symbol. -/
def Spelled : List Token → Prop
  | [] => True
  | t :: rest =>
    (t.Alone ∨ t.kind = .eof ∨ t.kind = .identifier ∧ headKind rest = some .symbolic) ∧ Spelled rest

theorem Spelled.after {ts rest : List Token} (h : Spelled (ts ++ rest)) : Spelled rest := by
  induction ts with
  | nil => exact h
  | cons t ts ih => exact ih h.2

theorem Spelled.alone {t : Token} {rest : List Token} (h : Spelled (t :: rest)) (ht : t.kind ≠ .eof)
    (hrest : t.kind = .identifier → headKind rest ≠ some .symbolic) : t.Alone := by
  rcases h.1 with halone | heof | ⟨hname, hsymbol⟩
  · exact halone
  · exact absurd heof ht
  · exact absurd hsymbol (hrest hname)

theorem headKind_of_lead {x : Char} (hlead : startsLikeNameChar x) (hname : isNameChar x = false) {line : Nat}
    {more : List Char} {tokens : List Token} (h : scanFrom line (x :: more) = .ok tokens) :
    headKind tokens = some .symbolic := by
  rcases step_of_lead hlead hname more with ⟨fault, hstep⟩ | ⟨lexeme, rest, hstep⟩
  · rw [scanFrom_fault hstep] at h
    cases h
  · rw [scanFrom_token hstep] at h
    cases hrest : scanFrom (line + newlines lexeme) rest with
    | error e => rw [hrest] at h; cases h
    | ok after => rw [hrest] at h; cases h; rfl

theorem scanFrom_spelled {line : Nat} {text : List Char} {tokens : List Token}
    (h : scanFrom line text = .ok tokens) :
    Spelled tokens := by
  fun_induction scanFrom line text generalizing tokens with
  | case1 line =>
    cases h
    exact ⟨.inr (.inl rfl), trivial⟩
  | case2 line c cs piece rest hstep _ ih => exact ih h
  | case3 line c cs kind literal lexeme rest hstep _ ih =>
    obtain ⟨after, hafter, h⟩ := bind_eq_ok.mp h
    cases h
    refine ⟨?_, ih hafter⟩
    rcases step_lexeme hstep with halone | ⟨hname, _, _, x, more, rfl, hlead, hx⟩
    · refine .inl ?_
      unfold Token.Alone
      rwa [String.toList_ofList]
    · exact .inr (.inr ⟨hname, headKind_of_lead hlead hx hafter⟩)
  | case4 => cases h

/-! ## Shapes -/

def IsLexeme (kind : TokenKind) (text : String) : Prop := ∃ literal, IsToken kind literal text.toList

/-- Alone `!` is a mark, never a name. -/
theorem isToken_bang {kind : TokenKind} {literal : Option Literal} (h : IsToken kind literal ['!']) :
    kind = .bang := by
  have hstep : step '!' [] = .token .bang none ['!'] [] := rfl
  cases hstep.symm.trans h
  rfl

theorem Token.Alone.isLexeme {t : Token} (h : t.Alone) : IsLexeme t.kind t.lexeme := ⟨t.literal, h⟩

def shape : Condition where
  form
    | .chain left operator right => IsLexeme .symbolic operator ∧ ¬ IsBangName left ∧ ¬ IsBangName right
    | .application elements => 2 ≤ elements.length
    | .function parameters body =>
      parameters ≠ [] ∧ (∀ p ∈ parameters, IsLexeme .bang p ∨ IsLexeme .identifier p) ∧ body ≠ []
    | .conditional cases => cases ≠ []
    | .builtin name => IsToken .builtin (some (.string name)) ('{' :: '#' :: (name.toList ++ ['}']))
    | .name _ | .literal _ => True
  signature names := ∀ name ∈ names, IsLexeme .typename name
  case := fun ⟨condition, body⟩ => ¬ IsBangName condition ∧ body ≠ []
  statement
    | .use _ => True
    | .bind bindings => bindings ≠ []
    | .expr expr => ¬ IsBangName expr
  binding := fun ⟨name, value⟩ => (IsLexeme .identifier name ∨ IsLexeme .symbolic name) ∧ ¬ IsBangName value

theorem Spelled.isLexeme {t : Token} {rest : List Token} {kind : TokenKind} (h : Spelled (t :: rest))
    (ht : t.kind = kind)
    (heof : kind ≠ .eof) (hrest : kind = .identifier → headKind rest ≠ some .symbolic) :
    IsLexeme kind t.lexeme := by
  subst ht
  exact (h.alone heof hrest).isLexeme

namespace Grammar

theorem IsSignature.shape {ts : List Token} {names : List String} (h : IsSignature ts names) {rest : List Token}
    (hs : Spelled (ts ++ rest)) : ∀ name ∈ names, IsLexeme .typename name := by
  induction h with
  | one ht => simpa using hs.isLexeme ht (by simp) (by simp)
  | more ht _ _ ih =>
    intro name hname
    rcases List.mem_cons.mp hname with rfl | hname
    · exact hs.isLexeme ht (by simp) (by simp)
    · exact ih hs.2.2 name hname

theorem parameters_shape {names : List Token} {bar : Token} {rest : List Token}
    (hnames : ∀ t ∈ names, t.kind = .bang ∨ t.kind = .identifier) (hbar : bar.kind = .pipe)
    (hs : Spelled (names ++ bar :: rest)) :
    ∀ p ∈ names.map (·.lexeme), IsLexeme .bang p ∨ IsLexeme .identifier p := by
  induction names with
  | nil => simp
  | cons t names ih =>
    have hnext : headKind (names ++ bar :: rest) ≠ some .symbolic := by
      cases names with
      | nil => simp [headKind, hbar]
      | cons u names => rcases hnames u (by simp) with hu | hu <;> simp [headKind, hu]
    intro p hp
    rcases List.mem_cons.mp hp with rfl | hp
    · rcases hnames t (by simp) with ht | ht
      · exact .inl (hs.isLexeme ht (by simp) (by simp))
      · exact .inr (hs.isLexeme ht (by simp) fun _ => hnext)
    · exact ih (fun u hu => hnames u (by simp [hu])) hs.2 p hp

theorem builtin_shape {t : Token} {rest : List Token} (ht : t.kind = .builtin) (hs : Spelled (t :: rest)) :
    IsToken .builtin (some (.string t.text)) ('{' :: '#' :: (t.text.toList ++ ['}'])) := by
  have halone := hs.alone (by simp [ht]) (by simp [ht])
  obtain ⟨kind, lexeme, literal, line⟩ := t
  obtain rfl : kind = .builtin := ht
  unfold Token.Alone at halone
  dsimp only at halone
  cases hchars : lexeme.toList with
  | nil => rw [hchars] at halone; exact absurd halone id
  | cons c cs =>
    rw [hchars] at halone
    obtain ⟨name, rfl, hlexeme⟩ := step_builtin halone
    rw [hlexeme] at halone
    simpa [Token.text, String.toList_ofList] using halone

theorem IsChain.not_isBangName {ts : List Token} {x : Expr} (h : IsChain ts x) : ¬ IsBangName x := by
  cases h with
  | application h =>
    cases h with
    | alone _ hb => exact hb
    | call _ _ => exact id
    | bangCall _ _ => exact id
  | chain _ _ _ => exact id

theorem IsApplication.not_isBangName {ts : List Token} {x : Expr} (h : IsApplication ts x) : ¬ IsBangName x :=
  (IsChain.application h).not_isBangName

theorem IsBindings.bindings_ne_nil {ts : List Token} {bs : List Binding} (h : IsBindings ts bs) : bs ≠ [] := by
  cases h <;> simp

theorem IsCases.cases_ne_nil {ts : List Token} {cs : List Case} (h : IsCases ts cs) : cs ≠ [] := by
  cases h <;> simp

end Grammar

theorem shape_produced : shape.Produced Spelled where
  scanned := scanFrom_spelled
  after := Spelled.after
  statement h _ := by
    cases h with
    | use => trivial
    | bind _ h _ => exact h.bindings_ne_nil
    | expr h _ => exact h.not_isBangName
  binding h hs := by
    cases h with
    | mk hname harrow h =>
      refine ⟨?_, h.not_isBangName⟩
      rcases hname with hname | hname
      · exact .inl (hs.isLexeme hname (by simp) fun _ => by simp [headKind, harrow])
      · exact .inr (hs.isLexeme hname (by simp) (by simp))
  chain h ho h' hs := ⟨hs.isLexeme ho (by simp) (by simp), h.not_isBangName, h'.not_isBangName⟩
  call _ _ _ := by simp [shape]
  bangCall _ _ _ := by simp [shape]
  sentinel := trivial
  signature h hs := h.shape hs
  unsigned := by simp [shape]
  literal _ := trivial
  name _ _ := trivial
  builtin := builtin_shape
  function hne hnames hbar hbody hs := ⟨by simpa using hne, parameters_shape hnames hbar hs, hbody⟩
  conditional h := h.cases_ne_nil
  case h _ := by
    cases h with
    | mk _ h _ _ _ hbody => exact ⟨h.not_isBangName, hbody⟩

/-- **The shape of parsed trees.** -/
theorem parseSource_shape {source : String} {program : List Statement} (h : parseSource source = .ok program) :
    statementsEvery shape program :=
  shape_produced.parseSource h

end CurriedScript
