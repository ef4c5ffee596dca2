import CurriedScript.Proofs.Erasure
import CurriedScript.Proofs.ParserComplete

/-!
# What stands around a part of a program

The texts and trees of the grammar's productions, as one family, and all the ways in
which a text of one stands in a text of another: `Frame`. What holds of a part and
passes through each frame holds of the program around it. Three things do: the part
is a text of the grammar (`Frame.derives`), two trees of it differ in signatures only
(`Frame.sameErased`), and reading it fails (`Frame.stuck`).
-/

namespace CurriedScript.Grammar

open CurriedScript.Parser

/-- The productions that have expressions in them. A condition is a chain that does not
end in a type name. -/
inductive Part where
  | statements
  | statement
  | bindings
  | binding
  | chain
  | application
  | elements
  | element
  | primary
  | cases
  | case
  | condition

namespace Part

@[reducible] def Tree : Part → Type
  | .statements => List Statement
  | .statement => Statement
  | .bindings => List Binding
  | .binding => Binding
  | .elements => List Expr
  | .chain | .application | .element | .primary | .condition => Expr
  | .cases => List Case
  | .case => Case

@[reducible] def Derives : (p : Part) → List Token → p.Tree → Prop
  | .statements, ts, body => IsStatements ts body ∧ body ≠ []
  | .statement, ts, s => IsStatement ts s
  | .bindings, ts, bs => IsBindings ts bs
  | .binding, ts, b => IsBinding ts b
  | .chain, ts, x => IsChain ts x
  | .application, ts, x => IsApplication ts x
  | .elements, ts, xs => IsElements ts xs
  | .element, ts, x => IsElement ts x
  | .primary, ts, x => IsPrimary ts x
  | .cases, ts, cs => IsCases ts cs
  | .case, ts, c => IsCase ts c
  | .condition, ts, x => IsChain ts x ∧ ¬ EndsInType ts

@[reducible] def SameErased : (p : Part) → p.Tree → p.Tree → Prop
  | .statements, body, body' => statementsErased body = statementsErased body'
  | .statement, s, s' => s.erased = s'.erased
  | .bindings, bs, bs' => bindingsErased bs = bindingsErased bs'
  | .binding, b, b' => b.erased = b'.erased
  | .elements, xs, xs' => exprsErased xs = exprsErased xs'
  | .chain, x, x' | .application, x, x' | .element, x, x' | .primary, x, x' | .condition, x, x' =>
    x.erased = x'.erased
  | .cases, cs, cs' => casesErased cs = casesErased cs'
  | .case, c, c' => c.erased = c'.erased

def opens : Part → TokenKind → Bool
  | .statements, kind | .statement, kind => opensStatement kind
  | .bindings, _ | .binding, _ => true
  | .cases, kind | .case, kind => kind = .pipe
  | .chain, kind | .application, kind | .elements, kind | .element, kind | .primary, kind | .condition, kind =>
    opensPrimary kind

@[reducible] def Fails : Part → List Token → Error → Prop
  | .statements, ts, e =>
    ∀ ends : TokenKind → Bool, (∀ k, ends k = true → opensStatement k = false) →
      plain (Parser.statements ends ts) = .error e
  | .statement, ts, e => plain (Parser.statement ts) = .error e
  | .bindings, ts, e => plain (Parser.bindings ts) = .error e
  | .binding, ts, e => plain (Parser.binding ts) = .error e
  | .chain, ts, e | .condition, ts, e => plain (Parser.chain ts) = .error e
  | .application, ts, e => plain (Parser.application ts) = .error e
  | .elements, ts, e => plain (Parser.elements ts) = .error e
  | .element, ts, e => plain? (element? ts) = .error e
  | .primary, ts, e => plain? (primary? ts) = .error e
  | .cases, ts, e | .case, ts, e => plain (Parser.cases ts) = .error e

structure Stuck (p : Part) (ts : List Token) (e : Error) : Prop where
  opens : ∃ k, headKind ts = some k ∧ p.opens k = true
  fails : p.Fails ts e

end Part

/-- Between the tokens `us` and `vs`, a text of the first part is one of the second, and
its tree is in the tree that the function gives. -/
inductive Frame : (p q : Part) → List Token → List Token → (p.Tree → q.Tree) → Prop
  | bind {word stop : Token} : word.kind = .letWord → stop.kind = .semicolon →
      Frame .bindings .statement [word] [stop] fun bs => Statement.bind bs
  | expr {stop : Token} : stop.kind = .semicolon → Frame .chain .statement [] [stop] fun x => Statement.expr x
  | firstStatement {us : List Token} {others : List Statement} : IsStatements us others →
      Frame .statement .statements [] us fun s => s :: others
  | laterStatements {ts : List Token} {s : Statement} : IsStatement ts s →
      Frame .statements .statements ts [] fun others => s :: others
  | oneBinding : Frame .binding .bindings [] [] fun b => [b]
  | firstBinding {us : List Token} {comma : Token} {bs : List Binding} : comma.kind = .comma → IsBindings us bs →
      Frame .binding .bindings [] (comma :: us) fun b => b :: bs
  | laterBindings {ts : List Token} {comma : Token} {b : Binding} : IsBinding ts b → comma.kind = .comma →
      Frame .bindings .bindings (ts ++ [comma]) [] fun bs => b :: bs
  | value {name arrow : Token} : name.kind = .identifier ∨ name.kind = .symbolic → arrow.kind = .leftArrow →
      Frame .chain .binding [name, arrow] [] fun x => ⟨name.lexeme, x⟩
  | alone : Frame .application .chain [] [] fun x => x
  | left {us : List Token} {operator : Token} {right : Expr} : operator.kind = .symbolic → IsChain us right →
      Frame .application .chain [] (operator :: us) fun x => (Form.chain x operator.lexeme right).bare
  | right {ts : List Token} {operator : Token} {left : Expr} : IsApplication ts left → operator.kind = .symbolic →
      Frame .chain .chain (ts ++ [operator]) [] fun x => (Form.chain left operator.lexeme x).bare
  | head {us : List Token} {others : List Expr} : IsElements us others →
      Frame .element .application [] us fun x => applied x others
  | arguments {ts : List Token} {x : Expr} : IsElement ts x →
      Frame .elements .application ts [] fun others => applied x others
  | firstElement {us : List Token} {others : List Expr} : IsElements us others →
      Frame .element .elements [] us fun x => x :: others
  | laterElements {ts : List Token} {x : Expr} : IsElement ts x →
      Frame .elements .elements ts [] fun others => x :: others
  | untyped : Frame .primary .element [] [] fun x => x
  | typed {us : List Token} {colon : Token} {names : List String} : colon.kind = .colon → IsSignature us names →
      Frame .primary .element [] (colon :: us) fun x => ⟨x.form, names⟩
  | group {opening closing : Token} : opening.kind = .openParen → closing.kind = .closeParen →
      Frame .chain .primary [opening] [closing] fun x => x
  | function {opening bar closing : Token} {names : List Token} : opening.kind = .openBrace → names ≠ [] →
      (∀ t ∈ names, t.kind = .bang ∨ t.kind = .identifier) → bar.kind = .pipe → closing.kind = .closeBrace →
      Frame .statements .primary (opening :: names ++ [bar]) [closing] fun body =>
        (Form.function (names.map (·.lexeme)) body).bare
  | conditional {word stop : Token} : word.kind = .condWord → stop.kind = .endWord →
      Frame .cases .primary [word] [stop] fun cs => (Form.conditional cs).bare
  | oneCase : Frame .case .cases [] [] fun c => [c]
  | firstCase {us : List Token} {others : List Case} : IsCases us others →
      Frame .case .cases [] us fun c => c :: others
  | laterCases {ts : List Token} {c : Case} : IsCase ts c →
      Frame .cases .cases ts [] fun others => c :: others
  | condition {bar arrow : Token} {us : List Token} {body : List Statement} : bar.kind = .pipe →
      arrow.kind = .rightArrow → IsStatements us body → body ≠ [] →
      Frame .condition .case [bar] (arrow :: us) fun x => ⟨x, body⟩
  | body {bar arrow : Token} {ts : List Token} {x : Expr} : bar.kind = .pipe → IsChain ts x → ¬ EndsInType ts →
      arrow.kind = .rightArrow → Frame .statements .case (bar :: ts ++ [arrow]) [] fun body => ⟨x, body⟩

/-! ## Signatures -/

theorem isBangCall_erased (x : Expr) : isBangCall x.erased = isBangCall x := by
  obtain ⟨form, signature⟩ := x
  cases form <;> rfl

theorem applied_erased {x x' : Expr} {others others' : List Expr} (hx : x.erased = x'.erased)
    (hothers : exprsErased others = exprsErased others') :
    (applied x others).erased = (applied x' others').erased := by
  have hbang : isBangCall x = isBangCall x' := by rw [← isBangCall_erased, hx, isBangCall_erased]
  have hempty : others.isEmpty = others'.isEmpty := by
    cases others <;> cases others' <;> simp_all [exprsErased]
  unfold applied
  rw [hbang, hempty]
  split
  · simp [Form.bare, Expr.erased, Form.erased, exprsErased, hx, hothers]
  · split
    · exact hx
    · simp [Form.bare, Expr.erased, Form.erased, exprsErased, hx, hothers]

namespace Frame

variable {p q : Part} {us vs ts : List Token} {f : p.Tree → q.Tree}

theorem derives (h : Frame p q us vs f) {x : p.Tree} (hx : p.Derives ts x) : q.Derives (us ++ ts ++ vs) (f x) := by
  cases h with
  | bind hw hs => exact IsStatement.bind hw hx hs
  | expr hs => exact IsStatement.expr hx hs
  | firstStatement h => exact ⟨IsStatements.cons hx h, by simp⟩
  | laterStatements h => exact ⟨by simpa using IsStatements.cons h hx.1, by simp⟩
  | oneBinding => simpa using IsBindings.one hx
  | firstBinding hc h => exact IsBindings.more hx hc h
  | laterBindings h hc => simpa using IsBindings.more h hc hx
  | value hn ha => simpa using IsBinding.mk hn ha hx
  | alone => simpa using IsChain.application hx
  | left ho h => exact IsChain.chain hx ho h
  | right h ho => simpa [Form.bare] using IsChain.chain h ho hx
  | head h => exact applied_sound (.cons hx h)
  | arguments h => simpa using applied_sound (.cons h hx)
  | firstElement h => exact IsElements.cons hx h
  | laterElements h => simpa using IsElements.cons h hx
  | untyped => simpa using IsElement.plain hx
  | typed hc h =>
    obtain ⟨form, earlier⟩ := x
    exact IsElement.typed hx hc h
  | group ho hc => exact IsPrimary.group ho hx hc
  | function ho hne hn hb hc => simpa [Form.bare] using IsPrimary.function ho hne hn hb hx.1 hx.2 hc
  | conditional hw hs => exact IsPrimary.conditional hw hx hs
  | oneCase => simpa using IsCases.one hx
  | firstCase h => exact IsCases.more hx h
  | laterCases h => simpa using IsCases.more h hx
  | condition hb ha h hne => exact IsCase.mk hb hx.1 hx.2 ha h hne
  | body hb h he ha => simpa using IsCase.mk hb h he ha hx.1 hx.2

theorem sameErased (h : Frame p q us vs f) {x x' : p.Tree} (hx : p.SameErased x x') :
    q.SameErased (f x) (f x') := by
  cases h with
  | bind _ _ => exact congrArg Statement.bind hx
  | expr _ => exact congrArg Statement.expr hx
  | firstStatement _ | firstBinding _ _ | firstElement _ | firstCase _ => exact congrArg (· :: _) hx
  | laterStatements _ | laterBindings _ _ | laterElements _ | laterCases _ => exact congrArg (_ :: ·) hx
  | oneBinding | oneCase => exact congrArg ([·]) hx
  | value _ _ => exact congrArg (Binding.mk _) hx
  | alone | untyped | group _ _ => exact hx
  | left _ _ => exact congrArg (fun x => (Form.chain x _ _).bare) hx
  | right _ _ => exact congrArg (fun x => (Form.chain _ _ x).bare) hx
  | head _ => exact applied_erased hx rfl
  | arguments _ => exact applied_erased rfl hx
  | typed _ _ => exact congrArg Form.bare (Expr.form_erased hx)
  | function _ _ _ _ _ => exact congrArg (fun body => (Form.function _ body).bare) hx
  | conditional _ _ => exact congrArg (fun cs => (Form.conditional cs).bare) hx
  | condition _ _ _ _ => exact congrArg (Case.mk · _) hx
  | body _ _ _ _ => exact congrArg (Case.mk _) hx

/-! ## Faults -/

/-- An arrow behind the part is behind a condition, and in front of a body. -/
theorem follows (h : Frame p q us vs f) (hvs : headKind vs = some .rightArrow) :
    ∃ k, headKind vs.tail = some k ∧ opensStatement k = true := by
  cases h with
  | condition _ _ h hne =>
    cases h with
    | nil => exact absurd rfl hne
    | cons h _ =>
      obtain ⟨k, hk, ho⟩ := h.head
      exact ⟨k, (headKind_append h.ne_nil).trans hk, ho⟩
  | firstStatement h =>
    cases h with
    | nil => cases hvs
    | cons h _ =>
      obtain ⟨k, hk, ho⟩ := h.head
      exact absurd hvs (headKind_ne ((headKind_append h.ne_nil).trans hk) ho rfl)
  | firstCase h =>
    rw [← List.append_nil vs, h.head []] at hvs
    cases hvs
  | head h | firstElement h =>
    cases h with
    | nil => cases hvs
    | cons h _ =>
      obtain ⟨k, hk, ho⟩ := h.head
      exact absurd hvs (headKind_ne ((headKind_append h.ne_nil).trans hk) ho rfl)
  | bind _ ht | expr ht | group _ ht | function _ _ _ _ ht | conditional _ ht | firstBinding ht _ | left ht _
  | typed ht _ =>
    simp [headKind, ht] at hvs
  | _ => cases hvs

theorem opens (h : Frame p q us vs f) {k : TokenKind} (hk : headKind ts = some k) (ho : p.opens k = true) :
    ∃ k, headKind (us ++ ts) = some k ∧ q.opens k = true := by
  cases h with
  | bind hw _ => exact ⟨_, rfl, by simp [Part.opens, opensStatement, hw]⟩
  | expr _ => exact ⟨k, hk, by simp_all [Part.opens, opensStatement]⟩
  | laterStatements h =>
    obtain ⟨k, hk, ho⟩ := h.head
    exact ⟨k, (headKind_append h.ne_nil).trans hk, ho⟩
  | laterBindings h _ =>
    cases h
    exact ⟨_, rfl, rfl⟩
  | value _ _ => exact ⟨_, rfl, rfl⟩
  | right h _ =>
    obtain ⟨k, hk, ho⟩ := h.head
    exact ⟨k, by rw [List.append_assoc, headKind_append h.ne_nil, hk], ho⟩
  | arguments h | laterElements h =>
    obtain ⟨k, hk, ho⟩ := h.head
    exact ⟨k, (headKind_append h.ne_nil).trans hk, ho⟩
  | group ht _ | function ht _ _ _ _ | conditional ht _ => exact ⟨_, rfl, by simp [Part.opens, opensPrimary, ht]⟩
  | laterCases h => exact ⟨_, (IsCases.one h).head ts, rfl⟩
  | condition hb _ _ _ | body hb _ _ _ => exact ⟨_, rfl, by simp [Part.opens, hb]⟩
  | _ => exact ⟨k, hk, ho⟩

theorem fails (h : Frame p q us vs f) {k : TokenKind} (hk : headKind ts = some k) (ho : p.opens k = true)
    {e : Error}
    (hfails : p.Fails ts e) : q.Fails (us ++ ts) e := by
  cases h with
  | @bind word _ hw _ =>
    have huse : next? .useWord (word :: ts) = none := next?_eq_none.mpr (by simp [headKind, hw])
    change plain (Parser.statement (word :: ts)) = .error e
    rw [plain_statement, plain_clause]
    simp only [huse, next?_eq_some.mpr ⟨rfl, hw⟩, hfails]
    rfl
  | expr _ =>
    change plain (Parser.statement ts) = .error e
    rw [plain_statement, plain_clause, next?_eq_none.mpr (headKind_ne hk ho rfl),
      next?_eq_none.mpr (headKind_ne hk ho rfl)]
    simp only [hfails]
    rfl
  | firstStatement _ =>
    intro ends hends
    change plain (Parser.statements ends ts) = .error e
    rw [plain_statements_of_head hk, if_neg (statements_go_on ho hends), hfails]
    rfl
  | laterStatements h =>
    intro ends hends
    obtain ⟨kind, hkind, hopens⟩ := h.head
    rw [plain_statements_of_head ((headKind_append h.ne_nil).trans hkind), if_neg (statements_go_on hopens hends),
      h.complete]
    simp only [ok_bind, hfails ends hends]
    rfl
  | oneBinding | firstBinding _ _ =>
    change plain (Parser.bindings ts) = .error e
    rw [plain_bindings, hfails]
    rfl
  | @laterBindings us comma _ h hc =>
    change plain (Parser.bindings (us ++ [comma] ++ ts)) = .error e
    rw [plain_bindings, List.append_assoc, h.complete _ (.inr (by simp [headKind, hc]))]
    simp only [ok_bind, List.cons_append, List.nil_append, next?_eq_some.mpr ⟨rfl, hc⟩, hfails]
    rfl
  | value hn ha =>
    change plain (Parser.binding (_ :: _ :: ts)) = .error e
    rw [plain_binding, bindable_eq_some.mpr ⟨rfl, hn⟩]
    simp only [expect_eq_ok.mpr ⟨rfl, ha⟩, ok_bind, hfails]
    rfl
  | alone | left _ _ =>
    change plain (Parser.chain ts) = .error e
    rw [plain_chain, hfails]
    rfl
  | @right us operator _ h hop =>
    change plain (Parser.chain (us ++ [operator] ++ ts)) = .error e
    rw [plain_chain, List.append_assoc, h.complete _ (stops_of_kind rfl (by simp [hop]))]
    simp only [ok_bind, List.cons_append, List.nil_append, next?_eq_some.mpr ⟨rfl, hop⟩, hfails]
    rfl
  | head _ =>
    change plain (Parser.application ts) = .error e
    rw [plain_application, hfails]
    rfl
  | @arguments us _ h =>
    change plain (Parser.application (us ++ ts)) = .error e
    rw [plain_application, h.complete ts (headKind_ne hk ho rfl) fun _ => headKind_ne hk ho rfl]
    simp only [ok_bind, hfails]
    rfl
  | firstElement _ =>
    change plain (Parser.elements ts) = .error e
    rw [plain_elements, hfails]
    rfl
  | @laterElements us _ h =>
    change plain (Parser.elements (us ++ ts)) = .error e
    rw [plain_elements, h.complete ts (headKind_ne hk ho rfl) fun _ => headKind_ne hk ho rfl]
    simp only [ok_bind, hfails]
    rfl
  | untyped | typed _ _ =>
    change plain? (element? ts) = .error e
    rw [plain_element?, hfails]
    rfl
  | group ht _ =>
    have hno : next? .symbolic ts = none := next?_eq_none.mpr (headKind_ne hk ho rfl)
    change plain? (primary? (_ :: ts)) = .error e
    rw [plain_primary?_cons, ht]
    simp only [plain_group, hno, hfails]
    rfl
  | @function _ bar _ names ht hne hn hb _ =>
    change plain? (primary? (_ :: (names ++ [bar] ++ ts))) = .error e
    rw [plain_primary?_cons, ht, List.append_assoc]
    simp only [plain_function, List.cons_append, List.nil_append, parameters_complete hne hn hb, ok_bind,
      plain_body,
      hfails endsFunction (opensStatement_of_ends · |>.1)]
    rfl
  | conditional ht _ =>
    have hno : next? .endWord ts = none := next?_eq_none.mpr (headKind_ne hk ho rfl)
    change plain? (primary? (_ :: ts)) = .error e
    rw [plain_primary?_cons, ht]
    simp only [plain_conditional, hno, hfails]
    rfl
  | oneCase | firstCase _ => exact hfails
  | @laterCases us _ h =>
    obtain rfl : k = .pipe := of_decide_eq_true ho
    change plain (Parser.cases (us ++ ts)) = .error e
    rw [h.complete ts (.inl hk), next?_eq_none.mpr (headKind_ne hk ho rfl), hfails]
    rfl
  | condition hb _ _ _ =>
    change plain (Parser.cases (_ :: ts)) = .error e
    rw [plain_cases, expect_eq_ok.mpr ⟨rfl, hb⟩]
    simp only [ok_bind, hfails]
    rfl
  | @body bar arrow us _ hb h he ha =>
    change plain (Parser.cases (bar :: (us ++ [arrow] ++ ts))) = .error e
    rw [plain_cases, expect_eq_ok.mpr ⟨rfl, hb⟩, List.append_assoc]
    simp only [ok_bind, List.cons_append, List.nil_append,
      h.complete _ (stops_of_arrow he ha) (show headKind (_ :: _) ≠ some .symbolic by simp [headKind, ha]),
      expect_eq_ok.mpr ⟨rfl, ha⟩, plain_body, hfails endsCase (opensStatement_of_ends · |>.2)]
    rfl

theorem stuck (h : Frame p q us vs f) {e : Error} (hts : p.Stuck ts e) : q.Stuck (us ++ ts) e := by
  obtain ⟨⟨k, hk, ho⟩, hfails⟩ := hts
  exact ⟨h.opens hk ho, h.fails hk ho hfails⟩

end Frame

end CurriedScript.Grammar
