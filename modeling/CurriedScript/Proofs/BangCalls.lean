import CurriedScript.Proofs.Shape
import Mathlib.Data.List.Basic

/-!
# Where `!` stands in a tree

`parseSource_wellFormed`: in the tree of a source a name that ends in `!` only stands in
applications, where it is followed by `!` if it is called, and `!` stands nowhere else. No
list is empty that the grammar fills. The scanner never makes a name of `!`, so a name `!`
is always one that the parser put there.
-/

namespace CurriedScript

open CurriedScript.Parser Grammar

/-! ## Tokens -/

def MarksBang (ts : List Token) : Prop := ∀ t ∈ ts, t.lexeme = "!" → t.kind = .bang

theorem kind_of_bang {c : Char} {text rest : List Char} {kind : TokenKind} {literal : Option Literal}
    (h : step c text = .token kind literal ['!'] rest) : kind = .bang := by
  rcases step_lexeme h with halone | ⟨_, _, ⟨keyword, hkeyword⟩, _⟩
  · exact isToken_bang halone
  · cases hkeyword

theorem scanFrom_marksBang {line : Nat} {text : List Char} {tokens : List Token}
    (h : scanFrom line text = .ok tokens) :
    MarksBang tokens := by
  fun_induction scanFrom line text generalizing tokens with
  | case1 line =>
    cases h
    simp [MarksBang, Token.eof]
  | case2 line c cs piece rest hstep _ ih => exact ih h
  | case3 line c cs kind literal lexeme rest hstep _ ih =>
    obtain ⟨after, hafter, h⟩ := bind_eq_ok.mp h
    cases h
    intro t ht hbang
    rcases List.mem_cons.mp ht with rfl | ht
    · obtain rfl : lexeme = ['!'] := by simpa using congrArg String.toList hbang
      exact kind_of_bang hstep
    · exact ih hafter t ht hbang
  | case4 => cases h

/-! ## Elements -/

theorem isBangName_of_form {x : Expr} (h : x.form = .name "!") : IsBangName x := by
  obtain ⟨form, signature⟩ := x
  cases h
  exact ⟨"", rfl⟩

namespace Grammar

theorem IsPrimary.form_ne {ts rest : List Token} {x : Expr} (h : IsPrimary ts x) (hq : MarksBang (ts ++ rest)) :
    x.form ≠ .name "!" := by
  have hname : ∀ t ∈ ts, t.kind = .identifier ∨ t.kind = .symbolic → Form.name t.lexeme ≠ .name "!" := by
    intro t ht hkind hsame
    have hbang := hq t (List.mem_append_left _ ht) (Form.name.inj hsame)
    rw [hbang] at hkind
    simp at hkind
  cases h with
  | name hk => exact hname _ (by simp) (.inl hk)
  | operator _ hk _ => exact hname _ (by simp) (.inr hk)
  | group _ h _ => exact fun hx => h.not_isBangName (isBangName_of_form hx)
  | literal | builtin | function | conditional => simp

theorem IsElement.form_ne {ts rest : List Token} {x : Expr} (h : IsElement ts x) (hq : MarksBang (ts ++ rest)) :
    x.form ≠ .name "!" := by
  cases h with
  | plain h => exact h.form_ne hq
  | typed h _ _ =>
    rw [List.append_assoc] at hq
    exact h.form_ne hq

theorem IsElements.form_ne : ∀ {ts xs}, IsElements ts xs → ∀ rest, MarksBang (ts ++ rest) →
    ∀ x ∈ xs, x.form ≠ .name "!"
  | _, _, .nil, _, _ => by simp
  | _, _, .cons h h', rest, hq => by
    rw [List.append_assoc] at hq
    intro x hx
    rcases List.mem_cons.mp hx with rfl | hx
    · exact h.form_ne hq
    · exact h'.form_ne rest (fun t ht => hq t (List.mem_append_right _ ht)) x hx

end Grammar

/-! ## Trees -/

/-- What is called and what it is called with, at least one of those. A name that ends in
`!` is called with `!` before all else, and no other element is `!`. -/
inductive IsCall : List Expr → Prop
  | plain {x y : Expr} {others : List Expr} : ¬ IsBangName x → (∀ z ∈ x :: y :: others, z.form ≠ .name "!") →
      IsCall (x :: y :: others)
  | bang {x : Expr} {others : List Expr} : IsBangName x → (∀ z ∈ x :: others, z.form ≠ .name "!") →
      IsCall (x :: ⟨.name "!", []⟩ :: others)

def wellFormed : Condition where
  form
    | .chain left _ right => ¬ IsBangName left ∧ ¬ IsBangName right
    | .application elements => IsCall elements
    | .function parameters body => parameters ≠ [] ∧ body ≠ []
    | .conditional cases => cases ≠ []
    | .name _ | .literal _ | .builtin _ => True
  signature _ := True
  case := fun ⟨condition, body⟩ => ¬ IsBangName condition ∧ body ≠ []
  statement
    | .use _ => True
    | .bind bindings => bindings ≠ []
    | .expr x => ¬ IsBangName x
  binding := fun ⟨_, value⟩ => ¬ IsBangName value

theorem wellFormed_produced : wellFormed.Produced MarksBang where
  scanned := scanFrom_marksBang
  after hq t ht := hq t (List.mem_append_right _ ht)
  statement h _ := by
    cases h with
    | use => trivial
    | bind _ h _ => exact h.bindings_ne_nil
    | expr h _ => exact h.not_isBangName
  binding h _ := by
    cases h with
    | mk _ _ h => exact h.not_isBangName
  chain h _ h' _ := ⟨h.not_isBangName, h'.not_isBangName⟩
  call h hx hq := .plain hx (h.form_ne _ hq)
  bangCall h hx hq := .bang hx (h.form_ne _ hq)
  sentinel := trivial
  signature _ _ := trivial
  unsigned := trivial
  literal _ := trivial
  name _ _ := trivial
  builtin _ _ := trivial
  function hne _ _ hbody _ := ⟨by simpa using hne, hbody⟩
  conditional h := h.cases_ne_nil
  case h _ := by
    cases h with
    | mk _ h _ _ _ hbody => exact ⟨h.not_isBangName, hbody⟩

/-- **The tree of a source is well formed at every depth.** No `let` is without bindings, no
function without parameters or statements, no conditional without cases, no case without
statements. An application has at least two elements. If the first is a name that ends in
`!`, the second is `!`, and no other `!` stands anywhere. Such a name is no operand, value,
condition or statement, only an element of an application. -/
theorem parseSource_wellFormed {source : String} {program : List Statement} (h : parseSource source = .ok program) :
    statementsEvery wellFormed program :=
  wellFormed_produced.parseSource h

set_option maxRecDepth 2000 in
/-- A call within a group that is called itself, an operator that ends in `!`, and a name
that ends in `!` as a later argument. -/
theorem nestedCalls_wellFormed :
    let inner := Form.application [⟨.name "g!", []⟩, ⟨.name "!", []⟩]
    let operator := Form.application [⟨.name "!!", []⟩, ⟨.name "!", []⟩, ⟨.name "g!", []⟩, ⟨.name "x", []⟩]
    let function := Form.function ["!", "x"] [.expr operator.bare]
    let conditional :=
      Form.conditional [⟨(Form.name "a").bare, [.expr (Form.application [inner.bare, ⟨.name "f!", ["T"]⟩]).bare]⟩]
    let program := [Statement.bind [⟨"f!", function.bare⟩], .expr conditional.bare]
    parseSource "let f! <- \x7b ! x | (!!) g! x; \x7d; cond | a -> (g!) f!: T; end;" = .ok program ∧
      statementsEvery wellFormed program := by
  intro inner operator function conditional program
  have hparse : parseSource "let f! <- \x7b ! x | (!!) g! x; \x7d; cond | a -> (g!) f!: T; end;" =
      .ok program := by cbv
  exact ⟨hparse, parseSource_wellFormed hparse⟩

end CurriedScript
