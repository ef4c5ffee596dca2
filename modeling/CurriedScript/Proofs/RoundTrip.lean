import CurriedScript.Proofs.Printing
import CurriedScript.Proofs.Shape
import Mathlib

/-!
# Printing and parsing again

`parseSource_display`: a parsed program that is printed and parsed again is the same,
signatures included, if every part of it is printed as something that can be
read. Most of the proof is that each form is printed as the text of a primary.
-/

namespace CurriedScript

open CurriedScript.Parser Grammar

/-- What is printed as something that can be read back: calls without the `!` that
the parser adds, names that are no operators, texts without long escapes, numbers
without exponents, and conditions without a signature before the arrow. -/
def printable : Condition where
  form
    | .application elements => ∀ x ∈ elements.head?, ¬ IsBangName x
    | .name name => IsLexeme .identifier name
    | .literal literal => PlainLiteral literal
    | _ => True
  signature _ := True
  case := fun ⟨condition, _⟩ => condition.signature = []
  statement
    | .use module => ∀ c ∈ module.toList, ShortlyQuoted c
    | _ => True
  binding _ := True

/-! ## Characters and words of the printer -/

theorem separates_blank : Separates ' ' := separates_mark (by decide)

/-- A word or symbol of the printer, with a blank behind it. -/
theorem spells_reserved (kind : TokenKind) (text : String) (more : List Char) (h : IsToken kind none text.toList) :
    Spells text.toList (' ' :: more) (One kind none text) :=
  .symbol h separates_blank more

/-! ## Lists without expressions in them -/

theorem signature_spells {names : List String} (hne : names ≠ []) (h : ∀ name ∈ names, IsLexeme .typename name)
    {x : Char} (hx : EndsWord x) (more : List Char) :
    Spells (joined " -> " names).toList (x :: more) (IsSignature · names) := by
  induction names with
  | nil => exact absurd rfl hne
  | cons name names ih =>
    obtain ⟨literal, hname⟩ := h name (by simp)
    cases names with
    | nil =>
      refine (Spells.word hname (by decide) hx more).mono fun _ hcut => ?_
      obtain ⟨t, ht, rfl, -, rfl⟩ := hcut
      exact .one ht
    | cons next rest =>
      have hrest := ih (by simp) fun n hn => h n (List.mem_cons_of_mem _ hn)
      have harrow := spells_reserved .rightArrow "->" ((joined " -> " (next :: rest)).toList ++ x :: more) rfl
      rw [joined_cons]
      refine ((Spells.word hname (by decide) separates_blank.toEndsWord _).append
        (Spells.blank (harrow.append (Spells.blank hrest)))).mono fun _ hcut => ?_
      obtain ⟨_, ⟨t, ht, rfl, -, rfl⟩, _, ⟨_, ⟨arrow, ha, -, -, rfl⟩, us, hus, rfl⟩, rfl⟩ := hcut
      exact .more ht ha hus

theorem spells_either {kind kind' : TokenKind} {text : String} (h : IsLexeme kind text ∨ IsLexeme kind' text)
    {x : Char} (hx : Separates x) (more : List Char) :
    Spells text.toList (x :: more) fun ts => ∃ t, (t.kind = kind ∨ t.kind = kind') ∧ t.lexeme = text ∧
      ts = [t] := by
  rcases h with ⟨literal, h⟩ | ⟨literal, h⟩
  · refine (Spells.symbol h hx more).mono fun _ hcut => ?_
    obtain ⟨t, ht, htext, -, rfl⟩ := hcut
    exact ⟨t, .inl ht, htext, rfl⟩
  · refine (Spells.symbol h hx more).mono fun _ hcut => ?_
    obtain ⟨t, ht, htext, -, rfl⟩ := hcut
    exact ⟨t, .inr ht, htext, rfl⟩

theorem parameters_spell {names : List String} (hne : names ≠ [])
    (h : ∀ p ∈ names, IsLexeme .bang p ∨ IsLexeme .identifier p) (more : List Char) :
    Spells (joined " " names).toList (' ' :: more) fun ts =>
      ts ≠ [] ∧ (∀ t ∈ ts, t.kind = .bang ∨ t.kind = .identifier) ∧ ts.map (·.lexeme) = names := by
  induction names with
  | nil => exact absurd rfl hne
  | cons name names ih =>
    have hname := spells_either (h name (by simp)) separates_blank
    cases names with
    | nil =>
      refine (hname more).mono fun _ hcut => ?_
      obtain ⟨t, ht, rfl, rfl⟩ := hcut
      simpa using ht
    | cons next rest =>
      have hrest := ih (by simp) fun p hp => h p (List.mem_cons_of_mem _ hp)
      rw [joined_cons]
      refine ((hname _).append (Spells.blank hrest)).mono fun _ hcut => ?_
      obtain ⟨_, ⟨t, ht, rfl, rfl⟩, us, ⟨_, hus, hnames⟩, rfl⟩ := hcut
      refine ⟨by simp, fun u hu => ?_, by simp [hnames]⟩
      rcases List.mem_cons.mp hu with rfl | hu
      · exact ht
      · exact hus u hu

/-! ## Texts of trees -/

theorem untyped_text (form : Form) : Expr.display ⟨form, []⟩ = form.display := by
  simp [Expr.display, signatureText]

theorem typed_text (form : Form) (name : String) (names : List String) :
    (Expr.display ⟨form, name :: names⟩).toList =
      form.display.toList ++ (":".toList ++ ' ' :: (joined " -> " (name :: names)).toList) := by
  simp [Expr.display, signatureText]

theorem chain_text (left : Expr) (operator : String) (right : Expr) :
    (Form.display (.chain left operator right)).toList =
      '(' :: (left.display.toList ++ ' ' :: (operator.toList ++ ' ' :: (right.display.toList ++ [')']))) := by
  simp [Form.display]

theorem application_text (elements : List Expr) :
    (Form.display (.application elements)).toList = '(' :: ((joined " " (exprTexts elements)).toList ++ [')']) := by
  simp [Form.display]

theorem function_text (parameters : List String) (body : List Statement) :
    (Form.display (.function parameters body)).toList =
      '{' :: ' ' :: ((joined " " parameters).toList ++ ' ' :: ("|".toList ++ ' ' ::
        ((joined " " (statementTexts body)).toList ++ [' ', '}']))) := by
  simp [Form.display]

theorem conditional_text (cases : List Case) :
    (Form.display (.conditional cases)).toList =
      "cond".toList ++ ((joined "" (caseTexts cases)).toList ++ ' ' :: "end".toList) := by
  simp [Form.display]

theorem case_text (condition : Expr) (body : List Statement) :
    (Case.display ⟨condition, body⟩).toList =
      ' ' :: ("|".toList ++ ' ' :: (condition.display.toList ++ ' ' :: ("->".toList ++ ' ' ::
        (joined " " (statementTexts body)).toList))) := by
  simp [Case.display]

theorem use_text (module : String) :
    (Statement.display (.use module) ++ ";").toList =
      "use".toList ++ ' ' :: ((Text.quoted module).toList ++ [';']) := by
  simp [Statement.display]

theorem bind_text (bindings : List Binding) :
    (Statement.display (.bind bindings) ++ ";").toList =
      "let".toList ++ ' ' :: ((joined ", " (bindingTexts bindings)).toList ++ [';']) := by
  simp [Statement.display]

theorem binding_text (name : String) (value : Expr) :
    (Binding.display ⟨name, value⟩).toList =
      name.toList ++ ' ' :: ("<-".toList ++ ' ' :: value.display.toList) := by
  simp [Binding.display]

theorem cases_text {cases : List Case} (h : cases ≠ []) :
    ∃ rest, (joined "" (caseTexts cases)).toList = ' ' :: rest := by
  match cases with
  | [] => exact absurd rfl h
  | [⟨condition, body⟩] => exact ⟨_, case_text condition body⟩
  | ⟨condition, body⟩ :: next :: rest =>
    rw [caseTexts, caseTexts, joined_cons, case_text]
    exact ⟨_, rfl⟩

/-! ## Trees -/

theorem isApplication_of_element {ts : List Token} {x : Expr} (h : IsElement ts x) (hx : ¬ IsBangName x) :
    IsApplication ts x := by
  rw [← List.append_nil ts]
  exact .alone (.cons h .nil) hx

theorem isApplication_of_elements {ts : List Token} {elements : List Expr} (h : IsElements ts elements)
    (hlength : 2 ≤ elements.length) (hhead : ∀ x ∈ elements.head?, ¬ IsBangName x) :
    IsApplication ts ⟨.application elements, []⟩ := by
  match elements, hlength with
  | x :: y :: others, _ => exact .call h (hhead x rfl)

/-- The closing mark of a text, whatever follows. -/
theorem spells_mark {c : Char} {kind : TokenKind} (hc : punctuation? c = some kind) (hbrace : c ≠ '{')
    (more : List Char) : Spells [c] more fun ts => ∃ t : Token, t.kind = kind ∧ ts = [t] := by
  refine (Spells.mark hc (.inl hbrace) (Spells.nil more)).mono fun _ hcut => ?_
  obtain ⟨t, ht, _, rfl, rfl⟩ := hcut
  exact ⟨t, ht, rfl⟩

-- What a piece is cut into hangs on what is behind it, so each text is put together from its end.
mutual
theorem Expr.spells : ∀ x : Expr, x.Every shape → x.Every printable → ∀ c more, EndsWord c →
    Spells x.display.toList (c :: more) (IsElement · x)
  | ⟨form, []⟩, hs, hp, c, more, hc => by
    rw [untyped_text]
    exact (Form.spells form hs.1 hp.1 c more hc).mono fun _ => .plain
  | ⟨form, name :: names⟩, hs, hp, c, more, hc => by
    have hsignature := signature_spells (by simp) hs.2 hc more
    have hcolon := (spells_reserved .colon ":" _ rfl).append hsignature.blank
    have hform := (Form.spells form hs.1 hp.1 ':' _ (endsWord_mark (by decide))).append hcolon
    rw [typed_text]
    refine hform.mono fun _ hcut => ?_
    obtain ⟨us, hus, _, ⟨_, ⟨colon, hk, -, -, rfl⟩, vs, hvs, rfl⟩, rfl⟩ := hcut
    exact .typed hus hk hvs

theorem Form.spells : ∀ form : Form, form.Every shape → form.Every printable → ∀ c more, EndsWord c →
    Spells form.display.toList (c :: more) (IsPrimary · ⟨form, []⟩)
  | .chain left operator right, hs, hp, c, more, hc => by
    obtain ⟨⟨⟨_, hoperator⟩, hleft, hright⟩, hsleft, hsright⟩ := hs
    obtain ⟨_, hpleft, hpright⟩ := hp
    have hclose := spells_mark (c := ')') rfl (by decide) (c :: more)
    have hr := (Expr.spells right hsright hpright ')' _ (endsWord_mark (by decide))).append hclose
    have ho := (Spells.symbol hoperator separates_blank _).append hr.blank
    have hl := (Expr.spells left hsleft hpleft ' ' _ separates_blank.toEndsWord).append ho.blank
    rw [chain_text]
    refine (Spells.mark rfl (.inl (by decide)) hl).mono fun _ hcut => ?_
    obtain ⟨opening, hopening, _,
      ⟨ls, hls, _, ⟨_, ⟨symbol, hsymbol, rfl, -, rfl⟩, _, ⟨rs, hrs, _, ⟨closing, hclosing, rfl⟩,
      rfl⟩, rfl⟩, rfl⟩, rfl⟩ := hcut
    have hchain := IsChain.chain (isApplication_of_element hls hleft) hsymbol
      (.application (isApplication_of_element hrs hright))
    simpa using IsPrimary.group hopening hchain hclosing
  | .name name, hs, hp, c, more, hc => by
    obtain ⟨_, hname⟩ := hp
    have htext : Form.display (.name name) = name := by simp [Form.display]
    rw [htext]
    refine (Spells.word hname (by decide) hc more).mono fun _ hcut => ?_
    obtain ⟨t, ht, rfl, -, rfl⟩ := hcut
    exact .name ht
  | .application elements, hs, hp, c, more, hc => by
    obtain ⟨hlength, hselements⟩ := hs
    obtain ⟨hhead, hpelements⟩ := hp
    have hclose := spells_mark (c := ')') rfl (by decide) (c :: more)
    have hlength : 2 ≤ elements.length := hlength
    have hne : elements ≠ [] := List.ne_nil_of_length_pos (by omega)
    have hall := (exprs_spell elements hne hselements hpelements ')' _ (endsWord_mark (by decide))).append hclose
    rw [application_text]
    refine (Spells.mark rfl (.inl (by decide)) hall).mono fun _ hcut => ?_
    obtain ⟨opening, hopening, _, ⟨ts, hts, _, ⟨closing, hclosing, rfl⟩, rfl⟩, rfl⟩ := hcut
    exact .group hopening (.application (isApplication_of_elements hts hlength hhead)) hclosing
  | .function parameters body, hs, hp, c, more, hc => by
    obtain ⟨⟨hne, hparameters, hbody⟩, hsbody⟩ := hs
    obtain ⟨_, hpbody⟩ := hp
    have hclose := spells_mark (c := '}') rfl (by decide) (c :: more)
    have hb := (statements_spell body hsbody hpbody _).append hclose.blank
    have hbar := (spells_reserved .pipe "|" _ rfl).append hb.blank
    have hnames := (parameters_spell hne hparameters _).append hbar.blank
    rw [function_text]
    refine (Spells.mark rfl (.inr (by simp)) hnames.blank).mono fun _ hcut => ?_
    obtain ⟨opening, hopening, _, ⟨ts, ⟨htsne, hkinds, rfl⟩, _, ⟨_, ⟨bar, hbar, -, -, rfl⟩, _, ⟨us, hus, _,
      ⟨closing, hclosing, rfl⟩, rfl⟩, rfl⟩, rfl⟩, rfl⟩ := hcut
    simpa using IsPrimary.function hopening htsne hkinds hbar hus hbody hclosing
  | .literal literal, hs, hp, c, more, hc => by
    obtain ⟨kind, hkind, htoken⟩ := literal_isToken hp
    have hword : kind ∉ symbolKinds := by rcases hkind with rfl | rfl | rfl <;> decide
    have htext : Form.display (.literal literal) = literal.display := by simp [Form.display]
    rw [htext]
    refine (Spells.word htoken hword hc more).mono fun _ hcut => ?_
    obtain ⟨t, rfl, -, hliteral, rfl⟩ := hcut
    exact .literal hkind hliteral
  | .builtin name, hs, hp, c, more, hc => by
    have htext :
        (Form.display (.builtin name)).toList = '{' :: '#' :: (name.toList ++ ['}']) := by simp [Form.display]
    have htoken : IsToken .builtin (some (.string name)) (Form.display (.builtin name)).toList := by
      rw [htext]
      exact hs
    refine (Spells.word htoken (by decide) hc more).mono fun _ hcut => ?_
    obtain ⟨t, ht, -, hliteral, rfl⟩ := hcut
    have hname : t.text = name := by rw [Token.text, hliteral]
    rw [← hname]
    exact .builtin ht
  | .conditional cases, hs, hp, c, more, hc => by
    obtain ⟨hne, hscases⟩ := hs
    obtain ⟨_, hpcases⟩ := hp
    have htoken : IsToken .endWord none "end".toList := rfl
    have hend := Spells.word htoken (by decide) hc more
    have hcases := (cases_spell cases hne hscases hpcases _).append hend.blank
    have hword : Spells "cond".toList ((joined "" (caseTexts cases)).toList ++ ' ' :: "end".toList ++ c :: more)
        (One .condWord none "cond") := by
      obtain ⟨rest, hrest⟩ := cases_text hne
      rw [hrest]
      exact spells_reserved .condWord "cond" _ rfl
    rw [conditional_text]
    refine (hword.append hcases).mono fun _ hcut => ?_
    obtain ⟨_, ⟨word, hw, -, -, rfl⟩, _, ⟨ts, hts, _, ⟨stop, hk, -, -, rfl⟩, rfl⟩, rfl⟩ := hcut
    exact .conditional hw hts hk

theorem exprs_spell : ∀ xs : List Expr, xs ≠ [] → exprsEvery shape xs → exprsEvery printable xs →
    ∀ c more, EndsWord c → Spells (joined " " (exprTexts xs)).toList (c :: more) (IsElements · xs)
  | [], hne, _, _, _, _, _ => absurd rfl hne
  | [x], _, hs, hp, c, more, hc => by
    refine (Expr.spells x hs.1 hp.1 c more hc).mono fun ts hts => ?_
    rw [← List.append_nil ts]
    exact .cons hts .nil
  | x :: y :: rest, _, hs, hp, c, more, hc => by
    have hrest := exprs_spell (y :: rest) (by simp) hs.2 hp.2 c more hc
    have hx := (Expr.spells x hs.1 hp.1 ' ' _ separates_blank.toEndsWord).append hrest.blank
    rw [exprTexts, exprTexts, joined_cons]
    refine hx.mono fun _ hcut => ?_
    obtain ⟨ts, hts, us, hus, rfl⟩ := hcut
    exact .cons hts hus

theorem statements_spell : ∀ ss : List Statement, statementsEvery shape ss → statementsEvery printable ss →
    ∀ more, Spells (joined " " (statementTexts ss)).toList more (IsStatements · ss)
  | [], _, _, more => by
    refine (Spells.nil more).mono ?_
    rintro _ rfl
    exact .nil
  | [s], hs, hp, more => by
    refine (Statement.spells s hs.1 hp.1 more).mono fun ts hts => ?_
    rw [← List.append_nil ts]
    exact .cons hts .nil
  | s :: t :: rest, hs, hp, more => by
    have hrest := statements_spell (t :: rest) hs.2 hp.2 more
    have hs := (Statement.spells s hs.1 hp.1 _).append hrest.blank
    rw [statementTexts, statementTexts, joined_cons]
    refine hs.mono fun _ hcut => ?_
    obtain ⟨ts, hts, us, hus, rfl⟩ := hcut
    exact .cons hts hus

theorem Statement.spells : ∀ s : Statement, s.Every shape → s.Every printable →
    ∀ more, Spells (s.display ++ ";").toList more (IsStatement · s)
  | .use module, hs, hp, more => by
    have hstop := spells_mark (c := ';') rfl (by decide) more
    have hquoted : Spells (Text.quoted module).toList ([';'] ++ more) _ :=
      .quoted hp (endsWord_mark (by decide)) more
    have hmodule := hquoted.append hstop
    have huse := (spells_reserved .useWord "use" _ rfl).append hmodule.blank
    rw [use_text]
    refine huse.mono fun _ hcut => ?_
    obtain ⟨_, ⟨word, hw, -, -, rfl⟩, _, ⟨_, ⟨t, ht, -, hliteral, rfl⟩, _, ⟨stop, hk, rfl⟩, rfl⟩, rfl⟩ := hcut
    have hmodule : t.text = module := by rw [Token.text, hliteral]
    rw [← hmodule]
    exact .use hw ht hk
  | .bind bindings, hs, hp, more => by
    have hstop := spells_mark (c := ';') rfl (by decide) more
    have hbindings := (bindings_spell bindings hs.1 hs.2 hp.2 ';' _ (endsWord_mark (by decide))).append hstop
    have hlet := (spells_reserved .letWord "let" _ rfl).append hbindings.blank
    rw [bind_text]
    refine hlet.mono fun _ hcut => ?_
    obtain ⟨_, ⟨word, hw, -, -, rfl⟩, _, ⟨ts, hts, _, ⟨stop, hk, rfl⟩, rfl⟩, rfl⟩ := hcut
    exact .bind hw hts hk
  | .expr expr, hs, hp, more => by
    have hstop := spells_mark (c := ';') rfl (by decide) more
    have hexpr := (Expr.spells expr hs.2 hp.2 ';' _ (endsWord_mark (by decide))).append hstop
    rw [Statement.display, String.toList_append]
    refine hexpr.mono fun _ hcut => ?_
    obtain ⟨ts, hts, _, ⟨stop, hk, rfl⟩, rfl⟩ := hcut
    exact .expr (.application (isApplication_of_element hts hs.1)) hk

theorem bindings_spell : ∀ bs : List Binding, bs ≠ [] → bindingsEvery shape bs → bindingsEvery printable bs →
    ∀ c more, EndsWord c → Spells (joined ", " (bindingTexts bs)).toList (c :: more) (IsBindings · bs)
  | [], hne, _, _, _, _, _ => absurd rfl hne
  | [b], _, hs, hp, c, more, hc => (Binding.spells b hs.1 hp.1 c more hc).mono fun _ => .one
  | b :: next :: rest, _, hs, hp, c, more, hc => by
    have hrest := bindings_spell (next :: rest) (by simp) hs.2 hp.2 c more hc
    have hcomma := Spells.mark (c := ',') rfl (.inl (by decide)) hrest.blank
    have hb := (Binding.spells b hs.1 hp.1 ',' _ (endsWord_mark (by decide))).append hcomma
    rw [bindingTexts, bindingTexts, joined_cons]
    refine hb.mono fun _ hcut => ?_
    obtain ⟨ts, hts, _, ⟨comma, hk, us, hus, rfl⟩, rfl⟩ := hcut
    exact .more hts hk hus

theorem Binding.spells : ∀ b : Binding, b.Every shape → b.Every printable → ∀ c more, EndsWord c →
    Spells b.display.toList (c :: more) (IsBinding · b)
  | ⟨name, value⟩, hs, hp, c, more, hc => by
    obtain ⟨⟨hname, hvalue⟩, hsvalue⟩ := hs
    have hv := Expr.spells value hsvalue hp.2 c more hc
    have harrow := (spells_reserved .leftArrow "<-" _ rfl).append hv.blank
    rw [binding_text]
    refine ((spells_either hname separates_blank _).append harrow.blank).mono fun _ hcut => ?_
    obtain ⟨_, ⟨t, ht, rfl, rfl⟩, _, ⟨_, ⟨arrow, ha, -, -, rfl⟩, ts, hts, rfl⟩, rfl⟩ := hcut
    exact .mk ht ha (.application (isApplication_of_element hts hvalue))

theorem cases_spell : ∀ cs : List Case, cs ≠ [] → casesEvery shape cs → casesEvery printable cs →
    ∀ more, Spells (joined "" (caseTexts cs)).toList more (IsCases · cs)
  | [], hne, _, _, _ => absurd rfl hne
  | [c], _, hs, hp, more => (Case.spells c hs.1 hp.1 more).mono fun _ => .one
  | c :: next :: rest, _, hs, hp, more => by
    have hrest := cases_spell (next :: rest) (by simp) hs.2 hp.2 more
    rw [caseTexts, caseTexts, joined_cons]
    refine ((Case.spells c hs.1 hp.1 _).append hrest).mono fun _ hcut => ?_
    obtain ⟨ts, hts, us, hus, rfl⟩ := hcut
    exact .more hts hus

theorem Case.spells : ∀ c : Case, c.Every shape → c.Every printable →
    ∀ more, Spells c.display.toList more (IsCase · c)
  | ⟨⟨form, signature⟩, body⟩, hs, hp, more => by
    obtain ⟨⟨hcondition, hne⟩, hscondition, hsbody⟩ := hs
    obtain ⟨hsignature, hpcondition, hpbody⟩ := hp
    obtain rfl : signature = [] := hsignature
    have hb := statements_spell body hsbody hpbody more
    have harrow := (spells_reserved .rightArrow "->" _ rfl).append hb.blank
    have hc := (Form.spells form hscondition.1 hpcondition.1 ' ' _ separates_blank.toEndsWord).append harrow.blank
    have hbar := (spells_reserved .pipe "|" _ rfl).append hc.blank
    rw [case_text, untyped_text]
    refine hbar.blank.mono fun _ hcut => ?_
    obtain ⟨_, ⟨bar, hbar, -, -, rfl⟩, _, ⟨ts, hts, _, ⟨_, ⟨arrow, ha, -, -, rfl⟩, us, hus, rfl⟩, rfl⟩, rfl⟩ := hcut
    -- a condition without a signature does not end in a type name
    exact .mk hbar (.application (isApplication_of_element (.plain hts) hcondition)) hts.not_endsInType ha hus hne
end

theorem scanFrom_nil (line : Nat) : scanFrom line [] = .ok [Token.eof line] := by rw [scanFrom]

/-- **Parsing inverts printing.** The statements of a source, each printed with a `;`
after it, are the statements of their own text. -/
theorem parseSource_display {source : String} {program : List Statement} (h : parseSource source = .ok program)
    (hp : statementsEvery printable program) : parseSource (joined " " (statementTexts program)) = .ok program := by
  obtain ⟨ts, hscans, hts⟩ := statements_spell program (parseSource_shape h) hp [] 1
  unfold Scans at hscans
  rw [List.append_nil, scanFrom_nil] at hscans
  have hread : ∀ line, plain (statements (fun _ => false) (ts ++ [.eof line])) = .ok (program, [.eof line]) :=
    fun line => hts.complete _ _ (by simp) fun k hk => .inl (Option.some.inj hk).symm
  exact bind_eq_ok.mpr ⟨_, hscans, parse_eq_ok.mpr ⟨_, hread _⟩⟩

set_option maxRecDepth 2000 in
/-- An operator in a function, and a number with a signature in a case. -/
theorem incrementInCase_display :
    ∃ program,
      parseSource "let inc <- \x7b x | x + 1; \x7d; cond | ok -> inc -0.0: Float -> Float; end;" = .ok program ∧
        statementsEvery printable program ∧
        joined " " (statementTexts program) =
          "let inc <- \x7b x | (x + 1); \x7d; cond | ok -> (inc -0.0: Float -> Float); end;" ∧
        parseSource (joined " " (statementTexts program)) = .ok program := by
  have h : parseSource "let inc <- \x7b x | x + 1; \x7d; cond | ok -> inc -0.0: Float -> Float; end;" = .ok
      [.bind [⟨"inc", (Form.function ["x"] [.expr (Form.chain (Form.name "x").bare "+"
          (Form.literal (.integer 1)).bare).bare]).bare⟩],
        .expr (Form.conditional [⟨(Form.name "ok").bare, [.expr (Form.application [(Form.name "inc").bare,
          ⟨.literal (.float (.zero true)), ["Float", "Float"]⟩]).bare]⟩]).bare] := by
    cbv
  refine ⟨_, h, ?printable, by cbv, parseSource_display h ?printable⟩
  have hinc : IsLexeme .identifier "inc" := ⟨none, rfl⟩
  have hx : IsLexeme .identifier "x" := ⟨none, rfl⟩
  have hok : IsLexeme .identifier "ok" := ⟨none, rfl⟩
  have hzero : PlainFloat (.zero true) := ⟨⟨_, _, _, rfl⟩, by decide, by cbv⟩
  have hbang : ¬ IsBangName ⟨.name "inc", []⟩ := by
    rw [← isBangCall_iff]
    decide
  simp [statementsEvery, Statement.Every, bindingsEvery, Binding.Every, exprsEvery, casesEvery, Case.Every,
    Expr.Every,
    Form.Every, Form.bare, printable, PlainLiteral, hinc, hx, hok, hzero, hbang]

end CurriedScript
