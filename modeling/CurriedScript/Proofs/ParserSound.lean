import CurriedScript.Proofs.Grammar
import CurriedScript.Proofs.Productions

/-!
# What the parser reads is in the grammar

`sound`: a production that succeeds has read a text of the tree that it gives.
A production calls others on what is left after a token, or on all it was given
if they come before it here, so one induction on the length of the list covers
them all.
-/

namespace CurriedScript.Grammar

open CurriedScript.Parser

theorem isBangCall_iff (x : Expr) : isBangCall x = true ↔ IsBangName x := by
  obtain ⟨form, signature⟩ := x
  cases form with
  | name name =>
    simp only [isBangCall, IsBangName, decide_eq_true_eq, List.getLast?_eq_some_iff]
    constructor
    · rintro ⟨start, h⟩
      exact ⟨String.ofList start, by rw [← String.toList_inj]; simp [h]⟩
    · rintro ⟨start, rfl⟩
      exact ⟨start.toList, by simp⟩
  | _ => simp [isBangCall, IsBangName]

theorem applied_sound {ts : List Token} {x : Expr} {others : List Expr} (h : IsElements ts (x :: others)) :
    IsApplication ts (applied x others) := by
  unfold applied
  by_cases hb : IsBangName x
  · rw [if_pos ((isBangCall_iff x).mpr hb)]
    exact .bangCall h hb
  · rw [if_neg (mt (isBangCall_iff x).mp hb)]
    cases others with
    | nil => exact .alone h hb
    | cons y others => exact .call h hb

theorem length_lt_append {ts rest : List Token} (h : ts ≠ []) : rest.length < (ts ++ rest).length := by
  rw [List.length_append]
  exact Nat.lt_add_of_pos_left (List.length_pos_iff.mpr h)

theorem length_lt_append_cons (ts : List Token) (t : Token) (rest : List Token) :
    rest.length < (ts ++ t :: rest).length := by
  rw [List.append_cons]
  exact length_lt_append (by simp)

/-! ## Arrows -/

def TakesArrows (ts rest : List Token) : Prop := EndsInType ts → headKind rest ≠ some .rightArrow

theorem endsInType_append {ts us : List Token} (h : us ≠ []) : EndsInType (ts ++ us) ↔ EndsInType us := by
  simp [EndsInType, h]

theorem endsInType_cons {t : Token} {us : List Token} (h : us ≠ []) : EndsInType (t :: us) ↔ EndsInType us :=
  @endsInType_append [t] us h

theorem endsInType_singleton {t : Token} : EndsInType [t] ↔ t.kind = .typename := by simp [EndsInType]

theorem takesArrows_append {ts us rest : List Token} (h : TakesArrows ts (us ++ rest)) (h' : TakesArrows us rest) :
    TakesArrows (ts ++ us) rest := by
  cases us with
  | nil => simpa using h
  | cons u us => intro he; exact h' ((endsInType_append (by simp)).mp he)

theorem IsPrimary.not_endsInType {ts : List Token} {x : Expr} (h : IsPrimary ts x) : ¬ EndsInType ts := by
  cases h with
  | literal hk _ => rw [endsInType_singleton]; rcases hk with hk | hk | hk <;> simp [hk]
  | name hk => rw [endsInType_singleton]; simp [hk]
  | builtin hk => rw [endsInType_singleton]; simp [hk]
  | operator _ _ hk => rw [endsInType_cons (by simp), endsInType_cons (by simp), endsInType_singleton]; simp [hk]
  | group _ _ hk => rw [endsInType_append (by simp), endsInType_singleton]; simp [hk]
  | function _ _ _ _ _ _ hk => rw [endsInType_append (by simp), endsInType_singleton]; simp [hk]
  | conditional _ _ hk => rw [endsInType_append (by simp), endsInType_singleton]; simp [hk]

/-! ## Lists without expressions in them -/

theorem arrowTypes_sound (tokens : List Token) {names : List String} {rest : List Token}
    (h : plain (arrowTypes tokens) = .ok (names, rest)) (t : Token) (ht : t.kind = .typename) :
    ∃ ts, tokens = ts ++ rest ∧ IsSignature (t :: ts) (t.lexeme :: names) ∧ EndsInType (t :: ts) ∧
      headKind rest ≠ some .rightArrow := by
  rw [plain_arrowTypes] at h
  cases hnext : next? .rightArrow tokens with
  | none =>
    rw [hnext] at h
    cases h
    exact ⟨[], rfl, .one ht, endsInType_singleton.mpr ht, next?_eq_none.mp hnext⟩
  | some found =>
    obtain ⟨arrow, us⟩ := found
    obtain ⟨rfl, harrow⟩ := next?_eq_some.mp hnext
    simp only [hnext, bind_eq_ok] at h
    obtain ⟨⟨first, vs⟩, hfirst, ⟨others, ws⟩, hothers, h⟩ := h
    obtain ⟨rfl, hkind⟩ := expect_eq_ok.mp hfirst
    cases h
    obtain ⟨ts, rfl, hsig, hend, hrest⟩ := arrowTypes_sound vs hothers first hkind
    refine ⟨arrow :: first :: ts, by simp, .more ht harrow hsig, ?_, hrest⟩
    rwa [endsInType_cons (by simp), endsInType_cons (by simp)]
termination_by tokens.length

theorem signature_sound {tokens rest : List Token} {names : List String}
    (h : plain (signature tokens) = .ok (names, rest)) :
    ∃ ts, tokens = ts ++ rest ∧ IsSignature ts names ∧ EndsInType ts ∧ headKind rest ≠ some .rightArrow := by
  simp only [plain_signature, bind_eq_ok] at h
  obtain ⟨⟨first, us⟩, hfirst, ⟨others, vs⟩, hothers, h⟩ := h
  obtain ⟨rfl, hkind⟩ := expect_eq_ok.mp hfirst
  cases h
  obtain ⟨ts, rfl, hsig⟩ := arrowTypes_sound us hothers first hkind
  exact ⟨first :: ts, rfl, hsig⟩

theorem parameters_sound {tokens rest : List Token} {names : List String}
    (h : plain (parameters tokens) = .ok (names, rest)) :
    ∃ ts bar, tokens = ts ++ bar :: rest ∧ ts ≠ [] ∧ (∀ t ∈ ts, t.kind = .bang ∨ t.kind = .identifier) ∧
      bar.kind = .pipe ∧ names = ts.map (·.lexeme) := by
  rw [plain_parameters] at h
  split at h
  · cases h
  rename_i hne
  simp only [bind_eq_ok] at h
  obtain ⟨⟨bar, us⟩, hbar, h⟩ := h
  obtain ⟨hdrop, hkind⟩ := expect_eq_ok.mp hbar
  cases h
  -- what the names are taken from ends where the bar was found
  refine ⟨tokens.takeWhile isParameter, bar, ?_, by simpa using hne, fun t ht => ?_, hkind, rfl⟩
  · rw [← hdrop, List.takeWhile_append_dropWhile]
  · simpa [isParameter] using List.all_eq_true.mp List.all_takeWhile t ht

/-! ## Productions -/

structure Sound (tokens : List Token) : Prop where
  bindings : ∀ {bs rest}, plain (bindings tokens) = .ok (bs, rest) → ∃ ts, tokens = ts ++ rest ∧ IsBindings ts bs
  chain : ∀ {x rest}, plain (chain tokens) = .ok (x, rest) →
    ∃ ts, tokens = ts ++ rest ∧ IsChain ts x ∧ TakesArrows ts rest
  elements : ∀ {xs rest}, plain (elements tokens) = .ok (xs, rest) →
    ∃ ts, tokens = ts ++ rest ∧ IsElements ts xs ∧ TakesArrows ts rest
  group : ∀ {x rest}, plain (group tokens) = .ok (x, rest) →
    ∃ ts, tokens = ts ++ rest ∧ ∀ opening : Token, opening.kind = .openParen → IsPrimary (opening :: ts) x
  function : ∀ {x rest}, plain (function tokens) = .ok (x, rest) →
    ∃ ts, tokens = ts ++ rest ∧ ∀ opening : Token, opening.kind = .openBrace → IsPrimary (opening :: ts) x
  statements : ∀ {ends ss rest}, plain (statements ends tokens) = .ok (ss, rest) →
    ∃ ts, tokens = ts ++ rest ∧ IsStatements ts ss ∧ ∀ k, headKind rest = some k → k = .eof ∨ ends k = true
  cases : ∀ {cs rest}, plain (cases tokens) = .ok (cs, rest) →
    ∃ ts stop, tokens = ts ++ stop :: rest ∧ stop.kind = .endWord ∧ IsCases ts cs
  conditional : ∀ {x rest}, plain (conditional tokens) = .ok (x, rest) →
    ∃ ts, tokens = ts ++ rest ∧ ∀ word : Token, word.kind = .condWord → IsPrimary (word :: ts) x

theorem body_sound {tokens : List Token} (hsound : Sound tokens) {ends : TokenKind → Bool} {empty : ParseFault}
    {ss : List Statement} {rest : List Token} (h : plain (body ends empty tokens) = .ok (ss, rest)) :
    ∃ ts, tokens = ts ++ rest ∧ IsStatements ts ss ∧ ss ≠ [] := by
  rw [plain_body, bind_eq_ok] at h
  obtain ⟨⟨ss, us⟩, hss, h⟩ := h
  cases ss with
  | nil => cases h
  | cons s ss =>
    cases h
    obtain ⟨ts, rfl, hts, _⟩ := hsound.statements hss
    exact ⟨ts, rfl, hts, by simp⟩

section
variable {tokens : List Token} (ih : ∀ us, us.length < tokens.length → Sound us)
include ih

theorem primary_sound {x : Expr} {rest : List Token} (h : plain? (primary? tokens) = .ok (some (x, rest))) :
    ∃ ts, tokens = ts ++ rest ∧ IsPrimary ts x := by
  cases tokens with
  | nil => rw [plain_primary?_nil] at h; cases h
  | cons t us =>
    have hus := ih us (by simp)
    rw [plain_primary?_cons] at h
    cases hk : t.kind with
    | openBrace =>
      simp only [hk] at h
      obtain ⟨_, hfound, h⟩ := bind_eq_ok.mp h
      cases h
      obtain ⟨ts, rfl, hts⟩ := hus.function hfound
      exact ⟨t :: ts, rfl, hts t hk⟩
    | openParen =>
      simp only [hk] at h
      obtain ⟨_, hfound, h⟩ := bind_eq_ok.mp h
      cases h
      obtain ⟨ts, rfl, hts⟩ := hus.group hfound
      exact ⟨t :: ts, rfl, hts t hk⟩
    | condWord =>
      simp only [hk] at h
      obtain ⟨_, hfound, h⟩ := bind_eq_ok.mp h
      cases h
      obtain ⟨ts, rfl, hts⟩ := hus.conditional hfound
      exact ⟨t :: ts, rfl, hts t hk⟩
    | string | integer | float =>
      simp only [hk] at h
      cases hl : t.literal with
      | none => rw [hl] at h; cases h
      | some literal =>
        rw [hl] at h
        cases h
        exact ⟨[t], rfl, .literal (by simp [IsLiteral, hk]) hl⟩
    | identifier =>
      simp only [hk] at h
      cases h
      exact ⟨[t], rfl, .name hk⟩
    | builtin =>
      simp only [hk] at h
      cases h
      exact ⟨[t], rfl, .builtin hk⟩
    | _ => simp only [hk] at h; cases h

theorem element_sound {x : Expr} {rest : List Token} (h : plain? (element? tokens) = .ok (some (x, rest))) :
    ∃ ts, tokens = ts ++ rest ∧ IsElement ts x ∧ TakesArrows ts rest := by
  rw [plain_element?, bind_eq_ok] at h
  obtain ⟨found, hfound, h⟩ := h
  match found with
  | none => cases h
  | some (⟨form, earlier⟩, us) =>
    obtain ⟨ts, rfl, hts⟩ := primary_sound ih hfound
    dsimp only at h
    cases hnext : next? .colon us with
    | none =>
      rw [hnext] at h
      cases h
      exact ⟨ts, rfl, .plain hts, fun he => absurd he hts.not_endsInType⟩
    | some found =>
      obtain ⟨colon, vs⟩ := found
      obtain ⟨rfl, hcolon⟩ := next?_eq_some.mp hnext
      simp only [hnext, bind_eq_ok] at h
      obtain ⟨⟨names, ws⟩, hnames, h⟩ := h
      cases h
      obtain ⟨us, rfl, hsig, _, hrest⟩ := signature_sound hnames
      exact ⟨ts ++ colon :: us, by simp, .typed hts hcolon hsig, fun _ => hrest⟩

theorem elements_sound {xs : List Expr} {rest : List Token} (h : plain (elements tokens) = .ok (xs, rest)) :
    ∃ ts, tokens = ts ++ rest ∧ IsElements ts xs ∧ TakesArrows ts rest := by
  rw [plain_elements, bind_eq_ok] at h
  obtain ⟨found, hfound, h⟩ := h
  match found with
  | none =>
    cases h
    exact ⟨[], rfl, .nil, fun he => by simp [EndsInType] at he⟩
  | some (first, us) =>
    obtain ⟨ts, rfl, hts, htake⟩ := element_sound ih hfound
    simp only [bind_eq_ok] at h
    obtain ⟨⟨others, vs⟩, hothers, h⟩ := h
    cases h
    obtain ⟨us, rfl, hus, htake'⟩ := (ih us (length_lt_append hts.ne_nil)).elements hothers
    exact ⟨ts ++ us, by simp, .cons hts hus, takesArrows_append htake htake'⟩

theorem application_sound {x : Expr} {rest : List Token} (h : plain (application tokens) = .ok (x, rest)) :
    ∃ ts, tokens = ts ++ rest ∧ IsApplication ts x ∧ TakesArrows ts rest := by
  rw [plain_application, bind_eq_ok] at h
  obtain ⟨found, hfound, h⟩ := h
  match found with
  | none => cases h
  | some (first, us) =>
    obtain ⟨ts, rfl, hts, htake⟩ := element_sound ih hfound
    simp only [bind_eq_ok] at h
    obtain ⟨⟨others, vs⟩, hothers, h⟩ := h
    cases h
    obtain ⟨us, rfl, hus, htake'⟩ := (ih us (length_lt_append hts.ne_nil)).elements hothers
    exact ⟨ts ++ us, by simp, applied_sound (.cons hts hus), takesArrows_append htake htake'⟩

theorem chain_sound {x : Expr} {rest : List Token} (h : plain (chain tokens) = .ok (x, rest)) :
    ∃ ts, tokens = ts ++ rest ∧ IsChain ts x ∧ TakesArrows ts rest := by
  rw [plain_chain, bind_eq_ok] at h
  obtain ⟨⟨left, us⟩, hleft, h⟩ := h
  obtain ⟨ts, rfl, hts, htake⟩ := application_sound ih hleft
  dsimp only at h
  cases hnext : next? .symbolic us with
  | none =>
    rw [hnext] at h
    cases h
    exact ⟨ts, rfl, .application hts, htake⟩
  | some found =>
    obtain ⟨operator, vs⟩ := found
    obtain ⟨rfl, hop⟩ := next?_eq_some.mp hnext
    simp only [hnext, bind_eq_ok] at h
    obtain ⟨⟨right, ws⟩, hright, h⟩ := h
    cases h
    obtain ⟨us, rfl, hus, htake'⟩ := (ih vs (length_lt_append_cons ts operator vs)).chain hright
    refine ⟨ts ++ operator :: us, by simp, .chain hts hop hus, fun he => htake' ?_⟩
    rwa [endsInType_append (by simp), endsInType_cons hus.ne_nil] at he

theorem group_sound {x : Expr} {rest : List Token} (h : plain (group tokens) = .ok (x, rest)) :
    ∃ ts, tokens = ts ++ rest ∧ ∀ opening : Token, opening.kind = .openParen → IsPrimary (opening :: ts) x := by
  rw [plain_group] at h
  cases hnext : next? .symbolic tokens with
  | some found =>
    obtain ⟨operator, us⟩ := found
    obtain ⟨rfl, hop⟩ := next?_eq_some.mp hnext
    simp only [hnext, bind_eq_ok] at h
    obtain ⟨⟨closing, vs⟩, hclosing, h⟩ := h
    obtain ⟨rfl, hkind⟩ := expect_eq_ok.mp hclosing
    cases h
    exact ⟨[operator, closing], rfl, fun _ ho => .operator ho hop hkind⟩
  | none =>
    simp only [hnext, bind_eq_ok] at h
    obtain ⟨⟨y, us⟩, hy, ⟨closing, vs⟩, hclosing, h⟩ := h
    obtain ⟨ts, rfl, hts, _⟩ := chain_sound ih hy
    obtain ⟨rfl, hkind⟩ := expect_eq_ok.mp hclosing
    cases h
    exact ⟨ts ++ [closing], by simp, fun _ ho => .group ho hts hkind⟩

theorem binding_sound {b : Binding} {rest : List Token} (h : plain (binding tokens) = .ok (b, rest)) :
    ∃ ts, tokens = ts ++ rest ∧ IsBinding ts b := by
  rw [plain_binding] at h
  split at h
  · cases h
  rename_i name us hname
  obtain ⟨rfl, hkind⟩ := bindable_eq_some.mp hname
  simp only [bind_eq_ok] at h
  obtain ⟨⟨arrow, vs⟩, harrow, ⟨value, ws⟩, hvalue, h⟩ := h
  obtain ⟨rfl, hka⟩ := expect_eq_ok.mp harrow
  cases h
  obtain ⟨ts, rfl, hts, _⟩ := (ih vs (length_lt_append_cons [name] arrow vs)).chain hvalue
  exact ⟨name :: arrow :: ts, rfl, .mk hkind hka hts⟩

theorem bindings_sound {bs : List Binding} {rest : List Token} (h : plain (bindings tokens) = .ok (bs, rest)) :
    ∃ ts, tokens = ts ++ rest ∧ IsBindings ts bs := by
  rw [plain_bindings, bind_eq_ok] at h
  obtain ⟨⟨first, us⟩, hfirst, h⟩ := h
  obtain ⟨ts, rfl, hts⟩ := binding_sound ih hfirst
  dsimp only at h
  cases hnext : next? .comma us with
  | none =>
    rw [hnext] at h
    cases h
    exact ⟨ts, rfl, .one hts⟩
  | some found =>
    obtain ⟨comma, vs⟩ := found
    obtain ⟨rfl, hcomma⟩ := next?_eq_some.mp hnext
    simp only [hnext, bind_eq_ok] at h
    obtain ⟨⟨others, ws⟩, hothers, h⟩ := h
    cases h
    obtain ⟨us, rfl, hus⟩ := (ih vs (length_lt_append_cons ts comma vs)).bindings hothers
    exact ⟨ts ++ comma :: us, by simp, .more hts hcomma hus⟩

/-- What a clause reads is a statement with any `;` behind it. -/
theorem clause_sound {s : Statement} {rest : List Token} (h : plain (clause tokens) = .ok (s, rest)) :
    ∃ ts, tokens = ts ++ rest ∧ ∀ stop : Token, stop.kind = .semicolon → IsStatement (ts ++ [stop]) s := by
  rw [plain_clause] at h
  cases huse : next? .useWord tokens with
  | some found =>
    obtain ⟨word, us⟩ := found
    obtain ⟨rfl, hword⟩ := next?_eq_some.mp huse
    simp only [huse, bind_eq_ok] at h
    obtain ⟨⟨module, vs⟩, hfound, h⟩ := h
    obtain ⟨rfl, hmodule⟩ := expect_eq_ok.mp hfound
    cases h
    exact ⟨[word, module], rfl, fun _ hstop => .use hword hmodule hstop⟩
  | none =>
    cases hlet : next? .letWord tokens with
    | some found =>
      obtain ⟨word, us⟩ := found
      obtain ⟨rfl, hword⟩ := next?_eq_some.mp hlet
      simp only [huse, hlet, bind_eq_ok] at h
      obtain ⟨⟨bs, vs⟩, hbs, h⟩ := h
      cases h
      obtain ⟨ts, rfl, hts⟩ := (ih us (by simp)).bindings hbs
      exact ⟨word :: ts, rfl, fun _ hstop => .bind hword hts hstop⟩
    | none =>
      simp only [huse, hlet, bind_eq_ok] at h
      obtain ⟨⟨x, vs⟩, hx, h⟩ := h
      cases h
      obtain ⟨ts, rfl, hts, _⟩ := chain_sound ih hx
      exact ⟨ts, rfl, fun _ hstop => .expr hts hstop⟩

theorem statement_sound {s : Statement} {rest : List Token} (h : plain (statement tokens) = .ok (s, rest)) :
    ∃ ts, tokens = ts ++ rest ∧ IsStatement ts s := by
  rw [plain_statement, bind_eq_ok] at h
  obtain ⟨⟨s, us⟩, hclause, h⟩ := h
  simp only [bind_eq_ok] at h
  obtain ⟨⟨stop, vs⟩, hfound, h⟩ := h
  obtain ⟨rfl, hstop⟩ := expect_eq_ok.mp hfound
  cases h
  obtain ⟨ts, rfl, hts⟩ := clause_sound ih hclause
  exact ⟨ts ++ [stop], by simp, hts stop hstop⟩

theorem statements_sound {ends : TokenKind → Bool} {ss : List Statement} {rest : List Token}
    (h : plain (statements ends tokens) = .ok (ss, rest)) :
    ∃ ts, tokens = ts ++ rest ∧ IsStatements ts ss ∧ ∀ k, headKind rest = some k → k = .eof ∨ ends k = true := by
  cases tokens with
  | nil =>
    rw [plain_statements_nil] at h
    cases h
    exact ⟨[], rfl, .nil, by simp [headKind]⟩
  | cons t us =>
    rw [plain_statements_cons] at h
    split at h
    · rename_i hk
      cases h
      refine ⟨[], rfl, .nil, fun k hk' => ?_⟩
      cases hk'
      simpa using hk
    · simp only [bind_eq_ok] at h
      obtain ⟨⟨first, vs⟩, hfirst, ⟨others, ws⟩, hothers, h⟩ := h
      cases h
      obtain ⟨ts, hts, hs⟩ := statement_sound ih hfirst
      have hlt : vs.length < (t :: us).length := by
        rw [hts]
        exact length_lt_append hs.ne_nil
      obtain ⟨us', rfl, hus, hend⟩ := (ih vs hlt).statements hothers
      exact ⟨ts ++ us', by simp [hts], .cons hs hus, hend⟩

theorem function_sound {x : Expr} {rest : List Token} (h : plain (function tokens) = .ok (x, rest)) :
    ∃ ts, tokens = ts ++ rest ∧ ∀ opening : Token, opening.kind = .openBrace → IsPrimary (opening :: ts) x := by
  simp only [plain_function, bind_eq_ok] at h
  obtain ⟨⟨names, us⟩, hnames, ⟨ss, vs⟩, hss, ⟨closing, ws⟩, hclosing, h⟩ := h
  obtain ⟨names, bar, rfl, hne, hkinds, hbar, rfl⟩ := parameters_sound hnames
  obtain ⟨ts, rfl, hts, hss'⟩ := body_sound (ih us (length_lt_append_cons names bar us)) hss
  obtain ⟨rfl, hkc⟩ := expect_eq_ok.mp hclosing
  cases h
  exact ⟨names ++ bar :: ts ++ [closing], by simp, fun _ ho => .function ho hne hkinds hbar hts hss' hkc⟩

theorem cases_sound {cs : List Case} {rest : List Token} (h : plain (cases tokens) = .ok (cs, rest)) :
    ∃ ts stop, tokens = ts ++ stop :: rest ∧ stop.kind = .endWord ∧ IsCases ts cs := by
  rw [plain_cases] at h
  simp only [bind_eq_ok] at h
  obtain ⟨⟨bar, us⟩, hbar, ⟨condition, vs⟩, hcondition, ⟨arrow, ws⟩, harrow, ⟨ss, zs⟩, hss, h⟩ := h
  obtain ⟨rfl, hkb⟩ := expect_eq_ok.mp hbar
  obtain ⟨ts, rfl, hts, htake⟩ := (ih us (by simp)).chain hcondition
  obtain ⟨rfl, hka⟩ := expect_eq_ok.mp harrow
  obtain ⟨us, rfl, hus, hne⟩ := body_sound (ih ws (length_lt_append_cons (bar :: ts) arrow ws)) hss
  have hcase : IsCase (bar :: ts ++ arrow :: us) ⟨condition, ss⟩ :=
    .mk hkb hts (fun he => htake he (by simp [headKind, hka])) hka hus hne
  cases hnext : next? .endWord zs with
  | some found =>
    obtain ⟨stop, us'⟩ := found
    obtain ⟨rfl, hstop⟩ := next?_eq_some.mp hnext
    simp only [hnext] at h
    cases h
    exact ⟨_, stop, by simp, hstop, .one hcase⟩
  | none =>
    simp only [hnext, bind_eq_ok] at h
    obtain ⟨⟨others, us'⟩, hothers, h⟩ := h
    cases h
    have hlt : zs.length < (bar :: (ts ++ arrow :: (us ++ zs))).length := by
      simp only [List.length_append, List.length_cons]
      omega
    obtain ⟨vs, stop, rfl, hstop, hvs⟩ := (ih zs hlt).cases hothers
    exact ⟨_, stop, by simp, hstop, .more hcase hvs⟩

theorem conditional_sound {x : Expr} {rest : List Token} (h : plain (conditional tokens) = .ok (x, rest)) :
    ∃ ts, tokens = ts ++ rest ∧ ∀ word : Token, word.kind = .condWord → IsPrimary (word :: ts) x := by
  rw [plain_conditional] at h
  split at h
  · cases h
  simp only [bind_eq_ok] at h
  obtain ⟨⟨cs, us⟩, hcs, h⟩ := h
  cases h
  obtain ⟨ts, stop, rfl, hstop, hts⟩ := cases_sound ih hcs
  exact ⟨ts ++ [stop], by simp, fun _ hw => .conditional hw hts hstop⟩

end

theorem sound (tokens : List Token) : Sound tokens := by
  induction h : tokens.length using Nat.strongRecOn generalizing tokens with
  | ind n ih =>
    have ih : ∀ us : List Token, us.length < tokens.length → Sound us := fun us hus => ih _ (h ▸ hus) us rfl
    exact ⟨bindings_sound ih, chain_sound ih, elements_sound ih, group_sound ih, function_sound ih,
      statements_sound ih, cases_sound ih, conditional_sound ih⟩

end CurriedScript.Grammar
