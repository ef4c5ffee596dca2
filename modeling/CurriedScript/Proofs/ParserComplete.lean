import CurriedScript.Proofs.ParserSound

/-!
# The parser reads what is in the grammar

The productions read as much as they can, so a text of the grammar is read as
its tree if what follows cannot go on with it: `Stops` for applications. The
main statement of both directions is `parse_eq_ok_iff`.
-/

namespace CurriedScript.Grammar

open CurriedScript.Parser

def opensPrimary : TokenKind → Bool
  | .openBrace | .openParen | .condWord | .string | .integer | .float | .identifier | .builtin => true
  | _ => false

def opensStatement (kind : TokenKind) : Bool := opensPrimary kind || kind = .useWord || kind = .letWord

/-- No element can go on in `rest`, nor can another follow. -/
def Stops (ts rest : List Token) : Prop :=
  (∀ k, headKind rest = some k → opensPrimary k = false ∧ k ≠ .bang ∧ k ≠ .colon) ∧ TakesArrows ts rest

theorem headKind_append {ts rest : List Token} (h : ts ≠ []) : headKind (ts ++ rest) = headKind ts := by
  cases ts with
  | nil => exact absurd rfl h
  | cons _ _ => rfl

/-! ## First tokens -/

theorem headKind_ne {ts : List Token} {opens : TokenKind → Bool} {k kind : TokenKind} (hk : headKind ts = some k)
    (ho : opens k = true) (hkind : opens kind = false) : headKind ts ≠ some kind := by
  intro h
  cases hk.symm.trans h
  rw [ho] at hkind
  cases hkind

mutual
theorem IsChain.head : ∀ {ts x}, IsChain ts x → ∃ k, headKind ts = some k ∧ opensPrimary k = true
  | _, _, .application h => h.head
  | _, _, .chain h _ _ => by rw [headKind_append h.ne_nil]; exact h.head
theorem IsApplication.head : ∀ {ts x}, IsApplication ts x → ∃ k, headKind ts = some k ∧ opensPrimary k = true
  | _, _, .alone h _ => h.head (by simp)
  | _, _, .call h _ => h.head (by simp)
  | _, _, .bangCall h _ => h.head (by simp)
theorem IsElements.head :
    ∀ {ts xs}, IsElements ts xs → xs ≠ [] → ∃ k, headKind ts = some k ∧ opensPrimary k = true
  | _, _, .nil, h => absurd rfl h
  | _, _, .cons h _, _ => by rw [headKind_append h.ne_nil]; exact h.head
theorem IsElement.head : ∀ {ts x}, IsElement ts x → ∃ k, headKind ts = some k ∧ opensPrimary k = true
  | _, _, .plain h => h.head
  | _, _, .typed h _ _ => by rw [headKind_append h.ne_nil]; exact h.head
theorem IsPrimary.head : ∀ {ts x}, IsPrimary ts x → ∃ k, headKind ts = some k ∧ opensPrimary k = true
  | _, _, .literal h _ => by rcases h with h | h | h <;> simp [headKind, h, opensPrimary]
  | _, _, .name h | _, _, .builtin h | _, _, .operator h _ _ => by simp [headKind, h, opensPrimary]
  | _, _, .group h _ _ | _, _, .function h _ _ _ _ _ _ | _, _, .conditional h _ _ => by
    simp [headKind, h, opensPrimary]
end

theorem IsStatement.head {ts : List Token} {s : Statement} (h : IsStatement ts s) :
    ∃ k, headKind ts = some k ∧ opensStatement k = true := by
  cases h with
  | use h _ _ => exact ⟨_, rfl, by simp [opensStatement, h]⟩
  | bind h _ _ => exact ⟨_, rfl, by simp [opensStatement, h]⟩
  | expr h _ =>
    obtain ⟨k, hk, ho⟩ := h.head
    exact ⟨k, by rw [headKind_append h.ne_nil, hk], by simp [opensStatement, ho]⟩

theorem IsCases.head {ts : List Token} {cs : List Case} (h : IsCases ts cs) (rest : List Token) :
    headKind (ts ++ rest) = some .pipe := by
  cases h with
  | one h => cases h with | mk hb => simp [headKind, hb]
  | more h _ => cases h with | mk hb => simp [headKind, hb]

theorem IsChain.next?_eq_none {ts rest : List Token} {x : Expr} (h : IsChain ts x) {kind : TokenKind}
    (hk : opensPrimary kind = false) : next? kind (ts ++ rest) = none := by
  obtain ⟨k, hhead, ho⟩ := h.head
  exact Parser.next?_eq_none.mpr (headKind_ne ((headKind_append h.ne_nil).trans hhead) ho hk)

theorem primary?_eq_none {rest : List Token}
    (h : ∀ k, headKind rest = some k → opensPrimary k = false ∧ k ≠ .bang) :
    plain? (primary? rest) = .ok none := by
  cases rest with
  | nil => exact plain_primary?_nil
  | cons t us =>
    obtain ⟨ho, hb⟩ := h t.kind rfl
    rw [plain_primary?_cons]
    cases hk : t.kind <;> simp [hk, opensPrimary] at ho hb ⊢

/-! ## Lists without expressions in them -/

theorem IsSignature.arrows {us : List Token} {names : List String} (h : IsSignature us names) :
    ∃ t ts others, us = t :: ts ∧ t.kind = .typename ∧ names = t.lexeme :: others ∧
      ∀ rest, headKind rest ≠ some .rightArrow → plain (arrowTypes (ts ++ rest)) = .ok (others, rest) := by
  induction h with
  | one ht =>
    refine ⟨_, [], [], rfl, ht, rfl, fun rest hr => ?_⟩
    rw [plain_arrowTypes, List.nil_append, next?_eq_none.mpr hr]
  | @more t arrow ts names ht ha _ ih =>
    obtain ⟨u, us, others, rfl, hu, rfl, ih⟩ := ih
    refine ⟨t, arrow :: u :: us, u.lexeme :: others, rfl, ht, rfl, fun rest hr => ?_⟩
    rw [plain_arrowTypes, List.cons_append, List.cons_append, next?_eq_some.mpr ⟨rfl, ha⟩]
    simp only [expect_eq_ok.mpr ⟨rfl, hu⟩, ih rest hr, ok_bind]
    rfl

theorem IsSignature.complete {us rest : List Token} {names : List String} (h : IsSignature us names)
    (hr : headKind rest ≠ some .rightArrow) : plain (signature (us ++ rest)) = .ok (names, rest) := by
  obtain ⟨t, ts, others, rfl, ht, rfl, hts⟩ := h.arrows
  rw [plain_signature, List.cons_append]
  simp only [expect_eq_ok.mpr ⟨rfl, ht⟩, hts rest hr, ok_bind]
  rfl

theorem IsSignature.endsInType {us : List Token} {names : List String} (h : IsSignature us names) :
    us ≠ [] ∧ EndsInType us := by
  induction h with
  | one ht => exact ⟨by simp, endsInType_singleton.mpr ht⟩
  | more _ _ _ ih => exact ⟨by simp, by rw [endsInType_cons (by simp), endsInType_cons ih.1]; exact ih.2⟩

theorem parameters_complete {ts rest : List Token} {bar : Token} (hne : ts ≠ [])
    (h : ∀ t ∈ ts, t.kind = .bang ∨ t.kind = .identifier) (hb : bar.kind = .pipe) :
    plain (parameters (ts ++ bar :: rest)) = .ok (ts.map (·.lexeme), rest) := by
  have hp : ∀ t ∈ ts, isParameter t = true := fun t ht => by simpa [isParameter] using h t ht
  have hbar : isParameter bar = false := by simp [isParameter, hb]
  rw [plain_parameters_append hp (by simpa using hbar), if_neg (by simpa using hne), expect_eq_ok.mpr ⟨rfl, hb⟩]
  rfl

/-! ## Productions -/

theorem stops_of_kind {ts rest : List Token} {k : TokenKind} (h : headKind rest = some k)
    (hk : k = .semicolon ∨ k = .comma ∨ k = .closeParen ∨ k = .symbolic) : Stops ts rest := by
  refine ⟨fun k' hk' => ?_, fun _ => ?_⟩
  · cases h.symm.trans hk'
    rcases hk with rfl | rfl | rfl | rfl <;> decide
  · rw [h]
    rcases hk with rfl | rfl | rfl | rfl <;> decide

theorem application_of_elements {tokens rest : List Token} {x : Expr} {others : List Expr}
    (h : plain (elements tokens) = .ok (x :: others, rest)) :
    plain (application tokens) = .ok (applied x others, rest) := by
  rw [plain_elements, bind_eq_ok] at h
  obtain ⟨found, hfound, h⟩ := h
  rw [plain_application, hfound, ok_bind]
  match found with
  | none => cases h
  | some (first, us) =>
    simp only [bind_eq_ok] at h
    obtain ⟨⟨others, vs⟩, hothers, h⟩ := h
    cases h
    simp only [hothers, ok_bind]
    rfl

theorem applied_of_not_bang {x : Expr} (h : ¬ IsBangName x) (others : List Expr) :
    applied x others = if others.isEmpty then x else ⟨.application (x :: others), []⟩ := by
  rw [applied, if_neg (mt (isBangCall_iff x).mp h)]
  rfl

theorem applied_of_bang {x : Expr} (h : IsBangName x) (others : List Expr) :
    applied x others = ⟨.application (x :: ⟨.name "!", []⟩ :: others), []⟩ := by
  rw [applied, if_pos ((isBangCall_iff x).mpr h)]
  rfl

theorem IsElements.eq_nil {ts : List Token} (h : IsElements ts []) : ts = [] := by
  cases h
  rfl

/-- After an element, the next ones go on as they do after nothing. -/
theorem stops_of_append {ts us rest : List Token} {xs : List Expr} (h : IsElements us xs)
    (hs : Stops (ts ++ us) rest) :
    headKind (us ++ rest) ≠ some .colon ∧ TakesArrows ts (us ++ rest) ∧ Stops us rest := by
  cases us with
  | nil =>
    rw [List.append_nil] at hs
    exact ⟨fun hc => (hs.1 _ hc).2.2 rfl, hs.2, hs.1, fun he => by simp [EndsInType] at he⟩
  | cons u us =>
    have hne : xs ≠ [] := by rintro rfl; exact absurd h.eq_nil (by simp)
    obtain ⟨k, hk, ho⟩ := h.head hne
    rw [TakesArrows, headKind_append (by simp), hk]
    refine ⟨?_, fun _ => ?_, hs.1, fun he => hs.2 ((endsInType_append (by simp)).mpr he)⟩
    · rintro ⟨⟩; simp [opensPrimary] at ho
    · rintro ⟨⟩; simp [opensPrimary] at ho

theorem stops_of_arrow {ts us : List Token} {arrow : Token} (h : ¬ EndsInType ts) (ha : arrow.kind = .rightArrow) :
    Stops ts (arrow :: us) := by
  refine ⟨fun k hk => ?_, fun he => absurd he h⟩
  cases hk
  dsimp only
  rw [ha]
  decide

theorem body_of_statements {ends : TokenKind → Bool} (empty : ParseFault) {tokens rest : List Token}
    {ss : List Statement} (h : plain (statements ends tokens) = .ok (ss, rest)) (hne : ss ≠ []) :
    plain (body ends empty tokens) = .ok (ss, rest) := by
  rw [plain_body, h]
  simp only [ok_bind, List.isEmpty_iff, if_neg hne]
  rfl

theorem plain_statements_of_head {ends : TokenKind → Bool} {tokens : List Token} {k : TokenKind}
    (h : headKind tokens = some k) :
    plain (statements ends tokens) =
      if k = .eof || ends k then .ok ([], tokens)
      else do
        let (first, rest) ← plain (statement tokens)
        let (others, rest) ← plain (statements ends rest)
        return (first :: others, rest) := by
  cases tokens with
  | nil => cases h
  | cons t us =>
    obtain rfl : t.kind = k := by simpa [headKind] using h
    exact plain_statements_cons ends t us

theorem opensStatement_of_ends (k : TokenKind) :
    (endsFunction k = true → opensStatement k = false) ∧ (endsCase k = true → opensStatement k = false) := by
  cases k <;> decide

theorem statements_go_on {k : TokenKind} (ho : opensStatement k = true) {ends : TokenKind → Bool}
    (hends : ∀ k, ends k = true → opensStatement k = false) : ¬ (k = .eof || ends k) = true := by
  intro hstop
  rcases Bool.or_eq_true _ _ |>.mp hstop with heof | h
  · rw [of_decide_eq_true heof] at ho
    exact absurd ho (by decide)
  · exact absurd (ho.symm.trans (hends k h)) (by decide)

-- By recursion on the derivations. What follows a text is any list that cannot go on
-- with it; inside a production it begins with the token that the production expects.
mutual
theorem IsStatement.complete : ∀ {ts s}, IsStatement ts s → ∀ rest, plain (statement (ts ++ rest)) = .ok (s, rest)
  | _, _, .use hw hm hs, rest => by
    rw [plain_statement, plain_clause]
    simp only [List.cons_append, List.nil_append, next?_eq_some.mpr ⟨rfl, hw⟩, expect_eq_ok.mpr ⟨rfl, hm⟩,
      ok_bind, pure_bind, expect_eq_ok.mpr ⟨rfl, hs⟩]
    rfl
  | _, _, @IsStatement.bind word stop ts _ hw h hs, rest => by
    have huse : next? .useWord (word :: (ts ++ stop :: rest)) = none := next?_eq_none.mpr (by simp [headKind, hw])
    have hbs := h.complete (stop :: rest) (by simp [headKind, hs])
    rw [plain_statement, plain_clause, List.append_assoc, List.cons_append, List.cons_append, List.nil_append]
    simp only [huse, next?_eq_some.mpr ⟨rfl, hw⟩, hbs, ok_bind, pure_bind, expect_eq_ok.mpr ⟨rfl, hs⟩]
    rfl
  | _, _, @IsStatement.expr ts _ stop h hs, rest => by
    have hx := h.complete (stop :: rest) (stops_of_kind rfl (by simp [hs])) (by simp [headKind, hs])
    rw [plain_statement, plain_clause, List.append_assoc, List.cons_append, List.nil_append,
      h.next?_eq_none (by decide), h.next?_eq_none (by decide)]
    simp only [hx, ok_bind, pure_bind, expect_eq_ok.mpr ⟨rfl, hs⟩]
    rfl

theorem IsBindings.complete : ∀ {ts bs}, IsBindings ts bs → ∀ rest, headKind rest = some .semicolon →
    plain (bindings (ts ++ rest)) = .ok (bs, rest)
  | _, _, .one h, rest, hr => by
    rw [plain_bindings, h.complete rest (.inl hr)]
    simp only [ok_bind, next?_eq_none.mpr (show headKind rest ≠ some .comma by simp [hr])]
    rfl
  | _, _, .more h hc h', rest, hr => by
    rw [plain_bindings, List.append_assoc, h.complete _ (.inr (by simp [headKind, hc]))]
    simp only [ok_bind, List.cons_append, next?_eq_some.mpr ⟨rfl, hc⟩, h'.complete rest hr]
    rfl

theorem IsBinding.complete : ∀ {ts b}, IsBinding ts b → ∀ rest,
    headKind rest = some .semicolon ∨ headKind rest = some .comma →
    plain (binding (ts ++ rest)) = .ok (b, rest)
  | _, _, @IsBinding.mk name arrow ts _ hn ha h, rest, hr => by
    have hs : Stops ts rest := by
      rcases hr with hr | hr
      · exact stops_of_kind hr (by simp)
      · exact stops_of_kind hr (by simp)
    have hsym : headKind rest ≠ some .symbolic := by
      rcases hr with hr | hr <;> simp [hr]
    rw [plain_binding, List.cons_append, bindable_eq_some.mpr ⟨rfl, hn⟩]
    simp only [List.cons_append, expect_eq_ok.mpr ⟨rfl, ha⟩, ok_bind, h.complete rest hs hsym]
    rfl

theorem IsChain.complete : ∀ {ts x}, IsChain ts x → ∀ rest, Stops ts rest → headKind rest ≠ some .symbolic →
    plain (chain (ts ++ rest)) = .ok (x, rest)
  | _, _, .application h, rest, hs, hr => by
    rw [plain_chain, h.complete rest hs]
    simp only [ok_bind, next?_eq_none.mpr hr]
    rfl
  | _, _, .chain h ho h', rest, hs, hr => by
    have hs' : Stops _ rest := ⟨hs.1, fun he => hs.2 (by
      rwa [endsInType_append (by simp), endsInType_cons h'.ne_nil])⟩
    rw [plain_chain, List.append_assoc, h.complete _ (stops_of_kind rfl (by simp [ho]))]
    simp only [ok_bind, List.cons_append, next?_eq_some.mpr ⟨rfl, ho⟩, h'.complete rest hs' hr]
    rfl

theorem IsApplication.complete : ∀ {ts x}, IsApplication ts x → ∀ rest, Stops ts rest →
    plain (application (ts ++ rest)) = .ok (x, rest)
  | _, _, .alone h hb, rest, hs => by
    rw [application_of_elements (h.complete rest hs), applied_of_not_bang hb]
    rfl
  | _, _, .call h hb, rest, hs => by
    rw [application_of_elements (h.complete rest hs), applied_of_not_bang hb]
    rfl
  | _, _, .bangCall h hb, rest, hs => by
    rw [application_of_elements (h.complete rest hs), applied_of_bang hb]

theorem IsElements.complete : ∀ {ts xs}, IsElements ts xs → ∀ rest, Stops ts rest →
    plain (elements (ts ++ rest)) = .ok (xs, rest)
  | _, _, .nil, rest, hs => by
    have hnone : plain? (element? rest) = .ok none := by
      rw [plain_element?, primary?_eq_none fun k hk => ⟨(hs.1 k hk).1, (hs.1 k hk).2.1⟩]
      rfl
    rw [List.nil_append, plain_elements, hnone]
    rfl
  | _, _, .cons h h', rest, hs => by
    obtain ⟨hc, ha, hs'⟩ := stops_of_append h' hs
    rw [List.append_assoc, plain_elements, h.complete _ hc ha]
    simp only [ok_bind, h'.complete rest hs']
    rfl

theorem IsElement.complete : ∀ {ts x}, IsElement ts x → ∀ rest, headKind rest ≠ some .colon → TakesArrows ts rest →
    plain? (element? (ts ++ rest)) = .ok (some (x, rest))
  | _, _, .plain h, rest, hc, ha => by
    rw [plain_element?, h.complete rest]
    simp only [ok_bind, next?_eq_none.mpr hc]
    rfl
  | _, _, @IsElement.typed ts us colon _ _ _ h hc hs, rest, _, ha => by
    have he : EndsInType (ts ++ colon :: us) := by
      rw [endsInType_append (by simp), endsInType_cons hs.endsInType.1]
      exact hs.endsInType.2
    rw [plain_element?, List.append_assoc, h.complete]
    simp only [ok_bind, List.cons_append, next?_eq_some.mpr ⟨rfl, hc⟩, hs.complete (ha he)]
    rfl

theorem IsPrimary.complete :
    ∀ {ts x}, IsPrimary ts x → ∀ rest, plain? (primary? (ts ++ rest)) = .ok (some (x, rest))
  | _, _, .literal hk hl, rest => by
    rw [List.cons_append, plain_primary?_cons]
    rcases hk with hk | hk | hk <;> simp only [hk, hl] <;> rfl
  | _, _, .name hk, rest => by
    rw [List.cons_append, plain_primary?_cons, hk]
    rfl
  | _, _, .builtin hk, rest => by
    rw [List.cons_append, plain_primary?_cons, hk]
    rfl
  | _, _, .operator ho hop hc, rest => by
    rw [List.cons_append, plain_primary?_cons, ho]
    simp only [List.cons_append, List.nil_append, plain_group, next?_eq_some.mpr ⟨rfl, hop⟩,
      expect_eq_ok.mpr ⟨rfl, hc⟩, ok_bind]
    rfl
  | _, _, @IsPrimary.group opening closing ts _ ho h hc, rest => by
    have hsym : next? .symbolic (ts ++ closing :: rest) = none := h.next?_eq_none rfl
    have hx := h.complete (closing :: rest) (stops_of_kind rfl (by simp [hc])) (by simp [headKind, hc])
    rw [List.append_assoc, List.cons_append, List.cons_append, List.nil_append, plain_primary?_cons, ho]
    simp only [plain_group, hsym, hx, ok_bind, expect_eq_ok.mpr ⟨rfl, hc⟩]
    rfl
  | _, _, @IsPrimary.function opening bar closing names ts _ ho hne hn hb h hss hc, rest => by
    have hbody := body_of_statements .emptyFunctionBody
      (h.complete endsFunction (closing :: rest) (opensStatement_of_ends · |>.1)
        (by simp [headKind, hc, endsFunction])) hss
    rw [List.append_assoc, List.append_assoc, List.cons_append, plain_primary?_cons, ho]
    simp only [plain_function, List.cons_append, List.nil_append, parameters_complete hne hn hb, hbody, ok_bind,
      expect_eq_ok.mpr ⟨rfl, hc⟩]
    rfl
  | _, _, @IsPrimary.conditional word stop ts _ hw h hs, rest => by
    have hend : next? .endWord (ts ++ stop :: rest) = none := next?_eq_none.mpr (by simp [h.head])
    rw [List.append_assoc, List.cons_append, List.cons_append, List.nil_append, plain_primary?_cons, hw]
    simp only [plain_conditional, hend, h.complete stop rest hs, ok_bind]
    rfl

theorem IsStatements.complete : ∀ {ts ss}, IsStatements ts ss → ∀ (ends : TokenKind → Bool) (rest : List Token),
    (∀ k, ends k = true → opensStatement k = false) →
    (∀ k, headKind rest = some k → k = .eof ∨ ends k = true) →
    plain (statements ends (ts ++ rest)) = .ok (ss, rest)
  | _, _, .nil, ends, rest, _, hr => by
    cases rest with
    | nil => exact plain_statements_nil ends
    | cons t us =>
      rw [List.nil_append, plain_statements_cons, if_pos (by simpa using hr t.kind rfl)]
  | _, _, .cons h h', ends, rest, he, hr => by
    obtain ⟨k, hk, ho⟩ := h.head
    rw [List.append_assoc, plain_statements_of_head (headKind_append h.ne_nil ▸ hk),
      if_neg (statements_go_on ho he),
      h.complete]
    simp only [ok_bind, h'.complete ends rest he hr]
    rfl

theorem IsCases.complete : ∀ {ts cs}, IsCases ts cs → ∀ (stop : Token) (rest : List Token), stop.kind = .endWord →
    plain (cases (ts ++ stop :: rest)) = .ok (cs, rest)
  | _, _, .one h, stop, rest, hs => by
    rw [h.complete (stop :: rest) (.inr (by simp [headKind, hs])), next?_eq_some.mpr ⟨rfl, hs⟩]
  | _, _, .more h h', stop, rest, hs => by
    have hpipe := h'.head (stop :: rest)
    rw [List.append_assoc, h.complete _ (.inl hpipe), next?_eq_none.mpr (by simp [hpipe]), h'.complete stop rest hs]
    rfl

theorem IsCase.complete : ∀ {ts c}, IsCase ts c → ∀ rest,
    headKind rest = some .pipe ∨ headKind rest = some .endWord →
    plain (cases (ts ++ rest)) =
      match next? .endWord rest with
      | some (_, rest) => .ok ([c], rest)
      | none => do
        let (others, rest) ← plain (cases rest)
        return (c :: others, rest)
  | _, _, .mk hb h he ha h' hne, rest, hr => by
    have hbody := body_of_statements .emptyCaseBody
      (h'.complete endsCase rest (opensStatement_of_ends · |>.2)
        (by rcases hr with hr | hr <;> simp [hr, endsCase])) hne
    rw [plain_cases, List.append_assoc, List.cons_append, List.cons_append, expect_eq_ok.mpr ⟨rfl, hb⟩]
    simp only [ok_bind,
      h.complete _ (stops_of_arrow he ha) (show headKind (_ :: _) ≠ some .symbolic by simp [headKind, ha]),
      expect_eq_ok.mpr ⟨rfl, ha⟩, hbody]
    cases next? .endWord rest <;> rfl
end

/-! ## The end of the program -/

def NoEof (ts : List Token) : Prop := ∀ t ∈ ts, t.kind ≠ .eof

@[simp] theorem noEof_nil : NoEof [] := by simp [NoEof]

@[simp] theorem noEof_cons {t : Token} {ts : List Token} : NoEof (t :: ts) ↔ t.kind ≠ .eof ∧ NoEof ts := by
  simp [NoEof]

@[simp] theorem noEof_append {ts us : List Token} : NoEof (ts ++ us) ↔ NoEof ts ∧ NoEof us := by
  simp only [NoEof, List.mem_append]
  exact ⟨fun h => ⟨fun t ht => h t (.inl ht), fun t ht => h t (.inr ht)⟩,
    fun h t ht => ht.elim (h.1 t) (h.2 t)⟩

theorem IsSignature.noEof {ts : List Token} {names : List String} (h : IsSignature ts names) : NoEof ts := by
  induction h with
  | one ht => simp [ht]
  | more ht ha _ ih => simp [ht, ha, ih]

mutual
theorem IsStatement.noEof : ∀ {ts s}, IsStatement ts s → NoEof ts
  | _, _, .use hw hm hs => by simp [hw, hm, hs]
  | _, _, .bind hw h hs => by simp [hw, h.noEof, hs]
  | _, _, .expr h hs => by simp [h.noEof, hs]
theorem IsBindings.noEof : ∀ {ts bs}, IsBindings ts bs → NoEof ts
  | _, _, .one h => h.noEof
  | _, _, .more h hc h' => by simp [h.noEof, hc, h'.noEof]
theorem IsBinding.noEof : ∀ {ts b}, IsBinding ts b → NoEof ts
  | _, _, .mk hn ha h => by rcases hn with hn | hn <;> simp [hn, ha, h.noEof]
theorem IsChain.noEof : ∀ {ts x}, IsChain ts x → NoEof ts
  | _, _, .application h => h.noEof
  | _, _, .chain h ho h' => by simp [h.noEof, ho, h'.noEof]
theorem IsApplication.noEof : ∀ {ts x}, IsApplication ts x → NoEof ts
  | _, _, .alone h _ | _, _, .call h _ | _, _, .bangCall h _ => h.noEof
theorem IsElements.noEof : ∀ {ts xs}, IsElements ts xs → NoEof ts
  | _, _, .nil => noEof_nil
  | _, _, .cons h h' => by simp [h.noEof, h'.noEof]
theorem IsElement.noEof : ∀ {ts x}, IsElement ts x → NoEof ts
  | _, _, .plain h => h.noEof
  | _, _, .typed h hc hs => by simp [h.noEof, hc, hs.noEof]
theorem IsPrimary.noEof : ∀ {ts x}, IsPrimary ts x → NoEof ts
  | _, _, .literal hk _ => by rcases hk with hk | hk | hk <;> simp [hk]
  | _, _, .name hk | _, _, .builtin hk => by simp [hk]
  | _, _, .operator ho hop hc => by simp [ho, hop, hc]
  | _, _, .group ho h hc => by simp [ho, h.noEof, hc]
  | _, _, @IsPrimary.function _ _ _ names _ _ ho _ hn hb h _ hc => by
    have hnames : NoEof names := fun t ht => by rcases hn t ht with hk | hk <;> simp [hk]
    simp [ho, hnames, hb, h.noEof, hc]
  | _, _, .conditional hw h hs => by simp [hw, h.noEof, hs]
theorem IsStatements.noEof : ∀ {ts ss}, IsStatements ts ss → NoEof ts
  | _, _, .nil => noEof_nil
  | _, _, .cons h h' => by simp [h.noEof, h'.noEof]
theorem IsCases.noEof : ∀ {ts cs}, IsCases ts cs → NoEof ts
  | _, _, .one h => h.noEof
  | _, _, .more h h' => by simp [h.noEof, h'.noEof]
theorem IsCase.noEof : ∀ {ts c}, IsCase ts c → NoEof ts
  | _, _, .mk hb h _ ha h' _ => by simp [hb, h.noEof, ha, h'.noEof]
end

theorem NoEof.takeWhile {ts rest : List Token} (h : NoEof ts) (hr : ∀ k, headKind rest = some k → k = .eof) :
    (ts ++ rest).takeWhile (·.kind ≠ .eof) = ts := by
  rw [List.takeWhile_append_of_pos (by simpa [NoEof] using h)]
  cases rest with
  | nil => simp
  | cons t us => rw [List.takeWhile_cons_of_neg (by simpa using hr t.kind rfl), List.append_nil]

theorem headKind_dropWhile (tokens : List Token) {k : TokenKind}
    (h : headKind (tokens.dropWhile (·.kind ≠ .eof)) = some k) : k = .eof := by
  obtain ⟨t, ht, rfl⟩ := Option.map_eq_some_iff.mp h
  have hstop := List.head?_dropWhile_not (fun t : Token => decide (t.kind ≠ .eof)) tokens
  rw [ht] at hstop
  simpa using hstop

theorem parse_eq_ok {tokens : List Token} {program : List Statement} :
    parse tokens = .ok program ↔ ∃ rest, plain (statements (fun _ => false) tokens) = .ok (program, rest) := by
  unfold parse plain
  cases statements (fun _ => false) tokens with
  | error e => simp [Except.map]
  | ok found => simp [Except.map]

/-- A program reads up to the end of its text. -/
theorem parse_before {before : List Token} {eof : Token} {program : List Statement}
    (hbefore : NoEof before) (heof : eof.kind = .eof) (h : parse (before ++ [eof]) = .ok program) :
    IsStatements before program := by
  obtain ⟨rest, h⟩ := parse_eq_ok.mp h
  obtain ⟨ts, hts, hprogram, hrest⟩ := (sound _).statements h
  have htake := @NoEof.takeWhile before [eof] hbefore (by simp [headKind, heof])
  rw [hts, hprogram.noEof.takeWhile fun k hk => by simpa using hrest k hk] at htake
  rwa [← htake]

/-- The parser accepts the texts of the grammar, up to the first token that ends
the program, and no others, and gives the tree that the grammar gives. -/
theorem parse_eq_ok_iff (tokens : List Token) (program : List Statement) :
    parse tokens = .ok program ↔ IsStatements (tokens.takeWhile (·.kind ≠ .eof)) program := by
  rw [parse_eq_ok]
  constructor
  · rintro ⟨rest, h⟩
    obtain ⟨ts, rfl, hts, hrest⟩ := (sound tokens).statements h
    rwa [hts.noEof.takeWhile fun k hk => by simpa using hrest k hk]
  · intro h
    have hread := h.complete (fun _ => false) (tokens.dropWhile (·.kind ≠ .eof)) (by simp) fun k hk =>
      .inl (headKind_dropWhile tokens hk)
    rw [List.takeWhile_append_dropWhile] at hread
    exact ⟨_, hread⟩

end CurriedScript.Grammar
