import CurriedScript.Proofs.Frames
import Mathlib

/-!
# Annotations in texts

Behind each primary that has no annotation there is a place for one: `Gap`. With an
annotation there, the program is read as the same one but for the signature of that
primary, unless an arrow follows (`parse_annotated`). The arrow can only be the one
behind the condition of a case. The parser takes it for the annotation's, and fails
at the body.
-/

namespace CurriedScript.Grammar

open CurriedScript.Parser

/-- Between the tokens `us` and `vs` of a text is the end of a primary that has no
annotation. The function gives the tree with a signature of the primary, which for the
text as it is has the signature `earlier`. -/
inductive Gap (earlier : List String) : (p : Part) → List Token → List Token → (List String → p.Tree) → Prop
  | here {ts : List Token} {form : Form} : IsPrimary ts ⟨form, earlier⟩ →
      Gap earlier .element ts [] fun names => ⟨form, names⟩
  | within {p q : Part} {us vs ts ts' : List Token} {f : p.Tree → q.Tree} {tree : List String → p.Tree} :
      Frame p q ts ts' f → Gap earlier p us vs tree →
      Gap earlier q (ts ++ us) (vs ++ ts') fun names => f (tree names)
  | condition {us vs : List Token} {tree : List String → Expr} : Gap earlier .chain us vs tree →
      ¬ EndsInType (us ++ vs) → Gap earlier .condition us vs tree

inductive IsNote (earlier : List String) : List Token → List String → Prop
  | nothing : IsNote earlier [] earlier
  | signature {colon : Token} {ts : List Token} {names : List String} : colon.kind = .colon → IsSignature ts names →
      IsNote earlier (colon :: ts) names

section
variable {earlier names : List String} {p q : Part} {us vs ts rest : List Token} {tree : List String → p.Tree}

theorem IsNote.endsInType (h : IsNote earlier ts names) (hts : ts ≠ []) : EndsInType ts := by
  cases h with
  | nothing => exact absurd rfl hts
  | signature _ h => exact (endsInType_cons h.endsInType.1).mpr h.endsInType.2

theorem Frame.arrow {f : Part.condition.Tree → q.Tree} (h : Frame .condition q us vs f) (rest : List Token) :
    headKind (vs ++ rest) = some .rightArrow := by
  cases h with
  | condition _ ha _ _ => simp [headKind, ha]

namespace Gap

/-- With a note in the gap the part is a text of the grammar too, if the note leaves no
arrow behind it. A condition stands in front of an arrow. -/
theorem derives (h : Gap earlier p us vs tree) (hn : IsNote earlier ts names) (ha : TakesArrows ts (vs ++ rest))
    (hrest : p = .condition → headKind rest = some .rightArrow) : p.Derives (us ++ ts ++ vs) (tree names) := by
  induction h generalizing rest with
  | here h =>
    cases hn with
    | nothing => simpa using IsElement.plain h
    | signature hc hs => simpa using IsElement.typed h hc hs
  | @within p q us vs _ ts' _ tree hf _ ih =>
    rw [List.append_assoc] at ha
    have hpart : p.Derives (us ++ ts ++ vs) (tree names) := ih ha (by rintro rfl; exact hf.arrow rest)
    simpa using hf.derives hpart
  | @condition us vs _ _ he ih =>
    refine ⟨ih ha (by rintro ⟨⟩), fun hends => ?_⟩
    cases vs with
    | nil =>
      rw [List.append_nil] at hends he
      by_cases hts : ts = []
      · exact he (by simpa [hts] using hends)
      · exact ha (hn.endsInType hts) (hrest rfl)
    | cons v vs => exact he ((endsInType_append (by simp)).mpr ((endsInType_append (by simp)).mp hends))

theorem sameErased (h : Gap earlier p us vs tree) (names names' : List String) :
    p.SameErased (tree names) (tree names') := by
  induction h with
  | here _ => rfl
  | within hf _ ih => exact hf.sameErased ih
  | condition _ _ ih => exact ih

theorem follows (h : Gap earlier p us vs tree) (hvs : headKind vs = some .rightArrow) :
    ∃ k, headKind vs.tail = some k ∧ opensStatement k = true := by
  induction h with
  | here _ => cases hvs
  | @within _ _ us vs _ ts' _ _ hf _ ih =>
    cases vs with
    | nil => exact hf.follows hvs
    | cons v vs =>
      obtain ⟨k, hk, ho⟩ := ih hvs
      exact ⟨k, (headKind_append (by rintro rfl; cases hk)).trans hk, ho⟩
  | condition _ _ ih => exact ih hvs

end Gap

/-! ## Arrows behind annotations -/

section
variable {arrow : Token} (ha : arrow.kind = .rightArrow) (hrest : headKind rest ≠ some .typename)
include ha hrest

theorem arrowTypes_stuck (hts : IsSignature ts names) : ∃ t us, ts = t :: us ∧ t.kind = .typename ∧
    plain (arrowTypes (us ++ arrow :: rest)) = .error (faultAt rest .missingNextType) := by
  induction hts with
  | one ht =>
    refine ⟨_, [], rfl, ht, ?_⟩
    rw [List.nil_append, plain_arrowTypes, next?_eq_some.mpr ⟨rfl, ha⟩]
    simp only [plain_expect, next?_eq_none.mpr hrest]
    rfl
  | @more t arrow' ts names ht ha' _ ih =>
    obtain ⟨u, us, rfl, hu, ih⟩ := ih
    refine ⟨t, arrow' :: u :: us, rfl, ht, ?_⟩
    rw [List.cons_append, plain_arrowTypes, next?_eq_some.mpr ⟨rfl, ha'⟩]
    simp only [List.cons_append, expect_eq_ok.mpr ⟨rfl, hu⟩, ok_bind, ih]
    rfl

theorem signature_stuck (hts : IsSignature ts names) :
    plain (signature (ts ++ arrow :: rest)) = .error (faultAt rest .missingNextType) := by
  obtain ⟨t, us, rfl, ht, harrows⟩ := arrowTypes_stuck ha hrest hts
  rw [plain_signature, List.cons_append]
  simp only [expect_eq_ok.mpr ⟨rfl, ht⟩, ok_bind, harrows]
  rfl

/-- The arrow is read as the annotation's, with the fault at what follows it. -/
theorem Gap.stuck (h : Gap earlier p us vs tree) {colon : Token} (hcolon : colon.kind = .colon)
    (hts : IsSignature ts names) :
    p.Stuck (us ++ (colon :: ts ++ arrow :: rest)) (faultAt rest .missingNextType) := by
  induction h with
  | here h =>
    obtain ⟨k, hk, ho⟩ := h.head
    refine ⟨⟨k, (headKind_append h.ne_nil).trans hk, ho⟩, ?_⟩
    change plain? (element? (_ ++ (colon :: ts ++ arrow :: rest))) = _
    rw [plain_element?, h.complete]
    simp only [ok_bind, List.cons_append, next?_eq_some.mpr ⟨rfl, hcolon⟩, signature_stuck ha hrest hts]
    rfl
  | within hf _ ih =>
    rw [List.append_assoc]
    exact hf.stuck ih
  | condition _ _ ih => exact ⟨ih.opens, ih.fails⟩

end

end

/-- **Annotations are inert for the parser, but in front of an arrow.** Take a program
and the place behind one of its primaries that has no annotation. With an annotation
there it is read as the same program with another signature of that primary, if the
next token is no arrow. If it is one, the arrow ends the condition of a case, and the
parser expects a type name in the place of the body. -/
theorem parse_annotated {earlier names : List String} {before after rest ts : List Token} {colon : Token}
    {program : List String → List Statement} (h : Gap earlier .statements before after program)
    (hrest : ∀ k, headKind rest = some k → k = .eof) (hcolon : colon.kind = .colon) (hts : IsSignature ts names) :
    parse (before ++ after ++ rest) = .ok (program earlier) ∧
      statementsErased (program names) = statementsErased (program earlier) ∧
      (headKind after ≠ some .rightArrow → parse (before ++ colon :: ts ++ after ++ rest) = .ok (program names)) ∧
      ∀ arrow body, after = arrow :: body → arrow.kind = .rightArrow →
        parse (before ++ colon :: ts ++ after ++ rest) = .error (faultAt (body ++ rest) .missingNextType) := by
  have hread : ∀ {note names}, IsNote earlier note names → TakesArrows note after →
      parse (before ++ note ++ after ++ rest) = .ok (program names) := by
    intro note names hn ha
    have hprogram := (h.derives hn (show TakesArrows note (after ++ []) by rwa [List.append_nil]) (by rintro ⟨⟩)).1
    exact parse_eq_ok.mpr ⟨rest, hprogram.complete (fun _ => false) rest (by simp) fun k hk => .inl (hrest k hk)⟩
  refine ⟨?_, h.sameErased names earlier, fun hafter => hread (.signature hcolon hts) fun _ => hafter, ?_⟩
  · simpa using hread .nothing fun he => absurd he (by simp [EndsInType])
  · rintro arrow body rfl harrow
    have hbody : headKind (body ++ rest) ≠ some .typename := by
      obtain ⟨k, hk, ho⟩ := h.follows (by simp [headKind, harrow])
      rw [List.tail_cons] at hk
      exact headKind_ne ((headKind_append (by rintro rfl; cases hk)).trans hk) ho rfl
    have hstuck := (h.stuck harrow hbody hcolon hts).fails (fun _ => false) (by simp)
    have htokens :
        before ++ colon :: ts ++ arrow :: body ++ rest = before ++ (colon :: ts ++ arrow :: (body ++ rest)) := by
      simp
    rw [parse_eq, htokens, hstuck]
    rfl

/-! ## A case with and without annotations -/

def lineOne (kind : TokenKind) (lexeme : String) : Token := ⟨kind, lexeme, none, 1⟩

def caseStart : List Token := [lineOne .condWord "cond", lineOne .pipe "|", lineOne .identifier "a"]

def caseBody : List Token := [lineOne .rightArrow "->", lineOne .identifier "c"]

def caseEnd : List Token := [lineOne .semicolon ";", lineOne .endWord "end", lineOne .semicolon ";"]

def caseProgram (condition body : List String) : List Statement :=
  [.expr (Form.conditional [⟨⟨.name "a", condition⟩, [.expr ⟨.name "c", body⟩]⟩]).bare]

theorem gap_condition : Gap [] .statements caseStart (caseBody ++ caseEnd) (caseProgram · []) := by
  have hbody : IsStatements [lineOne .identifier "c", lineOne .semicolon ";"] [.expr (Form.name "c").bare] :=
    .cons (.expr (.application (applied_sound (.cons (.plain (.name rfl)) .nil))) rfl) .nil
  have hcondition : Gap [] .condition [lineOne .identifier "a"] [] fun names => ⟨.name "a", names⟩ :=
    .condition (.within .alone (.within (.head .nil) (.here (.name rfl)))) (by simp [EndsInType, lineOne])
  have hframe : Frame .condition .case [lineOne .pipe "|"] (caseBody ++ [lineOne .semicolon ";"])
      (⟨·, [.expr (Form.name "c").bare]⟩) := .condition rfl rfl hbody (by simp)
  exact .within (.firstStatement .nil) (.within (.expr rfl) (.within .alone (.within (.head .nil) (.within .untyped
    (.within (.conditional rfl rfl) (.within .oneCase (.within hframe hcondition)))))))

theorem gap_body : Gap [] .statements (caseStart ++ caseBody) caseEnd (caseProgram []) := by
  have hbody : Gap [] .statements [lineOne .identifier "c"] [lineOne .semicolon ";"] fun names =>
      [.expr ⟨.name "c", names⟩] :=
    .within (.firstStatement .nil) (.within (.expr rfl) (.within .alone (.within (.head .nil) (.here (.name rfl)))))
  have hframe :
      Frame .statements .case (caseStart.tail ++ [lineOne .rightArrow "->"]) [] (⟨(Form.name "a").bare, ·⟩) :=
    .body rfl (.application (applied_sound (.cons (.plain (.name rfl)) .nil))) (by simp [EndsInType, lineOne]) rfl
  exact .within (.firstStatement .nil) (.within (.expr rfl) (.within .alone (.within (.head .nil) (.within .untyped
    (.within (.conditional rfl rfl) (.within .oneCase (.within hframe hbody)))))))

def noteB : List Token := [lineOne .colon ":", lineOne .typename "B"]

theorem case_annotated :
    Gap [] .statements (caseStart ++ caseBody) caseEnd (caseProgram []) ∧
    IsSignature [lineOne .typename "B"] ["B"] ∧
      headKind caseEnd ≠ some .rightArrow ∧
      parse (caseStart ++ caseBody ++ noteB ++ caseEnd ++ [lineOne .eof ""]) = .ok (caseProgram [] ["B"]) := by
  have hsignature : IsSignature [lineOne .typename "B"] ["B"] := .one rfl
  have hafter : headKind caseEnd ≠ some .rightArrow := by decide
  obtain ⟨-, -, hparse, -⟩ := @parse_annotated [] ["B"] _ _ [lineOne .eof ""] _ (lineOne .colon ":") _ gap_body
    (fun k hk => by cases hk; rfl) rfl hsignature
  exact ⟨gap_body, hsignature, hafter, hparse hafter⟩

/-- Behind the condition the annotation takes the arrow of the case. -/
theorem condition_not_annotated :
    Gap [] .statements caseStart (caseBody ++ caseEnd) (caseProgram · []) ∧
      parse (caseStart ++ (caseBody ++ caseEnd) ++ [lineOne .eof ""]) = .ok (caseProgram [] []) ∧
      parse (caseStart ++ noteB ++ (caseBody ++ caseEnd) ++ [lineOne .eof ""]) =
        .error (.parse 1 "c" .missingNextType) :=
  ⟨gap_condition, by cbv, by cbv⟩

end CurriedScript.Grammar
