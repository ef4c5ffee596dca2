import CurriedScript.Proofs.Seams
import Mathlib.Data.List.Basic

/-!
# Lexemes and gaps

`scan_layout`: a source that is cut into tokens is their lexemes, with blanks and
comments before, between and behind them, and nothing else. Each token is on the
line on which its lexeme ends, the end of the source on the line after all its
newlines.
-/

namespace CurriedScript

/-! ## Comments -/

/-- The text ends with a closing mark, and none stands before that one. -/
def EndsAtMark (text : List Char) : Prop :=
  (∃ body, text = body ++ ['*', '/']) ∧ ∀ before after, text = before ++ '*' :: '/' :: after → after = []

def IsComment (text : List Char) : Prop := ∃ rest, text = '/' :: '*' :: rest ∧ EndsAtMark rest

theorem endsAtMark_close : EndsAtMark ['*', '/'] := by
  refine ⟨⟨[], rfl⟩, fun before after h => ?_⟩
  have hlength := congrArg List.length h
  simp only [List.length_append, List.length_cons, List.length_nil] at hlength
  exact List.eq_nil_of_length_eq_zero (by omega)

theorem endsAtMark_cons {c : Char} {text : List Char} (h : ¬ (c = '*' ∧ text.head? = some '/')) :
    EndsAtMark (c :: text) ↔ EndsAtMark text := by
  constructor
  · rintro ⟨⟨body, hbody⟩, hfirst⟩
    refine ⟨?_, fun before after htext => hfirst (c :: before) after (by rw [htext, List.cons_append])⟩
    cases body with
    | nil =>
      cases hbody
      exact absurd ⟨rfl, rfl⟩ h
    | cons d body =>
      cases hbody
      exact ⟨body, rfl⟩
  · rintro ⟨⟨body, rfl⟩, hfirst⟩
    refine ⟨⟨c :: body, rfl⟩, fun before after htext => ?_⟩
    cases before with
    | nil =>
      obtain ⟨hc, hrest⟩ := List.cons.inj htext
      exact absurd ⟨hc, by rw [hrest]; rfl⟩ h
    | cons d before =>
      obtain ⟨_, hrest⟩ := List.cons.inj htext
      exact hfirst before after hrest

theorem endsAtMark_of_commentEnd? {text piece rest : List Char} (h : commentEnd? text = some (piece, rest)) :
    EndsAtMark piece := by
  fun_induction commentEnd? text generalizing piece rest with
  | case1 =>
    cases h
    exact endsAtMark_close
  | case2 c text hne ih =>
    obtain ⟨⟨p, r⟩, hp, h⟩ := Option.map_eq_some_iff.mp h
    cases h
    refine (endsAtMark_cons ?_).mpr (ih hp)
    rintro ⟨rfl, hslash⟩
    obtain ⟨p, rfl⟩ := List.head?_eq_some_iff.mp hslash
    exact hne (p ++ rest) rfl (commentEnd?_append hp).symm
  | case3 => cases h

theorem commentEnd?_of_endsAtMark {text : List Char} (h : EndsAtMark text) (more : List Char) :
    commentEnd? (text ++ more) = some (text, more) := by
  induction text with
  | nil =>
    obtain ⟨⟨body, hbody⟩, _⟩ := h
    cases body <;> cases hbody
  | cons c text ih =>
    by_cases hmark : c = '*' ∧ text.head? = some '/'
    · obtain ⟨rfl, hslash⟩ := hmark
      obtain ⟨rest, rfl⟩ := List.head?_eq_some_iff.mp hslash
      rw [h.2 [] rest rfl]
      rfl
    · have htext := (endsAtMark_cons hmark).mp h
      have hhead : ¬ (c = '*' ∧ (text ++ more).head? = some '/') := by
        obtain ⟨⟨body, rfl⟩, _⟩ := htext
        cases body with
        | nil => simp
        | cons d body => exact hmark
      rw [List.cons_append, commentEnd?_cons hhead, ih htext]
      rfl

/-! ## Gaps -/

inductive IsGap : List Char → Prop
  | nil : IsGap []
  | blank {c : Char} {rest : List Char} : c ∈ [' ', '\t', '\r', '\n', '\x0c'] → IsGap rest → IsGap (c :: rest)
  | comment {text rest : List Char} : IsComment text → IsGap rest → IsGap (text ++ rest)

theorem IsGap.append {text more : List Char} (h : IsGap text) (hmore : IsGap more) : IsGap (text ++ more) := by
  induction h with
  | nil => exact hmore
  | blank hc _ ih => exact .blank hc ih
  | comment ht _ ih =>
    rw [List.append_assoc]
    exact .comment ht ih

theorem isBlank_iff {c : Char} : isBlank c ↔ c ∈ [' ', '\t', '\r', '\n', '\x0c'] := by
  simp [isBlank, or_assoc]

/-- What is skipped is a blank or a comment. -/
theorem step_skip {c : Char} {cs piece rest : List Char} (h : step c cs = .skip piece rest) :
    isBlank c ∧ piece = [c] ∧ rest = cs ∨ ∃ text body, c = '/' ∧ cs = '*' :: text ∧
      commentEnd? text = some (body, rest) ∧ piece = '/' :: '*' :: body := by
  have hstep := stepsTo_step c cs
  generalize step c cs = s at h hstep
  cases hstep with
  | blank hc =>
    cases h
    exact .inl ⟨hc, rfl, rfl⟩
  | @comment text =>
    unfold commentStep at h
    cases hend : commentEnd? text with
    | none =>
      rw [hend] at h
      cases h
    | some found =>
      rw [hend] at h
      cases h
      exact .inr ⟨text, found.1, rfl, rfl, hend, rfl⟩
  | builtin =>
    unfold builtinStep at h
    dsimp only at h
    split at h
    · split at h <;> cases h
    · cases h
  | string =>
    unfold stringStep at h
    split at h <;> cases h
  | mark => cases h
  | number =>
    unfold numberStep at h
    dsimp only at h
    split at h
    · cases h
    · split at h <;> cases h
    · cases h
  | name =>
    unfold nameStep at h
    dsimp only at h
    split at h
    · cases h
    split at h
    · cases h
    split at h <;> cases h
  | stray => cases h
  | symbol =>
    unfold symbolStep at h
    dsimp only at h
    split at h <;> cases h

theorem isGap_of_skip {c : Char} {cs piece rest : List Char} (h : step c cs = .skip piece rest) : IsGap piece := by
  rcases step_skip h with ⟨hc, rfl, _⟩ | ⟨text, body, _, _, hend, rfl⟩
  · exact .blank (isBlank_iff.mp hc) .nil
  · have hgap := IsGap.comment ⟨body, rfl, endsAtMark_of_commentEnd? hend⟩ .nil
    rwa [List.append_nil] at hgap

/-! ## Layouts -/

structure Piece where
  gap : List Char
  token : Token

def Piece.text (p : Piece) : List Char := p.gap ++ p.token.lexeme.toList

def piecesText (pieces : List Piece) : List Char := pieces.flatMap Piece.text

/-- A text that starts on a line is the pieces and a last gap. -/
structure Layout (line : Nat) (text : List Char) (pieces : List Piece) (last : List Char) : Prop where
  text_eq : text = piecesText pieces ++ last
  gaps : ∀ p ∈ pieces, IsGap p.gap
  last_gap : IsGap last
  lexemes : ∀ p ∈ pieces, p.token.lexeme ≠ ""
  kinds : ∀ p ∈ pieces, p.token.kind ≠ .eof
  lines : ∀ before p after, pieces = before ++ p :: after →
    p.token.line = line + newlines (piecesText (before ++ [p]))

theorem piecesText_cons (p : Piece) (pieces : List Piece) :
    piecesText (p :: pieces) = p.text ++ piecesText pieces :=
  List.flatMap_cons

theorem Layout.nil (line : Nat) {last : List Char} (h : IsGap last) : Layout line last [] last where
  text_eq := rfl
  gaps := by simp
  last_gap := h
  lexemes := by simp
  kinds := by simp
  lines := fun before p after h => by simp at h

theorem Layout.cons {line : Nat} {rest last : List Char} {p : Piece} {pieces : List Piece} (hgap : IsGap p.gap)
    (hlexeme : p.token.lexeme ≠ "") (hkind : p.token.kind ≠ .eof) (hline : p.token.line = line + newlines p.text)
    (h : Layout (line + newlines p.text) rest pieces last) : Layout line (p.text ++ rest) (p :: pieces) last where
  text_eq := by rw [piecesText_cons, List.append_assoc, ← h.text_eq]
  gaps := List.forall_mem_cons.mpr ⟨hgap, h.gaps⟩
  last_gap := h.last_gap
  lexemes := List.forall_mem_cons.mpr ⟨hlexeme, h.lexemes⟩
  kinds := List.forall_mem_cons.mpr ⟨hkind, h.kinds⟩
  lines := by
    intro before q after hpieces
    cases before with
    | nil =>
      cases hpieces
      simpa [piecesText] using hline
    | cons r before =>
      obtain ⟨rfl, hrest⟩ := List.cons.inj hpieces
      rw [h.lines before q after hrest, List.cons_append, piecesText_cons, newlines_append, Nat.add_assoc]

theorem Layout.tail {line : Nat} {text last : List Char} {p : Piece} {pieces : List Piece}
    (h : Layout line text (p :: pieces) last) :
    p.token.line = line + newlines p.text ∧ ∃ rest, text = p.text ++ rest ∧
      Layout (line + newlines p.text) rest pieces last := by
  refine ⟨by simpa [piecesText] using h.lines [] p pieces rfl, piecesText pieces ++ last, ?_, ?_⟩
  · rw [h.text_eq, piecesText_cons, List.append_assoc]
  · refine ⟨rfl, fun q hq => h.gaps q (by simp [hq]), h.last_gap, fun q hq => h.lexemes q (by simp [hq]),
      fun q hq => h.kinds q (by simp [hq]), fun before q after hpieces => ?_⟩
    rw [h.lines (p :: before) q after (by rw [hpieces]; rfl), List.cons_append, piecesText_cons, newlines_append,
      Nat.add_assoc]

/-- What is skipped before a text belongs to the gap before its first token. -/
theorem Layout.skip {line : Nat} {gap rest last : List Char} {pieces : List Piece} (hgap : IsGap gap)
    (h : Layout (line + newlines gap) rest pieces last) :
    ∃ pieces' last', Layout line (gap ++ rest) pieces' last' ∧ pieces'.map (·.token) = pieces.map (·.token) := by
  cases pieces with
  | nil =>
    obtain rfl : rest = last := h.text_eq
    exact ⟨[], gap ++ rest, .nil line (hgap.append h.last_gap), rfl⟩
  | cons p pieces =>
    obtain ⟨hline, rest, rfl, hrest⟩ := h.tail
    have htext : Piece.text ⟨gap ++ p.gap, p.token⟩ = gap ++ p.text :=
      List.append_assoc gap p.gap p.token.lexeme.toList
    have hnewlines : line + newlines (gap ++ p.text) = line + newlines gap + newlines p.text := by
      rw [newlines_append, Nat.add_assoc]
    refine ⟨⟨gap ++ p.gap, p.token⟩ :: pieces, last, ?_, rfl⟩
    rw [← List.append_assoc, ← htext]
    refine .cons (hgap.append (h.gaps p (by simp))) (h.lexemes p (by simp)) (h.kinds p (by simp)) ?_ ?_
    · rw [htext, hnewlines, hline]
    · rwa [htext, hnewlines]

theorem Layout.token {line : Nat} {lexeme rest last : List Char} {kind : TokenKind} {literal : Option Literal}
    {pieces : List Piece} (h : Layout (line + newlines lexeme) rest pieces last) (hne : lexeme ≠ [])
    (hkind : kind ≠ .eof) :
    Layout line (lexeme ++ rest) (⟨[], kind, String.ofList lexeme, literal, line + newlines lexeme⟩ :: pieces)
      last := by
  have htext : Piece.text ⟨[], kind, String.ofList lexeme, literal, line + newlines lexeme⟩ = lexeme := by
    simp [Piece.text]
  have hlexeme : String.ofList lexeme ≠ "" := fun hnil =>
    hne (by rw [← String.toList_ofList (l := lexeme), hnil]; rfl)
  have hcons := @Layout.cons line rest last ⟨[], kind, String.ofList lexeme, literal, line + newlines lexeme⟩ pieces
    .nil hlexeme hkind (by rw [htext]) (by rwa [htext])
  rwa [htext] at hcons

theorem scanFrom_layout {line : Nat} {text : List Char} {tokens : List Token}
    (h : scanFrom line text = .ok tokens) :
    ∃ pieces last, Layout line text pieces last ∧
      tokens = pieces.map (·.token) ++ [.eof (line + newlines text)] := by
  fun_induction scanFrom line text generalizing tokens with
  | case1 line =>
    cases h
    exact ⟨[], [], .nil line .nil, rfl⟩
  | case2 line c cs piece rest hstep _ ih =>
    obtain ⟨pieces, last, hlayout, rfl⟩ := ih h
    have hsplits := step_splits c cs
    rw [hstep] at hsplits
    obtain ⟨pieces', last', hlayout', htokens⟩ := hlayout.skip (isGap_of_skip hstep)
    rw [hsplits.2] at hlayout'
    refine ⟨pieces', last', hlayout', ?_⟩
    rw [htokens, ← hsplits.2, newlines_append, Nat.add_assoc]
  | case3 line c cs kind literal lexeme rest hstep _ ih =>
    cases hrest : scanFrom (line + newlines lexeme) rest with
    | error e =>
      rw [hrest] at h
      cases h
    | ok after =>
      rw [hrest] at h
      cases h
      obtain ⟨pieces, last, hlayout, rfl⟩ := ih hrest
      have hsplits := step_splits c cs
      have hkind := step_avoids (.inl rfl) c cs (by simp)
      rw [hstep] at hsplits hkind
      refine ⟨⟨[], kind, String.ofList lexeme, literal, line + newlines lexeme⟩ :: pieces, last, ?_, ?_⟩
      · rw [← hsplits.2]
        exact hlayout.token hsplits.1 hkind
      · rw [← hsplits.2, newlines_append, Nat.add_assoc]
        rfl
  | case4 => cases h

/-- **Scanning loses nothing and counts lines exactly.** A source is the lexemes of its
tokens, none of them empty, and the gaps around them. A token is on the line on which
its lexeme ends, and the end of the source, which comes once and last, on the line
after all newlines. -/
theorem scan_layout {source : String} {tokens : List Token} (h : scan source = .ok tokens) :
    ∃ pieces last, Layout 1 source.toList pieces last ∧
      tokens = pieces.map (·.token) ++ [.eof (1 + newlines source.toList)] :=
  scanFrom_layout h

/-- A comment and a string that go over the end of a line, and an escape that does not. -/
theorem acrossLines_layout :
    ∃ tokens, scan "f/* a\n* b */ \"\n\\n\" ;\n" = .ok tokens ∧
      ∃ pieces last, Layout 1 "f/* a\n* b */ \"\n\\n\" ;\n".toList pieces last ∧
        tokens = pieces.map (·.token) ++ [.eof (1 + newlines "f/* a\n* b */ \"\n\\n\" ;\n".toList)] := by
  have h : scan "f/* a\n* b */ \"\n\\n\" ;\n" = .ok [⟨.identifier, "f", none, 1⟩,
      ⟨.string, "\"\n\\n\"", some (.string "\n\n"), 3⟩, ⟨.semicolon, ";", none, 3⟩, .eof 4] := by
    cbv
  exact ⟨_, h, scan_layout h⟩

end CurriedScript
