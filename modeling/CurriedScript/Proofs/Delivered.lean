import CurriedScript.Proofs.Layout
import CurriedScript.Proofs.ParserComplete

/-!
# Tokens as the scanner gives them

`scan_delivered`: the tokens of a source have one end, the last, and every literal
has its value.
-/

namespace CurriedScript.Grammar

open CurriedScript.Parser

structure Delivered (tokens : List Token) : Prop where
  ended : ∃ before eof, tokens = before ++ [eof] ∧ NoEof before ∧ eof.kind = .eof
  literals : ∀ t ∈ tokens, IsLiteral t.kind → t.literal.isSome

theorem symbolKind_not_literal (run : List Char) : ¬ IsLiteral (symbolKind run) := by
  unfold symbolKind IsLiteral
  split <;> decide

theorem punctuation?_not_literal {c : Char} {kind : TokenKind} (h : punctuation? c = some kind) :
    ¬ IsLiteral kind := by
  unfold punctuation? at h
  unfold IsLiteral
  split at h <;> cases h <;> decide

theorem keyword?_not_literal {word : List Char} {kind : TokenKind} (h : keyword? word = some kind) :
    ¬ IsLiteral kind := by
  unfold keyword? at h
  unfold IsLiteral
  split at h <;> cases h <;> decide

theorem step_literal {c : Char} {cs lexeme rest : List Char} {kind : TokenKind} {literal : Option Literal}
    (h : step c cs = .token kind literal lexeme rest) (hkind : IsLiteral kind) : literal.isSome := by
  have hstep := stepsTo_step c cs
  generalize step c cs = s at h hstep
  cases hstep with
  | blank => cases h
  | comment =>
    unfold commentStep at h
    split at h <;> cases h
  | builtin =>
    unfold builtinStep at h
    dsimp only at h
    split at h
    · split at h <;> cases h
      rfl
    · cases h
  | string =>
    unfold stringStep at h
    split at h <;> cases h
    rfl
  | mark hmark =>
    cases h
    exact absurd hkind (punctuation?_not_literal hmark)
  | number =>
    unfold numberStep at h
    dsimp only at h
    split at h
    · cases h
      rfl
    · split at h <;> cases h
      rfl
    · cases h
  | name =>
    unfold nameStep at h
    dsimp only at h
    split at h
    · cases h
      exact absurd hkind (by simp [IsLiteral])
    split at h
    · cases h
      exact absurd hkind (by simp [IsLiteral])
    rename_i word hkeyword
    split at h
    · cases h
      split at hkind
      · exact absurd hkind (by simp [IsLiteral])
      · exact absurd hkind (keyword?_not_literal hkeyword)
    · cases h
  | stray => cases h
  | symbol =>
    unfold symbolStep at h
    dsimp only at h
    split at h <;> cases h
    exact absurd hkind (symbolKind_not_literal _)

theorem scanFrom_literals {line : Nat} {text : List Char} {tokens : List Token}
    (h : scanFrom line text = .ok tokens) :
    ∀ t ∈ tokens, IsLiteral t.kind → t.literal.isSome := by
  fun_induction scanFrom line text generalizing tokens with
  | case1 line =>
    cases h
    simp [IsLiteral, Token.eof]
  | case2 line c cs piece rest hstep _ ih => exact ih h
  | case3 line c cs kind literal lexeme rest hstep _ ih =>
    obtain ⟨after, hafter, h⟩ := bind_eq_ok.mp h
    cases h
    intro t ht hkind
    rcases List.mem_cons.mp ht with rfl | ht
    · exact step_literal hstep hkind
    · exact ih hafter t ht hkind
  | case4 => cases h

theorem scan_delivered {source : String} {tokens : List Token} (h : scan source = .ok tokens) :
    Delivered tokens := by
  refine ⟨?_, scanFrom_literals h⟩
  obtain ⟨pieces, last, hlayout, rfl⟩ := scanFrom_layout h
  refine ⟨_, _, rfl, fun t ht => ?_, rfl⟩
  obtain ⟨p, hp, rfl⟩ := List.mem_map.mp ht
  exact hlayout.kinds p hp

end CurriedScript.Grammar
