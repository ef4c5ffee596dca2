import CurriedScript.Proofs.Seams
import Mathlib.Data.List.TakeWhile

/-!
# Lexemes

`step_lexeme`: what a step takes for a token is that token by itself, whatever
followed it. The one exception are keywords that are names because of the character
behind them, and a symbol follows those.
-/

namespace CurriedScript

/-- By itself the text is one token. -/
def IsToken (kind : TokenKind) (literal : Option Literal) : List Char → Prop
  | [] => False
  | c :: cs => step c cs = .token kind literal (c :: cs) []

/-! ## Strings and builtins -/

theorem stringBody_lexeme {text : List Char} {body : StringBody} (h : stringBody text = .ok body) :
    stringBody body.text = .ok { body with rest := [] } := by
  fun_induction stringBody text generalizing body with
  | case1 => cases h
  | case2 => cases h; rfl
  | case3 a b c d rest ih =>
    cases hv : hexEscape a b c d with
    | error => rw [hv] at h; cases h
    | ok v =>
      cases hb : stringBody rest with
      | error => rw [hv, hb] at h; cases h
      | ok body =>
        rw [hv, hb] at h
        cases h
        simp only [StringBody.cons, List.cons_append, List.nil_append, stringBody_hex, hv, ih hb]
        rfl
  | case4 => cases h
  | case5 => cases h
  | case6 => cases h
  | case7 letter rest _ _ v hv ih =>
    cases hb : stringBody rest with
    | error => rw [hb] at h; cases h
    | ok body =>
      rw [hb] at h
      cases h
      simp only [StringBody.cons, List.cons_append, List.nil_append, stringBody_escape hv, ih hb]
      rfl
  | case8 c rest hq _ _ hb hb' ih =>
    have hc : c ≠ '\\' := by
      cases rest with
      | nil => exact fun hc => hb hc rfl
      | cons d rest => exact fun hc => hb' d rest hc rfl
    cases hb : stringBody rest with
    | error => rw [hb] at h; cases h
    | ok body =>
      rw [hb] at h
      cases h
      simp only [StringBody.cons, List.cons_append, List.nil_append, stringBody_cons hq hc, ih hb]
      rfl

variable {kind : TokenKind} {literal : Option Literal} {lexeme rest : List Char}

theorem stringStep_lexeme {text : List Char} (h : stringStep text = .token kind literal lexeme rest) :
    ∃ body, lexeme = '"' :: body ∧ stringStep body = .token kind literal lexeme [] := by
  unfold stringStep at h
  cases hb : stringBody text with
  | error => rw [hb] at h; cases h
  | ok body =>
    rw [hb] at h
    cases h
    exact ⟨body.text, rfl, by simp [stringStep, stringBody_lexeme hb]⟩

theorem bangAfter_eq (text : List Char) : bangAfter text = [] ∨ bangAfter text = ['!'] := by
  unfold bangAfter
  split <;> simp

theorem nameSpan_lexeme (text : List Char) :
    nameSpan ((nameSpan text).1 ++ (nameSpan text).2.1) = ((nameSpan text).1, (nameSpan text).2.1, []) := by
  have hall : ∀ c ∈ text.takeWhile isNameChar, isNameChar c := List.all_eq_true.mp List.all_takeWhile
  have hbang : isNameChar '!' = false := not_isNameChar_mark (by decide)
  unfold nameSpan
  dsimp only
  rw [List.takeWhile_append_of_pos hall, List.dropWhile_append_of_pos hall]
  rcases bangAfter_eq (text.dropWhile isNameChar) with hb | hb
  · rw [hb]
    simp [bangAfter]
  · rw [hb]
    simp [hbang, bangAfter]

theorem builtinStep_lexeme {text : List Char} (h : builtinStep text = .token kind literal lexeme rest) :
    ∃ name, lexeme = '{' :: '#' :: (name ++ ['}']) ∧ kind = .builtin ∧
      literal = some (.string (String.ofList name)) ∧
      builtinStep (name ++ ['}']) = .token kind literal lexeme [] := by
  have hbrace : isNameChar '}' = false := not_isNameChar_mark (by decide)
  have hlexeme := nameSpan_lexeme text
  unfold builtinStep at h
  generalize nameSpan text = span at h hlexeme
  obtain ⟨run, bang, after⟩ := span
  dsimp only at h hlexeme
  split at h
  · split at h
    · cases h
    · next hrun =>
      cases h
      refine ⟨run ++ bang, rfl, rfl, rfl, ?_⟩
      simp only [builtinStep, nameSpan_more hbrace (.inr (by decide)), hlexeme, List.nil_append, hrun]
      rfl
  · cases h

/-! ## Numbers -/

theorem startsMagnitude_cons {c : Char} (h : c.isDigit) (rest : List Char) : startsMagnitude (c :: rest) := by
  have hdot : c ≠ '.' := by rintro rfl; cases h
  cases rest <;> simp [startsMagnitude, hdot, h]

theorem startsMagnitude_takeWhile {text : List Char} (h : startsMagnitude text) :
    startsMagnitude (text.takeWhile isNumberChar) := by
  unfold startsMagnitude at h
  split at h
  · simp [isNumberChar, h, startsMagnitude]
  · rw [List.takeWhile_cons_of_pos (by simp [isNumberChar, h])]
    exact startsMagnitude_cons h _
  · cases h

theorem numberSign_lexeme (text : List Char) :
    numberSign ((numberSign text).1 ++ (numberSign text).2.takeWhile isNumberChar) =
      ((numberSign text).1, (numberSign text).2.takeWhile isNumberChar) := by
  by_cases hsign : text.head? = some '-'
  · obtain ⟨rest, rfl⟩ := List.head?_eq_some_iff.mp hsign
    rfl
  · rw [numberSign_of_head hsign]
    refine numberSign_of_head fun h => ?_
    obtain ⟨rest, h⟩ := List.head?_eq_some_iff.mp h
    have hall : ∀ c ∈ text.takeWhile isNumberChar, isNumberChar c := List.all_eq_true.mp List.all_takeWhile
    rw [show text.takeWhile isNumberChar = '-' :: rest from h] at hall
    exact absurd (hall '-' (by simp)) (by decide)

theorem numberStep_lexeme {text : List Char} (hstarts : startsNumber text)
    (h : numberStep text = .token kind literal lexeme rest) :
    startsNumber lexeme ∧ numberStep lexeme = .token kind literal lexeme [] := by
  have hlexeme := numberSign_lexeme text
  unfold startsNumber at hstarts ⊢
  unfold numberStep at h ⊢
  generalize numberSign text = sign at h hstarts hlexeme
  obtain ⟨sign, magnitude⟩ := sign
  have hmagnitude := startsMagnitude_takeWhile hstarts
  have htake : (magnitude.takeWhile isNumberChar).takeWhile isNumberChar = _ := List.takeWhile_idem
  have hdrop : (magnitude.takeWhile isNumberChar).dropWhile isNumberChar = [] :=
    List.dropWhile_eq_nil_iff.mpr fun c hc => List.mem_takeWhile_imp hc
  dsimp only at h hlexeme
  generalize magnitude.takeWhile isNumberChar = run at h hlexeme hmagnitude htake hdrop
  split at h
  · next hdots =>
    cases h
    simp only [hlexeme, hmagnitude, htake, hdrop, hdots, and_self]
  · next hdots =>
    split at h
    · next x hx =>
      cases h
      simp only [hlexeme, hmagnitude, htake, hdrop, hdots, hx, and_self]
    · cases h
  · cases h

/-! ## Names -/

theorem nameStep_lexeme {c : Char} {text : List Char} (h : nameStep c text = .token kind literal lexeme rest) :
    (∃ word, lexeme = c :: word ∧ nameStep c word = .token kind literal lexeme []) ∨
      kind = .identifier ∧ literal = none ∧ (∃ keyword, keyword? lexeme = some keyword) ∧
        ∃ x more, rest = x :: more ∧ startsLikeNameChar x ∧ isNameChar x = false := by
  have hlexeme := nameSpan_lexeme text
  have hafter : (nameSpan text).2.1 = [] → (nameSpan text).2.2 = text.dropWhile isNameChar := by
    unfold nameSpan
    intro hb
    dsimp only at hb ⊢
    rw [hb]
    rfl
  unfold nameStep at h
  generalize nameSpan text = span at h hlexeme hafter
  obtain ⟨run, bang, after⟩ := span
  dsimp only at h hlexeme hafter
  by_cases hu : Text.isUppercase c
  · rw [if_pos hu] at h
    cases h
    exact .inl ⟨run ++ bang, rfl, by simp [nameStep, hlexeme, hu]⟩
  rw [if_neg hu] at h
  cases hk : keyword? (c :: run) with
  | none =>
    rw [hk] at h
    cases h
    exact .inl ⟨run ++ bang, rfl, by simp [nameStep, hlexeme, hu, hk]⟩
  | some word =>
    rw [hk] at h
    dsimp only at h
    split at h
    · next hb =>
      cases h
      rw [List.isEmpty_iff] at hb
      subst hb
      by_cases hlead : rest.head?.any startsLikeNameChar
      · refine .inr ⟨if_pos hlead, rfl, ⟨word, hk⟩, ?_⟩
        have hstop := List.head?_dropWhile_not isNameChar text
        rw [← hafter rfl] at hstop
        cases rest with
        | nil => cases hlead
        | cons x more => exact ⟨x, more, rfl, hlead, by simpa using hstop⟩
      · rw [List.append_nil] at hlexeme
        exact .inl ⟨run, rfl, by simp [nameStep, hlexeme, hu, hk, hlead]⟩
    · cases h

/-! ## Symbols -/

theorem symbolSpan_lexeme (text : List Char) : symbolSpan (symbolSpan text).1 = ((symbolSpan text).1, []) := by
  fun_induction symbolSpan text with
  | case1 c d rest hc => rfl
  | case2 c d rest hc hmark => simpa [symbolSpan] using hc
  | case3 c d rest hc hmark run left hspan ih =>
    have happ := symbolSpan_append (d :: rest)
    rw [hspan] at ih happ
    cases run with
    | nil => simpa [symbolSpan] using hc
    | cons e run =>
      cases happ
      dsimp only at ih ⊢
      rw [symbolSpan_cons (by simpa using hc) (by simpa using hmark), ih]
  | case4 c hc => simp [symbolSpan, hc]
  | case5 c hc => rfl
  | case6 => rfl

theorem symbolStep_lexeme {text : List Char} (h : symbolStep text = .token kind literal lexeme rest) :
    symbolStep lexeme = .token kind literal lexeme [] := by
  have hlexeme := symbolSpan_lexeme text
  unfold symbolStep at h
  generalize symbolSpan text = span at h hlexeme
  obtain ⟨run, after⟩ := span
  dsimp only at h hlexeme
  split at h
  · cases h
  · cases h
    simp [symbolStep, hlexeme]

/-! ## Steps -/

theorem startsMagnitude_append {text more : List Char} (h : startsMagnitude text) :
    startsMagnitude (text ++ more) := by
  unfold startsMagnitude at h
  split at h
  · simpa [startsMagnitude] using h
  · exact startsMagnitude_cons h _
  · cases h

theorem startsNumber_append {c : Char} {text : List Char} (h : startsNumber (c :: text)) (more : List Char) :
    startsNumber (c :: (text ++ more)) := by
  unfold startsNumber at h ⊢
  rw [← List.cons_append, numberSign_more]
  exact startsMagnitude_append h

theorem head?_append {text : List Char} {d : Char} (h : text.head? = some d) (more : List Char) :
    (text ++ more).head? = some d := by
  cases text with
  | nil => cases h
  | cons c text => exact h

theorem Ordinary.front {c : Char} {text more : List Char} (h : Ordinary c (text ++ more)) : Ordinary c text where
  blank := h.blank
  comment := fun ⟨hc, hstar⟩ => h.comment ⟨hc, head?_append hstar more⟩
  quote := h.quote
  mark := h.mark
  number := by
    rw [Bool.eq_false_iff]
    intro hnumber
    have happend := startsNumber_append hnumber more
    rw [h.number] at happend
    cases happend

/-- A keyword is a name if what follows it looks like a character of a name by its first byte. -/
theorem step_lexeme {c : Char} {text : List Char} (h : step c text = .token kind literal lexeme rest) :
    IsToken kind literal lexeme ∨
      kind = .identifier ∧ literal = none ∧ (∃ keyword, keyword? lexeme = some keyword) ∧
        ∃ x more, rest = x :: more ∧ startsLikeNameChar x ∧ isNameChar x = false := by
  have hsplits := step_splits c text
  rw [h] at hsplits
  obtain ⟨hne, happ⟩ := hsplits
  obtain ⟨word, rfl⟩ : ∃ word, lexeme = c :: word := by
    cases lexeme with
    | nil => exact absurd rfl hne
    | cons d word => cases happ; exact ⟨word, rfl⟩
  obtain rfl : word ++ rest = text := by simpa using happ
  show step c word = _ ∨ _
  have hstep := stepsTo_step c (word ++ rest)
  generalize step c (word ++ rest) = s at h hstep
  generalize htext : word ++ rest = text at hstep
  cases hstep with
  | blank => cases h
  | comment =>
    unfold commentStep at h
    split at h <;> cases h
  | builtin =>
    obtain ⟨name, hlexeme, rfl, rfl, hname⟩ := builtinStep_lexeme h
    cases hlexeme
    exact .inl (StepsTo.builtin.eq.trans hname)
  | string =>
    obtain ⟨body, hlexeme, hbody⟩ := stringStep_lexeme h
    cases hlexeme
    exact .inl (StepsTo.string.eq.trans hbody)
  | mark hc =>
    cases h
    exact .inl (StepsTo.eq (.mark hc (.inr (by simp))))
  | number hn =>
    obtain ⟨hstarts, hword⟩ := numberStep_lexeme hn h
    exact .inl ((StepsTo.number hstarts).eq.trans hword)
  | name ho halpha =>
    subst htext
    rcases nameStep_lexeme h with ⟨_, hlexeme, hword⟩ | hkeyword
    · cases hlexeme
      exact .inl ((StepsTo.name ho.front halpha).eq.trans hword)
    · exact .inr hkeyword
  | stray => cases h
  | symbol ho hc =>
    subst htext
    exact .inl ((StepsTo.symbol ho.front hc).eq.trans (symbolStep_lexeme h))

def symbolKinds : List TokenKind := [.rightArrow, .leftArrow, .bang, .pipe, .colon, .symbolic]

theorem symbolKind_mem (run : List Char) : symbolKind run ∈ symbolKinds := by
  unfold symbolKind
  split <;> decide

theorem symbolStep_kind {text : List Char} (h : symbolStep text = .token kind literal lexeme rest) :
    kind ∈ symbolKinds := by
  unfold symbolStep at h
  dsimp only at h
  split at h
  · cases h
  · cases h
    exact symbolKind_mem _

/-- Only symbols start with a symbol character, apart from the signs and points of numbers. -/
theorem not_isSymbolChar_of_step {c : Char} {text : List Char} (h : step c text = .token kind literal lexeme rest)
    (hkind : kind ∉ symbolKinds) : startsNumber (c :: text) = true ∨ isSymbolChar c = false := by
  have hstep := stepsTo_step c text
  generalize step c text = s at h hstep
  cases hstep with
  | blank => cases h
  | comment =>
    unfold commentStep at h
    split at h <;> cases h
  | builtin => exact .inr rfl
  | string => exact .inr rfl
  | mark hc => exact .inr (by simp [isSymbolChar, hc])
  | number hn => exact .inl hn
  | name ho halpha => exact .inr (by simp [isSymbolChar, halpha])
  | stray => cases h
  | symbol => exact absurd (symbolStep_kind h) hkind

theorem step_builtin {c : Char} {text : List Char} (h : step c text = .token .builtin literal lexeme rest) :
    ∃ name, literal = some (.string (String.ofList name)) ∧ lexeme = '{' :: '#' :: (name ++ ['}']) := by
  by_cases hbuiltin : c = '{' ∧ text.head? = some '#'
  · obtain ⟨rfl, hhash⟩ := hbuiltin
    obtain ⟨text, rfl⟩ := List.head?_eq_some_iff.mp hhash
    rw [StepsTo.builtin.eq] at h
    obtain ⟨name, hlexeme, _, hliteral, _⟩ := builtinStep_lexeme h
    exact ⟨name, hliteral, hlexeme⟩
  · have havoids := step_avoids (.inr rfl) c text fun _ => hbuiltin
    rw [h] at havoids
    exact absurd rfl havoids

/-! ## Keywords that are names -/

section
variable {x : Char} (hlead : startsLikeNameChar x)
include hlead

theorem ne_of_lead {d : Char} (hd : startsLikeNameChar d = false) : x ≠ d := by
  rintro rfl
  rw [hlead] at hd
  cases hd

/-- The character is beyond ASCII. -/
theorem le_of_lead : 0x80 ≤ x.toNat := by
  by_contra hlow
  have hrange : x.toNat ≤ 0x2FF := by omega
  simp [startsLikeNameChar, nameLeadRanges, Text.Ranges.has, hrange, hlow] at hlead

theorem not_isDigit_of_lead : x.isDigit = false := by
  rw [Bool.eq_false_iff]
  intro hdigit
  have hle : x.toNat ≤ 57 := by
    simp only [Char.isDigit, Bool.and_eq_true, decide_eq_true_eq] at hdigit
    exact UInt32.le_iff_toNat_le.mp hdigit.2
  have hlow := le_of_lead hlead
  omega

theorem symbolKind_of_lead (run : List Char) : symbolKind (x :: run) = .symbolic := by
  unfold symbolKind
  split
  case h_6 => rfl
  all_goals
    rename_i heq
    cases heq
    exact absurd hlead (by decide)

/-- What follows a keyword that is a name is a symbol. -/
theorem step_of_lead (hname : isNameChar x = false) (more : List Char) :
    (∃ fault, step x more = .fault fault) ∨ ∃ lexeme rest, step x more = .token .symbolic none lexeme rest := by
  have hne : ∀ d, startsLikeNameChar d = false → x ≠ d := fun d => ne_of_lead hlead
  have hpunct : punctuation? x = none := by
    unfold punctuation?
    split <;> first | rfl | exact absurd hlead (by decide)
  have hblank : isBlank x = false := by
    simp [isBlank, hne ' ' (by decide), hne '\t' (by decide), hne '\r' (by decide), hne '\n' (by decide),
      hne '\x0c' (by decide)]
  have hc : isSymbolChar x := by
    simp only [isNameChar, Bool.or_eq_false_iff] at hname
    simp [isSymbolChar, hblank, hpunct, hname, hne '"' (by decide)]
  have hnumber : startsNumber (x :: more) = false := by
    rw [Bool.eq_false_iff]
    intro hnumber
    rcases first_of_startsNumber hnumber with hdigit | hdot | hsign
    · rw [not_isDigit_of_lead hlead] at hdigit
      cases hdigit
    · exact hne '.' (by decide) hdot
    · exact hne '-' (by decide) hsign
  have hspan := symbolSpan_append (x :: more)
  have hrun := symbolSpan_ne_nil more hc
  have hordinary : Ordinary x more :=
    ⟨hblank, fun h => hne '/' (by decide) h.1, hne '"' (by decide), hpunct, hnumber⟩
  rw [(StepsTo.symbol hordinary hc).eq, symbolStep]
  generalize symbolSpan (x :: more) = span at hspan hrun
  obtain ⟨run, rest⟩ := span
  dsimp only at hspan hrun ⊢
  split
  · exact .inl ⟨_, rfl⟩
  · cases run with
    | nil => exact absurd rfl hrun
    | cons y run =>
      cases hspan
      exact .inr ⟨x :: run, rest, by rw [symbolKind_of_lead hlead]⟩

end

end CurriedScript
