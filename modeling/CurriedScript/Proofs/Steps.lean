import CurriedScript.Token.Scan

/-!
# Kinds of steps

`stepsTo_step`: a step is one of nine, and the start of the text says which.
`StepsTo.eq`: a text that starts like this has no other step. What is proved of
steps is proved by cases on the kind.
-/

namespace CurriedScript

/-! ## First characters -/

theorem numberSign_of_head {text : List Char} (h : text.head? ≠ some '-') : numberSign text = ([], text) := by
  unfold numberSign
  split
  · exact absurd rfl h
  · rfl

theorem first_of_startsNumber {c : Char} {text : List Char} (h : startsNumber (c :: text)) :
    c.isDigit ∨ c = '.' ∨ c = '-' := by
  by_cases hsign : c = '-'
  · exact .inr (.inr hsign)
  rw [startsNumber, numberSign_of_head (by simpa using hsign)] at h
  by_cases hdot : c = '.'
  · exact .inr (.inl hdot)
  cases text <;> exact .inl (by simpa [startsMagnitude, hdot] using h)

theorem isBlank_of_punctuation {c : Char} {kind : TokenKind} (h : punctuation? c = some kind) :
    isBlank c = false := by
  unfold punctuation? at h
  split at h <;> first | rfl | cases h

theorem punctuation?_of_isDigit {c : Char} (h : c.isDigit) : punctuation? c = none := by
  unfold punctuation?
  split <;> first | rfl | cases h

/-! ## The kinds -/

/-- No blank, comment, string, mark or number starts the text. -/
structure Ordinary (c : Char) (rest : List Char) : Prop where
  blank : isBlank c = false
  comment : ¬ (c = '/' ∧ rest.head? = some '*')
  quote : c ≠ '"'
  mark : punctuation? c = none
  number : startsNumber (c :: rest) = false

theorem Ordinary.brace {c : Char} {rest : List Char} (h : Ordinary c rest) : c ≠ '{' := by
  rintro rfl
  cases h.mark

inductive StepsTo : Char → List Char → Step → Prop
  | blank {c : Char} {rest : List Char} : isBlank c → StepsTo c rest (.skip [c] rest)
  | comment {rest : List Char} : StepsTo '/' ('*' :: rest) (commentStep rest)
  | builtin {rest : List Char} : StepsTo '{' ('#' :: rest) (builtinStep rest)
  | string {rest : List Char} : StepsTo '"' rest (stringStep rest)
  | mark {c : Char} {rest : List Char} {kind : TokenKind} : punctuation? c = some kind →
      c ≠ '{' ∨ rest.head? ≠ some '#' → StepsTo c rest (.token kind none [c] rest)
  | number {c : Char} {rest : List Char} : startsNumber (c :: rest) → StepsTo c rest (numberStep (c :: rest))
  | name {c : Char} {rest : List Char} : Ordinary c rest → Text.isAlphabetic c → StepsTo c rest (nameStep c rest)
  | stray {c : Char} {rest : List Char} : Ordinary c rest → Text.isAlphabetic c = false → Text.isNumeric c →
      StepsTo c rest (.fault .unexpectedCharacter)
  | symbol {c : Char} {rest : List Char} : Ordinary c rest → isSymbolChar c →
      StepsTo c rest (symbolStep (c :: rest))

theorem stepsTo_step (c : Char) (rest : List Char) : StepsTo c rest (step c rest) := by
  unfold step
  by_cases hblank : isBlank c
  · rw [if_pos hblank]
    exact .blank hblank
  rw [if_neg hblank]
  by_cases hcomment : c = '/' ∧ rest.head? = some '*'
  · rw [if_pos hcomment]
    obtain ⟨rfl, hstar⟩ := hcomment
    obtain ⟨rest, rfl⟩ := List.head?_eq_some_iff.mp hstar
    exact .comment
  rw [if_neg hcomment]
  by_cases hbuiltin : c = '{' ∧ rest.head? = some '#'
  · rw [if_pos hbuiltin]
    obtain ⟨rfl, hhash⟩ := hbuiltin
    obtain ⟨rest, rfl⟩ := List.head?_eq_some_iff.mp hhash
    exact .builtin
  rw [if_neg hbuiltin]
  by_cases hquote : c = '"'
  · rw [if_pos hquote]
    subst hquote
    exact .string
  rw [if_neg hquote]
  cases hmark : punctuation? c with
  | some kind => exact .mark hmark (Classical.not_and_iff_not_or_not.mp hbuiltin)
  | none =>
    dsimp only
    by_cases hnumber : startsNumber (c :: rest)
    · rw [if_pos hnumber]
      exact .number hnumber
    rw [if_neg hnumber]
    have hordinary : Ordinary c rest :=
      ⟨by simpa using hblank, hcomment, hquote, hmark, by simpa using hnumber⟩
    by_cases halpha : Text.isAlphabetic c
    · rw [if_pos halpha]
      exact .name hordinary halpha
    rw [if_neg halpha]
    by_cases hnumeric : Text.isNumeric c
    · rw [if_pos hnumeric]
      exact .stray hordinary (by simpa using halpha) hnumeric
    · rw [if_neg hnumeric]
      exact .symbol hordinary (by simp [isSymbolChar, hblank, hmark, hquote, halpha, hnumeric])

theorem StepsTo.eq {c : Char} {rest : List Char} {s : Step} (h : StepsTo c rest s) : step c rest = s := by
  cases h with
  | blank hc => simp [step, hc]
  | comment => rfl
  | builtin => rfl
  | string => rfl
  | mark hc hbrace =>
    have hcomment : c ≠ '/' := by rintro rfl; cases hc
    have hquote : c ≠ '"' := by rintro rfl; cases hc
    have hbuiltin : ¬ (c = '{' ∧ rest.head? = some '#') := Classical.not_and_iff_not_or_not.mpr hbrace
    simp [step, isBlank_of_punctuation hc, hcomment, hquote, hbuiltin, hc]
  | number h =>
    rcases first_of_startsNumber h with hdigit | rfl | rfl
    · have hne : ∀ d : Char, d.isDigit = false → c ≠ d := by
        rintro d hd rfl
        rw [hd] at hdigit
        cases hdigit
      simp [step, isBlank, punctuation?_of_isDigit hdigit, h, hne ' ' rfl, hne '\t' rfl, hne '\r' rfl, hne '\n' rfl,
        hne '\x0c' rfl, hne '/' rfl, hne '{' rfl, hne '"' rfl]
    · simp [step, isBlank, punctuation?, h]
    · simp [step, isBlank, punctuation?, h]
  | name ho halpha => simp [step, ho.blank, ho.comment, ho.brace, ho.quote, ho.mark, ho.number, halpha]
  | stray ho halpha hnumeric =>
    simp [step, ho.blank, ho.comment, ho.brace, ho.quote, ho.mark, ho.number, halpha, hnumeric]
  | symbol ho hc =>
    simp only [isSymbolChar, Bool.not_eq_true', Bool.or_eq_false_iff] at hc
    simp [step, ho.blank, ho.comment, ho.brace, ho.quote, ho.mark, ho.number, hc]

end CurriedScript
