import CurriedScript.Proofs.Numbers
import CurriedScript.Program.Printer

/-!
# Printed lexemes

A literal that is printed is one token again, the one of that literal, and so is
any lexeme wherever a character follows that it does not go on with. `Spells`
composes the tokens of a text from those of its pieces.
-/

namespace CurriedScript

/-! ## Numbers -/

def IsPositional (text : List Char) : Prop :=
  ∃ whole fraction, text = whole ++ '.' :: fraction ∧ whole ≠ [] ∧
    (∀ c ∈ whole, c.isDigit) ∧ ∀ c ∈ fraction, c.isDigit

theorem positional_isPositional {digits : List Char} (h : ∀ c ∈ digits, c.isDigit) (point : Int) :
    IsPositional (Binary64.positional digits point) := by
  have hpadded : ∀ n, ∀ c ∈ Binary64.zeros n ++ digits, c.isDigit := by
    intro n c hc
    rcases List.mem_append.mp hc with hc | hc
    · obtain ⟨_, rfl⟩ := List.mem_replicate.mp hc
      rfl
    · exact h c hc
  unfold Binary64.positional
  split
  · exact ⟨['0'], Binary64.zeros (-point).toNat ++ digits, by simp, by simp, by simp, hpadded _⟩
  split
  · refine ⟨digits ++ Binary64.zeros (point.toNat - digits.length), ['0'], by simp, ?_, fun c hc => ?_, by simp⟩
    · intro hnil
      have hlength := congrArg List.length hnil
      simp only [List.length_append, Binary64.zeros, List.length_replicate, List.length_nil] at hlength
      omega
    · rcases List.mem_append.mp hc with hc | hc
      · exact h c hc
      · exact hpadded _ c (List.mem_append_left _ hc)
  · refine ⟨digits.take point.toNat, digits.drop point.toNat, rfl, ?_, fun c hc => h c (List.mem_of_mem_take hc),
      fun c hc => h c (List.mem_of_mem_drop hc)⟩
    intro hnil
    have hlength := congrArg List.length hnil
    simp only [List.length_take, List.length_nil] at hlength
    omega

theorem magnitudeText_isPositional {units : Nat} (h : 'e' ∉ Binary64.magnitudeText units) :
    IsPositional (Binary64.magnitudeText units) := by
  have hdigits : ∀ coefficient, ∀ c ∈ Binary64.significant coefficient, c.isDigit := by
    intro coefficient c hc
    have hmem := (List.dropWhile_sublist _).subset (List.mem_reverse.mp hc)
    exact Nat.isDigit_of_mem_toDigits (by simp) (by simp) (List.mem_reverse.mp hmem)
  unfold Binary64.magnitudeText at h ⊢
  split
  · exact ⟨['0'], ['0'], rfl, by simp, by simp, by simp⟩
  · next hunits =>
    rw [if_neg hunits] at h
    dsimp only at h ⊢
    split
    · exact positional_isPositional (hdigits _) _
    · next hpoint =>
      rw [if_neg hpoint] at h
      exact absurd (by simp [Binary64.scientific]) h

def PlainFloat (x : Binary64) : Prop :=
  (∃ negative units h, x = .finite negative units h) ∧ 'e' ∉ x.text.toList ∧ Binary64.ofText? x.text.toList = some x

theorem float_isToken {x : Binary64} (h : PlainFloat x) : IsToken .float (some (.float x)) x.text.toList := by
  obtain ⟨⟨negative, units, hunits, rfl⟩, hexponent, hread⟩ := h
  rw [Binary64.text, String.toList_ofList] at hexponent hread ⊢
  obtain ⟨whole, fraction, htext, hne, hwhole, hfraction⟩ :=
    magnitudeText_isPositional fun he => hexponent (List.mem_append_right _ he)
  rw [htext] at hread ⊢
  have hall : ∀ c ∈ whole ++ '.' :: fraction, isNumberChar c := by
    intro c hc
    rcases List.mem_append.mp hc with hc | hc
    · exact isNumberChar_of_isDigit (hwhole c hc)
    · rcases List.mem_cons.mp hc with rfl | hc
      · rfl
      · exact isNumberChar_of_isDigit (hfraction c hc)
  have hdots : (whole ++ '.' :: fraction).count '.' = 1 := by
    rw [List.count_append, count_dot_eq_zero hwhole, List.count_cons_self, count_dot_eq_zero hfraction]
  cases whole with
  | nil => exact absurd rfl hne
  | cons first whole =>
    have hrun := numberRun_of_isDigit (hwhole first (by simp)) hall
    have hstarts := hrun.startsNumber_signed negative
    have hstep := hrun.numberStep_float negative hdots hread
    rw [List.append_nil] at hstarts hstep
    exact isToken_of_number hstarts hstep

/-! ## Strings -/

def ShortlyQuoted (c : Char) : Prop :=
  Text.quotedChar c = [c] ∨ Text.quotedChar c ∈ [['\\', '"'], ['\\', '\\'], ['\\', 'n'], ['\\', 'r'], ['\\', 't']]

theorem shortEscape?_of_quotedChar {c letter : Char} (hletter : letter ≠ '0')
    (h : Text.quotedChar c = ['\\', letter]) :
    shortEscape? letter = some c := by
  unfold Text.quotedChar at h
  split at h
  case h_6 => cases h; exact absurd rfl hletter
  case h_7 => split at h <;> simp at h
  all_goals cases h; rfl

theorem stringBody_quotedChar {c : Char} (h : ShortlyQuoted c) (rest : List Char) :
    stringBody (Text.quotedChar c ++ rest) = (stringBody rest).map (StringBody.cons c (Text.quotedChar c)) := by
  rcases h with h | h
  · have hq : c ≠ '"' := by rintro rfl; exact absurd h (by decide)
    have hb : c ≠ '\\' := by rintro rfl; exact absurd h (by decide)
    rw [h]
    exact stringBody_cons hq hb rest
  · obtain ⟨letter, hletter, h⟩ : ∃ letter, letter ≠ '0' ∧ Text.quotedChar c = ['\\', letter] := by
      simp only [List.mem_cons, List.not_mem_nil, or_false] at h
      rcases h with h | h | h | h | h <;> exact ⟨_, by decide, h⟩
    rw [h]
    exact stringBody_escape (shortEscape?_of_quotedChar hletter h) rest

theorem stringBody_quoted {text : List Char} (h : ∀ c ∈ text, ShortlyQuoted c) :
    stringBody (text.flatMap Text.quotedChar ++ ['"']) =
      .ok ⟨text, text.flatMap Text.quotedChar ++ ['"'], []⟩ := by
  induction text with
  | nil => rfl
  | cons c text ih =>
    rw [List.flatMap_cons, List.append_assoc, stringBody_quotedChar (h c (by simp)),
      ih fun d hd => h d (by simp [hd])]
    rfl

theorem string_isToken {text : String} (h : ∀ c ∈ text.toList, ShortlyQuoted c) :
    IsToken .string (some (.string text)) (Text.quoted text).toList := by
  rw [Text.quoted, String.toList_ofList, List.cons_append]
  refine StepsTo.string.eq.trans ?_
  simp only [stringStep, stringBody_quoted h, String.ofList_toList]

def PlainLiteral : Literal → Prop
  | .string text => ∀ c ∈ text.toList, ShortlyQuoted c
  | .integer _ => True
  | .float x => PlainFloat x

theorem literal_isToken {literal : Literal} (h : PlainLiteral literal) :
    ∃ kind, (kind = .string ∨ kind = .integer ∨ kind = .float) ∧
      IsToken kind (some literal) literal.display.toList := by
  cases literal with
  | string text => exact ⟨.string, .inl rfl, string_isToken h⟩
  | integer n => exact ⟨.integer, .inr (.inl rfl), integer_isToken n⟩
  | float x => exact ⟨.float, .inr (.inr rfl), float_isToken h⟩

theorem joined_cons (separator text next : String) (rest : List String) :
    (joined separator (text :: next :: rest)).toList =
      text.toList ++ (separator.toList ++ (joined separator (next :: rest)).toList) := by
  simp [joined]

/-! ## Pieces of a text -/

/-- Where more follows, the text is cut on every line into tokens with the property. -/
def Spells (text more : List Char) (P : List Token → Prop) : Prop :=
  ∀ line, ∃ ts, Scans line text more ts ∧ P ts

section
variable {text text' more : List Char} {P Q : List Token → Prop}

theorem Spells.nil (more : List Char) : Spells [] more (· = []) := fun line => ⟨[], .nil line more, rfl⟩

theorem Spells.mono (h : Spells text more P) (hPQ : ∀ ts, P ts → Q ts) : Spells text more Q := by
  intro line
  obtain ⟨ts, hts, hP⟩ := h line
  exact ⟨ts, hts, hPQ ts hP⟩

theorem Spells.append (h : Spells text (text' ++ more) P) (h' : Spells text' more Q) :
    Spells (text ++ text') more fun ts => ∃ us, P us ∧ ∃ vs, Q vs ∧ ts = us ++ vs := by
  intro line
  obtain ⟨us, hus, hP⟩ := h line
  obtain ⟨vs, hvs, hQ⟩ := h' (line + newlines text)
  exact ⟨us ++ vs, hus.append hvs, us, hP, vs, hQ, rfl⟩

theorem Spells.blank (h : Spells text more P) : Spells (' ' :: text) more P := by
  intro line
  obtain ⟨ts, hts, hP⟩ := h line
  have hstep : StepsTo ' ' (text ++ more) (.skip [' '] (text ++ more)) := .blank rfl
  exact ⟨ts, .skip hstep.eq hts, hP⟩

theorem Spells.mark {c : Char} {kind : TokenKind} (hc : punctuation? c = some kind)
    (hbrace : c ≠ '{' ∨ (text ++ more).head? ≠ some '#') (h : Spells text more P) :
    Spells (c :: text) more fun ts => ∃ t, t.kind = kind ∧ ∃ us, P us ∧ ts = t :: us := by
  intro line
  obtain ⟨ts, hts, hP⟩ := h (line + newlines [c])
  exact ⟨_, .token (StepsTo.mark hc hbrace).eq hts, _, rfl, ts, hP, rfl⟩

end

def One (kind : TokenKind) (literal : Option Literal) (text : String) (ts : List Token) : Prop :=
  ∃ t : Token, t.kind = kind ∧ t.lexeme = text ∧ t.literal = literal ∧ ts = [t]

section
variable {kind : TokenKind} {literal : Option Literal} {text : String} {x : Char}

theorem Spells.one {more : List Char} (h : IsToken kind literal text.toList)
    (hmore : ∀ c cs, step c cs = .token kind literal (c :: cs) [] →
      step c (cs ++ x :: more) = (step c cs).more (x :: more)) :
    Spells text.toList (x :: more) (One kind literal text) := by
  intro line
  cases hchars : text.toList with
  | nil => rw [hchars] at h; exact absurd h id
  | cons c cs =>
    rw [hchars] at h
    have hstep : step c (cs ++ x :: more) = .token kind literal (c :: cs) ([] ++ x :: more) := by
      rw [hmore c cs h, show step c cs = _ from h]
      rfl
    refine ⟨_, .token hstep (.nil _ _), _, rfl, ?_, rfl, rfl⟩
    rw [← hchars, String.ofList_toList]

/-- A word ends where a character follows that ends words. -/
theorem Spells.word (h : IsToken kind literal text.toList) (hkind : kind ∉ symbolKinds) (hx : EndsWord x)
    (more : List Char) : Spells text.toList (x :: more) (One kind literal text) := by
  refine .one h fun c cs hstep => step_more hx (fun _ => not_isSymbolChar_of_step hstep hkind) ?_ more
  simp [hstep, Step.IsFault]

theorem Spells.symbol (h : IsToken kind literal text.toList) (hx : Separates x) (more : List Char) :
    Spells text.toList (x :: more) (One kind literal text) :=
  .one h fun c cs hstep => hx.step_more (by simp [hstep, Step.IsFault]) more

theorem Spells.quoted (h : ∀ c ∈ text.toList, ShortlyQuoted c) (hx : EndsWord x) (more : List Char) :
    Spells (Text.quoted text).toList (x :: more) (One .string (some (.string text)) (Text.quoted text)) := by
  have htoken := string_isToken h
  exact .word htoken (by decide) hx more

end

end CurriedScript
