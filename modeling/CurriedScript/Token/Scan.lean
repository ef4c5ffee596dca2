import CurriedScript.Binary64.Decimal
import CurriedScript.Token.Character
import CurriedScript.Token.StringBody

/-!
# Cutting a text into tokens

A step takes the longest token, blank or comment from the start of a text and
loses nothing of it (`step_splits`); a text is scanned step by step.
-/

namespace CurriedScript

/-- What the start of a text is: nothing of interest, a token, or a fault. -/
inductive Step where
  | skip (text rest : List Char)
  | token (kind : TokenKind) (literal : Option Literal) (lexeme rest : List Char)
  | fault (fault : LexFault)

/-! ## Comments -/

/-- A comment's text up to and with its first closing mark, and what follows. -/
def commentEnd? : List Char → Option (List Char × List Char)
  | '*' :: '/' :: rest => some (['*', '/'], rest)
  | c :: rest => (commentEnd? rest).map fun (text, rest) => (c :: text, rest)
  | [] => none

def commentStep (rest : List Char) : Step :=
  match commentEnd? rest with
  | some (text, rest) => .skip ('/' :: '*' :: text) rest
  | none => .fault .unterminatedComment

/-! ## Strings and builtins -/

def stringStep (rest : List Char) : Step :=
  match stringBody rest with
  | .ok body => .token .string (some (.string (String.ofList body.value))) ('"' :: body.text) body.rest
  | .error fault => .fault fault

def bangAfter (text : List Char) : List Char := if text.head? = some '!' then ['!'] else []

def nameSpan (text : List Char) : List Char × List Char × List Char :=
  let run := text.takeWhile isNameChar
  let rest := text.dropWhile isNameChar
  (run, bangAfter rest, rest.drop (bangAfter rest).length)

def builtinStep (rest : List Char) : Step :=
  let (run, bang, rest) := nameSpan rest
  match rest with
  | '}' :: rest =>
    if run.isEmpty then .fault .unterminatedBuiltin
    else
      let name := run ++ bang
      .token .builtin (some (.string (String.ofList name))) ('{' :: '#' :: (name ++ ['}'])) rest
  | _ => .fault .unterminatedBuiltin

/-! ## Numbers -/

def numberSign : List Char → List Char × List Char
  | '-' :: rest => (['-'], rest)
  | text => ([], text)

def startsMagnitude : List Char → Bool
  | '.' :: c :: _ => c.isDigit
  | c :: _ => c.isDigit
  | [] => false

def startsNumber (text : List Char) : Bool := startsMagnitude (numberSign text).2

def integerOf (sign digits : List Char) : Int :=
  let n := Nat.ofDigitChars 10 digits 0
  if sign.isEmpty then n else -n

def numberStep (text : List Char) : Step :=
  let (sign, magnitude) := numberSign text
  let run := magnitude.takeWhile isNumberChar
  let rest := magnitude.dropWhile isNumberChar
  match run.count '.' with
  | 0 => .token .integer (some (.integer (integerOf sign run))) (sign ++ run) rest
  | 1 =>
    match Binary64.ofText? (sign ++ run) with
    | some x => .token .float (some (.float x)) (sign ++ run) rest
    | none => .fault .malformedNumber
  | _ => .fault .malformedNumber

/-! ## Names -/

def keyword? : List Char → Option TokenKind
  | ['u', 's', 'e'] => some .useWord
  | ['l', 'e', 't'] => some .letWord
  | ['e', 'n', 'd'] => some .endWord
  | ['c', 'o', 'n', 'd'] => some .condWord
  | _ => none

/-- The name or keyword at the start of a text. A keyword is only a name where the
first byte of what follows it could go on with it. -/
def nameStep (first : Char) (rest : List Char) : Step :=
  let (run, bang, rest) := nameSpan rest
  let word := first :: run
  if Text.isUppercase first then .token .typename none (word ++ bang) rest
  else
    match keyword? word with
    | none => .token .identifier none (word ++ bang) rest
    | some kind =>
      if bang.isEmpty then
        .token (if rest.head?.any startsLikeNameChar then .identifier else kind) none word rest
      else .fault (.reservedBang (String.ofList word))

/-! ## Symbols -/

/-- The longest start of a text that is all symbol characters and has no
comment mark in it, and what follows. -/
def symbolSpan : List Char → List Char × List Char
  | c :: d :: rest =>
    if !isSymbolChar c then ([], c :: d :: rest)
    else if isCommentMark c d then ([c], d :: rest)
    else
      let (run, rest) := symbolSpan (d :: rest)
      (c :: run, rest)
  | [c] => if isSymbolChar c then ([c], []) else ([], [c])
  | [] => ([], [])

def symbolKind : List Char → TokenKind
  | ['-', '>'] => .rightArrow
  | ['<', '-'] => .leftArrow
  | ['!'] => .bang
  | ['|'] => .pipe
  | [':'] => .colon
  | _ => .symbolic

def symbolStep (text : List Char) : Step :=
  let (run, rest) := symbolSpan text
  if run.getLast? = some '*' ∧ rest.head? = some '/' then .fault .unopenedComment
  else .token (symbolKind run) none run rest

/-! ## Texts -/

def step (c : Char) (rest : List Char) : Step :=
  if isBlank c then .skip [c] rest
  else if c = '/' ∧ rest.head? = some '*' then commentStep rest.tail
  else if c = '{' ∧ rest.head? = some '#' then builtinStep rest.tail
  else if c = '"' then stringStep rest
  else
    match punctuation? c with
    | some kind => .token kind none [c] rest
    | none =>
      if startsNumber (c :: rest) then numberStep (c :: rest)
      else if Text.isAlphabetic c then nameStep c rest
      else if Text.isNumeric c then .fault .unexpectedCharacter
      else symbolStep (c :: rest)

def Step.Splits (text : List Char) : Step → Prop
  | .skip piece rest | .token _ _ piece rest => piece ≠ [] ∧ piece ++ rest = text
  | .fault _ => True

theorem commentEnd?_append {text piece rest : List Char} (h : commentEnd? text = some (piece, rest)) :
    piece ++ rest = text := by
  fun_induction commentEnd? text generalizing piece rest with
  | case1 => cases h; rfl
  | case2 _ _ _ ih =>
    obtain ⟨⟨p, r⟩, hp, h⟩ := Option.map_eq_some_iff.mp h
    cases h
    rw [List.cons_append, ih hp]
  | case3 => cases h

theorem commentStep_splits (rest : List Char) : (commentStep rest).Splits ('/' :: '*' :: rest) := by
  unfold commentStep
  split
  · next h => exact ⟨by simp, by simp [commentEnd?_append h]⟩
  · trivial

theorem stringBody_append {text : List Char} {body : StringBody} (h : stringBody text = .ok body) :
    body.text ++ body.rest = text := by
  fun_induction stringBody text generalizing body with
  | case1 => cases h
  | case2 => cases h; rfl
  | case3 a b c d rest ih =>
    cases hv : hexEscape a b c d with
    | error => rw [hv] at h; cases h
    | ok v =>
      cases hb : stringBody rest with
      | error => rw [hv, hb] at h; cases h
      | ok b => rw [hv, hb] at h; cases h; simp [StringBody.cons, ih hb]
  | case4 => cases h
  | case5 => cases h
  | case6 => cases h
  | case7 letter rest _ _ v hv ih =>
    cases hb : stringBody rest with
    | error => rw [hb] at h; cases h
    | ok b => rw [hb] at h; cases h; simp [StringBody.cons, ih hb]
  | case8 c rest _ _ _ _ _ ih =>
    cases hb : stringBody rest with
    | error => rw [hb] at h; cases h
    | ok b => rw [hb] at h; cases h; simp [StringBody.cons, ih hb]

theorem stringStep_splits (rest : List Char) : (stringStep rest).Splits ('"' :: rest) := by
  unfold stringStep
  split
  · next h => exact ⟨by simp, by simp [stringBody_append h]⟩
  · trivial

theorem bangAfter_append (text : List Char) :
    bangAfter text ++ text.drop (bangAfter text).length = text := by
  unfold bangAfter
  cases text with
  | nil => rfl
  | cons c rest => by_cases h : c = '!' <;> simp [h]

theorem nameSpan_append (text : List Char) :
    (nameSpan text).1 ++ ((nameSpan text).2.1 ++ (nameSpan text).2.2) = text := by
  simp only [nameSpan, bangAfter_append, List.takeWhile_append_dropWhile]

theorem builtinStep_splits (rest : List Char) : (builtinStep rest).Splits ('{' :: '#' :: rest) := by
  have h := nameSpan_append rest
  rcases hs : nameSpan rest with ⟨run, bang, after⟩
  rw [hs] at h
  simp only [builtinStep, hs]
  split
  · split
    · trivial
    · exact ⟨by simp, by simp [← h]⟩
  · trivial

theorem numberSign_append (text : List Char) :
    (numberSign text).1 ++ (numberSign text).2 = text := by
  unfold numberSign
  split <;> rfl

theorem numberSpan_append (text : List Char) :
    (numberSign text).1 ++ (numberSign text).2.takeWhile isNumberChar ++
      (numberSign text).2.dropWhile isNumberChar = text := by
  rw [List.append_assoc, List.takeWhile_append_dropWhile, numberSign_append]

theorem numberSpan_ne_nil {text : List Char} (h : startsNumber text) :
    (numberSign text).1 ++ (numberSign text).2.takeWhile isNumberChar ≠ [] := by
  unfold startsNumber at h
  generalize (numberSign text).2 = magnitude at h
  suffices magnitude.takeWhile isNumberChar ≠ [] by simp [this]
  unfold startsMagnitude at h
  split at h
  · simp [isNumberChar]
  · simp [isNumberChar, h]
  · cases h

theorem numberStep_splits {text : List Char} (h : startsNumber text) :
    (numberStep text).Splits text := by
  have happ := numberSpan_append text
  have hne := numberSpan_ne_nil h
  rcases hs : numberSign text with ⟨sign, magnitude⟩
  rw [hs] at happ hne
  simp only [numberStep, hs]
  split
  · exact ⟨hne, happ⟩
  · split
    · exact ⟨hne, happ⟩
    · trivial
  · trivial

theorem nameStep_splits (first : Char) (rest : List Char) :
    (nameStep first rest).Splits (first :: rest) := by
  have h := nameSpan_append rest
  unfold nameStep
  simp only
  split
  · exact ⟨by simp, by simp [h]⟩
  split
  · exact ⟨by simp, by simp [h]⟩
  split
  · next hb =>
    rw [List.isEmpty_iff] at hb
    rw [hb] at h
    exact ⟨by simp, by simpa using h⟩
  · trivial

theorem symbolSpan_append (text : List Char) :
    (symbolSpan text).1 ++ (symbolSpan text).2 = text := by
  fun_induction symbolSpan text <;> simp_all

theorem symbolSpan_ne_nil {c : Char} (rest : List Char) (h : isSymbolChar c) :
    (symbolSpan (c :: rest)).1 ≠ [] := by
  cases rest with
  | nil => simp [symbolSpan, h]
  | cons d rest =>
    simp only [symbolSpan, h, Bool.not_true, Bool.false_eq_true, if_false]
    split <;> simp

theorem symbolStep_splits {c : Char} (rest : List Char) (h : isSymbolChar c) :
    (symbolStep (c :: rest)).Splits (c :: rest) := by
  unfold symbolStep
  simp only
  split
  · trivial
  · exact ⟨symbolSpan_ne_nil rest h, symbolSpan_append _⟩

/-- Every step but a fault takes something and loses nothing. -/
theorem step_splits (c : Char) (rest : List Char) : (step c rest).Splits (c :: rest) := by
  unfold step
  split
  · simp [Step.Splits]
  next hblank =>
  split
  · next h =>
    obtain ⟨rfl, h⟩ := h
    obtain ⟨rest, rfl⟩ := List.head?_eq_some_iff.mp h
    exact commentStep_splits rest
  split
  · next h =>
    obtain ⟨rfl, h⟩ := h
    obtain ⟨rest, rfl⟩ := List.head?_eq_some_iff.mp h
    exact builtinStep_splits rest
  split
  · next h => subst h; exact stringStep_splits rest
  next hquote =>
  split
  · simp [Step.Splits]
  next hpunct =>
  split
  · next h => exact numberStep_splits h
  split
  · exact nameStep_splits c rest
  next halpha =>
  split
  · trivial
  next hnum =>
  exact symbolStep_splits rest (by simp_all [isSymbolChar])

theorem rest_shorter {text piece rest : List Char} (h : piece ≠ [] ∧ piece ++ rest = text) :
    rest.length < text.length := by
  rw [← h.2, List.length_append]
  have := List.length_pos_iff.mpr h.1
  omega

/-- Faults that reach to the end of the text are reported there, others where
the faulty piece starts. -/
def faultLine (fault : LexFault) (line : Nat) (text : List Char) : Nat :=
  match fault with
  | .unterminatedString | .invalidEscape _ | .truncatedEscape | .invalidCodePoint _
  | .unterminatedComment => line + newlines text
  | _ => line

/-- The tokens of a text that starts on a line, with the end of the text last. -/
def scanFrom (line : Nat) (text : List Char) : Except Error (List Token) :=
  match text with
  | [] => .ok [.eof line]
  | c :: cs =>
    match h : step c cs with
    | .skip blank rest =>
      have := rest_shorter (h ▸ step_splits c cs)
      scanFrom (line + newlines blank) rest
    | .token kind literal lexeme rest => do
      have := rest_shorter (h ▸ step_splits c cs)
      let tokens ← scanFrom (line + newlines lexeme) rest
      return ⟨kind, String.ofList lexeme, literal, line + newlines lexeme⟩ :: tokens
    | .fault fault => .error (.lex (faultLine fault line (c :: cs)) fault)
termination_by text.length
decreasing_by all_goals exact this

def scan (source : String) : Except Error (List Token) := scanFrom 1 source.toList

end CurriedScript
