import CurriedScript.Proofs.Seams
import Mathlib.Data.List.Forall2
import Mathlib.Data.Nat.Digits.Defs

/-!
# What string literals stand for

`string_decodes`: a string is a sequence of pieces and a quote. A piece is a character
that stands for itself or an escape, and no text can be cut into pieces in two ways. A text
that is no string has the fault of the first escape that is no piece, or has no end.
-/

namespace CurriedScript

/-! ## Numbers in base 16 -/

def IsHexDigit (c : Char) (value : Nat) : Prop :=
  value < 16 ∧ (c = value.digitChar ∨ c = value.digitChar.toUpper)

instance (c : Char) (value : Nat) : Decidable (IsHexDigit c value) := inferInstanceAs (Decidable (_ ∧ _))

/-- No character beyond `f` is a digit. -/
theorem toNat_le_of_hexValue? {c : Char} {value : Nat} (h : hexValue? c = some value) : c.toNat ≤ 'f'.toNat := by
  have hle : ∀ d : Char, d.toNat ≤ 'f'.toNat → c ≤ d → c.toNat ≤ 'f'.toNat := fun d hd hc => Nat.le_trans hc hd
  unfold hexValue? at h
  split at h
  · next hd =>
    simp only [Char.isDigit, Bool.and_eq_true, decide_eq_true_eq] at hd
    exact hle '9' (by decide) hd.2
  split at h
  · next hd => exact hle 'f' (by decide) hd.2
  split at h
  · next hd => exact hle 'F' (by decide) hd.2
  · cases h

theorem isHexDigit_ofNat :
    ∀ n ≤ 'f'.toNat, ∀ value ∈ hexValue? (Char.ofNat n), IsHexDigit (Char.ofNat n) value := by
  decide

theorem hexValue?_digitChar : ∀ value < 16,
    hexValue? value.digitChar = some value ∧ hexValue? value.digitChar.toUpper = some value := by
  decide

theorem hexValue?_eq_some {c : Char} {value : Nat} : hexValue? c = some value ↔ IsHexDigit c value := by
  constructor
  · intro h
    have hdigit := isHexDigit_ofNat c.toNat (toNat_le_of_hexValue? h) value (by rwa [Char.ofNat_toNat])
    rwa [Char.ofNat_toNat] at hdigit
  · rintro ⟨hlt, rfl | rfl⟩
    · exact (hexValue?_digitChar value hlt).1
    · exact (hexValue?_digitChar value hlt).2

def IsHexNumber (digits : List Char) (n : Nat) : Prop :=
  ∃ values, List.Forall₂ IsHexDigit digits values ∧ n = Nat.ofDigits 16 values.reverse

theorem isHexNumber_four {a b c d : Char} {n : Nat} :
    IsHexNumber [a, b, c, d] n ↔ ∃ i j k l, hexValue? a = some i ∧ hexValue? b = some j ∧ hexValue? c = some k ∧
      hexValue? d = some l ∧ n = ((i * 16 + j) * 16 + k) * 16 + l := by
  simp only [hexValue?_eq_some]
  constructor
  · rintro ⟨values, hvalues, rfl⟩
    cases hvalues with | cons hi hvalues =>
    cases hvalues with | cons hj hvalues =>
    cases hvalues with | cons hk hvalues =>
    cases hvalues with | cons hl hvalues =>
    cases hvalues
    refine ⟨_, _, _, _, hi, hj, hk, hl, ?_⟩
    simp [Nat.ofDigits_cons]
    omega
  · rintro ⟨i, j, k, l, hi, hj, hk, hl, rfl⟩
    refine ⟨[i, j, k, l], .cons hi (.cons hj (.cons hk (.cons hl .nil))), ?_⟩
    simp [Nat.ofDigits_cons]
    omega

theorem hexEscape_of_number {a b c d : Char} {n : Nat} (h : IsHexNumber [a, b, c, d] n) :
    hexEscape a b c d = if n.isValidChar then .ok (Char.ofNat n) else .error (.invalidCodePoint n) := by
  obtain ⟨i, j, k, l, hi, hj, hk, hl, rfl⟩ := isHexNumber_four.mp h
  simp only [hexEscape, hi, hj, hk, hl]

theorem hexEscape_of_no_number {a b c d : Char} (h : ∀ n, ¬ IsHexNumber [a, b, c, d] n) :
    hexEscape a b c d = .error .truncatedEscape := by
  unfold hexEscape
  split
  · next i j k l hi hj hk hl => exact absurd (isHexNumber_four.mpr ⟨i, j, k, l, hi, hj, hk, hl, rfl⟩) (h _)
  · rfl

/-! ## Pieces -/

/-- What a piece of a string stands for. No character is a surrogate, so no escape is one. -/
inductive Denotes : List Char → Char → Prop
  | plain {c : Char} : c ≠ '"' → c ≠ '\\' → Denotes [c] c
  | lineFeed : Denotes ['\\', 'n'] '\n'
  | carriageReturn : Denotes ['\\', 'r'] '\r'
  | tab : Denotes ['\\', 't'] '\t'
  | backslash : Denotes ['\\', '\\'] '\\'
  | quote : Denotes ['\\', '"'] '"'
  | codePoint {a b c d value : Char} : IsHexNumber [a, b, c, d] value.toNat →
      Denotes ['\\', 'x', a, b, c, d] value

structure StringPiece where
  text : List Char
  value : Char
  denotes : Denotes text value

def bodyText (pieces : List StringPiece) : List Char := pieces.flatMap StringPiece.text

def IsBody (text : List Char) (pieces : List StringPiece) (rest : List Char) : Prop :=
  text = bodyText pieces ++ '"' :: rest

inductive FaultyPiece : List Char → LexFault → Prop
  | letter {letter : Char} {rest : List Char} : letter ∉ ['n', 'r', 't', '\\', '"', 'x'] →
      FaultyPiece ('\\' :: letter :: rest) (.invalidEscape letter)
  | digits {rest : List Char} :
      (∀ a b c d after n, rest = a :: b :: c :: d :: after → ¬ IsHexNumber [a, b, c, d] n) →
      FaultyPiece ('\\' :: 'x' :: rest) .truncatedEscape
  | surrogate {a b c d : Char} {rest : List Char} {n : Nat} : IsHexNumber [a, b, c, d] n → 0xD800 ≤ n → n ≤ 0xDFFF →
      FaultyPiece ('\\' :: 'x' :: a :: b :: c :: d :: rest) (.invalidCodePoint n)

/-- The text is pieces up to a faulty one, or it ends before any quote, perhaps within an escape. -/
def HasFault (text : List Char) (fault : LexFault) : Prop :=
  ∃ pieces after, text = bodyText pieces ++ after ∧
    (FaultyPiece after fault ∨ fault = .unterminatedString ∧ (after = [] ∨ after = ['\\']))

theorem bodyText_cons (p : StringPiece) (pieces : List StringPiece) :
    bodyText (p :: pieces) = p.text ++ bodyText pieces := List.flatMap_cons

theorem stringBody_piece (p : StringPiece) (rest : List Char) :
    stringBody (p.text ++ rest) = (stringBody rest).map (StringBody.cons p.value p.text) := by
  obtain ⟨text, value, hdenotes⟩ := p
  cases hdenotes with
  | plain hq hb => exact stringBody_cons hq hb rest
  | lineFeed | carriageReturn | tab | backslash | quote => exact stringBody_escape rfl rest
  | codePoint h =>
    have hvalid : value.toNat.isValidChar := value.valid
    refine (stringBody_hex _ _ _ _ rest).trans ?_
    rw [hexEscape_of_number h, if_pos hvalid, Char.ofNat_toNat]
    rfl

/-- Pieces before a string belong to it. -/
theorem stringBody_pieces (pieces : List StringPiece) (text : List Char) :
    stringBody (bodyText pieces ++ text) = (stringBody text).map fun body =>
      ⟨pieces.map StringPiece.value ++ body.value, bodyText pieces ++ body.text, body.rest⟩ := by
  induction pieces with
  | nil => cases h : stringBody text <;> simp [bodyText, h, Except.map]
  | cons p pieces ih =>
    rw [bodyText_cons, List.append_assoc, stringBody_piece, ih]
    cases stringBody text <;> simp [Except.map, StringBody.cons]

theorem stringBody_of_isBody {text rest : List Char} {pieces : List StringPiece} (h : IsBody text pieces rest) :
    stringBody text = .ok ⟨pieces.map StringPiece.value, bodyText pieces ++ ['"'], rest⟩ := by
  have hquote : stringBody ('"' :: rest) = .ok ⟨[], ['"'], rest⟩ := by rw [stringBody]
  rw [h, stringBody_pieces, hquote]
  simp [Except.map]

theorem stringBody_letter {letter : Char} (h : letter ∉ ['n', 'r', 't', '\\', '"', 'x']) (rest : List Char) :
    stringBody ('\\' :: letter :: rest) = .error (.invalidEscape letter) := by
  simp only [List.mem_cons, List.not_mem_nil, or_false, not_or] at h
  have hshort : shortEscape? letter = none := by
    unfold shortEscape?
    split <;> simp_all
  rw [stringBody]
  · rw [hshort]
  all_goals simp [h]

/-- Fewer than four characters after `\x` are no number either. -/
theorem stringBody_truncated {rest : List Char}
    (h : ∀ a b c d after n, rest = a :: b :: c :: d :: after → ¬ IsHexNumber [a, b, c, d] n) :
    stringBody ('\\' :: 'x' :: rest) = .error .truncatedEscape := by
  match rest with
  | a :: b :: c :: d :: after =>
    rw [stringBody_hex, hexEscape_of_no_number fun n => h a b c d after n rfl]
    rfl
  | [] | [_] | [_, _] | [_, _, _] => rw [stringBody]; simp

theorem stringBody_of_faultyPiece {text : List Char} {fault : LexFault} (h : FaultyPiece text fault) :
    stringBody text = .error fault := by
  cases h with
  | letter h => exact stringBody_letter h _
  | digits h => exact stringBody_truncated h
  | @surrogate a b c d rest n h hlow hhigh =>
    have hinvalid : ¬ n.isValidChar := by
      unfold Nat.isValidChar
      omega
    rw [stringBody_hex, hexEscape_of_number h, if_neg hinvalid]
    rfl

theorem stringBody_of_hasFault {text : List Char} {fault : LexFault} (h : HasFault text fault) :
    stringBody text = .error fault := by
  obtain ⟨pieces, after, rfl, hafter⟩ := h
  have herror : stringBody after = .error fault := by
    rcases hafter with hfaulty | ⟨rfl, rfl | rfl⟩
    · exact stringBody_of_faultyPiece hfaulty
    · rw [stringBody]
    · rw [stringBody]
  rw [stringBody_pieces, herror]
  rfl

/-! ## Every text -/

inductive Opens : List Char → Prop
  | nothing : Opens []
  | backslash : Opens ['\\']
  | quote (rest : List Char) : Opens ('"' :: rest)
  | piece (p : StringPiece) (rest : List Char) : Opens (p.text ++ rest)
  | faulty {text : List Char} {fault : LexFault} : FaultyPiece text fault → Opens text

/-- Four digits stand for a character unless they stand for a surrogate. -/
theorem opens_number {a b c d : Char} {n : Nat} (h : IsHexNumber [a, b, c, d] n) (rest : List Char) :
    Opens ('\\' :: 'x' :: a :: b :: c :: d :: rest) := by
  by_cases hsurrogate : 0xD800 ≤ n ∧ n ≤ 0xDFFF
  · exact .faulty (.surrogate h hsurrogate.1 hsurrogate.2)
  · have hvalid : n.isValidChar := by
      obtain ⟨i, j, k, l, hi, hj, hk, hl, rfl⟩ := isHexNumber_four.mp h
      have hlt : ∀ {c : Char} {value : Nat}, hexValue? c = some value → value < 16 :=
        fun h => (hexValue?_eq_some.mp h).1
      have := hlt hi
      have := hlt hj
      have := hlt hk
      have := hlt hl
      unfold Nat.isValidChar
      omega
    have hchar : (Char.ofNat n).toNat = n := by
      unfold Char.ofNat
      rw [dif_pos hvalid]
      rfl
    rw [← hchar] at h
    exact .piece ⟨['\\', 'x', a, b, c, d], Char.ofNat n, .codePoint h⟩ rest

theorem opens_escape (letter : Char) (rest : List Char) : Opens ('\\' :: letter :: rest) := by
  by_cases hletter : letter ∈ ['n', 'r', 't', '\\', '"', 'x']
  · simp only [List.mem_cons, List.not_mem_nil, or_false] at hletter
    rcases hletter with rfl | rfl | rfl | rfl | rfl | rfl
    · exact .piece ⟨_, _, .lineFeed⟩ rest
    · exact .piece ⟨_, _, .carriageReturn⟩ rest
    · exact .piece ⟨_, _, .tab⟩ rest
    · exact .piece ⟨_, _, .backslash⟩ rest
    · exact .piece ⟨_, _, .quote⟩ rest
    · by_cases hnumber : ∃ a b c d after n, rest = a :: b :: c :: d :: after ∧ IsHexNumber [a, b, c, d] n
      · obtain ⟨a, b, c, d, after, n, rfl, h⟩ := hnumber
        exact opens_number h after
      · exact .faulty (.digits fun a b c d after n hrest h => hnumber ⟨a, b, c, d, after, n, hrest, h⟩)
  · exact .faulty (.letter hletter)

theorem opens (text : List Char) : Opens text := by
  match text with
  | [] => exact .nothing
  | c :: rest =>
    by_cases hquote : c = '"'
    · subst hquote
      exact .quote rest
    by_cases hbackslash : c = '\\'
    · subst hbackslash
      cases rest with
      | nil => exact .backslash
      | cons letter rest => exact opens_escape letter rest
    · exact .piece ⟨[c], c, .plain hquote hbackslash⟩ rest

theorem denotes_ne_nil {text : List Char} {value : Char} (h : Denotes text value) : text ≠ [] := by
  cases h <;> simp

/-- Every text is the body of a string or has a fault. -/
theorem isBody_or_hasFault (text : List Char) :
    (∃ pieces rest, IsBody text pieces rest) ∨ ∃ fault, HasFault text fault := by
  have hopens := opens text
  cases hopens with
  | nothing => exact .inr ⟨_, [], [], rfl, .inr ⟨rfl, .inl rfl⟩⟩
  | backslash => exact .inr ⟨_, [], ['\\'], rfl, .inr ⟨rfl, .inr rfl⟩⟩
  | quote rest => exact .inl ⟨[], rest, rfl⟩
  | faulty h => exact .inr ⟨_, [], text, rfl, .inl h⟩
  | piece p rest =>
    have hpos : 0 < p.text.length := List.length_pos_iff.mpr (denotes_ne_nil p.denotes)
    rcases isBody_or_hasFault rest with ⟨pieces, rest', hbody⟩ | ⟨fault, pieces, after, hrest, hafter⟩
    · refine .inl ⟨p :: pieces, rest', ?_⟩
      rw [IsBody, bodyText_cons, List.append_assoc, ← hbody]
    · refine .inr ⟨fault, p :: pieces, after, ?_, hafter⟩
      rw [bodyText_cons, List.append_assoc, ← hrest]
termination_by text.length

theorem stringBody_eq_ok {text : List Char} {body : StringBody} : stringBody text = .ok body ↔
    ∃ pieces, IsBody text pieces body.rest ∧ body.value = pieces.map StringPiece.value ∧
      body.text = bodyText pieces ++ ['"'] := by
  constructor
  · intro h
    rcases isBody_or_hasFault text with ⟨pieces, rest, hbody⟩ | ⟨fault, hfault⟩
    · cases (stringBody_of_isBody hbody).symm.trans h
      exact ⟨pieces, hbody, rfl, rfl⟩
    · cases (stringBody_of_hasFault hfault).symm.trans h
  · rintro ⟨pieces, hbody, hvalue, htext⟩
    rw [stringBody_of_isBody hbody, ← hvalue, ← htext]

theorem stringBody_eq_error {text : List Char} {fault : LexFault} :
    stringBody text = .error fault ↔ HasFault text fault := by
  refine ⟨fun h => ?_, stringBody_of_hasFault⟩
  rcases isBody_or_hasFault text with ⟨pieces, rest, hbody⟩ | ⟨other, hfault⟩
  · cases (stringBody_of_isBody hbody).symm.trans h
  · cases (stringBody_of_hasFault hfault).symm.trans h
    exact hfault

/-! ## One way to cut -/

def pieceLength : List Char → Nat
  | '\\' :: 'x' :: _ => 6
  | '\\' :: _ => 2
  | _ => 1

theorem pieceLength_piece (p : StringPiece) (rest : List Char) : pieceLength (p.text ++ rest) = p.text.length := by
  obtain ⟨text, value, hdenotes⟩ := p
  cases hdenotes with
  | plain hq hb => simp [pieceLength, hb]
  | _ => rfl

theorem eq_of_text_eq {p q : StringPiece} (h : p.text = q.text) : p = q := by
  have hquote : stringBody ['"'] = .ok ⟨[], ['"'], []⟩ := by rw [stringBody]
  have hp := stringBody_piece p ['"']
  have hq := stringBody_piece q ['"']
  rw [h, hq, hquote] at hp
  obtain ⟨text, value, _⟩ := p
  obtain ⟨text', value', _⟩ := q
  cases hp
  cases h
  rfl

theorem piece_unique {p q : StringPiece} {rest rest' : List Char} (h : p.text ++ rest = q.text ++ rest') :
    p = q ∧ rest = rest' := by
  have hlength : p.text.length = q.text.length := by rw [← pieceLength_piece p rest, h, pieceLength_piece]
  obtain ⟨htext, hrest⟩ := List.append_inj h hlength
  exact ⟨eq_of_text_eq htext, hrest⟩

theorem head?_piece (p : StringPiece) (rest : List Char) : (p.text ++ rest).head? ≠ some '"' := by
  obtain ⟨text, value, hdenotes⟩ := p
  cases hdenotes with
  | plain hq hb => simpa using hq
  | _ => simp

theorem isBody_unique {text rest rest' : List Char} {pieces pieces' : List StringPiece}
    (h : IsBody text pieces rest)
    (h' : IsBody text pieces' rest') : pieces = pieces' ∧ rest = rest' := by
  induction pieces generalizing text pieces' with
  | nil =>
    cases pieces' with
    | nil =>
      cases h.symm.trans h'
      exact ⟨rfl, rfl⟩
    | cons q pieces' =>
      rw [IsBody, bodyText_cons, List.append_assoc] at h'
      exact absurd (congrArg List.head? (h.symm.trans h')).symm (head?_piece q _)
  | cons p pieces ih =>
    rw [IsBody, bodyText_cons, List.append_assoc] at h
    cases pieces' with
    | nil => exact absurd (congrArg List.head? (h.symm.trans h')) (head?_piece p _)
    | cons q pieces' =>
      rw [IsBody, bodyText_cons, List.append_assoc] at h'
      obtain ⟨rfl, hrest⟩ := piece_unique (h.symm.trans h')
      obtain ⟨rfl, rfl⟩ := ih rfl hrest
      exact ⟨rfl, rfl⟩

/-! ## Lines -/

/-- Only a newline that stands for itself is a newline of the text. -/
theorem newlines_piece (p : StringPiece) : newlines p.text = if p.text = ['\n'] then 1 else 0 := by
  obtain ⟨text, value, hdenotes⟩ := p
  cases hdenotes with
  | plain hq hb => by_cases hc : value = '\n' <;> simp [newlines, hc]
  | @codePoint a b c d _ h =>
    obtain ⟨i, j, k, l, hi, hj, hk, hl, _⟩ := isHexNumber_four.mp h
    have hne : ∀ {c : Char} {value : Nat}, hexValue? c = some value → c ≠ '\n' := by
      rintro _ _ hc rfl
      cases hc
    simp [newlines, hne hi, hne hj, hne hk, hne hl]
  | _ => rfl

theorem newlines_bodyText (pieces : List StringPiece) :
    newlines (bodyText pieces) = pieces.countP fun p => p.text = ['\n'] := by
  induction pieces with
  | nil => rfl
  | cons p pieces ih =>
    rw [bodyText_cons, newlines_append, newlines_piece, ih, List.countP_cons, Nat.add_comm]
    simp

/-! ## Tokens -/

def stringToken (line : Nat) (pieces : List StringPiece) : Token where
  kind := .string
  lexeme := String.ofList ('"' :: bodyText pieces ++ ['"'])
  literal := some (.string (String.ofList (pieces.map StringPiece.value)))
  line := line

theorem scanFrom_of_isBody {text rest : List Char} {pieces : List StringPiece} (h : IsBody text pieces rest)
    (line : Nat) :
    scanFrom line ('"' :: text) = (scanFrom (line + newlines (bodyText pieces)) rest).map
      (stringToken (line + newlines (bodyText pieces)) pieces :: ·) := by
  have hstep : step '"' text = .token .string (some (.string (String.ofList (pieces.map StringPiece.value))))
      ('"' :: bodyText pieces ++ ['"']) rest := by
    rw [StepsTo.string.eq, stringStep, stringBody_of_isBody h]
    rfl
  have hlines : newlines ('"' :: bodyText pieces ++ ['"']) = newlines (bodyText pieces) := by
    simp [newlines]
  rw [scanFrom_token hstep, hlines]
  rfl

theorem scanFrom_of_hasFault {text : List Char} {fault : LexFault} (h : HasFault text fault) (line : Nat) :
    scanFrom line ('"' :: text) = .error (.lex (faultLine fault line ('"' :: text)) fault) := by
  have hstep : step '"' text = .fault fault := by rw [StepsTo.string.eq, stringStep, stringBody_of_hasFault h]
  exact scanFrom_fault hstep line

/-- **Strings decode exactly their grammar.** After a quote the scanner takes a string if and
only if the text is pieces up to a quote, which it can be in one way only. The literal is
what the pieces stand for, the lexeme is the text in its quotes, and the line goes on by the
newlines that stand for themselves. Any other text has the fault of its first faulty piece,
or is an unterminated string. So a text that is written in quotes, each character as itself
or with an escape for it, is one token with that text as its literal. -/
theorem string_decodes (text : List Char) :
    (∀ body, stringBody text = .ok body ↔ ∃ pieces, IsBody text pieces body.rest ∧
      body.value = pieces.map StringPiece.value ∧ body.text = bodyText pieces ++ ['"']) ∧
    (∀ fault, stringBody text = .error fault ↔ HasFault text fault) ∧
    (∀ pieces rest, IsBody text pieces rest →
      (∀ pieces' rest', IsBody text pieces' rest' → pieces' = pieces ∧ rest' = rest) ∧
      ∀ line, let last := line + pieces.countP fun p => p.text = ['\n']
        scanFrom line ('"' :: text) = (scanFrom last rest).map (stringToken last pieces :: ·)) ∧
    (∀ fault, HasFault text fault → ∀ line, ∃ there, scanFrom line ('"' :: text) = .error (.lex there fault)) ∧
    ∀ (t : String) pieces, pieces.map StringPiece.value = t.toList → IsBody text pieces [] →
      ∃ token last, scan (String.ofList ('"' :: text)) = .ok [token, .eof last] ∧ token.kind = .string ∧
        token.lexeme = String.ofList ('"' :: text) ∧ token.literal = some (.string t) := by
  refine ⟨fun _ => stringBody_eq_ok, fun _ => stringBody_eq_error, fun pieces rest h => ⟨fun pieces' rest' h' => ?_,
    fun line => ?_⟩, fun fault h line => ⟨_, scanFrom_of_hasFault h line⟩, fun t pieces ht h => ?_⟩
  · exact isBody_unique h' h
  · rw [← newlines_bodyText]
    exact scanFrom_of_isBody h line
  · refine ⟨stringToken (1 + newlines (bodyText pieces)) pieces, 1 + newlines (bodyText pieces), ?_, rfl, ?_, ?_⟩
    · rw [scan, String.toList_ofList, scanFrom_of_isBody h, scanFrom]
      rfl
    · rw [h]
      rfl
    · rw [stringToken, ht, String.ofList_toList]

/-- A newline, an `é` and a quote in three kinds of pieces, and a text with a faulty escape. -/
theorem threePieces_decode :
    let number : IsHexNumber ['0', '0', 'E', '9'] 'é'.toNat :=
      ⟨[0, 0, 14, 9], .cons (by decide) (.cons (by decide) (.cons (by decide) (.cons (by decide) .nil))), rfl⟩
    let pieces : List StringPiece :=
      [⟨_, '\n', .plain (by decide) (by decide)⟩, ⟨_, 'é', .codePoint number⟩, ⟨_, '"', .quote⟩]
    let text := ['\n', '\\', 'x', '0', '0', 'E', '9', '\\', '"', '"']
    IsBody text pieces [] ∧ scanFrom 1 ('"' :: text) = .ok [stringToken 2 pieces, .eof 2] ∧
      pieces.map StringPiece.value = "\né\"".toList ∧
      (∃ token last, scan (String.ofList ('"' :: text)) = .ok [token, .eof last] ∧ token.kind = .string ∧
        token.lexeme = String.ofList ('"' :: text) ∧ token.literal = some (.string "\né\"")) ∧
      HasFault ['a', '\\', 'q', '"'] (.invalidEscape 'q') ∧
      ∃ there, scanFrom 1 ['"', 'a', '\\', 'q', '"'] = .error (.lex there (.invalidEscape 'q')) := by
  intro number pieces text
  have hbody : IsBody text pieces [] := rfl
  have hvalues : pieces.map StringPiece.value = "\né\"".toList := by decide
  have hfault : HasFault ['a', '\\', 'q', '"'] (.invalidEscape 'q') :=
    ⟨[⟨_, 'a', .plain (by decide) (by decide)⟩], ['\\', 'q', '"'], rfl, .inl (.letter (by decide))⟩
  obtain ⟨-, -, hscan, -, hquoted⟩ := string_decodes text
  obtain ⟨-, -, -, hfails, -⟩ := string_decodes ['a', '\\', 'q', '"']
  refine ⟨hbody, ?_, hvalues, hquoted _ pieces hvalues hbody, hfault, hfails _ hfault 1⟩
  rw [(hscan pieces [] hbody).2 1, scanFrom]
  rfl

end CurriedScript
