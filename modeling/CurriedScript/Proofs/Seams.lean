import CurriedScript.Proofs.Steps

/-!
# Where a token ends

A step looks at no more than the character that follows what it takes.
`step_more`: a text that goes on with a character that separates tokens starts
with the same token as it did without. Comments, strings and builtins end by
their own last character, whatever follows.
-/

namespace CurriedScript

/-- No token goes on with the character unless it is made of symbols. -/
structure EndsWord (x : Char) : Prop where
  name : isNameChar x = false
  number : isNumberChar x = false
  lead : startsLikeNameChar x = false
  bang : x ≠ '!'
  hash : x ≠ '#'

structure Separates (x : Char) : Prop extends EndsWord x where
  symbol : isSymbolChar x = false

/-! ## Marks -/

theorem not_isNameChar_mark {c : Char} (hc : c ∈ ['\n', ' ', ')', ';', ',', ':', '!', '}']) :
    isNameChar c = false := by
  have hall : ['\n', ' ', ')', ';', ',', ':', '!', '}'].all (!isNameChar ·) := by decide +kernel
  simpa using List.all_eq_true.mp hall c hc

theorem isSymbolChar_commentMark {c : Char} (hc : c ∈ ['/', '*']) : isSymbolChar c = true := by
  have hall : ['/', '*'].all isSymbolChar := by decide +kernel
  exact List.all_eq_true.mp hall c hc

theorem endsWord_mark {c : Char} (hc : c ∈ ['\n', ' ', ')', ';', ',', ':']) : EndsWord c := by
  have hname : isNameChar c = false := not_isNameChar_mark (List.mem_append_left ['!', '}'] hc)
  simp only [List.mem_cons, List.not_mem_nil, or_false] at hc
  rcases hc with rfl | rfl | rfl | rfl | rfl | rfl
  all_goals exact ⟨hname, rfl, rfl, by decide, by decide⟩

theorem separates_mark {c : Char} (hc : c ∈ ['\n', ' ', ')', ';', ',']) : Separates c := by
  have hends : EndsWord c := endsWord_mark (List.mem_append_left [':'] hc)
  simp only [List.mem_cons, List.not_mem_nil, or_false] at hc
  rcases hc with rfl | rfl | rfl | rfl | rfl
  all_goals exact ⟨hends, rfl⟩

/-! ## Texts that go on -/

def Step.more (text : List Char) : Step → Step
  | .skip piece rest => .skip piece (rest ++ text)
  | .token kind literal lexeme rest => .token kind literal lexeme (rest ++ text)
  | .fault f => .fault f

def Step.IsFault : Step → Prop
  | .fault _ => True
  | _ => False

theorem takeWhile_more {p : Char → Bool} {x : Char} (hx : p x = false) (text more : List Char) :
    (text ++ x :: more).takeWhile p = text.takeWhile p := by
  induction text with
  | nil => simp [hx]
  | cons c text ih => simp only [List.cons_append, List.takeWhile_cons, ih]

theorem dropWhile_more {p : Char → Bool} {x : Char} (hx : p x = false) (text more : List Char) :
    (text ++ x :: more).dropWhile p = text.dropWhile p ++ x :: more := by
  induction text with
  | nil => simp [hx]
  | cons c text ih =>
    simp only [List.cons_append, List.dropWhile_cons, ih]
    split <;> rfl

theorem head?_more {x d : Char} (h : x ≠ d) (text more : List Char) :
    (text ++ x :: more).head? = some d ↔ text.head? = some d := by
  cases text <;> simp [h]

theorem ne_of_isSymbolChar {x d : Char} (hx : isSymbolChar x = false) (hd : isSymbolChar d = true) : x ≠ d := by
  rintro rfl
  rw [hx] at hd
  cases hd

/-! ## Comments -/

theorem commentEnd?_cons {c : Char} {rest : List Char} (h : ¬ (c = '*' ∧ rest.head? = some '/')) :
    commentEnd? (c :: rest) = (commentEnd? rest).map fun (text, rest) => (c :: text, rest) := by
  rw [commentEnd?]
  rintro rest' rfl rfl
  exact h ⟨rfl, rfl⟩

theorem commentEnd?_more {text piece rest : List Char} (h : commentEnd? text = some (piece, rest))
    (more : List Char) : commentEnd? (text ++ more) = some (piece, rest ++ more) := by
  fun_induction commentEnd? text generalizing piece rest with
  | case1 => cases h; rfl
  | case2 c text hne ih =>
    obtain ⟨⟨p, r⟩, hp, h⟩ := Option.map_eq_some_iff.mp h
    cases h
    cases text with
    | nil => cases hp
    | cons d text =>
      rw [List.cons_append, commentEnd?_cons, ih hp]
      · rfl
      · rintro ⟨rfl, hd⟩
        cases hd
        exact hne text rfl rfl
  | case3 => cases h

theorem commentStep_more {text : List Char} (h : ¬ (commentStep text).IsFault) (more : List Char) :
    commentStep (text ++ more) = (commentStep text).more more := by
  unfold commentStep at h ⊢
  cases hc : commentEnd? text with
  | none => rw [hc] at h; exact absurd trivial h
  | some found => rw [commentEnd?_more hc]; rfl

/-! ## Strings -/

theorem stringBody_cons {c : Char} (hq : c ≠ '"') (hb : c ≠ '\\') (rest : List Char) :
    stringBody (c :: rest) = (stringBody rest).map (StringBody.cons c [c]) := by
  rw [stringBody]
  · cases stringBody rest <;> rfl
  all_goals simp [hq, hb]

theorem stringBody_escape {letter value : Char} (h : shortEscape? letter = some value) (rest : List Char) :
    stringBody ('\\' :: letter :: rest) = (stringBody rest).map (StringBody.cons value ['\\', letter]) := by
  have hx : letter ≠ 'x' := by rintro rfl; cases h
  rw [stringBody]
  · rw [h]
    cases stringBody rest <;> rfl
  all_goals simp [hx]

theorem stringBody_hex (a b c d : Char) (rest : List Char) :
    stringBody ('\\' :: 'x' :: a :: b :: c :: d :: rest) = (hexEscape a b c d).bind fun value =>
      (stringBody rest).map (StringBody.cons value ['\\', 'x', a, b, c, d]) := by
  rw [stringBody]
  cases hexEscape a b c d with
  | error => rfl
  | ok value => cases stringBody rest <;> rfl

theorem stringBody_more {text : List Char} {body : StringBody} (h : stringBody text = .ok body)
    (more : List Char) : stringBody (text ++ more) = .ok { body with rest := body.rest ++ more } := by
  fun_induction stringBody text generalizing body with
  | case1 => cases h
  | case2 => cases h; rfl
  | case3 a b c d rest ih =>
    simp only [List.cons_append, stringBody_hex]
    cases hv : hexEscape a b c d with
    | error => rw [hv] at h; cases h
    | ok v =>
      cases hb : stringBody rest with
      | error => rw [hv, hb] at h; cases h
      | ok body => rw [hv, hb] at h; cases h; rw [ih hb]; rfl
  | case4 => cases h
  | case5 => cases h
  | case6 => cases h
  | case7 letter rest _ _ v hv ih =>
    rw [List.cons_append, List.cons_append, stringBody_escape hv]
    cases hb : stringBody rest with
    | error => rw [hb] at h; cases h
    | ok body => rw [hb] at h; cases h; rw [ih hb]; rfl
  | case8 c rest hq _ _ hb hb' ih =>
    have hc : c ≠ '\\' := by
      cases rest with
      | nil => exact fun hc => hb hc rfl
      | cons d rest => exact fun hc => hb' d rest hc rfl
    rw [List.cons_append, stringBody_cons hq hc]
    cases hb : stringBody rest with
    | error => rw [hb] at h; cases h
    | ok body => rw [hb] at h; cases h; rw [ih hb]; rfl

theorem stringStep_more {text : List Char} (h : ¬ (stringStep text).IsFault) (more : List Char) :
    stringStep (text ++ more) = (stringStep text).more more := by
  unfold stringStep at h ⊢
  cases hb : stringBody text with
  | error => rw [hb] at h; exact absurd trivial h
  | ok body => rw [stringBody_more hb]; rfl

/-! ## Names and builtins -/

theorem bangAfter_more {text : List Char} {x : Char} (h : text ≠ [] ∨ x ≠ '!') (more : List Char) :
    bangAfter (text ++ x :: more) = bangAfter text := by
  unfold bangAfter
  cases text with
  | nil => simpa using h
  | cons c text => rfl

theorem bangAfter_length_le (text : List Char) : (bangAfter text).length ≤ text.length := by
  unfold bangAfter
  cases text with
  | nil => simp
  | cons c text => split <;> simp

/-- A name is over where its characters end, unless a `!` follows. -/
theorem nameSpan_more {text : List Char} {x : Char} (hx : isNameChar x = false)
    (h : text.dropWhile isNameChar ≠ [] ∨ x ≠ '!') (more : List Char) :
    nameSpan (text ++ x :: more) =
      ((nameSpan text).1, (nameSpan text).2.1, (nameSpan text).2.2 ++ x :: more) := by
  unfold nameSpan
  simp only [takeWhile_more hx, dropWhile_more hx, bangAfter_more h]
  rw [List.drop_append_of_le_length (bangAfter_length_le _)]

theorem nameStep_more {x : Char} (hx : EndsWord x) (c : Char) (text more : List Char) :
    nameStep c (text ++ x :: more) = (nameStep c text).more (x :: more) := by
  unfold nameStep
  rw [nameSpan_more hx.name (.inr hx.bang)]
  generalize nameSpan text = span
  obtain ⟨run, bang, rest⟩ := span
  dsimp only
  by_cases hu : Text.isUppercase c
  · simp only [hu, if_true, Step.more]
  simp only [hu, if_false, Bool.false_eq_true]
  cases keyword? (c :: run) with
  | none => rfl
  | some kind =>
    -- a keyword is told from a name by the next character
    have hnext : (rest ++ x :: more).head?.any startsLikeNameChar = rest.head?.any startsLikeNameChar := by
      cases rest with
      | nil => simp [hx.lead]
      | cons d rest => rfl
    simp only [hnext]
    split <;> rfl

theorem builtinStep_more {x : Char} (hx : EndsWord x) {text : List Char} (h : ¬ (builtinStep text).IsFault)
    (more : List Char) : builtinStep (text ++ x :: more) = (builtinStep text).more (x :: more) := by
  unfold builtinStep at h ⊢
  rw [nameSpan_more hx.name (.inr hx.bang)]
  generalize nameSpan text = span at h ⊢
  obtain ⟨run, bang, rest⟩ := span
  dsimp only at h ⊢
  split at h
  · simp only [List.cons_append]
    split <;> rfl
  · exact absurd trivial h

/-! ## Numbers -/

theorem numberSign_more (c : Char) (text more : List Char) :
    numberSign (c :: text ++ more) = ((numberSign (c :: text)).1, (numberSign (c :: text)).2 ++ more) := by
  unfold numberSign
  split
  · next h => cases h; rfl
  · next h =>
    split
    · next h' => cases h'; exact absurd rfl (h _)
    · rfl

theorem startsMagnitude_more {x : Char} (hx : isNumberChar x = false) (text more : List Char) :
    startsMagnitude (text ++ x :: more) = startsMagnitude text := by
  obtain ⟨hd, hdot⟩ : x.isDigit = false ∧ x ≠ '.' := by simpa [isNumberChar] using hx
  cases text with
  | nil => cases more <;> simp [startsMagnitude, hd, hdot]
  | cons c text =>
    by_cases hc : c = '.'
    · subst hc
      cases text with
      | nil => simp [startsMagnitude, hd]
      | cons d text => rfl
    · cases text <;> simp [startsMagnitude, hc]

theorem startsNumber_more {x : Char} (hx : isNumberChar x = false) (c : Char) (text more : List Char) :
    startsNumber (c :: text ++ x :: more) = startsNumber (c :: text) := by
  unfold startsNumber
  rw [numberSign_more, startsMagnitude_more hx]

theorem numberStep_more {x : Char} (hx : isNumberChar x = false) (c : Char) (text more : List Char) :
    numberStep (c :: text ++ x :: more) = (numberStep (c :: text)).more (x :: more) := by
  unfold numberStep
  rw [numberSign_more]
  dsimp only
  rw [takeWhile_more hx, dropWhile_more hx]
  split
  · rfl
  · split <;> rfl
  · rfl

/-! ## Symbols -/

theorem symbolSpan_stop {x : Char} (hx : isSymbolChar x = false) (more : List Char) :
    symbolSpan (x :: more) = ([], x :: more) := by
  cases more <;> simp [symbolSpan, hx]

theorem symbolSpan_cons {c d : Char} (hc : isSymbolChar c) (hmark : isCommentMark c d = false) (rest : List Char) :
    symbolSpan (c :: d :: rest) = (c :: (symbolSpan (d :: rest)).1, (symbolSpan (d :: rest)).2) := by
  simp [symbolSpan, hc, hmark]

theorem symbolSpan_more {x : Char} (hx : isSymbolChar x = false) (text more : List Char) :
    symbolSpan (text ++ x :: more) = ((symbolSpan text).1, (symbolSpan text).2 ++ x :: more) := by
  fun_induction symbolSpan text with
  | case1 c d rest hc => simp [symbolSpan, hc]
  | case2 c d rest hc hmark => simp [symbolSpan, hc, hmark]
  | case3 c d rest hc hmark run left hspan ih =>
    rw [hspan] at ih
    simp only [List.cons_append] at ih ⊢
    rw [symbolSpan_cons (by simpa using hc) (by simpa using hmark), ih]
  | case4 c hc =>
    -- both characters of a comment mark are symbol characters
    have hmark : isCommentMark c x = false := by
      simp only [isCommentMark, Bool.or_eq_false_iff, Bool.and_eq_false_iff, decide_eq_false_iff_not]
      exact ⟨.inr (ne_of_isSymbolChar hx (isSymbolChar_commentMark (by decide))),
        .inr (ne_of_isSymbolChar hx (isSymbolChar_commentMark (by decide)))⟩
    simp [symbolSpan_cons hc hmark, symbolSpan_stop hx]
  | case5 c hc => simp [symbolSpan, hc]
  | case6 => simp [symbolSpan_stop hx]

theorem symbolStep_more {x : Char} (hx : isSymbolChar x = false) (text more : List Char) :
    symbolStep (text ++ x :: more) = (symbolStep text).more (x :: more) := by
  unfold symbolStep
  rw [symbolSpan_more hx]
  generalize symbolSpan text = span
  obtain ⟨run, rest⟩ := span
  dsimp only
  simp only [head?_more (ne_of_isSymbolChar hx (isSymbolChar_commentMark (c := '/') (by decide)))]
  split <;> rfl

/-! ## Steps -/

theorem Ordinary.more {x : Char} (hx : EndsWord x) {c : Char} {text : List Char} (hslash : c = '/' → x ≠ '*')
    (h : Ordinary c text) (more : List Char) : Ordinary c (text ++ x :: more) where
  blank := h.blank
  comment := fun ⟨hc, hstar⟩ => h.comment ⟨hc, (head?_more (hslash hc) text more).mp hstar⟩
  quote := h.quote
  mark := h.mark
  number := (startsNumber_more hx.number c text more).trans h.number

/-- A step takes the same from a text that goes on with a character that ends words,
which a symbol may be if the step takes no symbols. -/
theorem step_more {x : Char} (hx : EndsWord x) {c : Char} {text : List Char}
    (hsymbol : isSymbolChar x = true → startsNumber (c :: text) = true ∨ isSymbolChar c = false)
    (h : ¬ (step c text).IsFault) (more : List Char) :
    step c (text ++ x :: more) = (step c text).more (x :: more) := by
  have hslash : c = '/' → x ≠ '*' := by
    rintro rfl rfl
    rcases hsymbol (isSymbolChar_commentMark (by decide)) with hn | hs
    · cases hn
    · rw [isSymbolChar_commentMark (c := '/') (by decide)] at hs
      cases hs
  have hkind := stepsTo_step c text
  generalize step c text = s at h hkind ⊢
  cases hkind with
  | blank hc => exact StepsTo.eq (.blank hc)
  | comment =>
    rw [← commentStep_more h]
    exact StepsTo.eq .comment
  | builtin =>
    rw [← builtinStep_more hx h]
    exact StepsTo.eq .builtin
  | string =>
    rw [← stringStep_more h]
    exact StepsTo.eq .string
  | mark hc hbrace => exact StepsTo.eq (.mark hc (hbrace.imp_right (not_congr (head?_more hx.hash text more)).mpr))
  | number hn =>
    rw [← numberStep_more hx.number]
    exact StepsTo.eq (.number ((startsNumber_more hx.number c text more).trans hn))
  | name ho halpha =>
    rw [← nameStep_more hx]
    exact StepsTo.eq (.name (ho.more hx hslash more) halpha)
  | stray => exact absurd trivial h
  | symbol ho hc =>
    have hsym : isSymbolChar x = false := by
      rw [Bool.eq_false_iff]
      intro hsym
      rcases hsymbol hsym with hn | hs
      · rw [ho.number] at hn
        cases hn
      · rw [hc] at hs
        cases hs
    rw [← symbolStep_more hsym]
    exact StepsTo.eq (.symbol (ho.more hx hslash more) hc)

theorem Separates.step_more {x : Char} (hx : Separates x) {c : Char} {text : List Char}
    (h : ¬ (step c text).IsFault) (more : List Char) :
    step c (text ++ x :: more) = (step c text).more (x :: more) :=
  CurriedScript.step_more hx.toEndsWord (fun hs => absurd hs (by simp [hx.symbol])) h more

/-! ## Texts -/

theorem newlines_append (text more : List Char) : newlines (text ++ more) = newlines text + newlines more :=
  List.count_append

theorem scanFrom_skip {c : Char} {cs blank rest : List Char} (h : step c cs = .skip blank rest) (line : Nat) :
    scanFrom line (c :: cs) = scanFrom (line + newlines blank) rest := by
  rw [scanFrom]
  split <;> simp_all

theorem scanFrom_token {c : Char} {cs lexeme rest : List Char} {kind : TokenKind} {literal : Option Literal}
    (h : step c cs = .token kind literal lexeme rest) (line : Nat) :
    scanFrom line (c :: cs) = (scanFrom (line + newlines lexeme) rest).map
      (⟨kind, String.ofList lexeme, literal, line + newlines lexeme⟩ :: ·) := by
  rw [scanFrom]
  split <;> simp_all
  cases scanFrom (line + newlines lexeme) rest <;> rfl

theorem scanFrom_fault {c : Char} {cs : List Char} {fault : LexFault} (h : step c cs = .fault fault) (line : Nat) :
    scanFrom line (c :: cs) = .error (.lex (faultLine fault line (c :: cs)) fault) := by
  rw [scanFrom]
  split <;> simp_all

/-! ## Positions in a source -/

/-- The scanner cuts the source into the tokens up to a line, and has the text still to cut. -/
inductive CutsTo (source : List Char) : List Token → Nat → List Char → Prop
  | start : CutsTo source [] 1 source
  | skip {before : List Token} {line : Nat} {c : Char} {cs blank rest : List Char} :
      CutsTo source before line (c :: cs) → step c cs = .skip blank rest →
      CutsTo source before (line + newlines blank) rest
  | token {before : List Token} {line : Nat} {c : Char} {cs lexeme rest : List Char} {kind : TokenKind}
      {literal : Option Literal} : CutsTo source before line (c :: cs) →
      step c cs = .token kind literal lexeme rest →
      CutsTo source (before ++ [⟨kind, String.ofList lexeme, literal, line + newlines lexeme⟩])
        (line + newlines lexeme) rest

section
variable {source : String} {before : List Token} {line : Nat} {text : List Char}

/-- What is cut already comes before what is still to cut. -/
theorem CutsTo.scan_eq (h : CutsTo source.toList before line text) :
    scan source = (scanFrom line text).map (before ++ ·) := by
  generalize hsource : source.toList = start at h
  induction h with
  | start =>
    rw [scan, hsource]
    cases scanFrom 1 start <;> rfl
  | skip _ hstep ih => rw [ih, scanFrom_skip hstep]
  | @token _ line _ _ lexeme rest _ _ _ hstep ih =>
    rw [ih, scanFrom_token hstep]
    cases scanFrom (line + newlines lexeme) rest <;> simp [Except.map]

theorem CutsTo.scan_error {c : Char} {cs : List Char} {fault : LexFault}
    (h : CutsTo source.toList before line (c :: cs))
    (hstep : step c cs = .fault fault) : scan source = .error (.lex (faultLine fault line (c :: cs)) fault) := by
  rw [h.scan_eq, scanFrom_fault hstep]
  rfl

end

/-! ## Texts in a source -/

def Scans (line : Nat) (text more : List Char) (tokens : List Token) : Prop :=
  scanFrom line (text ++ more) = (scanFrom (line + newlines text) more).map (tokens ++ ·)

theorem Scans.nil (line : Nat) (more : List Char) : Scans line [] more [] := by
  unfold Scans
  cases h : scanFrom line more <;> simp [newlines, h, Except.map]

theorem Scans.append {line : Nat} {text text' more : List Char} {ts us : List Token}
    (h : Scans line text (text' ++ more) ts) (h' : Scans (line + newlines text) text' more us) :
    Scans line (text ++ text') more (ts ++ us) := by
  unfold Scans at h h' ⊢
  rw [List.append_assoc, h, h', newlines_append, ← Nat.add_assoc]
  cases scanFrom (line + newlines text + newlines text') more <;> simp [Except.map]

theorem newlines_of_splits {c : Char} {cs piece rest more : List Char}
    (h : piece ++ (rest ++ more) = c :: (cs ++ more)) : newlines (c :: cs) = newlines piece + newlines rest := by
  have h' : piece ++ rest = c :: cs := by
    rw [← List.append_assoc, ← List.cons_append] at h
    exact List.append_cancel_right h
  rw [← h', newlines_append]

theorem Scans.skip {line : Nat} {c : Char} {cs piece rest more : List Char} {ts : List Token}
    (h : step c (cs ++ more) = .skip piece (rest ++ more)) (hrest : Scans (line + newlines piece) rest more ts) :
    Scans line (c :: cs) more ts := by
  have hsplits := step_splits c (cs ++ more)
  rw [h] at hsplits
  unfold Scans at hrest ⊢
  rw [List.cons_append, scanFrom_skip h, hrest, newlines_of_splits hsplits.2, Nat.add_assoc]

theorem Scans.token {line : Nat} {c : Char} {cs lexeme rest more : List Char} {kind : TokenKind}
    {literal : Option Literal} {ts : List Token}
    (h : step c (cs ++ more) = .token kind literal lexeme (rest ++ more))
    (hrest : Scans (line + newlines lexeme) rest more ts) :
    Scans line (c :: cs) more (⟨kind, String.ofList lexeme, literal, line + newlines lexeme⟩ :: ts) := by
  have hsplits := step_splits c (cs ++ more)
  rw [h] at hsplits
  unfold Scans at hrest ⊢
  rw [List.cons_append, scanFrom_token h, hrest, newlines_of_splits hsplits.2, Nat.add_assoc]
  cases scanFrom (line + (newlines lexeme + newlines rest)) more <;> rfl

/-! ## Kinds -/

def Step.Avoids (kind : TokenKind) : Step → Prop
  | .token k .. => k ≠ kind
  | _ => True

section
variable {kind : TokenKind} (hkind : kind = .eof ∨ kind = .builtin)
include hkind

theorem punctuation?_avoids {c : Char} {k : TokenKind} (h : punctuation? c = some k) : k ≠ kind := by
  unfold punctuation? at h
  split at h <;> cases h <;> rcases hkind with rfl | rfl <;> decide

theorem symbolKind_avoids (run : List Char) : symbolKind run ≠ kind := by
  unfold symbolKind
  split <;> rcases hkind with rfl | rfl <;> decide

theorem keyword?_avoids {word : List Char} {k : TokenKind} (h : keyword? word = some k) : k ≠ kind := by
  unfold keyword? at h
  split at h <;> cases h <;> rcases hkind with rfl | rfl <;> decide

theorem nameStep_avoids (c : Char) (rest : List Char) : (nameStep c rest).Avoids kind := by
  have hname : TokenKind.identifier ≠ kind := by rcases hkind with rfl | rfl <;> decide
  unfold nameStep
  dsimp only
  split
  · rcases hkind with rfl | rfl <;> simp [Step.Avoids]
  split
  · exact hname
  split
  · next k hk _ =>
    unfold Step.Avoids
    dsimp only
    split
    · exact hname
    · exact keyword?_avoids hkind hk
  · trivial

/-- The end of a text is no token of it, and only a builtin starts with `{#`. -/
theorem step_avoids (c : Char) (rest : List Char)
    (hbuiltin : kind = .builtin → ¬ (c = '{' ∧ rest.head? = some '#')) :
    (step c rest).Avoids kind := by
  have hstring : TokenKind.string ≠ kind := by rcases hkind with rfl | rfl <;> decide
  have hinteger : TokenKind.integer ≠ kind := by rcases hkind with rfl | rfl <;> decide
  have hfloat : TokenKind.float ≠ kind := by rcases hkind with rfl | rfl <;> decide
  have hstep := stepsTo_step c rest
  generalize step c rest = s at hstep ⊢
  cases hstep with
  | blank => trivial
  | comment =>
    unfold commentStep
    split <;> trivial
  | @builtin rest =>
    have hne : TokenKind.builtin ≠ kind := fun h => hbuiltin h.symm ⟨rfl, rfl⟩
    unfold builtinStep
    dsimp only
    split
    · split
      · trivial
      · exact hne
    · trivial
  | string =>
    unfold stringStep
    split
    · exact hstring
    · trivial
  | mark hc => exact punctuation?_avoids hkind hc
  | number =>
    unfold numberStep
    dsimp only
    split
    · exact hinteger
    · split
      · exact hfloat
      · trivial
    · trivial
  | name => exact nameStep_avoids hkind c rest
  | stray => trivial
  | symbol =>
    unfold symbolStep
    dsimp only
    split
    · trivial
    · exact symbolKind_avoids hkind _

end

/-! ## The end of a text -/

/-- What a text is cut into is the same where more follows that a character keeps apart from it. -/
theorem scanFrom_more {line : Nat} {text : List Char} {tokens : List Token} (h : scanFrom line text = .ok tokens) :
    ∃ before, tokens = before ++ [.eof (line + newlines text)] ∧ (∀ t ∈ before, t.kind ≠ .eof) ∧
      ∀ x more, Separates x → Scans line text (x :: more) before := by
  fun_induction scanFrom line text generalizing tokens with
  | case1 line =>
    cases h
    exact ⟨[], rfl, by simp, fun x more _ => Scans.nil line (x :: more)⟩
  | case2 line c cs piece rest hstep _ ih =>
    obtain ⟨before, rfl, heof, hbefore⟩ := ih h
    have hsplits := step_splits c cs
    rw [hstep] at hsplits
    refine ⟨before, ?_, heof, fun x more hx => ?_⟩
    · rw [← hsplits.2, newlines_append, Nat.add_assoc]
    · refine .skip ?_ (hbefore x more hx)
      rw [hx.step_more (by simp [hstep, Step.IsFault]), hstep, Step.more]
  | case3 line c cs kind literal lexeme rest hstep _ ih =>
    cases hrest : scanFrom (line + newlines lexeme) rest with
    | error e => rw [hrest] at h; cases h
    | ok after =>
      rw [hrest] at h
      cases h
      obtain ⟨before, rfl, heof, hbefore⟩ := ih hrest
      have hsplits := step_splits c cs
      rw [hstep] at hsplits
      refine ⟨⟨kind, String.ofList lexeme, literal, line + newlines lexeme⟩ :: before, ?_, ?_, fun x more hx => ?_⟩
      · rw [← hsplits.2, newlines_append, Nat.add_assoc]
        rfl
      · rintro t (_ | ⟨_, ht⟩)
        · have hkind := step_avoids (.inl rfl) c cs (by simp)
          rwa [hstep] at hkind
        · exact heof t ht
      · refine .token ?_ (hbefore x more hx)
        rw [hx.step_more (by simp [hstep, Step.IsFault]), hstep, Step.more]
  | case4 => cases h

end CurriedScript
