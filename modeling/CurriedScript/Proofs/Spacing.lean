import CurriedScript.Proofs.Layout
import CurriedScript.Proofs.Printing
import Mathlib

/-!
# Texts with other gaps

`comment_sameCut`: where a comment stands, a blank could stand, unless the comment
comes right behind a symbol, which takes a character of it. `scan_lexemes`: a token
is the same token by itself and with blanks around it, unless it is a name that is
spelled like a keyword.
-/

namespace CurriedScript

/-! ## Tokens on other lines -/

def Token.content (t : Token) : TokenKind × String × Option Literal := (t.kind, t.lexeme, t.literal)

/-- Two texts are cut into the same tokens, or have the same fault, whatever the lines. -/
inductive SameCut : Except Error (List Token) → Except Error (List Token) → Prop
  | tokens {ts us : List Token} : ts.map Token.content = us.map Token.content → SameCut (.ok ts) (.ok us)
  | fault {line line' : Nat} {fault : LexFault} : SameCut (.error (.lex line fault)) (.error (.lex line' fault))

theorem SameCut.cons {t u : Token} {m m' : Except Error (List Token)} (htu : t.content = u.content)
    (h : SameCut m m') :
    SameCut (m.map (t :: ·)) (m'.map (u :: ·)) := by
  cases h with
  | tokens hts => exact .tokens (by rw [List.map_cons, List.map_cons, htu, hts])
  | fault => exact .fault

theorem SameCut.of_cons {t u : Token} {m m' : Except Error (List Token)}
    (h : SameCut (m.map (t :: ·)) (m'.map (u :: ·))) :
    SameCut m m' := by
  cases m <;> cases m' <;> cases h
  · exact .fault
  · next h => exact .tokens (List.cons.inj h).2

theorem SameCut.head {t : Token} {m : Except Error (List Token)} {us : List Token} (h : SameCut m (.ok (t :: us))) :
    ∃ u ts, m = .ok (u :: ts) ∧ u.content = t.content := by
  cases h with
  | @tokens ts _ h =>
    cases ts with
    | nil => cases h
    | cons u ts => exact ⟨u, ts, rfl, (List.cons.inj h).1⟩

theorem scanFrom_sameCut (line line' : Nat) (text : List Char) :
    SameCut (scanFrom line text) (scanFrom line' text) := by
  fun_induction scanFrom line text generalizing line' with
  | case1 line =>
    rw [scanFrom]
    exact .tokens rfl
  | case2 line c cs piece rest hstep _ ih =>
    rw [scanFrom_skip hstep]
    exact ih _
  | case3 line c cs kind literal lexeme rest hstep _ ih =>
    rw [scanFrom_token hstep]
    exact .cons rfl (ih _)
  | case4 line c cs fault hstep =>
    rw [scanFrom_fault hstep]
    exact .fault

/-! ## Steps that leave something -/

def Step.Leaves : Step → Prop
  | .skip _ rest | .token _ _ _ rest => rest ≠ []
  | .fault _ => False

theorem Step.Leaves.not_isFault {s : Step} (h : s.Leaves) : ¬ s.IsFault := by
  cases s with
  | fault => exact h.elim
  | _ => exact id

section
variable {text : List Char} (more : List Char)

theorem takeWhile_append_of_stop {p : Char → Bool} (h : text.dropWhile p ≠ []) :
    (text ++ more).takeWhile p = text.takeWhile p := by
  rw [List.takeWhile_append, if_neg]
  intro hlength
  have happend := congrArg List.length (List.takeWhile_append_dropWhile (p := p) (l := text))
  rw [List.length_append] at happend
  exact h (List.eq_nil_of_length_eq_zero (by omega))

theorem dropWhile_append_of_stop {p : Char → Bool} (h : text.dropWhile p ≠ []) :
    (text ++ more).dropWhile p = text.dropWhile p ++ more := by
  rw [List.dropWhile_append, if_neg (by simpa using h)]

theorem head?_append_of_ne_nil (h : text ≠ []) : (text ++ more).head? = text.head? := by
  cases text with
  | nil => exact absurd rfl h
  | cons c text => rfl

theorem nameSpan_append_of_stop (h : text.dropWhile isNameChar ≠ []) :
    nameSpan (text ++ more) = ((nameSpan text).1, (nameSpan text).2.1, (nameSpan text).2.2 ++ more) := by
  have hbang : bangAfter (text.dropWhile isNameChar ++ more) = bangAfter (text.dropWhile isNameChar) := by
    rw [bangAfter, bangAfter, head?_append_of_ne_nil more h]
  unfold nameSpan
  simp only [takeWhile_append_of_stop more h, dropWhile_append_of_stop more h, hbang]
  rw [List.drop_append_of_le_length (bangAfter_length_le _)]

theorem dropWhile_ne_nil_of_nameSpan (h : (nameSpan text).2.2 ≠ []) : text.dropWhile isNameChar ≠ [] := by
  intro hnil
  refine h ?_
  unfold nameSpan
  simp only [hnil, List.drop_nil]

theorem startsMagnitude_of_append {text : List Char} (h : startsMagnitude (text ++ more)) :
    startsMagnitude text ∨ text = [] ∨ text = ['.'] := by
  match text with
  | [] => exact .inr (.inl rfl)
  | [c] =>
    by_cases hdot : c = '.'
    · exact .inr (.inr (by rw [hdot]))
    · exact .inl (by cases more <;> simpa [startsMagnitude, hdot] using h)
  | c :: d :: text =>
    by_cases hdot : c = '.'
    · subst hdot
      exact .inl h
    · exact .inl (by simpa [startsMagnitude, hdot] using h)

/-- More behind a text makes a number of its start only if the text is no more than sign and point. -/
theorem startsNumber_of_append {c : Char} (h : startsNumber (c :: (text ++ more))) :
    startsNumber (c :: text) ∨ c :: text ∈ [['-'], ['.'], ['-', '.']] := by
  unfold startsNumber at h ⊢
  rw [← List.cons_append, numberSign_more] at h
  rcases startsMagnitude_of_append more h with h | h | h
  · exact .inl h
  · by_cases hsign : c = '-'
    · subst hsign
      obtain rfl : text = [] := h
      exact .inr (by decide)
    · rw [numberSign_of_head (by simpa using hsign)] at h
      cases h
  · by_cases hsign : c = '-'
    · subst hsign
      obtain rfl : text = ['.'] := h
      exact .inr (by decide)
    · rw [numberSign_of_head (by simpa using hsign)] at h
      cases h
      exact .inr (by decide)

theorem not_leaves_of_sign {c : Char} (h : c :: text ∈ [['-'], ['.'], ['-', '.'], ['/']]) :
    ¬ (step c text).Leaves := by
  simp only [List.mem_cons, List.cons.injEq, List.not_mem_nil, or_false] at h
  rcases h with ⟨rfl, rfl⟩ | ⟨rfl, rfl⟩ | ⟨rfl, rfl⟩ | ⟨rfl, rfl⟩
  · exact fun hleaves => hleaves rfl
  · exact fun hleaves => hleaves rfl
  · exact fun hleaves => hleaves rfl
  · exact fun hleaves => hleaves rfl

/-- A symbol or a name that ends before the text does is not a part of something else if more follows. -/
theorem Ordinary.append {c : Char} (h : Ordinary c text) (hleaves : (step c text).Leaves) :
    Ordinary c (text ++ more) where
  blank := h.blank
  comment := by
    rintro ⟨rfl, hstar⟩
    cases text with
    | nil => exact not_leaves_of_sign (by decide) hleaves
    | cons d text => exact h.comment ⟨rfl, hstar⟩
  quote := h.quote
  mark := h.mark
  number := by
    rw [Bool.eq_false_iff]
    intro hnumber
    rcases startsNumber_of_append more hnumber with hstarts | hsign
    · rw [h.number] at hstarts
      cases hstarts
    · exact not_leaves_of_sign (List.mem_append_left [['/']] hsign) hleaves

theorem nameStep_append {c : Char} (h : (nameStep c text).Leaves) :
    nameStep c (text ++ more) = (nameStep c text).more more := by
  have hstop : (nameSpan text).2.2 ≠ [] := by
    unfold nameStep at h
    dsimp only at h
    split at h
    · exact h
    split at h
    · exact h
    split at h
    · exact h
    · exact h.elim
  unfold nameStep at h ⊢
  rw [nameSpan_append_of_stop more (dropWhile_ne_nil_of_nameSpan hstop)]
  generalize nameSpan text = span at hstop ⊢
  obtain ⟨run, bang, rest⟩ := span
  dsimp only at hstop ⊢
  rw [head?_append_of_ne_nil more hstop]
  split
  · rfl
  split
  · rfl
  split <;> rfl

theorem builtinStep_append (h : ¬ (builtinStep text).IsFault) :
    builtinStep (text ++ more) = (builtinStep text).more more := by
  have hstop : (nameSpan text).2.2 ≠ [] := by
    intro hnil
    simp [builtinStep, hnil, Step.IsFault] at h
  unfold builtinStep at h ⊢
  rw [nameSpan_append_of_stop more (dropWhile_ne_nil_of_nameSpan hstop)]
  generalize nameSpan text = span at h ⊢
  obtain ⟨run, bang, rest⟩ := span
  dsimp only at h ⊢
  split at h
  · simp only [List.cons_append]
    split <;> rfl
  · exact absurd trivial h

theorem numberStep_append {c : Char} (h : (numberStep (c :: text)).Leaves) :
    numberStep (c :: (text ++ more)) = (numberStep (c :: text)).more more := by
  have hstop : (numberSign (c :: text)).2.dropWhile isNumberChar ≠ [] := by
    unfold numberStep at h
    dsimp only at h
    split at h
    · exact h
    · split at h
      · exact h
      · exact h.elim
    · exact h.elim
  unfold numberStep
  rw [← List.cons_append, numberSign_more]
  dsimp only
  rw [takeWhile_append_of_stop more hstop, dropWhile_append_of_stop more hstop]
  split
  · rfl
  · split <;> rfl
  · rfl

theorem symbolSpan_append_of_stop {text : List Char} (h : (symbolSpan text).2 ≠ []) :
    symbolSpan (text ++ more) = ((symbolSpan text).1, (symbolSpan text).2 ++ more) := by
  fun_induction symbolSpan text with
  | case1 c d rest hc => simp [symbolSpan, hc]
  | case2 c d rest hc hmark => simp [symbolSpan, hc, hmark]
  | case3 c d rest hc hmark run left hspan ih =>
    rw [hspan] at ih
    simp only [List.cons_append] at ih ⊢
    rw [symbolSpan_cons (by simpa using hc) (by simpa using hmark), ih h]
  | case4 c hc => exact absurd rfl h
  | case5 c hc => cases more <;> simp [symbolSpan, hc]
  | case6 => exact absurd rfl h

theorem symbolStep_append {text : List Char} (h : (symbolStep text).Leaves) :
    symbolStep (text ++ more) = (symbolStep text).more more := by
  have hstop : (symbolSpan text).2 ≠ [] := by
    unfold symbolStep at h
    dsimp only at h
    split at h
    · exact h.elim
    · exact h
  unfold symbolStep
  rw [symbolSpan_append_of_stop more hstop]
  generalize symbolSpan text = span at hstop ⊢
  obtain ⟨run, rest⟩ := span
  dsimp only at hstop ⊢
  rw [head?_append_of_ne_nil more hstop]
  split <;> rfl

/-- What a step takes before the end of a text it takes whatever the text goes on with. -/
theorem step_append {c : Char} (h : (step c text).Leaves) : step c (text ++ more) = (step c text).more more := by
  have hkind := stepsTo_step c text
  have hstop := h
  generalize step c text = s at h hkind ⊢
  cases hkind with
  | blank hc => exact StepsTo.eq (.blank hc)
  | comment =>
    rw [← commentStep_more h.not_isFault]
    exact StepsTo.eq .comment
  | builtin =>
    rw [← builtinStep_append more h.not_isFault]
    exact StepsTo.eq .builtin
  | string =>
    rw [← stringStep_more h.not_isFault]
    exact StepsTo.eq .string
  | mark hc hbrace =>
    rw [← head?_append_of_ne_nil more h] at hbrace
    exact StepsTo.eq (.mark hc hbrace)
  | number hn =>
    rw [← numberStep_append more h]
    exact StepsTo.eq (.number (startsNumber_append hn more))
  | name ho halpha =>
    rw [← nameStep_append more h]
    exact StepsTo.eq (.name (ho.append more hstop) halpha)
  | stray => exact h.elim
  | symbol ho hc =>
    rw [← symbolStep_append more h]
    exact StepsTo.eq (.symbol (ho.append more hstop) hc)

end

/-! ## Symbols at the end -/

/-- The last piece of the text is a symbol. -/
inductive EndsInSymbol : List Char → Prop
  | symbol {c : Char} {cs : List Char} {kind : TokenKind} {literal : Option Literal} :
      step c cs = .token kind literal (c :: cs) [] → kind ∈ symbolKinds → EndsInSymbol (c :: cs)
  | skip {c : Char} {cs piece rest : List Char} : step c cs = .skip piece rest → EndsInSymbol rest →
      EndsInSymbol (c :: cs)
  | token {c : Char} {cs lexeme rest : List Char} {kind : TokenKind} {literal : Option Literal} :
      step c cs = .token kind literal lexeme rest → EndsInSymbol rest → EndsInSymbol (c :: cs)

theorem EndsInSymbol.ne_nil {text : List Char} (h : EndsInSymbol text) : text ≠ [] := by
  cases h <;> simp

theorem nameStep_kind {c : Char} {text lexeme rest : List Char} {kind : TokenKind} {literal : Option Literal}
    (h : nameStep c text = .token kind literal lexeme rest) : kind ∉ symbolKinds := by
  unfold nameStep at h
  dsimp only at h
  split at h
  · cases h
    decide
  split at h
  · cases h
    decide
  split at h
  · next word hword _ =>
    cases h
    unfold keyword? at hword
    split at hword <;> cases hword <;> split <;> decide
  · cases h

/-- Only symbols have the kinds of symbols. -/
theorem ordinary_of_symbol {c : Char} {text lexeme rest : List Char} {kind : TokenKind} {literal : Option Literal}
    (h : step c text = .token kind literal lexeme rest) (hkind : kind ∈ symbolKinds) :
    Ordinary c text ∧ isSymbolChar c := by
  have hstep := stepsTo_step c text
  generalize step c text = s at h hstep
  cases hstep with
  | blank => cases h
  | comment =>
    unfold commentStep at h
    split at h <;> cases h
  | builtin =>
    obtain ⟨_, _, rfl, _⟩ := builtinStep_lexeme h
    exact absurd hkind (by decide)
  | string =>
    unfold stringStep at h
    split at h <;> cases h
    exact absurd hkind (by decide)
  | mark hc =>
    cases h
    unfold punctuation? at hc
    split at hc <;> cases hc <;> exact absurd hkind (by decide)
  | number =>
    unfold numberStep at h
    dsimp only at h
    split at h
    · cases h
      exact absurd hkind (by decide)
    · split at h <;> cases h
      exact absurd hkind (by decide)
    · cases h
  | name => exact absurd hkind (nameStep_kind h)
  | stray => cases h
  | symbol ho hc => exact ⟨ho, hc⟩

theorem endsWord_slash : EndsWord '/' where
  name := by decide +kernel
  number := rfl
  lead := rfl
  bang := by decide
  hash := by decide

theorem symbolSpan_all {c d : Char} {run : List Char} (h : symbolSpan (c :: d :: run) = (c :: d :: run, [])) :
    isSymbolChar c ∧ isCommentMark c d = false ∧ symbolSpan (d :: run) = (d :: run, []) := by
  rw [symbolSpan] at h
  split at h
  · cases h
  next hc =>
  split at h
  · cases h
  next hmark =>
  obtain ⟨hrun, hrest⟩ := Prod.mk.inj h
  exact ⟨by simpa using hc, by simpa using hmark, Prod.ext (List.cons.inj hrun).2 hrest⟩

/-- A run of symbols takes the first character of a comment right behind it, unless the
two close a comment. -/
theorem symbolSpan_slash {run : List Char} (hrun : symbolSpan run = (run, [])) (hne : run ≠ []) (more : List Char) :
    symbolSpan (run ++ '/' :: '*' :: more) =
      if run.getLast? = some '*' then (run, '/' :: '*' :: more) else (run ++ ['/'], '*' :: more) := by
  have hslash : isSymbolChar '/' := isSymbolChar_commentMark (by decide)
  induction run with
  | nil => exact absurd rfl hne
  | cons c run ih =>
    cases run with
    | nil =>
      have hc : isSymbolChar c := by
        by_contra hc
        simp [symbolSpan, hc] at hrun
      by_cases hstar : c = '*'
      · subst hstar
        simp [symbolSpan, hc, isCommentMark]
      · simp [symbolSpan, hc, hslash, hstar, isCommentMark]
    | cons d run =>
      obtain ⟨hc, hmark, hrest⟩ := symbolSpan_all hrun
      rw [List.cons_append, List.cons_append, symbolSpan_cons hc hmark, ← List.cons_append, ih hrest (by simp),
        List.getLast?_cons_cons]
      split <;> rfl

/-- A symbol with a comment right behind it is a longer symbol or a fault. -/
theorem step_slash {c : Char} {cs : List Char} {kind : TokenKind} {literal : Option Literal}
    (h : step c cs = .token kind literal (c :: cs) []) (hkind : kind ∈ symbolKinds) (more : List Char) :
    step c (cs ++ '/' :: '*' :: more) = .fault .unopenedComment ∨ ∃ kind' literal' rest,
      step c (cs ++ '/' :: '*' :: more) = .token kind' literal' (c :: cs ++ ['/']) rest := by
  obtain ⟨ho, hc⟩ := ordinary_of_symbol h hkind
  rw [(StepsTo.symbol ho hc).eq] at h
  have hspan : symbolSpan (c :: cs) = (c :: cs, []) := by
    unfold symbolStep at h
    dsimp only at h
    split at h
    · cases h
    · injection h with _ _ hrun hrest
      exact Prod.ext hrun hrest
  rw [(StepsTo.symbol (ho.more endsWord_slash (by simp) ('*' :: more)) hc).eq, symbolStep, ← List.cons_append,
    symbolSpan_slash hspan (by simp)]
  by_cases hstar : (c :: cs).getLast? = some '*'
  · rw [if_pos hstar]
    exact .inl (if_pos ⟨hstar, rfl⟩)
  · rw [if_neg hstar]
    refine .inr ⟨_, _, _, if_neg ?_⟩
    simp

/-! ## Comments -/

theorem step_skip_append {c : Char} {cs piece rest : List Char} (h : step c cs = .skip piece rest)
    (more : List Char) :
    step c (cs ++ more) = .skip piece (rest ++ more) := by
  rcases step_skip h with ⟨hc, rfl, rfl⟩ | ⟨text, body, rfl, rfl, hend, rfl⟩
  · exact StepsTo.eq (.blank hc)
  · have hstep : StepsTo '/' ('*' :: text ++ more) (commentStep (text ++ more)) := .comment
    rw [hstep.eq, commentStep, commentEnd?_more hend]

/-- What a step takes that is no symbol it takes where any character that ends words follows. -/
theorem step_token_append {c : Char} {cs lexeme rest : List Char} {kind : TokenKind} {literal : Option Literal}
    (h : step c cs = .token kind literal lexeme rest) (hsymbol : ¬ EndsInSymbol (c :: cs)) {x : Char}
    (hx : EndsWord x)
    (more : List Char) : step c (cs ++ x :: more) = .token kind literal lexeme (rest ++ x :: more) := by
  by_cases hrest : rest = []
  · subst hrest
    have hsplits := step_splits c cs
    rw [h] at hsplits
    obtain rfl : lexeme = c :: cs := by simpa using hsplits.2
    have hkind : kind ∉ symbolKinds := fun hkind => hsymbol (.symbol h hkind)
    rw [step_more hx (fun _ => not_isSymbolChar_of_step h hkind) (by simp [h, Step.IsFault]), h]
    rfl
  · rw [step_append (x :: more) (by rwa [h]), h]
    rfl

/-- Where two texts go on with characters that end words, they are cut alike if what they
go on with is, unless they end in a symbol. -/
theorem sameCut_append {line : Nat} {text : List Char} {tokens : List Token} (h : scanFrom line text = .ok tokens)
    (hsymbol : ¬ EndsInSymbol text) {x y : Char} {more more' : List Char} (hx : EndsWord x) (hy : EndsWord y)
    (hmore : ∀ l l', SameCut (scanFrom l (x :: more)) (scanFrom l' (y :: more'))) (l l' : Nat) :
    SameCut (scanFrom l (text ++ x :: more)) (scanFrom l' (text ++ y :: more')) := by
  fun_induction scanFrom line text generalizing tokens l l' with
  | case1 line => exact hmore l l'
  | case2 line c cs piece rest hstep _ ih =>
    rw [List.cons_append, List.cons_append, scanFrom_skip (step_skip_append hstep _),
      scanFrom_skip (step_skip_append hstep _)]
    exact ih h (fun hrest => hsymbol (.skip hstep hrest)) _ _
  | case3 line c cs kind literal lexeme rest hstep _ ih =>
    cases hrest : scanFrom (line + newlines lexeme) rest with
    | error e =>
      rw [hrest] at h
      cases h
    | ok after =>
      rw [List.cons_append, List.cons_append, scanFrom_token (step_token_append hstep hsymbol hx more),
        scanFrom_token (step_token_append hstep hsymbol hy more')]
      exact .cons rfl (ih hrest (fun hrest => hsymbol (.token hstep hrest)) _ _)
  | case4 => cases h

/-- A symbol is not what it was where a comment comes right behind it. -/
theorem not_sameCut_slash {text : List Char} (hsymbol : EndsInSymbol text) (more : List Char) {y : Char}
    {more' : List Char}
    (hy : Separates y) {l l' : Nat} {others : List Token} (h : scanFrom l' (text ++ y :: more') = .ok others) :
    ¬ SameCut (scanFrom l (text ++ '/' :: '*' :: more)) (scanFrom l' (text ++ y :: more')) := by
  induction hsymbol generalizing l l' others with
  | @symbol c cs kind literal hstep hkind =>
    have hblank : step c (cs ++ y :: more') = .token kind literal (c :: cs) (y :: more') := by
      rw [hy.step_more (by simp [hstep, Step.IsFault]), hstep]
      rfl
    rw [List.cons_append, List.cons_append, scanFrom_token hblank]
    rw [List.cons_append, scanFrom_token hblank] at h
    intro hsame
    cases hafter : scanFrom (l' + newlines (c :: cs)) (y :: more') with
    | error e =>
      rw [hafter] at h
      cases h
    | ok after =>
      rw [hafter] at hsame
      obtain ⟨t, ts, hok, hcontent⟩ := hsame.head
      rcases step_slash hstep hkind more with hfault | ⟨kind', literal', rest, htoken⟩
      · rw [scanFrom_fault hfault] at hok
        cases hok
      · rw [scanFrom_token htoken] at hok
        cases hrest : scanFrom (l + newlines (c :: cs ++ ['/'])) rest with
        | error e =>
          rw [hrest] at hok
          cases hok
        | ok found =>
          rw [hrest] at hok
          cases hok
          -- the longer symbol is another lexeme
          have hlexeme := congrArg (fun content => content.2.1.toList.length) hcontent
          simp [Token.content] at hlexeme
  | @skip c cs piece rest hstep _ ih =>
    rw [List.cons_append, scanFrom_skip (step_skip_append hstep _)] at h ⊢
    rw [List.cons_append, scanFrom_skip (step_skip_append hstep _)]
    exact ih h
  | @token c cs lexeme rest kind literal hstep hrest ih =>
    have hleaves : (step c cs).Leaves := by
      rw [hstep]
      exact hrest.ne_nil
    have happend : ∀ more, step c (cs ++ more) = .token kind literal lexeme (rest ++ more) := fun more => by
      rw [step_append more hleaves, hstep]
      rfl
    rw [List.cons_append, scanFrom_token (happend _)] at h ⊢
    rw [List.cons_append, scanFrom_token (happend _)]
    cases hafter : scanFrom (l' + newlines lexeme) (rest ++ y :: more') with
    | error e =>
      rw [hafter] at h
      cases h
    | ok after =>
      intro hsame
      rw [← hafter] at hsame
      exact ih hafter hsame.of_cons

theorem endsWord_blank : EndsWord ' ' := endsWord_mark (by decide)

theorem scanFrom_comment {comment : List Char} (h : IsComment comment) (line : Nat) (rest : List Char) :
    scanFrom line (comment ++ rest) = scanFrom (line + newlines comment) rest := by
  obtain ⟨text, rfl, hend⟩ := h
  have hstep : StepsTo '/' ('*' :: (text ++ rest)) (commentStep (text ++ rest)) := .comment
  refine scanFrom_skip (hstep.eq.trans ?_) line
  rw [commentStep, commentEnd?_of_endsAtMark hend]

/-- **A comment is a blank, except behind a symbol.** Behind a text that does not end in
a symbol, a comment leaves the same tokens, or the same fault, as a blank in its
place. Behind one that does, it never leaves the tokens that a blank leaves. -/
theorem comment_sameCut {p : String} {tokens : List Token} (hp : scan p = .ok tokens) {comment : String}
    (hcomment : IsComment comment.toList) (q : String) :
    (¬ EndsInSymbol p.toList → SameCut (scan (p ++ comment ++ q)) (scan (p ++ " " ++ q))) ∧
    (EndsInSymbol p.toList → ∀ others, scan (p ++ " " ++ q) = .ok others →
      ¬ SameCut (scan (p ++ comment ++ q)) (scan (p ++ " " ++ q))) := by
  obtain ⟨body, hbody, hend⟩ := hcomment
  have htext : (p ++ comment ++ q).toList = p.toList ++ '/' :: '*' :: (body ++ q.toList) := by simp [hbody]
  have hblanked : (p ++ " " ++ q).toList = p.toList ++ ' ' :: q.toList := by simp
  unfold scan at hp ⊢
  rw [htext, hblanked]
  refine ⟨fun hsymbol => ?_, fun hsymbol others hothers => ?_⟩
  · refine sameCut_append hp hsymbol endsWord_slash endsWord_blank (fun l l' => ?_) 1 1
    have hcut := scanFrom_comment ⟨body, rfl, hend⟩ l q.toList
    have hstep : StepsTo ' ' q.toList (.skip [' '] q.toList) := .blank rfl
    rw [scanFrom_skip hstep.eq, ← List.cons_append, ← List.cons_append, hcut]
    exact scanFrom_sameCut _ _ _
  · exact not_sameCut_slash hsymbol _ (separates_mark (by decide)) hothers

/-- A comment of stars behind a number. -/
theorem behindNumber_sameCut :
    scan "-5" = .ok [⟨.integer, "-5", some (.integer (-5)), 1⟩, .eof 1] ∧ IsComment "/***/".toList ∧
    ¬ EndsInSymbol "-5".toList ∧ SameCut (scan ("-5" ++ "/***/" ++ "+1")) (scan ("-5" ++ " " ++ "+1")) := by
  have hp : scan "-5" = .ok [⟨.integer, "-5", some (.integer (-5)), 1⟩, .eof 1] := by cbv
  have hend : commentEnd? ['*', '*', '/'] = some (['*', '*', '/'], []) := rfl
  have hcomment : IsComment "/***/".toList := ⟨['*', '*', '/'], rfl, endsAtMark_of_commentEnd? hend⟩
  have hsymbol : ¬ EndsInSymbol "-5".toList := by
    have hstep : step '-' ['5'] = .token .integer (some (.integer (-5))) ['-', '5'] [] := by cbv
    show ¬ EndsInSymbol ['-', '5']
    rintro (⟨h, hkind⟩ | ⟨h, _⟩ | ⟨h, hrest⟩)
    · rw [hstep] at h
      cases h
      exact absurd hkind (by decide)
    · rw [hstep] at h
      cases h
    · rw [hstep] at h
      cases h
      cases hrest
  exact ⟨hp, hcomment, hsymbol, (comment_sameCut hp hcomment "+1").1 hsymbol⟩

/-- Behind a plus sign, the sign and the first character of the comment are one symbol. -/
theorem behindPlus_not_sameCut :
    scan "+" = .ok [⟨.symbolic, "+", none, 1⟩, .eof 1] ∧ IsComment "/**/".toList ∧
    ¬ SameCut (scan ("+" ++ "/**/" ++ "1")) (scan ("+" ++ " " ++ "1")) := by
  have hcomment : scan ("+" ++ "/**/" ++ "1") = .error (.lex 1 .unopenedComment) := by
    decide +kernel
  have hblank : scan ("+" ++ " " ++ "1") =
      .ok [⟨.symbolic, "+", none, 1⟩, ⟨.integer, "1", some (.integer 1), 1⟩, .eof 1] := by
    cbv
  refine ⟨by cbv, ⟨['*', '/'], rfl, endsAtMark_close⟩, fun h => ?_⟩
  rw [hcomment, hblank] at h
  cases h

/-! ## Lexemes by themselves -/

/-- What the lexeme of a token is by itself: a name that is spelled like a keyword is that keyword. -/
def Token.reread (t : Token) : Token :=
  if t.kind = .identifier then { t with kind := (keyword? t.lexeme.toList).getD .identifier } else t

@[simp] theorem Token.reread_lexeme (t : Token) : t.reread.lexeme = t.lexeme := by
  unfold Token.reread
  split <;> rfl

@[simp] theorem Token.reread_literal (t : Token) : t.reread.literal = t.literal := by
  unfold Token.reread
  split <;> rfl

theorem keyword_isToken {text : List Char} {kind : TokenKind} (h : keyword? text = some kind) :
    IsToken kind none text := by
  unfold keyword? at h
  split at h <;> cases h <;> rfl

/-- A keyword is not taken for a name if the text ends behind it. -/
theorem keyword?_of_isToken {literal : Option Literal} {text : List Char} (h : IsToken .identifier literal text) :
    keyword? text = none := by
  cases hk : keyword? text with
  | none => rfl
  | some kind =>
    have hkeyword := keyword_isToken hk
    cases text with
    | nil => exact h.elim
    | cons c cs =>
      have hkind : kind = .identifier := by
        have hsame := (show step c cs = _ from hkeyword).symm.trans (show step c cs = _ from h)
        injection hsame
      subst hkind
      unfold keyword? at hk
      split at hk <;> cases hk

/-- By itself, the lexeme of a token that the scanner cuts behind these is what it is reread as.
If that is something else than in the source, a character that no name has comes next there. -/
structure Rereads (source : List Char) (before : List Token) (t : Token) : Prop where
  isToken : IsToken t.reread.kind t.literal t.lexeme.toList
  follows : t.reread ≠ t → ∃ line x more, CutsTo source before line (t.lexeme.toList ++ x :: more) ∧
    CutsTo source (before ++ [t]) t.line (x :: more) ∧ startsLikeNameChar x ∧ isNameChar x = false

section
variable {source : List Char} {before : List Token} {line : Nat}

theorem CutsTo.rereads_next {c : Char} {cs lexeme rest : List Char} {kind : TokenKind} {literal : Option Literal}
    (hcut : CutsTo source before line (c :: cs)) (h : step c cs = .token kind literal lexeme rest) :
    Rereads source before ⟨kind, String.ofList lexeme, literal, line + newlines lexeme⟩ := by
  rcases step_lexeme h with halone | ⟨rfl, rfl, ⟨keyword, hkeyword⟩, x, more, rfl, hx⟩
  · have hsame : ∀ line, Token.reread ⟨kind, String.ofList lexeme, literal, line⟩ =
        ⟨kind, String.ofList lexeme, literal, line⟩ := fun line => by
      unfold Token.reread
      split
      · next hk =>
        obtain rfl : kind = .identifier := hk
        rw [String.toList_ofList, keyword?_of_isToken halone]
        rfl
      · rfl
    refine ⟨?_, fun hne => absurd (hsame _) hne⟩
    rwa [hsame, String.toList_ofList]
  · have hsplits := step_splits c cs
    rw [h] at hsplits
    refine ⟨?_, fun _ => ⟨line, x, more, ?_, hcut.token h, hx⟩⟩
    · simp only [Token.reread, String.toList_ofList, hkeyword]
      exact keyword_isToken hkeyword
    · rw [String.toList_ofList, hsplits.2]
      exact hcut

/-- The induction is on the scan that is still to come, the tokens cut so far grow with it. -/
theorem CutsTo.rereads {text : List Char} {tokens : List Token} (hcut : CutsTo source before line text)
    (h : scanFrom line text = .ok tokens) :
    ∃ ts, tokens = ts ++ [.eof (line + newlines text)] ∧
      ∀ first t after, ts = first ++ t :: after → Rereads source (before ++ first) t := by
  fun_induction scanFrom line text generalizing before tokens with
  | case1 line =>
    cases h
    exact ⟨[], rfl, by simp⟩
  | case2 line c cs piece rest hstep _ ih =>
    obtain ⟨ts, rfl, hts⟩ := ih (hcut.skip hstep) h
    have hsplits := step_splits c cs
    rw [hstep] at hsplits
    exact ⟨ts, by rw [← hsplits.2, newlines_append, Nat.add_assoc], hts⟩
  | case3 line c cs kind literal lexeme rest hstep _ ih =>
    cases hrest : scanFrom (line + newlines lexeme) rest with
    | error e =>
      rw [hrest] at h
      cases h
    | ok others =>
      rw [hrest] at h
      cases h
      obtain ⟨ts, rfl, hts⟩ := ih (hcut.token hstep) hrest
      have hsplits := step_splits c cs
      rw [hstep] at hsplits
      refine ⟨_ :: ts, by rw [← hsplits.2, newlines_append, Nat.add_assoc]; rfl, fun first t after hsplit => ?_⟩
      cases first with
      | nil =>
        injection hsplit with hhead
        rw [← hhead, List.append_nil]
        exact hcut.rereads_next hstep
      | cons u first =>
        injection hsplit with hhead htail
        have hlater := hts first t after htail
        rw [List.append_assoc, List.singleton_append, hhead] at hlater
        exact hlater
  | case4 => cases h

end

/-! ## Lexemes with blanks between them -/

theorem scanFrom_isToken {kind : TokenKind} {literal : Option Literal} {text more : List Char}
    (h : IsToken kind literal text) (hmore : more = [] ∨ ∃ rest, more = ' ' :: rest) (line : Nat) :
    scanFrom line (text ++ more) = (scanFrom (line + newlines text) more).map
      (⟨kind, String.ofList text, literal, line + newlines text⟩ :: ·) := by
  cases text with
  | nil => exact h.elim
  | cons c cs =>
    have hstep : step c cs = .token kind literal (c :: cs) [] := h
    have hmore : step c (cs ++ more) = .token kind literal (c :: cs) more := by
      rcases hmore with rfl | ⟨rest, rfl⟩
      · rw [List.append_nil, hstep]
      · rw [(separates_mark (by decide)).step_more (by simp [hstep, Step.IsFault]), hstep]
        rfl
    exact scanFrom_token hmore line

theorem reread_content (t : Token) (line : Nat) :
    Token.content ⟨t.reread.kind, String.ofList t.lexeme.toList, t.literal, line⟩ = t.reread.content := by
  simp [Token.content]

theorem eof_sameCut (line line' : Nat) : SameCut (scanFrom line []) (.ok [.eof line']) := by
  rw [scanFrom]
  exact .tokens rfl

theorem joined_sameCut : ∀ ts : List Token, (∀ t ∈ ts, IsToken t.reread.kind t.literal t.lexeme.toList) →
    ∀ line line', SameCut (scanFrom line (joined " " (ts.map (·.lexeme))).toList)
      (.ok (ts.map Token.reread ++ [.eof line']))
  | [], _, line, line' => eof_sameCut line line'
  | [t], h, line, line' => by
    have hcut := scanFrom_isToken (h t (by simp)) (.inl rfl) line
    rw [List.append_nil] at hcut
    show SameCut (scanFrom line t.lexeme.toList) ((Except.ok [.eof line']).map (t.reread :: ·))
    rw [hcut]
    exact .cons (reread_content t _) (eof_sameCut _ line')
  | t :: u :: ts, h, line, line' => by
    have hrest := joined_sameCut (u :: ts) (fun v hv => h v (by simp [hv]))
    have hblank : ∀ rest, step ' ' rest = .skip [' '] rest := fun rest => StepsTo.eq (.blank rfl)
    have htext : (joined " " ((t :: u :: ts).map (·.lexeme))).toList =
        t.lexeme.toList ++ ' ' :: (joined " " ((u :: ts).map (·.lexeme))).toList := joined_cons ..
    rw [htext, scanFrom_isToken (h t (by simp)) (.inr ⟨_, rfl⟩)]
    show SameCut (Except.map _ (scanFrom _ (' ' :: (joined " " ((u :: ts).map (·.lexeme))).toList)))
      ((Except.ok ((u :: ts).map Token.reread ++ [.eof line'])).map (t.reread :: ·))
    rw [scanFrom_skip (hblank _)]
    exact .cons (reread_content t _) (hrest _ line')

/-- **Tokens are scanned again as themselves.** The lexemes of a source with blanks between
them are its tokens, and so is each by itself, but for names that are spelled like
keywords: they are the keywords then. There is such a name only where a character
that is in no name, and is not ASCII, stands right behind it. -/
theorem scan_lexemes {source : String} {tokens : List Token} (h : scan source = .ok tokens) :
    ∃ (ts : List Token) (line : Nat), tokens = ts ++ [.eof line] ∧
      SameCut (scan (joined " " (ts.map (·.lexeme)))) (.ok (ts.map Token.reread ++ [.eof line])) ∧
      (∀ t ∈ ts, SameCut (scan t.lexeme) (.ok [t.reread, .eof line])) ∧
      ∀ (before : List Token) (t : Token) (after : List Token), ts = before ++ t :: after → t.reread ≠ t →
        ∃ start x more, CutsTo source.toList before start (t.lexeme.toList ++ x :: more) ∧
          CutsTo source.toList (before ++ [t]) t.line (x :: more) ∧ 0x80 ≤ x.toNat ∧ isNameChar x = false := by
  obtain ⟨ts, rfl, hts⟩ := CutsTo.start.rereads h
  have htokens : ∀ t ∈ ts, IsToken t.reread.kind t.literal t.lexeme.toList := fun t ht => by
    obtain ⟨first, after, hsplit⟩ := List.append_of_mem ht
    exact (hts first t after hsplit).isToken
  refine ⟨ts, _, rfl, joined_sameCut ts htokens 1 _, fun t ht => ?_, fun before t after hsplit hne => ?_⟩
  · exact joined_sameCut [t] (fun u hu => by rw [List.mem_singleton.mp hu]; exact htokens t ht) 1 _
  · obtain ⟨start, x, more, hbefore, hbehind, hlead, hx⟩ := (hts before t after hsplit).follows hne
    exact ⟨start, x, more, hbefore, hbehind, le_of_lead hlead, hx⟩

set_option maxRecDepth 2000 in
/-- Tokens with nothing between them. -/
theorem packedTokens_lexemes :
    ∃ tokens, scan "x!-5\x7b#id\x7d<-'" = .ok tokens ∧
      ∃ (ts : List Token) (line : Nat), tokens = ts ++ [.eof line] ∧
      SameCut (scan (joined " " (ts.map (·.lexeme)))) (.ok (ts.map Token.reread ++ [.eof line])) ∧
      (∀ t ∈ ts, SameCut (scan t.lexeme) (.ok [t.reread, .eof line])) ∧
      ∀ (before : List Token) (t : Token) (after : List Token), ts = before ++ t :: after → t.reread ≠ t →
        ∃ start x more, CutsTo "x!-5\x7b#id\x7d<-'".toList before start (t.lexeme.toList ++ x :: more) ∧
          CutsTo "x!-5\x7b#id\x7d<-'".toList (before ++ [t]) t.line (x :: more) ∧
          0x80 ≤ x.toNat ∧ isNameChar x = false := by
  have h : scan "x!-5\x7b#id\x7d<-'" = .ok [⟨.identifier, "x!", none, 1⟩, ⟨.integer, "-5", some (.integer (-5)), 1⟩,
      ⟨.builtin, "\x7b#id\x7d", some (.string "id"), 1⟩, ⟨.symbolic, "<-'", none, 1⟩, .eof 1] := by
    decide +kernel
  exact ⟨_, h, scan_lexemes h⟩

set_option maxRecDepth 2000 in
/-- A keyword before a space that is not ASCII is a name there, but not by itself. -/
theorem keywordBeforeSpace_not_sameCut :
    scan "let\u00a0x" = .ok [⟨.identifier, "let", none, 1⟩, ⟨.symbolic, "\u00a0", none, 1⟩,
      ⟨.identifier, "x", none, 1⟩, .eof 1] ∧
    ¬ SameCut (scan (joined " " ["let", "\u00a0", "x"])) (scan "let\u00a0x") := by
  have hsource : scan "let\u00a0x" = .ok [⟨.identifier, "let", none, 1⟩, ⟨.symbolic, "\u00a0", none, 1⟩,
      ⟨.identifier, "x", none, 1⟩, .eof 1] := by
    cbv
  have hjoined : scan (joined " " ["let", "\u00a0", "x"]) = .ok [⟨.letWord, "let", none, 1⟩,
      ⟨.symbolic, "\u00a0", none, 1⟩, ⟨.identifier, "x", none, 1⟩, .eof 1] := by
    cbv
  refine ⟨hsource, fun h => ?_⟩
  rw [hsource, hjoined] at h
  cases h with
  | tokens h => exact absurd h (by decide)

end CurriedScript
