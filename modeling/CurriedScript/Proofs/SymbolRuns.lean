import CurriedScript.Proofs.Layout
import CurriedScript.Proofs.Numbers
import Mathlib.Data.List.Infix

/-!
# Runs of symbol characters

`scan_symbols`: where no number starts, a run of symbol characters is a comment or is cut
before the second character of the first comment mark in it. The part before the cut is
one symbol, or the start of a mark that closes no comment.
-/

namespace CurriedScript

open Binary64 (signText)

/-! ## Comment marks -/

def HasMark (text : List Char) : Prop := ['/', '*'] <:+: text ∨ ['*', '/'] <:+: text

instance (text : List Char) : Decidable (HasMark text) := inferInstanceAs (Decidable (_ ∨ _))

theorem HasMark.mono {part text : List Char} (h : HasMark part) (hpart : part <:+: text) : HasMark text :=
  h.imp (·.trans hpart) (·.trans hpart)

theorem pair_prefix_cons {a b c : Char} {text : List Char} :
    [a, b] <+: c :: text ↔ a = c ∧ text.head? = some b := by
  cases text <;> simp [List.cons_prefix_cons, eq_comm]

theorem hasMark_cons {c : Char} {text : List Char} :
    HasMark (c :: text) ↔ (∃ d, text.head? = some d ∧ isCommentMark c d) ∨ HasMark text := by
  simp only [HasMark, List.infix_cons_iff, pair_prefix_cons, isCommentMark, Bool.or_eq_true, Bool.and_eq_true,
    decide_eq_true_eq]
  constructor
  · rintro ((⟨rfl, hhead⟩ | h) | (⟨rfl, hhead⟩ | h))
    · exact .inl ⟨_, hhead, .inl ⟨rfl, rfl⟩⟩
    · exact .inr (.inl h)
    · exact .inl ⟨_, hhead, .inr ⟨rfl, rfl⟩⟩
    · exact .inr (.inr h)
  · rintro (⟨d, hhead, ⟨rfl, rfl⟩ | ⟨rfl, rfl⟩⟩ | h | h)
    · exact .inl (.inl ⟨rfl, hhead⟩)
    · exact .inr (.inl ⟨rfl, hhead⟩)
    · exact .inl (.inr h)
    · exact .inr (.inr h)

theorem not_hasMark_nil : ¬ HasMark [] := by decide

/-- Every mark has a slash. -/
theorem not_hasMark_of_slash {text : List Char} (h : '/' ∉ text) : ¬ HasMark text := by
  rintro (hmark | hmark)
  · exact h (hmark.subset (by simp))
  · exact h (hmark.subset (by simp))

/-! ## The longest part without a mark -/

/-- The longest start of the run with no comment mark in it. -/
structure LongestUnmarked (run cut : List Char) : Prop where
  start : cut <+: run
  unmarked : ¬ HasMark cut
  longest : ∀ other, other <+: run → ¬ HasMark other → other.length ≤ cut.length

theorem LongestUnmarked.unique {run cut cut' : List Char} (h : LongestUnmarked run cut)
    (h' : LongestUnmarked run cut') :
    cut = cut' := by
  have hle := h'.longest cut h.start h.unmarked
  have hge := h.longest cut' h'.start h'.unmarked
  exact (List.prefix_of_prefix_length_le h.start h'.start hle).eq_of_length (by omega)

/-- A start that one character more gives a mark, or that is the whole run, is the longest. -/
theorem longestUnmarked_append {cut after : List Char} (hunmarked : ¬ HasMark cut)
    (hnext : ∀ d, after.head? = some d → HasMark (cut ++ [d])) : LongestUnmarked (cut ++ after) cut where
  start := List.prefix_append cut after
  unmarked := hunmarked
  longest := by
    rintro other hother hclear
    by_contra hlonger
    obtain ⟨more, rfl⟩ := List.prefix_of_prefix_length_le (List.prefix_append cut after) hother (by omega)
    obtain ⟨rest, rfl⟩ := (List.prefix_append_right_inj cut).mp hother
    cases more with
    | nil => simp at hlonger
    | cons d more =>
      have hmark := hnext d rfl
      refine hclear (hmark.mono ?_)
      exact ⟨[], more, by simp⟩

/-! ## What a symbol takes -/

theorem not_hasMark_symbolSpan (text : List Char) : ¬ HasMark (symbolSpan text).1 := by
  fun_induction symbolSpan text with
  | case1 | case5 | case6 => exact not_hasMark_nil
  | case2 | case4 => simp [hasMark_cons, not_hasMark_nil]
  | case3 c d rest hc hmark run left hspan ih =>
    rw [hspan] at ih
    rw [hasMark_cons]
    rintro (⟨e, hhead, hpair⟩ | hrun)
    · have happend := symbolSpan_append (d :: rest)
      rw [hspan] at happend
      cases run with
      | nil => cases hhead
      | cons f run =>
        cases hhead
        cases happend
        exact hmark hpair
    · exact ih hrun

/-- A symbol character is left behind only if it makes a mark with the last one taken. -/
theorem hasMark_of_left {text : List Char} {d : Char} (hleft : (symbolSpan text).2.head? = some d)
    (hd : isSymbolChar d) : HasMark ((symbolSpan text).1 ++ [d]) := by
  fun_induction symbolSpan text with
  | case1 c e rest hc =>
    cases hleft
    simp [hd] at hc
  | case2 c e rest hc hmark =>
    cases hleft
    exact hasMark_cons.mpr (.inl ⟨d, rfl, hmark⟩)
  | case3 c e rest hc hmark run left hspan ih =>
    rw [hspan] at ih
    exact hasMark_cons.mpr (.inr (ih hleft))
  | case4 => cases hleft
  | case5 c hc =>
    cases hleft
    exact absurd hd hc
  | case6 => cases hleft

/-! ## Runs -/

/-- The character is no blank, no mark of punctuation, no quote and in no name or number
of any script. -/
def IsSymbol (c : Char) : Prop :=
  c ∉ [' ', '\t', '\r', '\n', '\x0c', '(', ')', '{', '}', ',', ';', '"'] ∧
    ¬ Text.isAlphabetic c ∧ ¬ Text.isNumeric c

theorem punctuation?_isSome_iff {c : Char} : (punctuation? c).isSome ↔ c ∈ ['(', ')', '{', '}', ',', ';'] := by
  unfold punctuation?
  split <;> simp_all

theorem isSymbolChar_iff {c : Char} : isSymbolChar c ↔ IsSymbol c := by
  have hmarks : c ∉ [' ', '\t', '\r', '\n', '\x0c', '(', ')', '{', '}', ',', ';', '"'] ↔
      ¬ isBlank c ∧ ¬ (punctuation? c).isSome ∧ c ≠ '"' := by
    rw [isBlank_iff, punctuation?_isSome_iff]
    simp [and_assoc]
  rw [IsSymbol, hmarks]
  simp [isSymbolChar, and_assoc]

theorem isSymbol_of_all {run : List Char} (h : run.all isSymbolChar) : ∀ c ∈ run, IsSymbol c :=
  fun c hc => isSymbolChar_iff.mp (List.all_eq_true.mp h c hc)

structure SymbolRun (text run rest : List Char) : Prop where
  text_eq : text = run ++ rest
  all : ∀ c ∈ run, IsSymbol c
  longest : ∀ c, rest.head? = some c → ¬ IsSymbol c

def CutsClosing (run cut : List Char) : Prop := ∃ front after, cut = front ++ ['*'] ∧ run = cut ++ '/' :: after

namespace SymbolRun
variable {text run rest : List Char} (h : SymbolRun text run rest)
include h

theorem span : ∃ after, run = (symbolSpan text).1 ++ after ∧ (symbolSpan text).2 = after ++ rest := by
  have happend : (symbolSpan text).1 ++ (symbolSpan text).2 = run ++ rest :=
    (symbolSpan_append text).trans h.text_eq
  rcases List.append_eq_append_iff.mp happend with hshort | ⟨more, hspan, hrest⟩
  · exact hshort
  cases more with
  | nil => exact ⟨[], by simpa using hspan.symm, hrest.symm⟩
  | cons d more =>
    -- the character behind the run would be a symbol character
    have hmem : d ∈ (symbolSpan text).1 := by simp [hspan]
    have hd : isSymbolChar d := isSymbolChar_of_mem_symbolSpan hmem
    exact absurd (isSymbolChar_iff.mp hd) (h.longest d (by simp [hrest]))

theorem cut_eq {cut : List Char} (hcut : LongestUnmarked run cut) : cut = (symbolSpan text).1 := by
  obtain ⟨after, hrun, hleft⟩ := h.span
  refine hcut.unique ?_
  rw [hrun]
  refine longestUnmarked_append (not_hasMark_symbolSpan text) fun d hd => hasMark_of_left ?_ ?_
  · rw [hleft, head?_append hd]
  · exact isSymbolChar_iff.mpr (h.all d (by rw [hrun]; exact List.mem_append_right _ (List.mem_of_head? hd)))

end SymbolRun

/-! ## Steps -/

def reservedSymbols : List (String × TokenKind) :=
  [("->", .rightArrow), ("<-", .leftArrow), ("!", .bang), ("|", .pipe), (":", .colon)]

theorem symbolKind_eq_lookup (lexeme : List Char) :
    symbolKind lexeme = (reservedSymbols.lookup (String.ofList lexeme)).getD .symbolic := by
  unfold symbolKind
  split
  case h_6 hright hleft hbang hpipe hcolon =>
    have hne : ∀ symbol : String, lexeme ≠ symbol.toList → (String.ofList lexeme == symbol) = false := by
      intro symbol hsymbol
      refine beq_false_of_ne fun heq => hsymbol ?_
      rw [← heq, String.toList_ofList]
    simp only [reservedSymbols, List.lookup_cons, List.lookup_nil, hne "->" hright, hne "<-" hleft, hne "!" hbang,
      hne "|" hpipe, hne ":" hcolon]
    rfl
  all_goals rfl

def CommentAt (source : String) (before : List Token) (line : Nat) (text : List Char) : Prop :=
  (∃ comment rest, text = comment ++ rest ∧ IsComment comment ∧
    CutsTo source.toList before (line + newlines comment) rest) ∨
  (∀ comment rest, text = comment ++ rest → ¬ IsComment comment) ∧
    scan source = .error (.lex (line + newlines text) .unterminatedComment)

section
variable {source : String} {before : List Token} {line : Nat} {text : List Char}

theorem commentAt_of_cutsTo (h : CutsTo source.toList before line ('/' :: '*' :: text)) :
    CommentAt source before line ('/' :: '*' :: text) := by
  have hstep : step '/' ('*' :: text) = commentStep text := StepsTo.comment.eq
  unfold commentStep at hstep
  cases hend : commentEnd? text with
  | some found =>
    obtain ⟨body, rest⟩ := found
    rw [hend] at hstep
    refine .inl ⟨'/' :: '*' :: body, rest, ?_, ⟨body, rfl, endsAtMark_of_commentEnd? hend⟩, h.skip hstep⟩
    rw [← commentEnd?_append hend]
    rfl
  | none =>
    rw [hend] at hstep
    refine .inr ⟨?_, h.scan_error hstep⟩
    rintro comment rest htext ⟨body, rfl, hbody⟩
    obtain rfl : text = body ++ rest := by simpa using htext
    rw [commentEnd?_of_endsAtMark hbody] at hend
    cases hend

end

theorem step_of_symbol {c : Char} {cs : List Char} (hc : IsSymbol c) (hnumber : ¬ startsNumber (c :: cs))
    (hcomment : ¬ ['/', '*'] <+: c :: cs) : step c cs = symbolStep (c :: cs) := by
  have hsymbol : isSymbolChar c := isSymbolChar_iff.mpr hc
  have hkinds := hsymbol
  simp only [isSymbolChar, Bool.not_eq_true', Bool.or_eq_false_iff, decide_eq_false_iff_not] at hkinds
  obtain ⟨⟨⟨⟨hblank, hmark⟩, hquote⟩, -⟩, -⟩ := hkinds
  refine (StepsTo.symbol ⟨hblank, ?_, hquote, by simpa using hmark, by simpa using hnumber⟩ hsymbol).eq
  rintro ⟨rfl, hstar⟩
  exact hcomment (pair_prefix_cons.mpr ⟨rfl, hstar⟩)

namespace SymbolRun
variable {text run rest cut : List Char} (h : SymbolRun text run rest) (hcut : LongestUnmarked run cut)
include h hcut

theorem symbolStep_closing (hclosing : CutsClosing run cut) : symbolStep text = .fault .unopenedComment := by
  obtain ⟨after, hrun, hleft⟩ := h.span
  rw [← h.cut_eq hcut] at hrun
  obtain ⟨front, more, hfront, hmore⟩ := hclosing
  obtain rfl : after = '/' :: more := List.append_cancel_left (hrun.symm.trans hmore)
  refine if_pos ⟨?_, ?_⟩
  · rw [← h.cut_eq hcut, hfront, List.getLast?_concat]
  · rw [hleft]
    rfl

theorem symbolStep_cut (hclosing : ¬ CutsClosing run cut) : ∃ after, text = cut ++ after ∧
    symbolStep text = .token (symbolKind cut) none cut after := by
  obtain ⟨after, hrun, hleft⟩ := h.span
  rw [← h.cut_eq hcut] at hrun
  refine ⟨(symbolSpan text).2, by rw [h.cut_eq hcut, symbolSpan_append], ?_⟩
  rw [h.cut_eq hcut]
  refine if_neg ?_
  rintro ⟨hlast, hslash⟩
  refine hclosing ?_
  obtain ⟨front, hfront⟩ := List.getLast?_eq_some_iff.mp hlast
  rw [hleft] at hslash
  cases after with
  | nil =>
    -- a slash behind the run would be in it
    exact absurd (isSymbolChar_iff.mp (isSymbolChar_commentMark (by decide))) (h.longest '/' hslash)
  | cons d more =>
    cases hslash
    exact ⟨front, more, (h.cut_eq hcut).trans hfront, hrun⟩

theorem newlines_cut : newlines cut = 0 := by
  refine List.count_eq_zero.mpr fun hmem => ?_
  exact (h.all _ (hcut.start.subset hmem)).1 (by decide)

end SymbolRun

/-! ## Marks in tokens -/

section
variable {text lexeme rest : List Char} {kind : TokenKind} {literal : Option Literal}

theorem slash_not_mem_nameSpan (text : List Char) : '/' ∉ (nameSpan text).1 ++ (nameSpan text).2.1 := by
  have hslash : isNameChar '/' = false := by decide +kernel
  intro hmem
  rcases List.mem_append.mp hmem with hrun | hbang
  · have hname : isNameChar '/' := List.mem_takeWhile_imp hrun
    rw [hslash] at hname
    cases hname
  · rcases bangAfter_eq (text.dropWhile isNameChar) with hb | hb
    · rw [show (nameSpan text).2.1 = [] from hb] at hbang
      cases hbang
    · rw [show (nameSpan text).2.1 = ['!'] from hb] at hbang
      simp at hbang

theorem slash_not_mem_builtinStep (h : builtinStep text = .token kind literal lexeme rest) : '/' ∉ lexeme := by
  have hname := slash_not_mem_nameSpan text
  unfold builtinStep at h
  generalize nameSpan text = span at h hname
  obtain ⟨run, bang, after⟩ := span
  dsimp only at h hname
  split at h
  · split at h <;> cases h
    simpa using hname
  · cases h

theorem slash_not_mem_nameStep {c : Char} (hc : Text.isAlphabetic c)
    (h : nameStep c text = .token kind literal lexeme rest) : '/' ∉ lexeme := by
  have hslash : '/' ≠ c := by
    rintro rfl
    exact absurd hc (by decide +kernel)
  have hname := slash_not_mem_nameSpan text
  unfold nameStep at h
  generalize nameSpan text = span at h hname
  obtain ⟨run, bang, after⟩ := span
  simp only [List.mem_append, not_or] at hname
  dsimp only at h
  split at h
  · cases h
    simp [hslash, hname]
  split at h
  · cases h
    simp [hslash, hname]
  split at h <;> cases h
  simp [hslash, hname]

theorem slash_not_mem_numberStep (hstarts : startsNumber text)
    (h : numberStep text = .token kind literal lexeme rest) :
    '/' ∉ lexeme := by
  obtain ⟨negative, run, after, rfl, hrun⟩ := startsNumber_iff.mp hstarts
  have hslash : '/' ∉ signText negative ++ run := by
    intro hmem
    rcases List.mem_append.mp hmem with hsign | hdigit
    · cases negative <;> simp [signText] at hsign
    · exact absurd (hrun.all _ hdigit) (by decide)
  obtain hdots | hdots | hdots : run.count '.' = 0 ∨ run.count '.' = 1 ∨ 2 ≤ run.count '.' := by omega
  · cases (hrun.numberStep_integer negative hdots).symm.trans h
    exact hslash
  · obtain ⟨x, hx⟩ := hrun.ofText?_eq hdots negative
    cases (hrun.numberStep_float negative hdots hx).symm.trans h
    exact hslash
  · cases (hrun.numberStep_malformed negative hdots).symm.trans h

theorem not_hasMark_of_step {c : Char} (h : step c text = .token kind literal lexeme rest)
    (hkind : kind ≠ .string) :
    ¬ HasMark lexeme := by
  have hstep := stepsTo_step c text
  generalize step c text = s at h hstep
  cases hstep with
  | blank => cases h
  | comment =>
    unfold commentStep at h
    split at h <;> cases h
  | builtin => exact not_hasMark_of_slash (slash_not_mem_builtinStep h)
  | string =>
    unfold stringStep at h
    split at h <;> cases h
    exact absurd rfl hkind
  | mark hc =>
    cases h
    refine not_hasMark_of_slash fun hslash => ?_
    obtain rfl := List.mem_singleton.mp hslash
    cases hc
  | number hn => exact not_hasMark_of_slash (slash_not_mem_numberStep hn h)
  | name ho halpha => exact not_hasMark_of_slash (slash_not_mem_nameStep halpha h)
  | stray => cases h
  | symbol ho hc =>
    unfold symbolStep at h
    dsimp only at h
    split at h <;> cases h
    exact not_hasMark_symbolSpan _

theorem not_hasMark_of_scanFrom {line : Nat} {tokens : List Token} (h : scanFrom line text = .ok tokens) :
    ∀ t ∈ tokens, t.kind ≠ .string → ¬ HasMark t.lexeme.toList := by
  fun_induction scanFrom line text generalizing tokens with
  | case1 line =>
    cases h
    exact List.forall_mem_singleton.mpr fun _ => not_hasMark_nil
  | case2 line c cs piece rest hstep _ ih => exact ih h
  | case3 line c cs kind literal lexeme rest hstep _ ih =>
    cases hrest : scanFrom (line + newlines lexeme) rest with
    | error e =>
      rw [hrest] at h
      cases h
    | ok after =>
      rw [hrest] at h
      cases h
      refine List.forall_mem_cons.mpr ⟨fun hkind => ?_, ih hrest⟩
      rw [String.toList_ofList]
      exact not_hasMark_of_step hstep hkind
  | case4 => cases h

end

/-- **Symbols end where a comment mark would begin to close.** Wherever the scanner starts a
token at a symbol character and no number starts, take the run of symbol characters there
and the longest start of it without a comment mark. A run that starts with an opening mark
is a comment. If what follows the cut closes a comment with it, there is no comment to
close; otherwise the cut is one symbol. So only strings have comment marks in them. -/
theorem scan_symbols (source : String) :
    (∀ before line text run rest cut, CutsTo source.toList before line text →
      (∀ negative digits after, text = signText negative ++ (digits ++ after) → ¬ NumberRun digits after) →
      SymbolRun text run rest → run ≠ [] → LongestUnmarked run cut →
        (['/', '*'] <+: run → CommentAt source before line text) ∧
        (¬ ['/', '*'] <+: run → CutsClosing run cut → scan source = .error (.lex line .unopenedComment)) ∧
        (¬ ['/', '*'] <+: run → ¬ CutsClosing run cut → ∃ after, text = cut ++ after ∧
          Takes source before
            ⟨(reservedSymbols.lookup (String.ofList cut)).getD .symbolic, String.ofList cut, none, line⟩ after)) ∧
    ∀ tokens, scan source = .ok tokens → ∀ t ∈ tokens, t.kind ≠ .string → ¬ HasMark t.lexeme.toList := by
  refine ⟨?_, fun tokens h => not_hasMark_of_scanFrom h⟩
  intro before line text run rest cut hcuts hnone hrun hne hcut
  have hnumber : ¬ startsNumber text := fun h => by
    obtain ⟨negative, digits, after, htext, hdigits⟩ := startsNumber_iff.mp h
    exact hnone negative digits after htext hdigits
  obtain ⟨c, more, rfl⟩ := List.exists_cons_of_ne_nil hne
  have htext := hrun.text_eq
  rw [List.cons_append] at htext
  subst htext
  have hstep : ¬ ['/', '*'] <+: c :: more → step c (more ++ rest) = symbolStep (c :: (more ++ rest)) := by
    refine fun hopen => step_of_symbol (hrun.all c (by simp)) hnumber fun hmark => hopen ?_
    rw [pair_prefix_cons] at hmark ⊢
    refine ⟨hmark.1, ?_⟩
    cases more with
    | nil => exact absurd (isSymbolChar_iff.mp (isSymbolChar_commentMark (by decide))) (hrun.longest '*' hmark.2)
    | cons d more => exact hmark.2
  refine ⟨?_, fun hopen hclosing => ?_, fun hopen hclosing => ?_⟩
  · rintro ⟨after, hafter⟩
    rw [← List.cons_append, ← hafter] at hcuts ⊢
    exact commentAt_of_cutsTo hcuts
  · exact hcuts.scan_error ((hstep hopen).trans (hrun.symbolStep_closing hcut hclosing))
  · obtain ⟨after, htext, hsymbol⟩ := hrun.symbolStep_cut hcut hclosing
    rw [← symbolKind_eq_lookup]
    exact ⟨after, htext, hcuts.takes ((hstep hopen).trans hsymbol) (hrun.newlines_cut hcut)⟩

/-- A symbol before an opening mark on the second line, a closing mark without a comment, a
comment and an arrow. -/
theorem fourRuns_scan :
    (SymbolRun "/+/*a".toList "/+/*".toList ['a'] ∧ LongestUnmarked "/+/*".toList "/+/".toList ∧
      Takes "\n/+/*a" [] ⟨.symbolic, "/+/", none, 2⟩ "*a".toList) ∧
    (LongestUnmarked "**/".toList "**".toList ∧ CutsClosing "**/".toList "**".toList ∧
      scan "**/" = .error (.lex 1 .unopenedComment)) ∧
    (LongestUnmarked "/*+*/".toList "/".toList ∧ CommentAt "/*+*/" [] 1 "/*+*/".toList) ∧
    (LongestUnmarked "->".toList "->".toList ∧ Takes "->" [] ⟨.rightArrow, "->", none, 1⟩ []) := by
  have hline : CutsTo "\n/+/*a".toList [] 2 "/+/*a".toList := by
    have hstep : step '\n' "/+/*a".toList = .skip ['\n'] "/+/*a".toList := rfl
    exact .skip .start hstep
  have hnone : ∀ text, startsNumber text = false →
      ∀ negative digits after, text = signText negative ++ (digits ++ after) → ¬ NumberRun digits after :=
    fun text h negative digits after htext hrun =>
      absurd (startsNumber_iff.mpr ⟨negative, digits, after, htext, hrun⟩) (by simp [h])
  have hwhole : ∀ run : List Char, run.all isSymbolChar → SymbolRun run run [] := fun run hall =>
    ⟨run.append_nil.symm, isSymbol_of_all hall, by simp⟩
  have hletter : isSymbolChar 'a' = false := by decide +kernel
  have hfront : SymbolRun "/+/*a".toList "/+/*".toList ['a'] := by
    refine ⟨rfl, isSymbol_of_all (by decide +kernel), ?_⟩
    rintro c ⟨⟩
    rw [← isSymbolChar_iff, hletter]
    exact Bool.false_ne_true
  have hbefore : ∀ cut d after, ¬ HasMark cut → HasMark (cut ++ [d]) → LongestUnmarked (cut ++ d :: after) cut := by
    refine fun cut d after hcut hd => longestUnmarked_append hcut ?_
    rintro _ ⟨⟩
    exact hd
  have hslash : LongestUnmarked "/+/*".toList "/+/".toList := hbefore ['/', '+', '/'] '*' [] (by decide) (by decide)
  have hstars : LongestUnmarked "**/".toList "**".toList := hbefore ['*', '*'] '/' [] (by decide) (by decide)
  have hopen : LongestUnmarked "/*+*/".toList "/".toList :=
    hbefore ['/'] '*' ['+', '*', '/'] (by decide) (by decide)
  have harrow : LongestUnmarked ("->".toList ++ []) "->".toList := longestUnmarked_append (by decide) (by simp)
  have hclosing : CutsClosing "**/".toList "**".toList := ⟨['*'], [], rfl, rfl⟩
  have hnotClosing : ∀ run cut : List Char, cut.getLast? ≠ some '*' → ¬ CutsClosing run cut := by
    rintro run cut hlast ⟨front, after, rfl, -⟩
    exact hlast List.getLast?_concat
  refine ⟨⟨hfront, hslash, ?_⟩, ⟨hstars, hclosing, ?_⟩, ⟨hopen, ?_⟩, harrow, ?_⟩
  · obtain ⟨after, htext, htakes⟩ := ((scan_symbols "\n/+/*a").1 [] 2 _ _ _ _ hline (hnone _ rfl) hfront (by simp)
      hslash).2.2 (by decide) (hnotClosing _ _ (by decide))
    obtain rfl : after = "*a".toList := by simpa using htext.symm
    exact htakes
  · exact ((scan_symbols "**/").1 [] 1 _ _ _ _ .start (hnone _ rfl) (hwhole _ (by decide +kernel)) (by simp)
      hstars).2.1 (by decide) hclosing
  · exact ((scan_symbols "/*+*/").1 [] 1 _ _ _ _ .start (hnone _ rfl) (hwhole _ (by decide +kernel)) (by simp)
      hopen).1 (by decide)
  · obtain ⟨after, htext, htakes⟩ := ((scan_symbols "->").1 [] 1 _ _ _ _ .start (hnone _ rfl)
      (hwhole _ (by decide +kernel)) (by simp) harrow).2.2 (by decide) (hnotClosing _ _ (by decide))
    obtain rfl : after = [] := by simpa using htext
    exact htakes

end CurriedScript
