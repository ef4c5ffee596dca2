import CurriedScript.Binary64.Shortest
import CurriedScript.Proofs.Lexemes
import Mathlib.Data.Nat.Digits.Defs

/-!
# Numbers in a text

`scan_numbers`: wherever a token starts, a sign and all the digits and points that follow it
are one number or an error. A sign or a point with no such number behind it is a symbol.
-/

namespace CurriedScript

open Binary64 (signText)

/-! ## Runs of digits and points -/

/-- The longest run of digits and points at the start of a text, where it makes a number. -/
structure NumberRun (run rest : List Char) : Prop where
  all : ∀ c ∈ run, c.isDigit ∨ c = '.'
  longest : ∀ c ∈ rest.head?, ¬ (c.isDigit ∨ c = '.')
  starts : (∃ c after, run = c :: after ∧ c.isDigit) ∨ ∃ c after, run = '.' :: c :: after ∧ c.isDigit

theorem isNumberChar_iff {c : Char} : isNumberChar c ↔ c.isDigit ∨ c = '.' := by simp [isNumberChar]

theorem isNumberChar_of_isDigit {c : Char} (h : c.isDigit) : isNumberChar c := isNumberChar_iff.mpr (.inl h)

theorem isDigit_ne_dot {c : Char} (h : c.isDigit) : c ≠ '.' := by
  rintro rfl
  cases h

theorem count_dot_eq_zero {text : List Char} (h : ∀ c ∈ text, c.isDigit) : text.count '.' = 0 :=
  List.count_eq_zero.mpr fun hdot => isDigit_ne_dot (h '.' hdot) rfl

namespace NumberRun
variable {run rest : List Char} (h : NumberRun run rest)
include h

theorem takeWhile_eq : (run ++ rest).takeWhile isNumberChar = run := by
  rw [List.takeWhile_append_of_pos fun c hc => isNumberChar_iff.mpr (h.all c hc)]
  cases rest with
  | nil => simp
  | cons x rest =>
    have hx : ¬ isNumberChar x := fun hx => h.longest x rfl (isNumberChar_iff.mp hx)
    rw [List.takeWhile_cons_of_neg hx, List.append_nil]

theorem dropWhile_eq : (run ++ rest).dropWhile isNumberChar = rest := by
  rw [List.dropWhile_append_of_pos fun c hc => isNumberChar_iff.mpr (h.all c hc)]
  cases rest with
  | nil => rfl
  | cons x rest =>
    have hx : ¬ isNumberChar x := fun hx => h.longest x rfl (isNumberChar_iff.mp hx)
    exact List.dropWhile_cons_of_neg hx

theorem startsMagnitude_append : startsMagnitude (run ++ rest) := by
  obtain ⟨c, after, rfl, hc⟩ | ⟨c, after, rfl, hc⟩ := h.starts
  · exact startsMagnitude_cons hc _
  · simpa [startsMagnitude] using hc

theorem numberSign_signed (negative : Bool) :
    numberSign (signText negative ++ (run ++ rest)) = (signText negative, run ++ rest) := by
  cases negative with
  | true => rfl
  | false =>
    refine numberSign_of_head ?_
    obtain ⟨c, after, rfl, hc⟩ | ⟨c, after, rfl, hc⟩ := h.starts
    · rintro ⟨⟩
      cases hc
    · simp [signText]

theorem startsNumber_signed (negative : Bool) : startsNumber (signText negative ++ (run ++ rest)) := by
  rw [startsNumber, h.numberSign_signed]
  exact h.startsMagnitude_append

theorem exists_isDigit : ∃ c ∈ run, c.isDigit := by
  obtain ⟨c, after, rfl, hc⟩ | ⟨c, after, rfl, hc⟩ := h.starts
  · exact ⟨c, by simp, hc⟩
  · exact ⟨c, by simp, hc⟩

end NumberRun

theorem numberRun_of_isDigit {c : Char} {text : List Char} (hc : c.isDigit) (h : ∀ d ∈ c :: text, isNumberChar d) :
    NumberRun (c :: text) [] where
  all d hd := isNumberChar_iff.mp (h d hd)
  longest := by simp
  starts := .inl ⟨c, text, rfl, hc⟩

theorem numberRun_of_startsMagnitude {text : List Char} (h : startsMagnitude text) :
    NumberRun (text.takeWhile isNumberChar) (text.dropWhile isNumberChar) where
  all _ hc := isNumberChar_iff.mp (List.mem_takeWhile_imp hc)
  longest c hc hnumber := by
    have hnot := List.head?_dropWhile_not isNumberChar text
    rw [hc] at hnot
    simp [isNumberChar_iff.mpr hnumber] at hnot
  starts := by
    unfold startsMagnitude at h
    split at h
    · next c after => exact .inr ⟨c, after.takeWhile isNumberChar, by simp [isNumberChar, h], h⟩
    · next c after _ =>
      exact .inl ⟨c, after.takeWhile isNumberChar, List.takeWhile_cons_of_pos (isNumberChar_of_isDigit h), h⟩
    · cases h

theorem signText_of_numberSign (text : List Char) :
    ∃ negative, text = signText negative ++ (numberSign text).2 := by
  unfold numberSign
  split
  · exact ⟨true, rfl⟩
  · exact ⟨false, rfl⟩

/-- A text starts with a number if and only if it starts with a sign and a run, or a run alone. -/
theorem startsNumber_iff {text : List Char} : startsNumber text ↔
    ∃ negative run rest, text = signText negative ++ (run ++ rest) ∧ NumberRun run rest := by
  constructor
  · intro h
    obtain ⟨negative, htext⟩ := signText_of_numberSign text
    exact ⟨negative, _, _, by rw [List.takeWhile_append_dropWhile, ← htext], numberRun_of_startsMagnitude h⟩
  · rintro ⟨negative, run, rest, rfl, h⟩
    exact h.startsNumber_signed negative

/-! ## Whole numbers -/

def decimalValue (digits : List Char) : Nat :=
  Nat.ofDigits 10 (digits.map fun c => c.toNat - '0'.toNat).reverse

def signedValue (negative : Bool) (digits : List Char) : Int :=
  if negative then -decimalValue digits else decimalValue digits

theorem ofDigitChars_eq (digits : List Char) : Nat.ofDigitChars 10 digits 0 = decimalValue digits := by
  unfold decimalValue
  rw [Nat.ofDigitChars_eq_foldl, Nat.ofDigits_eq_foldr, List.foldr_reverse, List.foldl_map]
  congr 1
  funext sofar c
  exact Nat.add_comm _ _

theorem integerOf_signText (negative : Bool) (digits : List Char) :
    integerOf (signText negative) digits = signedValue negative digits := by
  unfold integerOf
  rw [ofDigitChars_eq]
  cases negative <;> rfl

theorem decimalValue_toDigits (n : Nat) : decimalValue (Nat.toDigits 10 n) = n := by
  rw [← ofDigitChars_eq, Nat.ofDigitChars_ten_toDigits]

theorem signedValue_toDigits (n : Int) : signedValue (n < 0) (Nat.toDigits 10 n.natAbs) = n := by
  unfold signedValue
  rw [decimalValue_toDigits]
  by_cases hn : n < 0
  · rw [if_pos (by simpa using hn)]
    omega
  · rw [if_neg (by simpa using hn)]
    omega

/-! ## Decimals -/

theorem toLower_of_isNumberChar {c : Char} (h : isNumberChar c) : c.toLower = c := by
  have hle : c.val ≤ '9'.val := by
    rcases isNumberChar_iff.mp h with hdigit | rfl
    · simp only [Char.isDigit, Bool.and_eq_true, decide_eq_true_eq] at hdigit
      exact hdigit.2
    · decide
  unfold Char.toLower
  exact dif_neg fun hupper => absurd (UInt32.le_trans hupper.1 hle) (by decide)

namespace Binary64

/-- Digits with a point among or around them. -/
theorem unsigned?_decimal (negative : Bool) {whole fraction : List Char} (hwhole : ∀ c ∈ whole, c.isDigit)
    (hfraction : ∀ c ∈ fraction, c.isDigit) (hne : whole ++ fraction ≠ []) :
    unsigned? negative (whole ++ '.' :: fraction) =
      some (ofDecimal negative (Nat.ofDigitChars 10 (whole ++ fraction) 0) (0 - fraction.length)) := by
  have hspan : spanDigits (whole ++ '.' :: fraction) = (whole, '.' :: fraction) := by
    unfold spanDigits
    rw [List.takeWhile_append_of_pos hwhole, List.dropWhile_append_of_pos hwhole]
    simp
  have hall : spanDigits fraction = (fraction, []) := by
    unfold spanDigits
    rw [List.takeWhile_eq_self_iff.mpr hfraction, List.dropWhile_eq_nil_iff.mpr hfraction]
  have hempty : (whole.isEmpty && fraction.isEmpty) = false := by
    cases whole <;> cases fraction <;> simp_all
  simp only [unsigned?, hspan, hall, hempty, exponent?]
  rfl

/-- Neither an infinity nor a NaN starts with a digit or a point. -/
theorem magnitude?_of_isNumberChar (negative : Bool) {c : Char} (hc : isNumberChar c) (text : List Char) :
    magnitude? negative (c :: text) = unsigned? negative (c :: text) := by
  have hne : ∀ {d : Char} {more : List Char}, (c :: text).map Char.toLower = d :: more → isNumberChar d := by
    intro d more h
    rw [List.map_cons, toLower_of_isNumberChar hc] at h
    cases h
    exact hc
  unfold magnitude?
  split
  · next h => exact absurd (hne h) (by decide)
  · next h => exact absurd (hne h) (by decide)
  · next h => exact absurd (hne h) (by decide)
  · rfl

theorem ofText?_of_isNumberChar (negative : Bool) {c : Char} (hc : isNumberChar c) (text : List Char) :
    ofText? (signText negative ++ c :: text) = unsigned? negative (c :: text) := by
  cases negative with
  | true => exact magnitude?_of_isNumberChar true hc text
  | false =>
    have hminus : c ≠ '-' := by rintro rfl; cases hc
    have hplus : c ≠ '+' := by rintro rfl; cases hc
    rw [← magnitude?_of_isNumberChar false hc]
    simp [signText, ofText?, hminus, hplus]

end Binary64

/-- A run with one point is the decimal form of a number. -/
theorem NumberRun.ofText?_eq {run rest : List Char} (h : NumberRun run rest) (hdots : run.count '.' = 1)
    (negative : Bool) : ∃ x, Binary64.ofText? (signText negative ++ run) = some x := by
  have hdot : '.' ∈ run := List.count_pos_iff.mp (by omega)
  obtain ⟨whole, fraction, hrun, hwhole⟩ := List.eq_append_cons_of_mem hdot
  have hfraction : '.' ∉ fraction := by
    rw [hrun, List.count_append, List.count_cons_self, List.count_eq_zero.mpr hwhole] at hdots
    exact List.count_eq_zero.mp (by omega)
  have hdigits : ∀ part : List Char, (∀ c ∈ part, c ∈ run) → '.' ∉ part → ∀ c ∈ part, c.isDigit := by
    intro part hpart hno c hc
    refine (h.all c (hpart c hc)).resolve_right ?_
    rintro rfl
    exact hno hc
  have hne : whole ++ fraction ≠ [] := by
    obtain ⟨c, hc, hdigit⟩ := h.exists_isDigit
    have hcdot := isDigit_ne_dot hdigit
    rintro hnil
    simp_all
  obtain ⟨first, more, hcons⟩ := List.exists_cons_of_ne_nil (List.ne_nil_of_mem hdot)
  rw [hcons, Binary64.ofText?_of_isNumberChar negative (isNumberChar_iff.mpr (h.all first (by simp [hcons]))),
    ← hcons,
    hrun]
  exact ⟨_, Binary64.unsigned?_decimal negative (hdigits whole (by simp +contextual [hrun]) hwhole)
    (hdigits fraction (by simp +contextual [hrun]) hfraction) hne⟩

/-! ## Steps -/

namespace NumberRun
variable {run rest : List Char} (h : NumberRun run rest) (negative : Bool)
include h

theorem step_eq : ∃ c cs, signText negative ++ (run ++ rest) = c :: cs ∧
    step c cs = numberStep (signText negative ++ (run ++ rest)) := by
  have hstarts := h.startsNumber_signed negative
  cases htext : signText negative ++ (run ++ rest) with
  | nil => rw [htext] at hstarts; cases hstarts
  | cons c cs =>
    rw [htext] at hstarts
    exact ⟨c, cs, rfl, (StepsTo.number hstarts).eq⟩

theorem newlines_signed : newlines (signText negative ++ run) = 0 := by
  refine List.count_eq_zero.mpr fun hmem => ?_
  rcases List.mem_append.mp hmem with hsign | hnewline
  · cases negative <;> simp [signText] at hsign
  · exact absurd (h.all _ hnewline) (by decide)

theorem numberStep_integer (hdots : run.count '.' = 0) : numberStep (signText negative ++ (run ++ rest)) =
    .token .integer (some (.integer (signedValue negative run))) (signText negative ++ run) rest := by
  simp only [numberStep, h.numberSign_signed, h.takeWhile_eq, h.dropWhile_eq, hdots, integerOf_signText]

theorem numberStep_float (hdots : run.count '.' = 1) {x : Binary64}
    (hread : Binary64.ofText? (signText negative ++ run) = some x) :
    numberStep (signText negative ++ (run ++ rest)) =
      .token .float (some (.float x)) (signText negative ++ run) rest := by
  simp only [numberStep, h.numberSign_signed, h.takeWhile_eq, h.dropWhile_eq, hdots, hread]

theorem numberStep_malformed (hdots : 2 ≤ run.count '.') :
    numberStep (signText negative ++ (run ++ rest)) = .fault .malformedNumber := by
  obtain ⟨more, hmore⟩ := Nat.exists_eq_add_of_le' hdots
  simp only [numberStep, h.numberSign_signed, h.takeWhile_eq, hmore]

end NumberRun

theorem isToken_of_number {kind : TokenKind} {literal : Option Literal} {text : List Char} (h : startsNumber text)
    (htext : numberStep text = .token kind literal text []) : IsToken kind literal text := by
  cases text with
  | nil => cases h
  | cons c text => exact (StepsTo.number h).eq.trans htext

theorem repr_toList (n : Int) : n.repr.toList = signText (n < 0) ++ Nat.toDigits 10 n.natAbs := by
  cases n with
  | ofNat m => exact Nat.toList_repr
  | negSucc m =>
    show ("-" ++ Nat.repr (m + 1)).toList = _
    rw [String.toList_append, Nat.toList_repr]
    simp [signText, Int.negSucc_lt_zero]

theorem numberRun_toDigits (n : Nat) : NumberRun (Nat.toDigits 10 n) [] := by
  have hall : ∀ c ∈ Nat.toDigits 10 n, c.isDigit := fun c => Nat.isDigit_of_mem_toDigits (by simp) (by simp)
  cases hdigits : Nat.toDigits 10 n with
  | nil => exact absurd hdigits Nat.toDigits_ne_nil
  | cons c digits =>
    rw [hdigits] at hall
    exact numberRun_of_isDigit (hall c (by simp)) fun d hd => isNumberChar_of_isDigit (hall d hd)

theorem integer_isToken (n : Int) : IsToken .integer (some (.integer n)) n.repr.toList := by
  have hrun := numberRun_toDigits n.natAbs
  have hdots : (Nat.toDigits 10 n.natAbs).count '.' = 0 :=
    count_dot_eq_zero fun c => Nat.isDigit_of_mem_toDigits (by simp) (by simp)
  have hstep := hrun.numberStep_integer (n < 0) hdots
  have hstarts := hrun.startsNumber_signed (n < 0)
  rw [List.append_nil] at hstep hstarts
  rw [repr_toList]
  refine isToken_of_number hstarts ?_
  rw [hstep, signedValue_toDigits]

theorem isSymbolChar_of_mem_symbolSpan {text : List Char} {c : Char} (h : c ∈ (symbolSpan text).1) :
    isSymbolChar c := by
  fun_induction symbolSpan text with
  | case1 | case5 | case6 => simp at h
  | case2 | case4 => simp_all
  | case3 d e rest hd _ run rest' hspan ih =>
    rw [hspan] at ih
    rcases List.mem_cons.mp h with rfl | h
    · simpa using hd
    · exact ih h

/-- A symbol is on one line and has a kind of its own, unless it ends in a comment mark. -/
theorem symbolStep_cases (text : List Char) :
    (∃ kind ∈ symbolKinds, ∃ lexeme rest, symbolStep text = .token kind none lexeme rest ∧
      text = lexeme ++ rest ∧ newlines lexeme = 0) ∨ symbolStep text = .fault .unopenedComment := by
  by_cases hmark : (symbolSpan text).1.getLast? = some '*' ∧ (symbolSpan text).2.head? = some '/'
  · exact .inr (if_pos hmark)
  · refine .inl ⟨_, symbolKind_mem _, _, _, if_neg hmark, (symbolSpan_append text).symm, ?_⟩
    exact List.count_eq_zero.mpr fun hmem => absurd (isSymbolChar_of_mem_symbolSpan hmem) (by decide)

/-- A sign or a point that starts no number starts a symbol. -/
theorem step_of_no_number {c : Char} {cs : List Char} (hc : c = '-' ∨ c = '.') (h : ¬ startsNumber (c :: cs)) :
    step c cs = symbolStep (c :: cs) := by
  have hnumber : startsNumber (c :: cs) = false := by simpa using h
  rcases hc with rfl | rfl
  · exact (StepsTo.symbol ⟨rfl, by simp, by decide, rfl, hnumber⟩ (by decide)).eq
  · exact (StepsTo.symbol ⟨rfl, by simp, by decide, rfl, hnumber⟩ (by decide)).eq

/-! ## Positions in a source -/

variable {source : String} {before : List Token} {line : Nat}

def Takes (source : String) (before : List Token) (next : Token) (rest : List Char) : Prop :=
  CutsTo source.toList (before ++ [next]) next.line rest ∧
    scan source = (scanFrom next.line rest).map (before ++ next :: ·)

theorem CutsTo.takes {c : Char} {cs lexeme rest : List Char} {kind : TokenKind} {literal : Option Literal}
    (h : CutsTo source.toList before line (c :: cs)) (hstep : step c cs = .token kind literal lexeme rest)
    (hline : newlines lexeme = 0) : Takes source before ⟨kind, String.ofList lexeme, literal, line⟩ rest := by
  have hnext := h.token hstep
  rw [hline, Nat.add_zero] at hnext
  refine ⟨hnext, ?_⟩
  rw [hnext.scan_eq]
  simp only [List.append_assoc, List.singleton_append]

theorem scan_repr (n : Int) : scan n.repr = .ok [⟨.integer, n.repr, some (.integer n), 1⟩, .eof 1] := by
  have htoken := integer_isToken n
  have hline : newlines n.repr.toList = 0 := by
    rw [repr_toList]
    exact (numberRun_toDigits n.natAbs).newlines_signed (n < 0)
  rw [scan]
  cases htext : n.repr.toList with
  | nil => rw [htext] at htoken; cases htoken
  | cons c cs =>
    rw [htext] at htoken hline
    rw [scanFrom_token htoken, hline, ← htext, String.ofList_toList, scanFrom]
    rfl

/-- **Numbers are never split.** Wherever the scanner starts a token, a sign and the run of
digits and points behind it are taken at once: without a point as the whole number they
spell, with one point as the float they are read as; two points are an error. A sign or a
point that starts no such run is a symbol or part of an unopened comment. The decimal form
of a whole number is the one token of that number. -/
theorem scan_numbers (source : String) :
    (∀ before line text, CutsTo source.toList before line text →
      (∀ negative run rest, text = signText negative ++ (run ++ rest) → NumberRun run rest →
        let lexeme := String.ofList (signText negative ++ run)
        (run.count '.' = 0 →
          Takes source before ⟨.integer, lexeme, some (.integer (signedValue negative run)), line⟩ rest) ∧
        (run.count '.' = 1 → ∃ x, Binary64.ofText? lexeme.toList = some x ∧
          Takes source before ⟨.float, lexeme, some (.float x), line⟩ rest) ∧
        (2 ≤ run.count '.' → scan source = .error (.lex line .malformedNumber))) ∧
      (text.head? = some '-' ∨ text.head? = some '.' →
        (∀ negative run rest, text = signText negative ++ (run ++ rest) → ¬ NumberRun run rest) →
        (∃ kind ∈ symbolKinds, ∃ lexeme rest, text = lexeme ++ rest ∧
          Takes source before ⟨kind, String.ofList lexeme, none, line⟩ rest) ∨
        scan source = .error (.lex line .unopenedComment))) ∧
    ∀ n : Int, scan n.repr = .ok [⟨.integer, n.repr, some (.integer n), 1⟩, .eof 1] := by
  refine ⟨fun before line text hcut => ⟨?_, fun hhead hnone => ?_⟩, scan_repr⟩
  · rintro negative run rest rfl hrun lexeme
    obtain ⟨c, cs, htext, hstep⟩ := hrun.step_eq negative
    have hline := hrun.newlines_signed negative
    rw [htext] at hcut
    refine ⟨fun hdots => ?_, fun hdots => ?_, fun hdots => ?_⟩
    · exact hcut.takes (hstep.trans (hrun.numberStep_integer negative hdots)) hline
    · obtain ⟨x, hx⟩ := hrun.ofText?_eq hdots negative
      refine ⟨x, by rwa [String.toList_ofList], ?_⟩
      exact hcut.takes (hstep.trans (hrun.numberStep_float negative hdots hx)) hline
    · exact hcut.scan_error (hstep.trans (hrun.numberStep_malformed negative hdots))
  · have hstarts : ¬ startsNumber text := fun h => by
      obtain ⟨negative, run, rest, htext, hrun⟩ := startsNumber_iff.mp h
      exact hnone negative run rest htext hrun
    obtain ⟨c, cs, rfl, hc⟩ : ∃ c cs, text = c :: cs ∧ (c = '-' ∨ c = '.') := by
      cases text with
      | nil => simp at hhead
      | cons c cs => exact ⟨c, cs, rfl, by simpa using hhead⟩
    have hstep := step_of_no_number hc hstarts
    rcases symbolStep_cases (c :: cs) with ⟨kind, hkind, lexeme, rest, hsymbol, htext, hline⟩ | hfault
    · exact .inl ⟨kind, hkind, lexeme, rest, htext, hcut.takes (hstep.trans hsymbol) hline⟩
    · exact .inr (hcut.scan_error (hstep.trans hfault))

/-- A negative number with zeros in front on the second line, a float before a symbol, two
points, and a sign and a point without a digit. -/
theorem fourTexts_scan :
    (CutsTo "\n-007+".toList [] 2 "-007+".toList ∧ NumberRun ['0', '0', '7'] ['+'] ∧
      Takes "\n-007+" [] ⟨.integer, "-007", some (.integer (-7)), 2⟩ ['+']) ∧
    (NumberRun ['.', '5'] [] ∧ ∃ x, Binary64.ofText? ['-', '.', '5'] = some x ∧
      Takes "-.5" [] ⟨.float, "-.5", some (.float x), 1⟩ []) ∧
    (NumberRun ['1', '.', '2', '.'] [] ∧ scan "1.2." = .error (.lex 1 .malformedNumber)) ∧
    (∀ negative run rest, ['-', '.'] = signText negative ++ (run ++ rest) → ¬ NumberRun run rest) ∧
    ((∃ kind ∈ symbolKinds, ∃ lexeme rest, ['-', '.'] = lexeme ++ rest ∧
      Takes "-." [] ⟨kind, String.ofList lexeme, none, 1⟩ rest) ∨
        scan "-." = .error (.lex 1 .unopenedComment)) := by
  have hline : CutsTo "\n-007+".toList [] 2 "-007+".toList := by
    have hstep : step '\n' "-007+".toList = .skip ['\n'] "-007+".toList := rfl
    exact .skip .start hstep
  have hseven : NumberRun ['0', '0', '7'] ['+'] := ⟨by simp, by simp, .inl ⟨'0', _, rfl, by decide⟩⟩
  have hhalf : NumberRun ['.', '5'] [] := ⟨by simp, by simp, .inr ⟨'5', _, rfl, by decide⟩⟩
  have htwo : NumberRun ['1', '.', '2', '.'] [] := ⟨by simp, by simp, .inl ⟨'1', _, rfl, by decide⟩⟩
  have hnone : ∀ negative run rest, ['-', '.'] = signText negative ++ (run ++ rest) → ¬ NumberRun run rest :=
    fun negative run rest htext hrun => absurd (startsNumber_iff.mpr ⟨negative, run, rest, htext, hrun⟩) (by decide)
  refine ⟨⟨hline, hseven, ?_⟩, ⟨hhalf, ?_⟩, ⟨htwo, ?_⟩, hnone, ?_⟩
  · exact (((scan_numbers "\n-007+").1 [] 2 _ hline).1 true _ _ rfl hseven).1 rfl
  · exact (((scan_numbers "-.5").1 [] 1 _ .start).1 true _ _ rfl hhalf).2.1 rfl
  · exact (((scan_numbers "1.2.").1 [] 1 _ .start).1 false _ _ rfl htwo).2.2 (by decide)
  · exact ((scan_numbers "-.").1 [] 1 _ .start).2 (.inl rfl) hnone

end CurriedScript
