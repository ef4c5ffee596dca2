import CurriedScript.Proofs.Lines
import CurriedScript.Proofs.RoundTrip
import CurriedScript.Proofs.Stopped

/-!
# Operator sections

`a op b` is a chain, `(op) a b` is an application of a name, and the two go
different ways through the parser and the evaluator. `operatorSection_sameEnd`:
they end alike, and `(op)` alone is what the operator is bound to, unless the
operator ends in `!`. The parser takes such a section for a call with an effect.
-/

namespace CurriedScript

open CurriedScript.Parser Grammar Run

/-! ## Elements further down -/

theorem element?_ended (ts : List Token) (x : Expr) (eof : Token) (heof : eof.kind = .eof) :
    plain? (element? (ts ++ [eof])) = .ok (some (x, [eof])) ↔ IsElement ts x := by
  constructor
  · intro h
    obtain ⟨us, hus, hx, _⟩ := element_sound (fun us _ => sound us) h
    rwa [List.append_cancel_right hus]
  · intro h
    exact h.complete [eof] (by simp [headKind, heof]) fun _ => by simp [headKind, heof]

theorem Token.down_inj {k : Nat} {t u : Token} (h : t.down k = u.down k) : t = u := by
  simp only [Token.down, Token.mk.injEq] at h
  obtain ⟨hkind, hlexeme, hliteral, hline⟩ := h
  cases t
  cases u
  simp_all

/-- Whether tokens are an element does not depend on the line. -/
theorem isElement_down (k : Nat) (ts : List Token) (x : Expr) :
    IsElement (ts.map (Token.down k)) x ↔ IsElement ts x := by
  have hended : Ended (ts ++ [Token.eof 0]) := ⟨Token.eof 0, by simp, rfl⟩
  have hmoved := element?_moved (k := k) (ts ++ [Token.eof 0]) hended
  rw [List.map_append, List.map_singleton] at hmoved
  rw [← element?_ended _ _ ((Token.eof 0).down k) rfl, ← element?_ended _ _ (Token.eof 0) rfl]
  generalize plain? (element? (ts ++ [Token.eof 0])) = m at hmoved ⊢
  generalize plain? (element? (ts.map (Token.down k) ++ [(Token.eof 0).down k])) = m' at hmoved ⊢
  cases hmoved with
  | nothing => simp
  | error e => simp
  | @found first rest hrest =>
    simp only [Except.ok.injEq, Option.some.injEq, Prod.mk.injEq]
    refine and_congr_right fun _ => ⟨fun h => ?_, fun h => by rw [h]; rfl⟩
    obtain ⟨t, rfl, ht⟩ := List.map_eq_singleton_iff.mp h
    rw [Token.down_inj ht]

/-! ## Operands -/

/-- By itself the text is an element that heads no call with an effect: a literal, a
name, anything in parentheses and more. -/
structure IsOperand (text : String) (x : Expr) : Prop where
  element : ∃ ts eof, scan text = .ok (ts ++ [eof]) ∧ IsElement ts x
  plain : ¬ IsBangName x

theorem IsOperand.spells {text : String} {x : Expr} (h : IsOperand text x) {c : Char} (hc : Separates c)
    (more : List Char) : Spells text.toList (c :: more) (IsElement · x) := by
  obtain ⟨ts, eof, hscan, hts⟩ := h.element
  intro line
  have hdown := scanFrom_down 1 0 text.toList
  have hline := scanFrom_down line 0 text.toList
  unfold scan at hscan
  rw [Nat.zero_add] at hdown hline
  rw [hscan] at hdown
  cases hzero : scanFrom 0 text.toList with
  | error e => rw [hzero] at hdown; cases hdown
  | ok us =>
    rw [hzero] at hdown hline
    dsimp only at hdown hline
    obtain ⟨before, hbefore, _, hmore⟩ := scanFrom_more hline
    refine ⟨before, hmore c more hc, ?_⟩
    -- the same tokens, once seen from the first line and once from this one
    obtain ⟨first, last, rfl, hfirst, hlast⟩ := List.map_eq_append_iff.mp (Except.ok.inj hdown).symm
    obtain ⟨end₀, rfl, -⟩ := List.map_eq_singleton_iff.mp hlast
    rw [List.map_append, List.map_singleton] at hbefore
    rw [← (List.append_inj' hbefore rfl).1, isElement_down]
    rwa [← hfirst, isElement_down] at hts

/-- Anything in parentheses is an operand, calls with an effect included. -/
theorem isOperand_group {text : String} {opening closing eof : Token} {ts : List Token} {x : Expr}
    (hscan : scan text = .ok (opening :: ts ++ [closing] ++ [eof])) (hopening : opening.kind = .openParen)
    (h : IsChain ts x) (hclosing : closing.kind = .closeParen) : IsOperand text x :=
  ⟨⟨_, eof, hscan, .plain (.group hopening h hclosing)⟩, h.not_isBangName⟩

/-! ## Texts -/

def operation (op a b : String) : String := a ++ " " ++ op ++ " " ++ b ++ ";"

def spaced : List String → String
  | [] => ""
  | text :: rest => " " ++ text ++ spaced rest

def sectionCall (op : String) (operands : List String) : String := "(" ++ op ++ ")" ++ spaced operands ++ ";"

/-- A text that is cut into the tokens of a program is that program. -/
theorem parseSource_of_spells {text : String} {program : List Statement}
    (h : Spells text.toList [] (IsStatements · program)) : parseSource text = .ok program := by
  obtain ⟨ts, hscans, hts⟩ := h 1
  unfold Scans at hscans
  rw [List.append_nil, scanFrom_nil] at hscans
  have hread : ∀ line, plain (statements (fun _ => false) (ts ++ [.eof line])) = .ok (program, [.eof line]) :=
    fun line => hts.complete _ _ (by simp) fun k hk => .inl (Option.some.inj hk).symm
  exact bind_eq_ok.mpr ⟨_, hscans, parse_eq_ok.mpr ⟨_, hread _⟩⟩

theorem parseSource_expr {text : String} {x : Expr}
    (h : ∀ more, Spells text.toList (';' :: more) (IsChain · x)) : parseSource (text ++ ";") = .ok [.expr x] := by
  refine parseSource_of_spells ?_
  rw [String.toList_append]
  refine ((h []).append (spells_mark (c := ';') rfl (by decide) [])).mono fun _ hcut => ?_
  obtain ⟨ts, hts, _, ⟨stop, hstop, rfl⟩, rfl⟩ := hcut
  rw [← List.append_nil (ts ++ [stop])]
  exact .cons (.expr hts hstop) .nil

theorem isApplication_applied {ts : List Token} {x : Expr} {others : List Expr} (h : IsElements ts (x :: others)) :
    IsApplication ts (applied x others) := by
  by_cases hx : IsBangName x
  · rw [applied_of_bang hx]
    exact .bangCall h hx
  · rw [applied_of_not_bang hx]
    cases others with
    | nil => exact .alone h hx
    | cons y others => exact .call h hx

section
variable {op : String} (hop : IsLexeme .symbolic op)
include hop

theorem parseSource_operation {a b : String} {x y : Expr} (ha : IsOperand a x) (hb : IsOperand b y) :
    parseSource (operation op a b) = .ok [.expr (Form.chain x op y).bare] := by
  obtain ⟨literal, hop⟩ := hop
  refine parseSource_expr fun more => ?_
  have hb' := hb.spells (separates_mark (c := ';') (by decide)) more
  have hop' := (Spells.symbol hop separates_blank _).append hb'.blank
  have htext : (a ++ " " ++ op ++ " " ++ b).toList = a.toList ++ ' ' :: (op.toList ++ ' ' :: b.toList) := by simp
  rw [htext]
  refine ((ha.spells separates_blank _).append hop'.blank).mono fun _ hcut => ?_
  obtain ⟨ts, hts, _, ⟨_, ⟨operator, hk, rfl, -, rfl⟩, us, hus, rfl⟩, rfl⟩ := hcut
  exact .chain (isApplication_of_element hts ha.plain) hk (.application (isApplication_of_element hus hb.plain))

theorem section_spells (more : List Char) :
    Spells ('(' :: (op.toList ++ [')'])) more (IsElement · ⟨.name op, []⟩) := by
  obtain ⟨literal, hop⟩ := hop
  have hclose := spells_mark (c := ')') rfl (by decide) more
  have hop' := (Spells.symbol hop (separates_mark (c := ')') (by decide)) more).append hclose
  refine (Spells.mark (c := '(') rfl (.inl (by decide)) hop').mono fun _ hcut => ?_
  obtain ⟨opening, hopening, _, ⟨_, ⟨operator, hk, rfl, -, rfl⟩, _, ⟨closing, hclosing, rfl⟩, rfl⟩, rfl⟩ := hcut
  exact .plain (.operator hopening hk hclosing)

omit hop in
theorem spaced_spells {texts : List String} {xs : List Expr} (h : List.Forall₂ IsOperand texts xs)
    (more : List Char) :
    Spells (spaced texts).toList (';' :: more) (IsElements · xs) := by
  induction h with
  | nil =>
    refine (Spells.nil _).mono ?_
    rintro _ rfl
    exact .nil
  | @cons text x texts xs hx hxs ih =>
    have htext : (spaced (text :: texts)).toList = ' ' :: (text.toList ++ (spaced texts).toList) := by simp [spaced]
    have hnext : ∃ c rest, (spaced texts).toList ++ ';' :: more = c :: rest ∧ Separates c := by
      cases texts with
      | nil => exact ⟨';', more, rfl, separates_mark (by decide)⟩
      | cons next rest => exact ⟨' ', _, by simp [spaced]; rfl, separates_blank⟩
    obtain ⟨c, rest, hnext, hc⟩ := hnext
    have hx' : Spells text.toList ((spaced texts).toList ++ ';' :: more) (IsElement · x) := by
      rw [hnext]
      exact hx.spells hc rest
    rw [htext]
    refine (hx'.append ih).blank.mono fun _ hcut => ?_
    obtain ⟨ts, hts, us, hus, rfl⟩ := hcut
    exact .cons hts hus

theorem parseSource_section {texts : List String} {xs : List Expr} (h : List.Forall₂ IsOperand texts xs) :
    parseSource (sectionCall op texts) = .ok [.expr (applied ⟨.name op, []⟩ xs)] := by
  refine parseSource_expr fun more => ?_
  have htext :
      ("(" ++ op ++ ")" ++ spaced texts).toList = '(' :: (op.toList ++ [')']) ++ (spaced texts).toList := by
    simp
  rw [htext]
  refine ((section_spells hop _).append (spaced_spells h more)).mono fun _ hcut => ?_
  obtain ⟨ts, hts, us, hus, rfl⟩ := hcut
  exact .application (isApplication_applied (.cons hts hus))

end

/-! ## Runs -/

def callWith (host : Host) (env : Environment) (callee : Value) (known : List Value) (operands : List Expr)
    (fuel : Nat) : Run (Value × Environment) := do
  let values ← evaluateEach (evaluate host fuel env) operands
  let value ← apply host fuel callee (known ++ values)
  return (value, env)

section
variable (host : Host) (env : Environment) (callee : Value)

theorem callWith_le {known : List Value} {operands : List Expr} {n k n' k' : Nat} (hn : n ≤ n') (hk : k ≤ k') :
    Le (do
      let values ← evaluateEach (evaluate host n env) operands
      let value ← apply host k callee (known ++ values)
      return (value, env))
    (do
      let values ← evaluateEach (evaluate host n' env) operands
      let value ← apply host k' callee (known ++ values)
      return (value, env)) :=
  (evaluateEach_congr Le.congruence.sequencing (fun x => evaluate_fuel_le host hn env x) operands).bind fun _ =>
    (apply_fuel_le host hk callee _).bind fun _ => .refl _

/-- Runs that make the same call, with more fuel for the operands and the call. -/
theorem interleave_callWith {m : Nat → Run (Value × Environment)} (hm : ∀ n k, n ≤ k → Le (m n) (m k))
    (known : List Value) (operands : List Expr) (d i j : Nat)
    (h : ∀ n, m (n + d) = (do
      let values ← evaluateEach (evaluate host (n + i) env) operands
      let value ← apply host (n + j) callee (known ++ values)
      return (value, env))) :
    Interleave m (callWith host env callee known operands) := by
  refine ⟨fun n => ⟨n + i + j, ?_⟩, fun n => ⟨n + d, ?_⟩⟩
  · refine (hm n (n + d) (Nat.le_add_right n d)).trans ?_
    rw [h]
    exact callWith_le host env callee (by omega) (by omega)
  · rw [h]
    exact callWith_le host env callee (by omega) (by omega)

end

section
variable (host : Host) {env : Environment} {name : String} {callee : Value} (hname : env.get? name = some callee)
include hname

theorem lookup_bound : lookup env name = pure callee := by
  unfold lookup
  rw [hname]

theorem evaluate_bound (fuel : Nat) : evaluate host (fuel + 2) env ⟨.name name, []⟩ = pure callee := by
  rw [evaluate, evaluateTail, lookup_bound hname]
  rfl

theorem operation_interleave (x y : Expr) :
    Interleave (execute host · env (.expr (Form.chain x name y).bare)) (callWith host env callee [] [x, y]) := by
  refine interleave_callWith host env callee (fun _ _ h => execute_fuel_le host h env _) [] [x, y] 3 0 1 fun n => ?_
  simp only [execute, evaluate, Form.bare, evaluateTail, lookup_bound hname, evaluateEach, bind_assoc, pure_bind,
    List.nil_append, Nat.add_zero]

theorem application_interleave (xs : List Expr) :
    Interleave (execute host · env (.expr ⟨.application (⟨.name name, []⟩ :: xs), []⟩))
      (callWith host env callee [] xs) := by
  refine interleave_callWith host env callee (fun _ _ h => execute_fuel_le host h env _) [] xs 5 2 3 fun n => ?_
  rw [execute, evaluate, evaluateTail, evaluate_bound host hname]
  simp only [bind_assoc, pure_bind, List.nil_append]

theorem name_ends (world : World) :
    Ends (execute host · env (.expr ⟨.name name, []⟩)) world (.ok (callee, env)) world := by
  have hrun : execute host 3 env (.expr ⟨.name name, []⟩) = pure (callee, env) := by
    rw [execute, evaluate_bound host hname]
    rfl
  exact ⟨3, congrArg (·.run world) hrun⟩

/-- A bound name among the operands is a known argument. -/
theorem callWith_bound (f : Value) (xs : List Expr) :
    Interleave (callWith host env f [] (⟨.name name, []⟩ :: xs)) (callWith host env f [callee] xs) := by
  refine interleave_callWith host env f (fun _ _ h => callWith_le host env f h h) [callee] xs 2 2 2 fun n => ?_
  rw [evaluateEach, evaluate_bound host hname]
  simp only [bind_assoc, pure_bind, List.nil_append, List.singleton_append]

end

/-! ## Sections -/

theorem isBangName_operator (op : String) : IsBangName ⟨.name op, []⟩ ↔ op.toList.getLast? = some '!' := by
  rw [← isBangCall_iff, isBangCall, decide_eq_true_iff]

/-- **A section is its operator**, unless the operator ends in `!`: then it is called
with what `!` is bound to in front of its operands. -/
theorem operatorSection_sameEnd {op a b : String} {x y : Expr} (hop : IsLexeme .symbolic op) (ha : IsOperand a x)
    (hb : IsOperand b y) :
    ∃ between called alone,
      parseSource (operation op a b) = .ok [between] ∧ parseSource (sectionCall op [a, b]) = .ok [called] ∧
      parseSource (sectionCall op []) = .ok [alone] ∧
      ∀ host env callee, env.get? op = some callee → ∀ world,
        SameEnd Eq (execute host · env between) (callWith host env callee [] [x, y]) world ∧
        (op.toList.getLast? ≠ some '!' →
          SameEnd Eq (execute host · env between) (execute host · env called) world ∧
          Ends (execute host · env alone) world (.ok (callee, env)) world) ∧
        (op.toList.getLast? = some '!' → ∀ first, env.get? "!" = some first →
          SameEnd Eq (execute host · env called) (callWith host env callee [first] [x, y]) world ∧
          SameEnd Eq (execute host · env alone) (callWith host env callee [first] []) world) := by
  refine ⟨_, _, _, parseSource_operation hop ha hb, parseSource_section hop (.cons ha (.cons hb .nil)),
    parseSource_section hop .nil, fun host env callee hcallee world => ?_⟩
  have hbetween := operation_interleave host hcallee x y
  refine ⟨hbetween.sameEnd world, fun hplain => ?_, fun hbang first hfirst => ?_⟩
  · have hname := mt (isBangName_operator op).mp hplain
    rw [applied_of_not_bang hname, applied_of_not_bang hname]
    exact ⟨(hbetween.trans (application_interleave host hcallee [x, y]).symm).sameEnd world,
      name_ends host hcallee world⟩
  · have hname := (isBangName_operator op).mpr hbang
    have hcalled : ∀ xs, Interleave (execute host · env (.expr (applied ⟨.name op, []⟩ xs)))
        (callWith host env callee [first] xs) := by
      intro xs
      rw [applied_of_bang hname]
      exact (application_interleave host hcallee _).trans (callWith_bound host hfirst callee xs)
    exact ⟨(hcalled [x, y]).sameEnd world, (hcalled []).sameEnd world⟩

/-- A sum with an operand in parentheses, and the same as a call of `(+)`. -/
theorem plusSection_sameEnd :
    IsLexeme .symbolic "+" ∧ IsOperand "1" ⟨.literal (.integer 1), []⟩ ∧ IsOperand "(x)" ⟨.name "x", []⟩ ∧
      ∃ between called alone,
        parseSource "1 + (x);" = .ok [between] ∧ parseSource "(+) 1 (x);" = .ok [called] ∧
        parseSource "(+);" = .ok [alone] ∧
        ∀ callee world,
          SameEnd Eq (execute .bare · (Environment.global.bind "+" callee) between)
            (execute .bare · (Environment.global.bind "+" callee) called) world ∧
          Ends (execute .bare · (Environment.global.bind "+" callee) alone) world
            (.ok (callee, Environment.global.bind "+" callee)) world := by
  have hop : IsLexeme .symbolic "+" := ⟨none, rfl⟩
  have hone : IsOperand "1" ⟨.literal (.integer 1), []⟩ :=
    ⟨⟨[⟨.integer, "1", some (.integer 1), 1⟩], .eof 1, by cbv, .plain (.literal (.inr (.inl rfl)) rfl)⟩, id⟩
  have hname : ¬ IsBangName ⟨.name "x", []⟩ := mt (isBangName_operator "x").mp (by decide)
  have hx : IsOperand "(x)" ⟨.name "x", []⟩ := by
    have hscan : scan "(x)" = .ok (⟨.openParen, "(", none, 1⟩ :: [⟨.identifier, "x", none, 1⟩] ++
        [⟨.closeParen, ")", none, 1⟩] ++ [.eof 1]) := by cbv
    exact isOperand_group hscan rfl (.application (isApplication_of_element (.plain (.name rfl)) hname)) rfl
  obtain ⟨between, called, alone, hbetween, hcalled, halone, h⟩ := operatorSection_sameEnd hop hone hx
  refine ⟨hop, hone, hx, between, called, alone, hbetween, hcalled, halone, fun callee world => ?_⟩
  exact (h .bare _ callee rfl world).2.1 (by decide)

def firstOfTwo : Value := .closure ["a", "b"] [.expr (Form.name "a").bare] .global

/-- Where `!!` gives the first of two arguments, its section does not: called with two it
calls `!` in the end, and alone it waits for one argument more. -/
theorem bangSection_not_sameEnd :
    IsLexeme .symbolic "!!" ∧ IsOperand "1" ⟨.literal (.integer 1), []⟩ ∧
      IsOperand "2" ⟨.literal (.integer 2), []⟩ ∧
      ∃ between called alone,
        parseSource "1 !! 2;" = .ok [between] ∧ parseSource "(!!) 1 2;" = .ok [called] ∧
        parseSource "(!!);" = .ok [alone] ∧
        ∃ env, env.get? "!!" = some firstOfTwo ∧
          ¬ SameEnd Eq (execute .bare · env between) (execute .bare · env called) .start ∧
          ¬ Ends (execute .bare · env alone) .start (.ok (firstOfTwo, env)) .start := by
  have hoperand : ∀ n text, scan text = .ok [⟨.integer, text, some (.integer n), 1⟩, .eof 1] →
      IsOperand text ⟨.literal (.integer n), []⟩ := fun n text h =>
    ⟨⟨[_], _, h, .plain (.literal (.inr (.inl rfl)) rfl)⟩, id⟩
  refine ⟨⟨none, rfl⟩, hoperand 1 "1" (by cbv), hoperand 2 "2" (by cbv),
    .expr (Form.chain ⟨.literal (.integer 1), []⟩ "!!" ⟨.literal (.integer 2), []⟩).bare,
    .expr (Form.application [⟨.name "!!", []⟩, sentinel, ⟨.literal (.integer 1), []⟩,
      ⟨.literal (.integer 2), []⟩]).bare,
    .expr (Form.application [⟨.name "!!", []⟩, sentinel]).bare, by cbv, by cbv, by cbv,
    Environment.global.bind "!!" firstOfTwo, rfl, fun h => ?_, fun h => ?_⟩
  · have hbetween := h.ends (fun _ _ hnk => execute_fuel_le .bare hnk _ _)
      (show Ends _ _ (.ok (Value.integer 1, _)) _ from ⟨8, rfl⟩)
    have hboth := hbetween.unique (fun _ _ hnk => execute_fuel_le .bare hnk _ _)
      (show Ends _ _ (.error (.notCallable "!")) _ from ⟨8, rfl⟩)
    cases hboth.1
  · have hboth := h.unique (fun _ _ hnk => execute_fuel_le .bare hnk _ _)
      (show Ends _ _ (.ok (Value.closure ["b"] _ _, _)) _ from ⟨8, rfl⟩)
    simp [firstOfTwo] at hboth

end CurriedScript
