import CurriedScript.Proofs.OpenProductions
import CurriedScript.Proofs.ParserSound
import Mathlib.Logic.Relation

/-!
# Progress of the parser

Every call that a production makes comes at a later token, or at the same one and
then goes down: `once_agrees`. So open productions need no promise to end, and no production
comes back to itself, by a loop or through others, before a token is taken:
`productions_progress`.
-/

namespace CurriedScript.Parser

open Grammar

variable {α β : Type} {tokens rest us : List Token}

def ProperSuffix (rest tokens : List Token) : Prop := rest <:+ tokens ∧ rest ≠ tokens

namespace ProperSuffix

theorem of_lt (h : rest <:+ tokens) (hlt : rest.length < tokens.length) : ProperSuffix rest tokens := by
  refine ⟨h, fun heq => ?_⟩
  rw [heq] at hlt
  exact Nat.lt_irrefl _ hlt

theorem length_lt (h : ProperSuffix rest tokens) : rest.length < tokens.length :=
  Nat.lt_of_le_of_ne h.1.length_le (mt h.1.eq_of_length h.2)

theorem trans_suffix (h : ProperSuffix us rest) (h' : rest <:+ tokens) : ProperSuffix us tokens :=
  of_lt (h.1.trans h') (Nat.lt_of_lt_of_le h.length_lt h'.length_le)

theorem append {ts : List Token} (h : ts ≠ []) : ProperSuffix rest (ts ++ rest) :=
  of_lt (List.suffix_append ts rest) (length_lt_append h)

theorem cons (t : Token) (rest : List Token) : ProperSuffix rest (t :: rest) := @append rest [t] (by simp)

theorem of_plain {found : α} {m : Except Error (α × Rest tokens)} (h : plain m = .ok (found, rest))
    {ts : List Token} (htokens : tokens = ts ++ rest) : ProperSuffix rest tokens :=
  of_lt ⟨ts, htokens.symm⟩ (plain_rest h)

theorem of_next? {kind : TokenKind} {found : Token × List Token} (h : next? kind us = some found)
    (hus : us <:+ tokens) : ProperSuffix found.2 tokens := by
  obtain ⟨rfl, _⟩ := next?_eq_some.mp h
  exact (cons found.1 found.2).trans_suffix hus

theorem of_expect {kind : TokenKind} {fault : ParseFault} {t : Token}
    (h : plain (expect kind fault us) = .ok (t, rest)) (hus : us <:+ tokens) : ProperSuffix rest tokens := by
  obtain ⟨rfl, _⟩ := expect_eq_ok.mp h
  exact (cons t rest).trans_suffix hus

end ProperSuffix

/-! ## What productions leave -/

theorem isStatements_eq_nil {ts : List Token} {ss : List Statement} (h : IsStatements ts ss) :
    ts = [] ↔ ss = [] := by
  cases h with
  | nil => simp
  | cons h _ => simp [h.ne_nil]

theorem isElements_eq_nil {ts : List Token} {xs : List Expr} (h : IsElements ts xs) : ts = [] ↔ xs = [] := by
  cases h with
  | nil => simp
  | cons h _ => simp [h.ne_nil]

theorem isSignature_eq_singleton {t : Token} {ts : List Token} {name : String} {names : List String}
    (h : IsSignature (t :: ts) (name :: names)) : ts = [] ↔ names = [] := by
  cases h with
  | one _ => simp
  | more _ _ h => cases h <;> simp

namespace Production

def Leaves (p : Production α) (tokens : List Token) (found : α) (rest : List Token) : Prop :=
  (p.FindsNothing found → rest = tokens) ∧ (¬ p.FindsNothing found → ProperSuffix rest tokens)

namespace Leaves

variable {p : Production α} {found : α}

theorem less (hp : ¬ p.FindsNothing found) (h : ProperSuffix rest tokens) : p.Leaves tokens found rest :=
  ⟨fun hfound => absurd hfound hp, fun _ => h⟩

theorem of_append (ts : List Token) (htokens : tokens = ts ++ rest) (h : ts = [] ↔ p.FindsNothing found) :
    p.Leaves tokens found rest := by
  subst htokens
  constructor
  · intro hfound
    rw [h.mpr hfound, List.nil_append]
  · intro hfound
    exact .append (mt h.mp hfound)

theorem of_sound {m : Except Error (α × Rest tokens)} {P : List Token → Prop} (hp : ¬ p.FindsNothing found)
    (h : plain m = .ok (found, rest)) (hsound : ∃ ts, tokens = ts ++ rest ∧ P ts) : p.Leaves tokens found rest := by
  obtain ⟨ts, htokens, _⟩ := hsound
  exact less hp (.of_plain h htokens)

theorem suffix (h : p.Leaves tokens found rest) : rest <:+ tokens := by
  by_cases hfound : p.FindsNothing found
  · obtain rfl := h.1 hfound
    exact List.suffix_refl rest
  · exact (h.2 hfound).1

end Leaves

theorem result_leaves (p : Production α) {found : α} (h : p.result tokens = .ok (found, rest)) :
    p.Leaves tokens found rest := by
  have hsound : ∀ us : List Token, us.length < tokens.length → Sound us := fun us _ => sound us
  cases p with
  | statement => exact .of_sound id h (statement_sound hsound h)
  | clause => exact .of_sound id h (clause_sound hsound h)
  | bindings => exact .of_sound id h (bindings_sound hsound h)
  | binding => exact .of_sound id h (binding_sound hsound h)
  | chain => exact .of_sound id h (chain_sound hsound h)
  | application => exact .of_sound id h (application_sound hsound h)
  | elements =>
    obtain ⟨ts, htokens, hts, _⟩ := elements_sound hsound h
    exact .of_append ts htokens (isElements_eq_nil hts)
  | element =>
    rcases orNothing_eq_ok (p := fun us => plain? (element? us)) h with ⟨rfl, rfl⟩ | ⟨x, rfl, hx⟩
    · exact .of_append [] rfl (by simp [FindsNothing])
    · obtain ⟨ts, htokens, hts, _⟩ := element_sound hsound hx
      exact .of_append ts htokens (by simp [FindsNothing, hts.ne_nil])
  | primary =>
    rcases orNothing_eq_ok (p := fun us => plain? (primary? us)) h with ⟨rfl, rfl⟩ | ⟨x, rfl, hx⟩
    · exact .of_append [] rfl (by simp [FindsNothing])
    · obtain ⟨ts, htokens, hts⟩ := primary_sound hsound hx
      exact .of_append ts htokens (by simp [FindsNothing, hts.ne_nil])
  | group => exact .of_sound id h (group_sound hsound h)
  | function => exact .of_sound id h (function_sound hsound h)
  | parameters =>
    obtain ⟨ts, bar, htokens, _⟩ := parameters_sound h
    exact .less id (.of_plain h (htokens.trans (List.append_cons ts bar rest)))
  | names =>
    cases h
    exact .of_append (tokens.takeWhile isParameter) List.takeWhile_append_dropWhile.symm
      (by simp [FindsNothing])
  | body ends empty =>
    obtain ⟨ts, htokens, hts, hss⟩ := body_sound (sound tokens) h
    rw [htokens]
    exact .less id (.append (mt (isStatements_eq_nil hts).mp hss))
  | statements ends =>
    obtain ⟨ts, htokens, hts, _⟩ := statements_sound hsound h
    exact .of_append ts htokens (isStatements_eq_nil hts)
  | conditional => exact .of_sound id h (conditional_sound hsound h)
  | cases =>
    obtain ⟨ts, stop, htokens, _⟩ := cases_sound hsound h
    exact .less id (.of_plain h (htokens.trans (List.append_cons ts stop rest)))
  | signature => exact .of_sound id h (signature_sound h)
  | arrowTypes =>
    obtain ⟨ts, htokens, hts, _⟩ := arrowTypes_sound tokens h (stub .typename) rfl
    exact .of_append ts htokens (isSignature_eq_singleton hts)

/-! ## Where productions call -/

/-- How many calls a production can make one inside another before a token is taken. -/
def rank : {α : Type} → Production α → Nat
  | _, .body _ _ => 7
  | _, .statements _ => 6
  | _, .statement => 5
  | _, .clause => 4
  | _, .group => 4
  | _, .chain => 3
  | _, .application => 2
  | _, .elements => 2
  | _, .function => 2
  | _, .element => 1
  | _, .bindings => 1
  | _, .parameters => 1
  | _, .conditional => 1
  | _, _ => 0

theorem rank_le (p : Production α) : p.rank ≤ 7 := by cases p <;> simp [rank]

end Production

structure Position where
  {found : Type}
  production : Production found
  tokens : List Token

def Position.Below (a b : Position) : Prop :=
  ProperSuffix a.tokens b.tokens ∨ a.tokens = b.tokens ∧ a.production.rank < b.production.rank

theorem Position.Below.trans {a b c : Position} (h : a.Below b) (h' : b.Below c) : a.Below c := by
  rcases h, h' with ⟨h | ⟨htokens, hrank⟩, h' | ⟨htokens', hrank'⟩⟩
  · exact .inl (h.trans_suffix h'.1)
  · exact .inl (htokens' ▸ h)
  · exact .inl (htokens ▸ h')
  · exact .inr ⟨htokens.trans htokens', Nat.lt_trans hrank hrank'⟩

open Production

def Unanswered (call : Caller) (p : Production α) (tokens : List Token) : Prop :=
  ∃ a : Position, a.Below ⟨p, tokens⟩ ∧ call _ a.production a.tokens = unfinished

def Agrees (call : Caller) (p : Production α) (tokens : List Token) : Prop :=
  Gives (Unanswered call p tokens) (p.once call tokens) (p.result tokens)

theorem names_cons (t : Token) (rest : List Token) :
    names.result (t :: rest) =
      if isParameter t then do
        let (others, rest) ← names.result rest
        return (t.lexeme :: others, rest)
      else .ok ([], t :: rest) := by
  simp only [result, List.takeWhile_cons, List.dropWhile_cons]
  split <;> rfl

theorem plain_parameters_names (tokens : List Token) :
    plain (Parser.parameters tokens) = (do
      let (lexemes, rest) ← names.result tokens
      if lexemes.isEmpty then throw (faultAt rest .missingParameters)
      let (_, rest) ← plain (expect .pipe .missingParameterBar rest)
      return (lexemes, rest)) := by
  have hsplit := List.takeWhile_append_dropWhile (p := isParameter) (l := tokens)
  rw [plain_parameters]
  cases hnames : tokens.takeWhile isParameter with
  | nil =>
    rw [hnames, List.nil_append] at hsplit
    simp only [result, hnames, hsplit]
    rfl
  | cons t names =>
    simp only [result, hnames]
    rfl

section
variable {call : Caller}
  (hcall : ∀ {γ : Type} (q : Production γ) (us : List Token), Gives True (call γ q us) (q.result us))
include hcall

theorem call_gives {p : Production α} {q : Production β} (h : Position.Below ⟨q, us⟩ ⟨p, tokens⟩) :
    Gives (Unanswered call p tokens) (call _ q us) (q.result us) := by
  cases hcall q us with
  | known h => exact .known h
  | unfinished h' _ => exact .unfinished h' ⟨⟨q, us⟩, h, h'⟩

theorem later_gives {p : Production α} {q : Production β} (h : ProperSuffix us tokens) :
    Gives (Unanswered call p tokens) (call _ q us) (q.result us) :=
  call_gives hcall (.inl h)

theorem same_gives {p : Production α} {q : Production β} (h : q.rank < p.rank) :
    Gives (Unanswered call p tokens) (call _ q tokens) (q.result tokens) :=
  call_gives hcall (.inr ⟨rfl, h⟩)

theorem element_gives {p : Production α} (h : Production.element.rank < p.rank) :
    Gives (Unanswered call p tokens) (call _ .element tokens) (orNothing (fun us => plain? (element? us)) tokens) :=
  same_gives hcall h

theorem statement_agrees : Agrees call .statement tokens := by
  rw [Agrees, once, result, plain_statement]
  exact .bind (same_gives hcall (q := .clause) (by decide)) fun _ _ => .bind (.of _) fun _ _ => .of _

theorem clause_agrees : Agrees call .clause tokens := by
  rw [Agrees, once, result, plain_clause]
  cases huse : next? .useWord tokens with
  | some found => exact .bind (.of _) fun _ _ => .of _
  | none =>
    cases hlet : next? .letWord tokens with
    | some found =>
      have hlater := ProperSuffix.of_next? hlet (List.suffix_refl tokens)
      exact .bind (later_gives hcall (q := .bindings) hlater) fun _ _ => .of _
    | none => exact .bind (same_gives hcall (q := .chain) (by decide)) fun _ _ => .of _

theorem bindings_agrees : Agrees call .bindings tokens := by
  rw [Agrees, once, result, plain_bindings]
  refine .bind (same_gives hcall (q := .binding) (by decide)) fun ⟨first, rest⟩ hfirst => ?_
  have hrest := (result_leaves .binding hfirst).suffix
  dsimp only
  cases hnext : next? .comma rest with
  | none => exact .of _
  | some found =>
    exact .bind (later_gives hcall (q := .bindings) (ProperSuffix.of_next? hnext hrest)) fun _ _ => .of _

theorem binding_agrees : Agrees call .binding tokens := by
  rw [Agrees, once, result, plain_binding]
  cases hname : (next? .identifier tokens).or (next? .symbolic tokens) with
  | none => exact .of _
  | some found =>
    obtain ⟨rfl, _⟩ := bindable_eq_some.mp hname
    refine .bind (.of _) fun ⟨arrow, rest⟩ harrow => ?_
    have hlater := ProperSuffix.of_expect harrow (List.suffix_cons found.1 found.2)
    exact .bind (later_gives hcall (q := .chain) hlater) fun _ _ => .of _

theorem chain_agrees : Agrees call .chain tokens := by
  rw [Agrees, once, result, plain_chain]
  refine .bind (same_gives hcall (q := .application) (by decide)) fun ⟨left, rest⟩ hleft => ?_
  have hrest := (result_leaves .application hleft).suffix
  dsimp only
  cases hnext : next? .symbolic rest with
  | none => exact .of _
  | some found =>
    exact .bind (later_gives hcall (q := .chain) (ProperSuffix.of_next? hnext hrest)) fun _ _ => .of _

theorem application_agrees : Agrees call .application tokens := by
  rw [Agrees, once, result, plain_application]
  refine .bind? (element_gives hcall (by decide)) (.of _) fun first rest hfirst => ?_
  have hlater := (result_leaves .element hfirst).2 (by simp [FindsNothing])
  exact .bind (later_gives hcall (q := .elements) hlater) fun _ _ => .of _

theorem elements_agrees : Agrees call .elements tokens := by
  rw [Agrees, once, result, plain_elements]
  refine .bind? (element_gives hcall (by decide)) (.of _) fun first rest hfirst => ?_
  have hlater := (result_leaves .element hfirst).2 (by simp [FindsNothing])
  exact .bind (later_gives hcall (q := .elements) hlater) fun _ _ => .of _

theorem element_agrees : Agrees call .element tokens := by
  have hresult : Production.element.result tokens = orNothing (fun us => plain? (element? us)) tokens := rfl
  have hprimary : Gives (Unanswered call .element tokens) (call _ .primary tokens)
      (orNothing (fun us => plain? (primary? us)) tokens) := same_gives hcall (q := .primary) (by decide)
  rw [Agrees, once, hresult, orNothing_element?]
  refine .bind? hprimary (.of _) fun expr rest hexpr => ?_
  have hrest := (result_leaves .primary hexpr).suffix
  dsimp only
  cases hnext : next? .colon rest with
  | none => exact .of _
  | some found =>
    exact .bind (later_gives hcall (q := .signature) (ProperSuffix.of_next? hnext hrest)) fun _ _ => .of _

theorem primary_agrees : Agrees call .primary tokens := by
  cases tokens with
  | nil =>
    have hresult : Production.primary.result [] = .ok (none, []) :=
      @orNothing_none _ (fun us => plain? (primary? us)) [] plain_primary?_nil
    rw [Agrees, hresult]
    exact .of _
  | cons t rest =>
    have hlater := ProperSuffix.cons t rest
    have hresult : Production.primary.result (t :: rest) = orNothing (fun us => plain? (primary? us)) (t :: rest) :=
      rfl
    rw [Agrees, once, hresult, orNothing_primary?_cons]
    cases t.kind with
    | openBrace => exact .bind (later_gives hcall (q := .function) hlater) fun _ _ => .of _
    | openParen => exact .bind (later_gives hcall (q := .group) hlater) fun _ _ => .of _
    | condWord => exact .bind (later_gives hcall (q := .conditional) hlater) fun _ _ => .of _
    | string | integer | float => cases t.literal <;> exact .of _
    | _ => exact .of _

theorem group_agrees : Agrees call .group tokens := by
  rw [Agrees, once, result, plain_group]
  cases hnext : next? .symbolic tokens with
  | some found => exact .bind (.of _) fun _ _ => .of _
  | none =>
    exact .bind (same_gives hcall (q := .chain) (by decide)) fun _ _ => .bind (.of _) fun _ _ => .of _

theorem function_agrees : Agrees call .function tokens := by
  rw [Agrees, once, result, plain_function]
  refine .bind (same_gives hcall (q := .parameters) (by decide)) fun ⟨lexemes, rest⟩ hnames => ?_
  have hlater := (result_leaves Production.parameters hnames).2 id
  exact .bind (later_gives hcall (q := .body _ _) hlater) fun _ _ => .bind (.of _) fun _ _ => .of _

theorem parameters_agrees : Agrees call .parameters tokens := by
  rw [Agrees, once, result, plain_parameters_names]
  refine .bind (same_gives hcall (q := .names) (by decide)) fun ⟨lexemes, rest⟩ hnames => ?_
  dsimp only
  split
  · exact .of _
  · exact .bind (.of _) fun _ _ => .of _

theorem names_agrees : Agrees call .names tokens := by
  cases tokens with
  | nil => exact .of _
  | cons t rest =>
    rw [Agrees, once, names_cons]
    split
    · exact .bind (later_gives hcall (q := .names) (ProperSuffix.cons t rest)) fun _ _ => .of _
    · exact .of _

theorem body_agrees (ends : TokenKind → Bool) (empty : ParseFault) : Agrees call (.body ends empty) tokens := by
  rw [Agrees, once, result, plain_body]
  refine .bind (same_gives hcall (q := .statements ends) (by simp [rank])) fun ⟨ss, rest⟩ hss => ?_
  have hleaves := result_leaves (.statements ends) hss
  cases ss with
  | nil =>
    obtain rfl := hleaves.1 rfl
    exact .of _
  | cons s ss => exact .of _

theorem statements_agrees (ends : TokenKind → Bool) : Agrees call (.statements ends) tokens := by
  cases tokens with
  | nil =>
    rw [Agrees, once, result, plain_statements_nil]
    exact .of _
  | cons t tokens =>
    rw [Agrees, once, result, plain_statements_cons]
    split
    · exact .of _
    · refine .bind (same_gives hcall (q := .statement) (by simp [rank])) fun ⟨first, rest⟩ hfirst => ?_
      have hlater := (result_leaves .statement hfirst).2 id
      exact .bind (later_gives hcall (q := .statements ends) hlater) fun _ _ => .of _

theorem conditional_agrees : Agrees call .conditional tokens := by
  rw [Agrees, once, result, plain_conditional]
  dsimp only
  split
  · exact .of _
  · exact .bind (same_gives hcall (q := .cases) (by decide)) fun _ _ => .of _

theorem cases_agrees : Agrees call .cases tokens := by
  rw [Agrees, once, result, plain_cases]
  refine .bind (.of _) fun ⟨bar, us⟩ hbar => ?_
  have hus := ProperSuffix.of_expect hbar (List.suffix_refl tokens)
  refine .bind (later_gives hcall (q := .chain) hus) fun ⟨condition, vs⟩ hcondition => ?_
  have hvs := (result_leaves .chain hcondition).suffix.trans hus.1
  refine .bind (.of _) fun ⟨arrow, ws⟩ harrow => ?_
  have hws := ProperSuffix.of_expect harrow hvs
  refine .bind (later_gives hcall (q := .body _ _) hws) fun ⟨ss, rest⟩ hss => ?_
  have hrest := ((result_leaves (.body endsCase .emptyCaseBody) hss).2 id).trans_suffix hws.1
  dsimp only
  cases hnext : next? .endWord rest with
  | some found => exact .of _
  | none => exact .bind (later_gives hcall (q := .cases) hrest) fun _ _ => .of _

theorem signature_agrees : Agrees call .signature tokens := by
  rw [Agrees, once, result, plain_signature]
  refine .bind (.of _) fun ⟨first, rest⟩ hfirst => ?_
  have hlater := ProperSuffix.of_expect hfirst (List.suffix_refl tokens)
  exact .bind (later_gives hcall (q := .arrowTypes) hlater) fun _ _ => .of _

theorem arrowTypes_agrees : Agrees call .arrowTypes tokens := by
  rw [Agrees, once, result, plain_arrowTypes]
  cases hnext : next? .rightArrow tokens with
  | none => exact .of _
  | some found =>
    refine .bind (.of _) fun ⟨first, rest⟩ hfirst => ?_
    have hlater := ProperSuffix.of_expect hfirst (ProperSuffix.of_next? hnext (List.suffix_refl tokens)).1
    exact .bind (later_gives hcall (q := .arrowTypes) hlater) fun _ _ => .of _

theorem once_agrees (p : Production α) (tokens : List Token) : Agrees call p tokens := by
  cases p with
  | statement => exact statement_agrees hcall
  | clause => exact clause_agrees hcall
  | bindings => exact bindings_agrees hcall
  | binding => exact binding_agrees hcall
  | chain => exact chain_agrees hcall
  | application => exact application_agrees hcall
  | elements => exact elements_agrees hcall
  | element => exact element_agrees hcall
  | primary => exact primary_agrees hcall
  | group => exact group_agrees hcall
  | function => exact function_agrees hcall
  | parameters => exact parameters_agrees hcall
  | names => exact names_agrees hcall
  | body ends empty => exact body_agrees hcall ends empty
  | statements ends => exact statements_agrees hcall ends
  | conditional => exact conditional_agrees hcall
  | cases => exact cases_agrees hcall
  | signature => exact signature_agrees hcall
  | arrowTypes => exact arrowTypes_agrees hcall

end

/-! ## Closed calls -/

theorem within_gives (depth : Nat) : ∀ {α : Type} (p : Production α) (tokens : List Token),
    Gives True (within depth α p tokens) (p.result tokens) := by
  induction depth with
  | zero => exact fun _ _ => .unfinished rfl trivial
  | succ depth ih =>
    intro α p tokens
    cases once_agrees ih p tokens with
    | known h => exact .known h
    | unfinished h _ => exact .unfinished h trivial

theorem within_eq (depth : Nat) : ∀ {α : Type} (p : Production α) (tokens : List Token),
    8 * tokens.length + p.rank < depth → within depth α p tokens = known (p.result tokens) := by
  induction depth with
  | zero => exact fun _ _ h => absurd h (Nat.not_lt_zero _)
  | succ depth ih =>
    intro α p tokens hdepth
    cases once_agrees (within_gives depth) p tokens with
    | known h => exact h
    | unfinished _ hunanswered =>
      -- a call that is missing has enough depth, as it is below
      obtain ⟨a, hbelow, ha⟩ := hunanswered
      have hless : 8 * a.tokens.length + a.production.rank < depth := by
        rcases hbelow with hlater | ⟨htokens, hrank⟩
        · have hlength := hlater.length_lt
          have hrank := a.production.rank_le
          dsimp only at hlength
          omega
        · dsimp only at htokens hrank
          rw [htokens]
          omega
      exact absurd ((ih a.production a.tokens hless).symm.trans ha) (known_ne_unfinished _)

/-! ## Calls -/

open Classical in
/-- Every call comes back with what is found, except for one. -/
noncomputable def withheld (a : Position) : Caller := fun _ q us =>
  if ⟨q, us⟩ = a then unfinished else known (q.result us)

def Calls (a b : Position) : Prop := a.production.once (withheld b) a.tokens = unfinished

theorem Calls.below {a b : Position} (h : Calls a b) : b.Below a := by
  have hcall : ∀ {γ : Type} (q : Production γ) (us : List Token), Gives True (withheld b γ q us) (q.result us) := by
    intro γ q us
    unfold withheld
    split
    · exact .unfinished rfl trivial
    · exact .known rfl
  cases once_agrees hcall a.production a.tokens with
  | known h' => exact absurd (h'.symm.trans h) (known_ne_unfinished _)
  | unfinished _ hunanswered =>
    obtain ⟨c, hbelow, hc⟩ := hunanswered
    unfold withheld at hc
    split at hc
    · rename_i heq
      exact heq ▸ hbelow
    · exact absurd hc (known_ne_unfinished _)

inductive Pass : {α : Type} → Production α → List Token → List Token → Prop where
  | statement {ends : TokenKind → Bool} {t : Token} {ts rest : List Token} {s : Statement} :
      (t.kind = .eof || ends t.kind) = false → Production.statement.result (t :: ts) = .ok (s, rest) →
      Pass (.statements ends) (t :: ts) rest
  | element {tokens rest : List Token} {x : Expr} : element.result tokens = .ok (some x, rest) →
      Pass .elements tokens rest
  | binding {tokens us rest : List Token} {b : Binding} {comma : Token} :
      Production.binding.result tokens = .ok (b, us) → next? .comma us = some (comma, rest) →
      Pass .bindings tokens rest
  | name {t : Token} {rest : List Token} : isParameter t = true → Pass .names (t :: rest) rest
  | arrow {tokens us rest : List Token} {arrow t : Token} : next? .rightArrow tokens = some (arrow, us) →
      plain (expect .typename .missingNextType us) = .ok (t, rest) → Pass .arrowTypes tokens rest
  | case {tokens us vs ws rest : List Token} {bar arrow : Token} {condition : Expr} {ss : List Statement} :
      plain (expect .pipe .missingConditionBar tokens) = .ok (bar, us) →
      Production.chain.result us = .ok (condition, vs) →
      plain (expect .rightArrow .missingRightArrow vs) = .ok (arrow, ws) →
      (Production.body endsCase .emptyCaseBody).result ws = .ok (ss, rest) → next? .endWord rest = none →
      Pass .cases tokens rest

theorem withheld_self (p : Production α) (us : List Token) : withheld ⟨p, us⟩ α p us = unfinished := if_pos rfl

theorem withheld_later (p : Production α) {q : Production β} (h : ProperSuffix us tokens) :
    withheld ⟨p, us⟩ β q tokens = known (q.result tokens) :=
  if_neg fun heq => h.2 (congrArg Position.tokens heq).symm

/-- A loop goes on by a call of itself. -/
theorem Pass.calls {p : Production α} (h : Pass p tokens rest) : Calls ⟨p, tokens⟩ ⟨p, rest⟩ := by
  unfold Calls
  cases h with
  | statement hends hs =>
    have hrest := (result_leaves .statement hs).2 id
    simp only [once, hends, Bool.false_eq_true, if_false, withheld_later _ hrest, hs, known_bind, withheld_self,
      unfinished_bind]
  | element hx =>
    have hrest := (result_leaves .element hx).2 (by simp [FindsNothing])
    simp only [once, withheld_later _ hrest, hx, known_bind, withheld_self, unfinished_bind]
  | binding hb hcomma =>
    have hrest := ProperSuffix.of_next? hcomma (result_leaves .binding hb).suffix
    simp only [once, withheld_later _ hrest, hb, known_bind, hcomma, withheld_self, unfinished_bind]
  | name ht => simp only [once, ht, if_true, withheld_self, unfinished_bind]
  | arrow harrow ht => simp only [once, harrow, ht, known_bind, withheld_self, unfinished_bind]
  | case hbar hcondition harrow hbody hend =>
    have hbodyRest := (result_leaves (.body endsCase .emptyCaseBody) hbody).2 id
    have harrowRest := ProperSuffix.of_expect harrow (result_leaves .chain hcondition).suffix
    have hrest := hbodyRest.trans_suffix harrowRest.1
    simp only [once, hbar, known_bind, withheld_later _ hrest, hcondition, harrow, withheld_later _ hbodyRest,
      hbody,
      hend, withheld_self, unfinished_bind]

theorem below_of_transGen {a b : Position} (h : Relation.TransGen Calls a b) : b.Below a := by
  induction h with
  | single h => exact h.below
  | tail _ h ih => exact h.below.trans ih

/-- The parser ends on every list of tokens, with calls nested at most eight deep for each
token, also where nothing is promised of the calls. A production that finds something leaves a
proper suffix of its tokens, and one that finds nothing leaves them all. A loop goes on by a
call of itself, and no production comes back to itself but at a proper suffix. -/
theorem productions_progress (tokens : List Token) :
    (∀ depth, 8 * tokens.length + 6 < depth →
      Prod.fst <$> within depth _ (.statements fun _ => false) tokens = known (parse tokens)) ∧
    ∀ (α : Type) (p : Production α),
      (∀ depth, 8 * tokens.length + p.rank < depth → within depth α p tokens = known (p.result tokens)) ∧
      (∀ depth found rest, within depth α p tokens = known (.ok (found, rest)) →
        (p.FindsNothing found → rest = tokens) ∧ (¬ p.FindsNothing found → rest <:+ tokens ∧ rest ≠ tokens)) ∧
      (∀ us, Pass p tokens us → Calls ⟨p, tokens⟩ ⟨p, us⟩) ∧
      ∀ us, Relation.TransGen Calls ⟨p, tokens⟩ ⟨p, us⟩ → us <:+ tokens ∧ us ≠ tokens := by
  refine ⟨fun depth hdepth => ?_, fun α p => ⟨fun depth hdepth => within_eq depth p tokens hdepth, ?_, ?_, ?_⟩⟩
  · rw [within_eq depth (.statements fun _ => false) tokens hdepth, map_known, parse_eq]
    rfl
  · intro depth found rest h
    cases within_gives depth p tokens with
    | known h' => exact result_leaves p (known_inj (h'.symm.trans h))
    | unfinished h' _ => exact absurd (h.symm.trans h') (known_ne_unfinished _)
  · exact fun _ h => h.calls
  · intro us h
    rcases below_of_transGen h with hlater | ⟨_, hrank⟩
    · exact hlater
    · exact absurd hrank (Nat.lt_irrefl _)

/-- The end stands before the `;` of a call. -/
theorem endInCall_progress :
    ∃ tokens : List Token, tokens = [.identifier, .identifier, .eof, .semicolon].map stub ∧
      (8 * tokens.length + 6 < 39 ∧
        Prod.fst <$> within 39 _ (.statements fun _ => false) tokens =
          known (.error (.parse 0 "<eof>" .missingSemicolon)) ∧
        parse tokens = .error (.parse 0 "<eof>" .missingSemicolon)) ∧
      (within 39 _ .element tokens = known (.ok (some (Form.name "x").bare, tokens.drop 1)) ∧
        tokens.drop 1 <:+ tokens ∧ tokens.drop 1 ≠ tokens) ∧
      (Pass .elements tokens (tokens.drop 1) ∧ Pass .elements (tokens.drop 1) (tokens.drop 2)) ∧
      Relation.TransGen Calls ⟨.elements, tokens⟩ ⟨.elements, tokens.drop 2⟩ ∧
      tokens.drop 2 <:+ tokens ∧ tokens.drop 2 ≠ tokens := by
  let tokens : List Token := [.identifier, .identifier, .eof, .semicolon].map stub
  have hprogress := productions_progress tokens
  have hprogress' := productions_progress (tokens.drop 1)
  have hrun : Prod.fst <$> within 39 _ (.statements fun _ => false) tokens =
      known (.error (.parse 0 "<eof>" .missingSemicolon)) := rfl
  have hfirst : within 39 _ .element tokens = known (.ok (some (Form.name "x").bare, tokens.drop 1)) := rfl
  have hpass : Pass .elements tokens (tokens.drop 1) :=
    .element (known_inj (((hprogress.2 _ .element).1 39 (by decide)).symm.trans hfirst))
  have hpass' : Pass .elements (tokens.drop 1) (tokens.drop 2) :=
    .element (known_inj (((hprogress'.2 _ .element).1 39 (by decide)).symm.trans rfl))
  have hloop : Relation.TransGen Calls ⟨.elements, tokens⟩ ⟨.elements, tokens.drop 2⟩ :=
    .tail (.single ((hprogress.2 _ .elements).2.2.1 _ hpass)) ((hprogress'.2 _ .elements).2.2.1 _ hpass')
  refine ⟨tokens, rfl, ⟨by decide, hrun, ?_⟩, ⟨hfirst, ?_⟩, ⟨hpass, hpass'⟩, hloop, ?_⟩
  · exact known_inj ((hprogress.1 39 (by decide)).symm.trans hrun)
  · exact ((hprogress.2 _ .element).2.1 39 _ _ hfirst).2 (by simp [FindsNothing])
  · exact (hprogress.2 _ .elements).2.2.2 _ hloop

end CurriedScript.Parser
