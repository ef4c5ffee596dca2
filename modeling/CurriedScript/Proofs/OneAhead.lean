import CurriedScript.Proofs.Productions

/-!
# Reading one token ahead

A production that is settled by what it reads and the next token, and that has read
something to go on with where it fails: `OneAhead`. It holds of what fails at the
next token or takes it, and of one such production after another.
-/

namespace CurriedScript.Parser

variable {α β : Type} {X Y : List Token → Prop} {tokens : List Token}

def stub (kind : TokenKind) : Token := ⟨kind, "x", some (.string "x"), 0⟩

@[simp] theorem stub_kind (kind : TokenKind) : (stub kind).kind = kind := rfl

def Viable (X : List Token → Prop) (ts : List Token) : Prop := ∃ kinds : List TokenKind, X (ts ++ kinds.map stub)

theorem Viable.of {ts : List Token} (h : X ts) : Viable X ts := ⟨[], by simpa using h⟩

theorem Viable.trans {ts : List Token} (h : Viable Y ts) (hX : ∀ us, Y us → Viable X us) : Viable X ts := by
  obtain ⟨kinds, hY⟩ := h
  obtain ⟨kinds', hX⟩ := hX _ hY
  exact ⟨kinds ++ kinds', by rwa [List.map_append, ← List.append_assoc]⟩

theorem viable_append {ts us : List Token} : Viable (fun vs => X (ts ++ vs)) us ↔ Viable X (ts ++ us) := by
  simp only [Viable, List.append_assoc]

/-- The production is settled on the tokens by what it reads of them and the next one. If it
fails, what it has read by then can go on to what it reads. -/
structure OneAhead (X : List Token → Prop) (p : List Token → Except Error (α × List Token))
    (tokens : List Token) : Prop where
  ok : ∀ {a rest}, p tokens = .ok (a, rest) → ∃ ts, tokens = ts ++ rest ∧
    ∀ rest', rest'.head? = rest.head? → p (ts ++ rest') = .ok (a, rest')
  error : ∀ {e}, p tokens = .error e → ∃ ts rest fault, tokens = ts ++ rest ∧ e = faultAt rest fault ∧
    Viable X ts ∧ ∀ rest', rest'.head? = rest.head? → p (ts ++ rest') = .error e

/-! ## The next token -/

theorem head?_append_congr {ts rest rest' : List Token} (h : rest'.head? = rest.head?) :
    (ts ++ rest').head? = (ts ++ rest).head? := by
  cases ts with
  | nil => exact h
  | cons t ts => rfl

theorem headKind_congr {us : List Token} (h : us.head? = tokens.head?) : headKind us = headKind tokens := by
  rw [headKind, h, headKind]

theorem next?_congr {us : List Token} {kind : TokenKind} (h : us.head? = tokens.head?)
    (hnext : next? kind tokens = none) : next? kind us = none := by
  rw [next?_eq_none] at hnext ⊢
  rwa [headKind_congr h]

theorem faultAt_congr {us : List Token} (h : us.head? = tokens.head?) (fault : ParseFault) :
    faultAt us fault = faultAt tokens fault := by
  cases us <;> cases tokens <;> cases h <;> rfl

theorem of_head?_cons {P : List Token → Prop} {t : Token} {rest : List Token} (h : ∀ us, P (t :: us)) :
    ∀ us : List Token, us.head? = (t :: rest).head? → P us
  | _ :: us, rfl => h us

/-! ## Productions that may find nothing -/

def orNothing (p : List Token → Except Error (Option (α × List Token))) (us : List Token) :
    Except Error (Option α × List Token) :=
  (p us).map fun
    | none => (none, us)
    | some (a, rest) => (some a, rest)

section
variable {p : List Token → Except Error (Option (α × List Token))} {us rest : List Token}

theorem orNothing_none (h : p us = .ok none) : orNothing p us = .ok (none, us) := by
  rw [orNothing, h]
  rfl

theorem orNothing_some {a : α} (h : p us = .ok (some (a, rest))) : orNothing p us = .ok (some a, rest) := by
  rw [orNothing, h]
  rfl

theorem orNothing_error {e : Error} (h : p us = .error e) : orNothing p us = .error e := by
  rw [orNothing, h]
  rfl

theorem orNothing_eq_ok {found : Option α} (h : orNothing p us = .ok (found, rest)) :
    (found = none ∧ rest = us) ∨ ∃ a, found = some a ∧ p us = .ok (some (a, rest)) := by
  unfold orNothing at h
  match hm : p us with
  | .ok none =>
    rw [hm] at h
    cases h
    exact .inl ⟨rfl, rfl⟩
  | .ok (some (a, _)) =>
    rw [hm] at h
    cases h
    exact .inr ⟨a, rfl, rfl⟩
  | .error e =>
    rw [hm] at h
    cases h

end

theorem orNothing_element? (us : List Token) :
    orNothing (fun us => plain? (element? us)) us = (do
      match ← plain? (primary? us) with
      | none => return (none, us)
      | some (expr, rest) =>
        match next? .colon rest with
        | none => return (some expr, rest)
        | some (_, rest) =>
          let (signature, rest) ← plain (signature rest)
          return (some ⟨expr.form, signature⟩, rest)) := by
  simp only [orNothing, plain_element?]
  cases plain? (primary? us) with
  | error e => rfl
  | ok found =>
    cases found with
    | none => rfl
    | some found =>
      simp only [ok_bind]
      cases next? .colon found.2 with
      | none => rfl
      | some next =>
        dsimp only
        cases plain (signature next.2) <;> rfl

theorem orNothing_primary?_cons (t : Token) (rest : List Token) :
    orNothing (fun us => plain? (primary? us)) (t :: rest) =
      match t.kind with
      | .openBrace => do
        let (expr, rest) ← plain (function rest)
        return (some expr, rest)
      | .openParen => do
        let (expr, rest) ← plain (group rest)
        return (some expr, rest)
      | .condWord => do
        let (expr, rest) ← plain (conditional rest)
        return (some expr, rest)
      | .string | .integer | .float =>
        match t.literal with
        | some literal => .ok (some (Form.literal literal).bare, rest)
        | none => .error (faultAt (t :: rest) .literalWithoutValue)
      | .identifier => .ok (some (Form.name t.lexeme).bare, rest)
      | .builtin => .ok (some (Form.builtin t.text).bare, rest)
      | .bang => .error (faultAt (t :: rest) .loneBang)
      | _ => .ok (none, t :: rest) := by
  simp only [orNothing, plain_primary?_cons]
  cases t.kind with
  | openBrace => cases plain (function rest) <;> rfl
  | openParen => cases plain (group rest) <;> rfl
  | condWord => cases plain (conditional rest) <;> rfl
  | string | integer | float => cases t.literal <;> rfl
  | _ => rfl

namespace OneAhead

variable {p q : List Token → Except Error (α × List Token)}

theorem congr (hp : ∀ us, p us = q us) (h : OneAhead X q tokens) : OneAhead X p tokens := by
  rwa [funext hp]

theorem mono (hX : ∀ ts, X ts → Y ts) (h : OneAhead X p tokens) : OneAhead Y p tokens where
  ok := h.ok
  error herror := by
    obtain ⟨ts, rest, fault, htokens, he, hviable, hlocal⟩ := h.error herror
    exact ⟨ts, rest, fault, htokens, he, hviable.trans fun us hus => .of (hX us hus), hlocal⟩

theorem pure (a : α) : OneAhead X (fun us => .ok (a, us)) tokens where
  ok h := by
    cases h
    exact ⟨[], rfl, fun _ _ => rfl⟩
  error h := by cases h

theorem fail (hX : Viable X []) (fault : ParseFault) :
    OneAhead X (fun us => (.error (faultAt us fault) : Except Error (α × List Token))) tokens where
  ok h := by cases h
  error h := by
    cases h
    refine ⟨[], tokens, fault, rfl, rfl, hX, fun rest' hrest => ?_⟩
    rw [List.nil_append, faultAt_congr hrest]

/-- Behind some of the tokens the production does what another does there. -/
theorem of_append {ts rest : List Token} (hp : ∀ us, us.head? = rest.head? → p (ts ++ us) = q us)
    (h : OneAhead (fun us => X (ts ++ us)) q rest) : OneAhead X p (ts ++ rest) where
  ok hok := by
    rw [hp rest rfl] at hok
    obtain ⟨us, rfl, hlocal⟩ := h.ok hok
    refine ⟨ts ++ us, by rw [List.append_assoc], fun rest' hrest => ?_⟩
    rw [List.append_assoc, hp _ (head?_append_congr hrest), hlocal rest' hrest]
  error herror := by
    rw [hp rest rfl] at herror
    obtain ⟨us, rest', fault, rfl, he, hviable, hlocal⟩ := h.error herror
    refine ⟨ts ++ us, rest', fault, by rw [List.append_assoc], he, viable_append.mp hviable, fun vs hvs => ?_⟩
    rw [List.append_assoc, hp _ (head?_append_congr hvs), hlocal vs hvs]

/-- What the production does depends on the first token. -/
theorem of_head (hp : ∀ us, us.head? = tokens.head? → p us = q us) (h : OneAhead X q tokens) :
    OneAhead X p tokens :=
  @of_append α X p q [] tokens hp h

/-- The production takes the first token. -/
theorem cons {t : Token} {rest : List Token} (hp : ∀ us, p (t :: us) = q us)
    (h : OneAhead (fun us => X (t :: us)) q rest) : OneAhead X p (t :: rest) :=
  @of_append α X p q [t] rest (fun us _ => hp us) h

/-- One production after another. What the first reads can go on to what both read. -/
theorem bind {first : List Token → Except Error (α × List Token)}
    {next : α × List Token → Except Error (β × List Token)} (h : OneAhead Y first tokens)
    (hY : ∀ ts, Y ts → Viable X ts)
    (hnext : ∀ a ts rest, tokens = ts ++ rest → first tokens = .ok (a, rest) →
      OneAhead (fun us => X (ts ++ us)) (fun us => next (a, us)) rest) :
    OneAhead X (fun us => first us >>= next) tokens where
  ok hok := by
    obtain ⟨⟨a, mid⟩, hfirst, hsecond⟩ := bind_eq_ok.mp hok
    obtain ⟨ts, rfl, hlocal⟩ := h.ok hfirst
    obtain ⟨us, rfl, hlocal'⟩ := (hnext a ts mid rfl hfirst).ok hsecond
    refine ⟨ts ++ us, by rw [List.append_assoc], fun rest' hrest => ?_⟩
    rw [List.append_assoc, hlocal _ (head?_append_congr hrest), ok_bind]
    exact hlocal' rest' hrest
  error {e} herror := by
    cases hfirst : first tokens with
    | error e' =>
      rw [hfirst] at herror
      cases herror
      obtain ⟨ts, rest, fault, rfl, he, hviable, hlocal⟩ := h.error hfirst
      refine ⟨ts, rest, fault, rfl, he, hviable.trans hY, fun rest' hrest => ?_⟩
      rw [hlocal rest' hrest]
      rfl
    | ok found =>
      obtain ⟨a, mid⟩ := found
      rw [hfirst, ok_bind] at herror
      obtain ⟨ts, rfl, hlocal⟩ := h.ok hfirst
      obtain ⟨us, rest, fault, rfl, he, hviable, hlocal'⟩ := (hnext a ts mid rfl hfirst).error herror
      refine ⟨ts ++ us, rest, fault, by rw [List.append_assoc], he, viable_append.mp hviable, fun rest' hrest => ?_⟩
      rw [List.append_assoc, hlocal _ (head?_append_congr hrest), ok_bind]
      exact hlocal' rest' hrest

theorem bind? {first : List Token → Except Error (Option (α × List Token))}
    {next : List Token → Option (α × List Token) → Except Error (β × List Token)}
    (h : OneAhead Y (orNothing first) tokens) (hY : ∀ ts, Y ts → Viable X ts)
    (hnext : ∀ us found, next us (some found) = next tokens (some found))
    (hnone : OneAhead X (fun us => next us none) tokens)
    (hsome : ∀ a ts rest, tokens = ts ++ rest → first tokens = .ok (some (a, rest)) →
      OneAhead (fun us => X (ts ++ us)) (fun us => next tokens (some (a, us))) rest) :
    OneAhead X (fun us => first us >>= next us) tokens := by
  let next' : Option α × List Token → Except Error (β × List Token)
    | (none, rest) => next rest none
    | (some a, rest) => next tokens (some (a, rest))
  have hp : ∀ us, first us >>= next us = orNothing first us >>= next' := by
    intro us
    unfold orNothing
    cases first us with
    | error e => rfl
    | ok result =>
      match result with
      | none => rfl
      | some found => exact hnext us found
  refine .congr hp (h.bind hY fun a ts rest htokens hfirst => ?_)
  unfold orNothing at hfirst
  match a, hm : first tokens, hfirst with
  | none, .ok none, hfirst =>
    cases hfirst
    obtain rfl : [] = ts := List.append_cancel_right htokens
    exact hnone
  | some a, .ok (some (_, _)), hfirst =>
    cases hfirst
    exact hsome a ts rest htokens hm

theorem expect {kind : TokenKind} {fault : ParseFault} {next : Token × List Token → Except Error (α × List Token)}
    (hX : Viable X [])
    (hnext : ∀ t rest, tokens = t :: rest → t.kind = kind →
      OneAhead (fun us => X (t :: us)) (fun us => next (t, us)) rest) :
    OneAhead X (fun us => plain (expect kind fault us) >>= next) tokens := by
  cases h : next? kind tokens with
  | none =>
    refine of_head (q := fun us => .error (faultAt us fault)) (fun us hus => ?_) (fail hX fault)
    rw [plain_expect, next?_congr hus h]
    rfl
  | some found =>
    obtain ⟨t, rest⟩ := found
    obtain ⟨rfl, hkind⟩ := next?_eq_some.mp h
    refine cons (fun us => ?_) (hnext t rest rfl hkind)
    rw [expect_eq_ok.mpr ⟨rfl, hkind⟩, ok_bind]

theorem next? {kind : TokenKind} {r : Token → List Token → Except Error (α × List Token)}
    (hq : OneAhead X q tokens)
    (hr : ∀ t rest, tokens = t :: rest → t.kind = kind → OneAhead (fun us => X (t :: us)) (r t) rest) :
    OneAhead X (fun us => match Parser.next? kind us with
      | none => q us
      | some (t, rest) => r t rest) tokens := by
  cases h : Parser.next? kind tokens with
  | none =>
    refine of_head (fun us hus => ?_) hq
    simp only [next?_congr hus h]
  | some found =>
    obtain ⟨t, rest⟩ := found
    obtain ⟨rfl, hkind⟩ := next?_eq_some.mp h
    refine cons (fun us => ?_) (hr t rest rfl hkind)
    simp only [next?_eq_some.mpr ⟨rfl, hkind⟩]

/-- The same with the cases the other way round. -/
theorem next?_swap {kind : TokenKind} {r : Token → List Token → Except Error (α × List Token)}
    (hr : ∀ t rest, tokens = t :: rest → t.kind = kind → OneAhead (fun us => X (t :: us)) (r t) rest)
    (hq : OneAhead X q tokens) :
    OneAhead X (fun us => match Parser.next? kind us with
      | some (t, rest) => r t rest
      | none => q us) tokens :=
  .congr (fun us => by cases Parser.next? kind us <;> rfl) (next? hq hr)

end OneAhead

end CurriedScript.Parser
