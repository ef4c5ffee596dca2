import CurriedScript.Program.Uses

/-!
# Free names

The names that an expression reads from the environment it is evaluated in:
identifiers and operators that no parameter list around them, no earlier `let` of
their body and no earlier binding of their `let` binds. What a `use` reads and
binds is not known before it runs, so free names are a bound on what is read
only where there is none.
-/

namespace CurriedScript

def Statement.binds : Statement → List String
  | .bind bindings => bindings.map (·.name)
  | .use _ | .expr _ => []

mutual
def Expr.free : Expr → List String
  | ⟨form, _⟩ => form.free

def Form.free : Form → List String
  | .chain left operator right => left.free ++ operator :: right.free
  | .name name => [name]
  | .application elements => exprFree elements
  | .function parameters body => (bodyFree body).filter (· ∉ parameters)
  | .conditional cases => caseFree cases
  | .literal _ | .builtin _ => []

def Case.free : Case → List String
  | ⟨condition, body⟩ => condition.free ++ bodyFree body

def Statement.free : Statement → List String
  | .use _ => []
  | .bind bindings => bindingFree bindings
  | .expr expr => expr.free

def exprFree : List Expr → List String
  | [] => []
  | expr :: rest => expr.free ++ exprFree rest

def caseFree : List Case → List String
  | [] => []
  | case :: rest => case.free ++ caseFree rest

def bodyFree : List Statement → List String
  | [] => []
  | statement :: rest => statement.free ++ (bodyFree rest).filter (· ∉ statement.binds)

def bindingFree : List Binding → List String
  | [] => []
  | ⟨name, value⟩ :: rest => value.free ++ (bindingFree rest).filter (· ≠ name)
end

/-- The names that evaluation can read: all if there is a `use`, else the free
ones. Those that are `kept` count as read. -/
def Reads (kept : String → Prop) (uses free : List String) (n : String) : Prop :=
  kept n ∨ uses ≠ [] ∨ n ∈ free

variable {kept : String → Prop} {uses uses' free free' : List String} {n : String}

theorem Reads.of_use (h : uses ≠ []) : Reads kept uses free n := .inr (.inl h)

theorem Reads.mono (h : Reads kept uses free n) (hu : uses ⊆ uses') (hf : free ⊆ free') :
    Reads kept uses' free' n := by
  rcases h with h | h | h
  · exact .inl h
  · refine .of_use ?_
    rintro rfl
    exact h (List.subset_nil.mp hu)
  · exact .inr (.inr (hf h))

theorem Reads.append_left (h : Reads kept uses free n) : Reads kept (uses ++ uses') (free ++ free') n :=
  h.mono (List.subset_append_left _ _) (List.subset_append_left _ _)

theorem Reads.append_right (h : Reads kept uses' free' n) : Reads kept (uses ++ uses') (free ++ free') n :=
  h.mono (List.subset_append_right _ _) (List.subset_append_right _ _)

/-- Under names that are bound by what comes before, the others are still read. -/
theorem Reads.filter {p : String → Bool} (h : Reads kept uses free n) (hn : p n = true) :
    Reads kept uses (free.filter p) n := by
  rcases h with h | h | h
  · exact .inl h
  · exact .of_use h
  · exact .inr (.inr (List.mem_filter.mpr ⟨h, hn⟩))

/-- What a body reads: what its first statement reads, and of what the others
read, what that statement does not bind. -/
theorem Reads.of_body {s : Statement} {rest : List Statement}
    (h : Reads kept s.uses s.free n ∨ Reads kept (statementUses rest) (bodyFree rest) n ∧ n ∉ s.binds) :
    Reads kept (statementUses (s :: rest)) (bodyFree (s :: rest)) n := by
  rcases h with h | ⟨h, hn⟩
  · exact h.append_left
  · exact (h.filter (by simpa using hn)).append_right

end CurriedScript
