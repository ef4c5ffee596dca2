import CurriedScript.Program

/-!
# Modules that a program names

The names in `use` statements at any depth. A run can load no other modules
than these and those that they name in turn.
-/

namespace CurriedScript

mutual
def Expr.uses : Expr → List String
  | ⟨form, _⟩ => form.uses

def Form.uses : Form → List String
  | .chain left _ right => left.uses ++ right.uses
  | .application elements => exprUses elements
  | .function _ body => statementUses body
  | .conditional cases => caseUses cases
  | .name _ | .literal _ | .builtin _ => []

def Case.uses : Case → List String
  | ⟨condition, body⟩ => condition.uses ++ statementUses body

def Statement.uses : Statement → List String
  | .use module => [module]
  | .bind bindings => bindingUses bindings
  | .expr expr => expr.uses

def Binding.uses : Binding → List String
  | ⟨_, value⟩ => value.uses

def exprUses : List Expr → List String
  | [] => []
  | expr :: rest => expr.uses ++ exprUses rest

def caseUses : List Case → List String
  | [] => []
  | case :: rest => case.uses ++ caseUses rest

def statementUses : List Statement → List String
  | [] => []
  | statement :: rest => statement.uses ++ statementUses rest

def bindingUses : List Binding → List String
  | [] => []
  | binding :: rest => binding.uses ++ bindingUses rest
end

end CurriedScript
