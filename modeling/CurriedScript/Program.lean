import CurriedScript.Literal

/-!
# Programs

A program is a list of statements. An expression is a form with a signature,
the type names of its annotation, which is empty if there is none.
-/

namespace CurriedScript

mutual
structure Expr where
  form : Form
  signature : List String

inductive Form where
  | chain (left : Expr) (operator : String) (right : Expr)
  | name (name : String)
  | application (elements : List Expr)
  | function (parameters : List String) (body : List Statement)
  | literal (literal : Literal)
  | builtin (name : String)
  | conditional (cases : List Case)

structure Case where
  condition : Expr
  body : List Statement

inductive Statement where
  | use (module : String)
  | bind (bindings : List Binding)
  | expr (expr : Expr)

structure Binding where
  name : String
  value : Expr
end

def Form.bare (form : Form) : Expr := ⟨form, []⟩

end CurriedScript
