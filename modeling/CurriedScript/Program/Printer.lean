import CurriedScript.Program

/-!
# Printing programs

Chains and applications are printed in parentheses, so that the text shows how
they nest. A signature follows its expression after a colon.
-/

namespace CurriedScript

def joined (separator : String) : List String → String
  | [] => ""
  | [text] => text
  | text :: rest => text ++ separator ++ joined separator rest

def signatureText (signature : List String) : String :=
  if signature.isEmpty then "" else ": " ++ joined " -> " signature

mutual
def Expr.display : Expr → String
  | ⟨form, signature⟩ => form.display ++ signatureText signature

def Form.display : Form → String
  | .chain left operator right =>
    "(" ++ left.display ++ " " ++ operator ++ " " ++ right.display ++ ")"
  | .name name => name
  | .application elements => "(" ++ joined " " (exprTexts elements) ++ ")"
  | .function parameters body =>
    "\x7b " ++ joined " " parameters ++ " | " ++ joined " " (statementTexts body) ++ " \x7d"
  | .literal literal => literal.display
  | .builtin name => "\x7b#" ++ name ++ "\x7d"
  | .conditional cases => "cond" ++ joined "" (caseTexts cases) ++ " end"

def Case.display : Case → String
  | ⟨condition, body⟩ => " | " ++ condition.display ++ " -> " ++ joined " " (statementTexts body)

def Statement.display : Statement → String
  | .use module => "use " ++ Text.quoted module
  | .bind bindings => "let " ++ joined ", " (bindingTexts bindings)
  | .expr expr => expr.display

def Binding.display : Binding → String
  | ⟨name, value⟩ => name ++ " <- " ++ value.display

def exprTexts : List Expr → List String
  | [] => []
  | expr :: rest => expr.display :: exprTexts rest

def caseTexts : List Case → List String
  | [] => []
  | case :: rest => case.display :: caseTexts rest

def statementTexts : List Statement → List String
  | [] => []
  | statement :: rest => (statement.display ++ ";") :: statementTexts rest

def bindingTexts : List Binding → List String
  | [] => []
  | binding :: rest => binding.display :: bindingTexts rest
end

end CurriedScript
