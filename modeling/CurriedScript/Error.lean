import CurriedScript.Text.Quoted
import CurriedScript.Value.Kind

/-!
# Errors

Everything that can go wrong with a program, by cause, and the one place where
the wording of each message is fixed.
-/

namespace CurriedScript

inductive LexFault where
  | unexpectedCharacter
  | unterminatedString
  | unterminatedComment
  | unopenedComment
  | unterminatedBuiltin
  | invalidEscape (letter : Char)
  | truncatedEscape
  | invalidCodePoint (value : Nat)
  | malformedNumber
  | reservedBang (word : String)
  deriving DecidableEq

def LexFault.codePointText (value : Nat) : String :=
  let digits := Text.hex value
  String.ofList ('0' :: 'x' :: List.replicate (4 - digits.length) '0' ++ digits)

def LexFault.message : LexFault → String
  | .unexpectedCharacter => "unexpected character"
  | .unterminatedString => "unterminated string"
  | .unterminatedComment => "unterminated comment"
  | .unopenedComment => "unopened comment"
  | .unterminatedBuiltin => "unterminated builtin literal"
  | .invalidEscape letter => "\\" ++ letter.toString ++ " is not an escape sequence"
  | .truncatedEscape => "\\x escape needs exactly 4 hex digits"
  | .invalidCodePoint value => codePointText value ++ " is not a unicode scalar value"
  | .malformedNumber => "wrong number literal"
  | .reservedBang word => "reserved word '" ++ word ++ "' cannot end in '!'"

inductive ParseFault where
  | missingModuleName
  | missingSemicolon
  | notBindable
  | missingLeftArrow
  | missingExpression
  | missingType
  | missingNextType
  | literalWithoutValue
  | loneBang
  | unclosedSection
  | unclosedGroup
  | missingParameters
  | missingParameterBar
  | emptyFunctionBody
  | unclosedFunction
  | missingCases
  | missingConditionBar
  | missingRightArrow
  | emptyCaseBody
  deriving DecidableEq

def ParseFault.message : ParseFault → String
  | .missingModuleName => "need a module name to import"
  | .missingSemicolon => "expect ';' at end of statement"
  | .notBindable => "can't assign to this"
  | .missingLeftArrow => "missing '<-'"
  | .missingExpression => "expect expression"
  | .missingType => "expected a type after ':'"
  | .missingNextType => "expected a type after '->'"
  | .literalWithoutValue => "literal without a value"
  | .loneBang => "'!' can only end an identifier"
  | .unclosedSection => "symbol expressions can only contain a symbol"
  | .unclosedGroup => "missing closing parenthesis"
  | .missingParameters => "argument list cannot be empty"
  | .missingParameterBar => "missing argument delimiter '|'"
  | .emptyFunctionBody => "function body cannot be empty"
  | .unclosedFunction => "unclosed function definition"
  | .missingCases => "cond needs at least one case"
  | .missingConditionBar => "missing condition delimiter '|'"
  | .missingRightArrow => "missing '->' after condition"
  | .emptyCaseBody => "case body cannot be empty"

inductive TypeFault where
  | undefinedOn (operation : String) (left right : ValueKind)
  | notAFloat (n : Int)
  | choiceNotBoolean (kind : ValueKind)
  | conditionNotBoolean (kind : ValueKind) (display : String)
  | emptyApplication
  deriving DecidableEq

def TypeFault.message : TypeFault → String
  | .undefinedOn operation left right =>
    operation ++ " is not defined for " ++ left.name ++ " and " ++ right.name
  | .notAFloat n => n.repr ++ " does not fit in a float"
  | .choiceNotBoolean kind => "if needs a boolean, got " ++ kind.name
  | .conditionNotBoolean kind display =>
    "condition must be a boolean, got " ++ kind.name ++ " " ++ display
  | .emptyApplication => "empty application"

inductive Error where
  | lex (line : Nat) (fault : LexFault)
  | parse (line : Nat) (lexeme : String) (fault : ParseFault)
  | unbound (name : String)
  | type (fault : TypeFault)
  | noMatch
  | notCallable (display : String)
  | moduleLoad (name reason : String)
  | unknownBuiltin (name : String)
  | arity (name : String) (expected found : Nat)
  | io (reason : String)
  | callLimit (limit : Nat)
  deriving DecidableEq

def Error.kind : Error → String
  | .lex .. => "LexError"
  | .parse .. => "ParseError"
  | .unbound _ => "NameError"
  | .type _ => "TypeError"
  | .noMatch => "NoMatchError"
  | .notCallable _ => "NotCallableError"
  | .moduleLoad .. => "ModuleLoadError"
  | .unknownBuiltin _ => "UnknownBuiltinError"
  | .arity .. => "ArityError"
  | .io _ => "IoError"
  | .callLimit _ => "CallLimitError"

def Error.detail : Error → String
  | .lex _ fault => fault.message
  | .parse _ _ fault => fault.message
  | .unbound name => "'" ++ name ++ "' is not bound"
  | .type fault => fault.message
  | .noMatch => "no case of the conditional matched"
  | .notCallable display => display ++ " is not a function"
  | .moduleLoad name reason => "cannot load '" ++ name ++ "': " ++ reason
  | .unknownBuiltin name => "no builtin named '" ++ name ++ "'"
  | .arity name expected found =>
    name ++ " expects " ++ expected.repr ++ " argument(s), got " ++ found.repr
  | .io reason => reason
  | .callLimit limit => "more than " ++ limit.repr ++ " function calls in one statement"

/-- Lexical and syntax errors say on which line they are. -/
def Error.message (e : Error) : String :=
  match e with
  | .lex line _ => "[line " ++ line.repr ++ "] " ++ e.kind ++ ": " ++ e.detail
  | .parse line lexeme _ =>
    "[line " ++ line.repr ++ "] " ++ e.kind ++ " at '" ++ lexeme ++ "': " ++ e.detail
  | _ => e.kind ++ ": " ++ e.detail

end CurriedScript
