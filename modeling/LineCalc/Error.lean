import LineCalc.Expr.Basic

/-!
# Errors

Everything that can go wrong with a line: it is no statement, its evaluation fails, or the store of
variables refuses an operation. Each error is a cause with its data; the wording is in the functions
called `message`. The specification has these as `ParseError`, `EvalError` and `SymbolError`, with
the sum `Error` of the three (10.9).

* `nestingLimit` bounds the depth of a statement's tree and the nesting of its parentheses. It is
  `MAX_NESTING` of the specification (10.6).
* `SyntaxError` knows the line it was found on.
* `EvalError` is raised by a node, and `EvalError.node` tells which.
* `StoreError` names the variable.
* `Error` is any of the three; only a syntax error is announced as such.
-/

namespace LineCalc

/-! ## Syntax errors -/

/-- The greatest depth of a tree that is read, and the greatest nesting of parentheses. -/
def nestingLimit : Nat := 256

/-- A reason why a line is no statement. -/
inductive SyntaxError where
  /-- A character that starts no token, or a token that cannot stand where it stands. -/
  | unexpectedToken (token : String) (line : Nat)
  /-- The line stops where more has to follow. -/
  | unexpectedEnd (line : Nat)
  /-- The parenthesis opened on this line is not closed where it has to be. -/
  | unclosed (line : Nat)
  /-- A numeral that is beyond the greatest finite number. -/
  | outOfRange (numeral : String) (line : Nat)
  /-- The statement is nested beyond the limit. -/
  | tooDeep (line : Nat)
  /-- A token behind the end of the statement. -/
  | trailing (token : String) (line : Nat)
  deriving DecidableEq

namespace SyntaxError

/-- The line that the error was found on. -/
def line : SyntaxError → Nat
  | unexpectedToken _ line => line
  | unexpectedEnd line => line
  | unclosed line => line
  | outOfRange _ line => line
  | tooDeep line => line
  | trailing _ line => line

/-- What is wrong, without the line. -/
def reason : SyntaxError → String
  | unexpectedToken token _ => "Unexpected token: " ++ token ++ "."
  | unexpectedEnd _ => "Unexpected end of input."
  | unclosed _ => "Expected closing parenthesis ')' but none found."
  | outOfRange numeral _ => "Number out of range: " ++ numeral ++ "."
  | tooDeep _ =>
    "Expression is nested more than " ++ toString nestingLimit ++ " levels deep."
  | trailing token _ => "Extra tokens after expression. Check your input: " ++ token

/-- The message for a syntax error. -/
def message (e : SyntaxError) : String := "Error on line " ++ toString e.line ++ ": " ++ e.reason

end SyntaxError

/-! ## Errors of evaluation and of the store -/

/-- A reason why a node has no value. -/
inductive EvalError where
  /-- A variable was read or assigned that is not declared. -/
  | undefined (name : String) (node : NodeId)
  /-- A node is not put together as it has to be. -/
  | malformed (details : String) (node : NodeId)
  /-- A node of the given kind carries an operator that does not fit it. -/
  | misplaced (op : Operator) (kind : NodeKind) (node : NodeId)
  /-- The right operand of a division or remainder is zero. -/
  | divisionByZero (node : NodeId)
  /-- The store refused a value for a variable. -/
  | assignmentFailed (name : String) (node : NodeId)
  deriving DecidableEq

namespace EvalError

/-- The node that the error arose at. -/
def node : EvalError → NodeId
  | undefined _ node => node
  | malformed _ node => node
  | misplaced _ _ node => node
  | divisionByZero node => node
  | assignmentFailed _ node => node

/-- The message for an error of evaluation. -/
def message : EvalError → String
  | undefined name _ => "Symbol \"" ++ name ++ "\" is not defined."
  | malformed details node => "Invalid node #" ++ toString node ++ ": " ++ details ++ "."
  | misplaced op kind node =>
    "Invalid " ++ kind.name ++ " operator '" ++ op.symbol ++ "' on node #" ++ toString node ++ "."
  | divisionByZero _ => "Division by zero."
  | assignmentFailed name _ => "Assignment to symbol \"" ++ name ++ "\" failed: symbol not found."

end EvalError

/-- A reason why the store of variables refuses an operation. -/
inductive StoreError where
  /-- The variable is declared already. -/
  | alreadyDeclared (name : String)
  /-- The variable is not declared. -/
  | notDeclared (name : String)
  /-- The variable is declared and has no value yet. -/
  | notAssigned (name : String)
  deriving DecidableEq

/-- The message for an error of the store. -/
def StoreError.message : StoreError → String
  | alreadyDeclared name => "Symbol '" ++ name ++ "' is already declared."
  | notDeclared name => "Symbol '" ++ name ++ "' is not declared."
  | notAssigned name => "Symbol '" ++ name ++ "' has not been assigned a value."

/-- Anything that can go wrong with a line. -/
inductive Error where
  | parsing (error : SyntaxError)
  | evaluation (error : EvalError)
  | store (error : StoreError)
  deriving DecidableEq

namespace Error

/-- The message of the cause. -/
def cause : Error → String
  | parsing e => e.message
  | evaluation e => e.message
  | store e => e.message

/-- The message for an error. -/
def message : Error → String
  | parsing e => "syntax error: " ++ e.message
  | evaluation e => e.message
  | store e => e.message

end Error

end LineCalc
