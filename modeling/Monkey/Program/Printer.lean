import Monkey.Program.Basic

/-!
# Printing programs

Every operator is written with its operands in parentheses, so the printed text has no need of
precedence. Statements follow one another without a blank; `let` and `return` end in a semicolon,
an expression statement ends in nothing. Braces are not written.
-/

namespace Monkey

mutual

/-- The text of an expression. -/
def Expr.text : Expr → String
  | .ident name => name.value
  | .int token _ => token.value
  | .bool token _ => token.value
  | .unary _ operator operand => "(" ++ operator ++ operand.text ++ ")"
  | .binary _ left operator right =>
    "(" ++ left.text ++ " " ++ operator ++ " " ++ right.text ++ ")"
  | .cond _ condition consequence none => "if" ++ condition.text ++ " " ++ consequence.text
  | .cond _ condition consequence (some alternative) =>
    "if" ++ condition.text ++ " " ++ consequence.text ++ "else " ++ alternative.text
  | .func token params body =>
    token.value ++ "(" ++ ", ".intercalate (params.map (·.value)) ++ ") " ++ body.text

/-- The text of a statement. -/
def Stmt.text : Stmt → String
  | .bind token name value => token.value ++ " " ++ name.value ++ " = " ++ value.text ++ ";"
  | .ret token value => token.value ++ " " ++ value.text ++ ";"
  | .expr _ expression => expression.text

/-- The text of a block. -/
def Block.text : Block → String
  | .mk _ body => textOfStatements body

/-- The texts of statements, one after another. -/
def textOfStatements : List Stmt → String
  | [] => ""
  | statement :: rest => statement.text ++ textOfStatements rest

end

/-- The text of a program. -/
def Program.text (program : Program) : String :=
  textOfStatements program.statements

end Monkey
