import Monkey.Token.Basic

/-!
# Programs

A program is a list of statements. Every node keeps the token it was read from: its first token,
except that a binary expression keeps its operator. A block is a statement list in braces, with the
opening brace as its token.
-/

namespace Monkey

/-- A name. -/
structure Ident where
  token : Token
  value : String
deriving DecidableEq, Repr, Inhabited

/-- The name an identifier token spells. -/
def Ident.ofToken (token : Token) : Ident := ⟨token, token.value⟩

mutual

/-- An expression. Operators are kept as they were written. -/
inductive Expr where
  | ident (name : Ident)
  | int (token : Token) (value : Int)
  | bool (token : Token) (value : Bool)
  | unary (token : Token) (operator : String) (operand : Expr)
  | binary (token : Token) (left : Expr) (operator : String) (right : Expr)
  | cond (token : Token) (condition : Expr) (consequence : Block) (alternative : Option Block)
  | func (token : Token) (params : List Ident) (body : Block)

/-- A statement. The token of an expression statement is the first one of the expression. -/
inductive Stmt where
  | bind (token : Token) (name : Ident) (value : Expr)
  | ret (token : Token) (value : Expr)
  | expr (token : Token) (expression : Expr)

/-- Statements in braces. -/
inductive Block where
  | mk (token : Token) (body : List Stmt)

end

instance : Inhabited Expr := ⟨.ident default⟩
instance : Inhabited Stmt := ⟨.expr default default⟩
instance : Inhabited Block := ⟨.mk default []⟩

/-- The token an expression was read from. -/
def Expr.token : Expr → Token
  | ident name => name.token
  | int token _ | bool token _ | unary token _ _ | binary token _ _ _ | cond token _ _ _
  | func token _ _ => token

/-- The token a statement was read from. -/
def Stmt.token : Stmt → Token
  | bind token _ _ | ret token _ | expr token _ => token

/-- The opening brace. -/
def Block.token : Block → Token
  | mk token _ => token

/-- The statements between the braces. -/
def Block.body : Block → List Stmt
  | mk _ body => body

/-- A whole program. -/
structure Program where
  statements : List Stmt
deriving Inhabited

namespace Program

/-- How many statements a program has. -/
def size (program : Program) : Nat := program.statements.length

/-- Whether a program has no statement. -/
def isEmpty (program : Program) : Bool := program.statements.isEmpty

/-- What the first token of a program says, nothing for a program with no statement. -/
def tokenLiteral (program : Program) : String :=
  (program.statements.head?.map (·.token.value)).getD ""

end Program

end Monkey
