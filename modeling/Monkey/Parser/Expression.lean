import Monkey.Grammar.Table
import Monkey.Parser.Level
import Monkey.Text.Decimal

/-!
# Reading expressions

An expression is an operand and then, as long as they bind tightly enough, operators with operands
of their own. Every rule starts with its first token as the current one, an operator with the
operator, and ends with its last token as the current one. The rules take the level that the
expressions and blocks inside them are read at.

Results:
* `Rule.continues_eof`: no expression goes on past the end of input.
-/

namespace Monkey

/-- The largest integer, the last of 63 binary digits. -/
def maxInteger : Nat := 9223372036854775807

namespace Rule

/-- An identifier, an integer or a truth value. -/
def primary : Rule Expr := do
  let token ← current
  match token.kind with
  | .int =>
    let value := Text.ofDecimal token.value
    if value ≤ maxInteger then return .int token value
    else fail (.integerTooLarge token.value) token.span.start
  | .ident => return .ident (.ofToken token)
  | .kwTrue => return .bool token true
  | .kwFalse => return .bool token false
  | kind => fail (.noOperand kind) token.span.start

/-- An operator and its operand. -/
def unary (level : Level) : Rule Expr := do
  let token ← current
  advance
  let operand ← level.expr .unary
  return .unary token token.value operand

/-- An operator after its left operand, and its right operand. -/
def binary (level : Level) (left : Expr) (power : BindingPower) : Rule Expr := do
  let token ← current
  advance
  let right ← level.expr power
  return .binary token left token.value right

/-- An expression in parentheses, which leave no trace in it. -/
def group (level : Level) : Rule Expr := do
  advance
  let inner ← level.expr .lowest
  expect .rparen
  return inner

/-- A block that the next token has to begin. -/
def nextBlock (level : Level) : Rule Block := do
  expect .lbrace
  level.block

/-- A condition in parentheses, a block, and `else` with another block if there is one. -/
def cond (level : Level) : Rule Expr := do
  let token ← current
  expect .lparen
  advance
  let condition ← level.expr .lowest
  expect .rparen
  let consequence ← nextBlock level
  if (← peek).kind = .kwElse then
    advance
    let alternative ← nextBlock level
    return .cond token condition consequence (some alternative)
  else
    return .cond token condition consequence none

/-- A parameter that the next token has to be. -/
def nextParam : Rule Ident := do
  expect .ident
  return .ofToken (← current)

/-- The parameters between parentheses, from the opening one to the closing one. -/
def params : Rule (List Ident) := do
  if (← peek).kind = .rparen then
    advance
    return []
  else
    let first ← nextParam
    let all ← repeatWhile (· == .comma) rfl (fun names => return names ++ [← nextParam]) [first]
    expect .rparen
    return all

/-- Parameters in parentheses and a block. -/
def func (level : Level) : Rule Expr := do
  let token ← current
  expect .lparen
  let names ← params
  let body ← nextBlock level
  return .func token names body

/-- An operand of the given form. -/
def operandOf (level : Level) : OperandForm → Rule Expr
  | .primary => primary
  | .unary => unary level
  | .group => group level
  | .cond => cond level
  | .func => func level

/-- An operand, of the form that the kind of its first token says. -/
def operand (level : Level) : Rule Expr := do
  let token ← current
  match Grammar.standard.operand token.kind with
  | some form => operandOf level form
  | none => fail (.noOperand token.kind) token.span.start

/-- Whether a kind continues an expression in which operators bind tighter than `power`. -/
def continues (power : BindingPower) (kind : Kind) : Bool :=
  kind != .semicolon && power < Grammar.standard.power kind

theorem continues_eof (power : BindingPower) : continues power .eof = false := by
  simp [continues, Grammar.not_lt_power_eof]

/-- The operators after a left operand, and their right operands. -/
def operators (level : Level) (power : BindingPower) (left : Expr) : Rule Expr :=
  repeatWhile (continues power) (continues_eof power)
    (fun left => do binary level left (Grammar.standard.power (← current).kind)) left

/-- An expression in which every operator binds tighter than `power`. -/
def expression (level : Level) (power : BindingPower) : Rule Expr := do
  let left ← operand level
  operators level power left

end Rule

end Monkey
