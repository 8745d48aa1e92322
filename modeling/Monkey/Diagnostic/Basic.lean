import Monkey.Source.Position
import Monkey.Text.Decimal
import Monkey.Text.Quoted
import Monkey.Token.Kind

/-!
# Diagnostics

A diagnostic is a cause and the position it was found at. The wording of each cause is here: its
name, its message, and the tip that a report adds to the name.
-/

namespace Monkey

/-- What can be wrong with a statement. -/
inductive Cause where
  | unexpected (expected got : Kind)
  | noOperand (kind : Kind)
  | integerTooLarge (literal : String)
  | tooDeep (limit : Nat)
deriving DecidableEq, Repr, Inhabited

namespace Cause

/-- The name that reports give a cause. -/
def name : Cause → String
  | unexpected _ _ => "UnexpectedToken"
  | noOperand _ => "NoPrefixParseFn"
  | integerTooLarge _ => "IntegerParseError"
  | tooDeep _ => "NestingTooDeep"

/-- One line that says what is wrong. -/
def message : Cause → String
  | unexpected expected got =>
    "expected next token to be " ++ expected.name ++ ", got " ++ got.name ++ " instead"
  | noOperand kind => "no prefix parse function for " ++ kind.name ++ " found"
  | integerTooLarge literal => "could not parse " ++ Text.quote literal ++ " as integer"
  | tooDeep limit =>
    "expression nesting exceeds maximum depth of " ++ Text.decimal limit

/-- What may help to set it right. -/
def tip? : Cause → Option String
  | unexpected expected got =>
    some ("Expected `" ++ expected.name ++ "` here, found `" ++ got.name ++ "`")
  | noOperand kind => some ("`" ++ kind.name ++ "` cannot start an expression")
  | integerTooLarge literal =>
    some ("Invalid integer: `" ++ literal ++ "`, is it above the integer limit?")
  | tooDeep _ => none

end Cause

/-- A cause, and where it was found. -/
structure Diagnostic where
  cause : Cause
  position : Position
deriving DecidableEq, Repr, Inhabited

/-- One line that says what is wrong. -/
def Diagnostic.message (diagnostic : Diagnostic) : String :=
  diagnostic.cause.message

end Monkey
