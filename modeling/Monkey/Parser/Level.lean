import Monkey.Grammar.BindingPower
import Monkey.Parser.Rule
import Monkey.Program.Basic

/-!
# Levels of nesting

Expressions and blocks contain one another. A `Level` is the rules for both with a bound on how deep
they nest: each rule of the grammar is given the level below its own, and the lowest level refuses
everything.
-/

namespace Monkey

/-- Rules that read an expression, of which every operator binds tighter than a power, and a block,
down to some depth of nesting. -/
structure Level where
  expr : BindingPower → Rule Expr
  block : Rule Block

/-- Stops at the current token for want of depth. -/
def Rule.tooDeep {α : Type} : Rule α := do
  let token ← Rule.current
  Rule.fail (.tooDeep maxDepth) token.span.start

/-- The level at which nothing more is read. -/
def Level.lowest : Level :=
  ⟨fun _ => .tooDeep, .tooDeep⟩

end Monkey
