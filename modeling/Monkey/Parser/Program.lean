import Monkey.Parser.Statement

/-!
# Reading programs

`Level.of n` reads expressions and blocks nested up to `n` deep. A parser that has entered some
levels reads at the level that is left to it, so nesting never goes beyond `maxDepth`. `parse` reads
a whole text: it always gives a program, without the statements that could not be read, and a
diagnostic for each of those.

Results:
* `Parser.endsBody_program`: a program is read to its end.
-/

namespace Monkey

/-- The level at which expressions and blocks hold those of another level. -/
def Level.above (below : Level) : Level :=
  ⟨fun power => .nested (.expression below power), .nested (.block below)⟩

/-- The level at which expressions and blocks nest up to the given depth. -/
def Level.of : Nat → Level
  | 0 => .lowest
  | depth + 1 => .above (.of depth)

/-- The level left to a parser. -/
def Parser.level (p : Parser) : Level :=
  .of (maxDepth - p.depth)

/-- A rule at the level left to the parser. -/
def Rule.atDepth {α : Type} (rule : Level → Rule α) : Rule α :=
  ⟨fun p => (rule p.level).run p, fun p => (rule p.level).ahead p⟩

/-- Reads a program. -/
def Parser.program (p : Parser) : Program × Parser :=
  let (statements, q) := (p.note (.started p.position.file)).statements p.level
  (⟨statements⟩, q.note (.finished statements.length q.diagnostics.size))

theorem Parser.endsBody_program (p : Parser) : p.program.2.endsBody = true :=
  endsBody_statements p.level (p.note (.started p.position.file))

/-- What a parse gives: a program, what is wrong with the text, and what the parser did. -/
structure Parsed where
  program : Program
  diagnostics : List Diagnostic
  events : Array Event

/-- Reads a text that may have a name. -/
def parse (text : String) (file : Option String) : Parsed :=
  let (program, p) := (Parser.ofText text file).program
  ⟨program, p.diagnostics.toList, p.events⟩

end Monkey
