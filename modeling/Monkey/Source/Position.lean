/-!
# Positions and spans in a source

A position is a byte offset together with the name of the text it points into; a span runs from
its first byte to the byte after its last. Lexing keeps the name in every token, so a diagnostic
can say where it is without the text at hand.

An offset is the number of bytes itself. The program keeps it in 32 bits, where it is the same number
for every text of fewer than 2^32 bytes; `Position.narrow` is what is kept of it for others.
-/

namespace Monkey

/-- A byte offset in a named text. -/
structure Position where
  offset : Nat
  file : String
deriving DecidableEq, Repr, Inhabited

/-- What 32 bits keep of a position. -/
def Position.narrow (position : Position) : Position :=
  ⟨position.offset.toUInt32.toNat, position.file⟩

/-- The position of what stands in no text. -/
def Position.null : Position := ⟨0, "<null>"⟩

/-- The bytes from `start` up to, and without, `stop`. -/
structure Span where
  start : Position
  stop : Position
deriving DecidableEq, Repr, Inhabited

end Monkey
