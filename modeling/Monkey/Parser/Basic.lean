import Monkey.Parser.Cursor
import Monkey.Parser.Event

/-!
# The parser

The state of a parse: the cursor, what has been recorded so far, and two counters. `openBlocks` is
the number of blocks being read, `depth` the number of expressions and blocks; `depth` never goes
beyond `maxDepth`.

Results:
* `Parser.Ahead` orders the states of a parse: a later one has as many blocks open and no more to
  read. Everything the parser does leads ahead.
-/

namespace Monkey

/-- How deep expressions and blocks may be nested. -/
def maxDepth : Nat := 128

/-- The state of a parse. -/
structure Parser where
  cursor : Cursor
  diagnostics : Array Diagnostic
  events : Array Event
  openBlocks : Nat
  depth : Nat
deriving DecidableEq, Repr

namespace Parser

/-- A parser at the start of a stream. It has two tokens in view, so it has taken two. -/
def ofStream (stream : TokenStream) : Parser where
  cursor := .ofStream stream
  diagnostics := #[]
  events := #[.lexed stream.head, .lexed stream.tail.head]
  openBlocks := 0
  depth := 0

/-- A parser at the start of a text. -/
def ofText (text : String) (file : Option String) : Parser :=
  ofStream (.ofText text file)

/-- The token being read. -/
def current (p : Parser) : Token := p.cursor.current

/-- The token after it. -/
def peek (p : Parser) : Token := p.cursor.peek

/-- Where the current token starts. -/
def position (p : Parser) : Position := p.current.span.start

/-- Adds an event to the record. -/
def note (p : Parser) (event : Event) : Parser :=
  { p with events := p.events.push event }

/-- Moves on by one token, taking another from the stream. -/
def advance (p : Parser) : Parser :=
  { p with cursor := p.cursor.advance }.note (.lexed p.cursor.stream.head)

/-- Adds a diagnostic to the record. -/
def record (p : Parser) (diagnostic : Diagnostic) : Parser :=
  { p with diagnostics := p.diagnostics.push diagnostic }.note (.failed diagnostic)

/-- Enters a block. -/
def openBlock (p : Parser) : Parser :=
  { p with openBlocks := p.openBlocks + 1 }

/-- Leaves a block. -/
def closeBlock (p : Parser) : Parser :=
  { p with openBlocks := p.openBlocks - 1 }

/-- Enters an expression or a block. -/
def enter (p : Parser) : Parser :=
  { p with depth := p.depth + 1 }

/-- Leaves an expression or a block. -/
def leave (p : Parser) : Parser :=
  { p with depth := p.depth - 1 }

/-- Whether the statements being read end here: at the end of input, and in a block at a closing
brace. -/
def endsBody (p : Parser) : Bool :=
  p.current.kind == .eof || p.current.kind == .rbrace && 0 < p.openBlocks

theorem current_advance (p : Parser) : p.advance.current = p.peek := rfl

/-! ## Later states -/

theorem remaining_advance_lt {p : Parser} (h : p.current.kind ≠ .eof ∨ p.peek.kind ≠ .eof) :
    p.advance.cursor.remaining < p.cursor.remaining :=
  Cursor.remaining_advance_lt h

/-- `q` is a later state than `p`: as many blocks are open, the cursor has only moved on, no more is
left to read, and if just as much is left then the current token is of the same kind. What was
recorded stays recorded. -/
structure Ahead (p q : Parser) : Prop where
  openBlocks_eq : q.openBlocks = p.openBlocks
  moved : ∃ count, q.cursor = p.cursor.move count
  remaining_le : q.cursor.remaining ≤ p.cursor.remaining
  kind_eq : q.cursor.remaining = p.cursor.remaining → q.current.kind = p.current.kind
  diagnostics_kept : p.diagnostics.toList <+: q.diagnostics.toList
  events_kept : p.events.toList <+: q.events.toList

namespace Ahead

variable {p q r : Parser}

theorem refl (p : Parser) : Ahead p p :=
  ⟨rfl, ⟨0, rfl⟩, Nat.le_refl _, fun _ => rfl, List.prefix_rfl, List.prefix_rfl⟩

theorem trans (h : Ahead p q) (k : Ahead q r) : Ahead p r where
  openBlocks_eq := k.openBlocks_eq.trans h.openBlocks_eq
  moved := by
    obtain ⟨first, to_q⟩ := h.moved
    obtain ⟨second, to_r⟩ := k.moved
    exact ⟨first + second, by rw [Cursor.move_add, ← to_q, to_r]⟩
  remaining_le := Nat.le_trans k.remaining_le h.remaining_le
  kind_eq same := by
    have := h.remaining_le
    have := k.remaining_le
    rw [k.kind_eq (by omega), h.kind_eq (by omega)]
  diagnostics_kept := h.diagnostics_kept.trans k.diagnostics_kept
  events_kept := h.events_kept.trans k.events_kept

theorem kept_push {α : Type} (entries : Array α) (entry : α) :
    entries.toList <+: (entries.push entry).toList := by
  rw [Array.toList_push]
  exact List.prefix_append _ _

theorem advance (p : Parser) : Ahead p p.advance where
  openBlocks_eq := rfl
  moved := ⟨1, rfl⟩
  remaining_le := p.cursor.remaining_advance_le
  kind_eq same := by
    by_cases h : p.current.kind ≠ .eof ∨ p.peek.kind ≠ .eof
    · exact absurd same (Nat.ne_of_lt (remaining_advance_lt h))
    · simp only [ne_eq, not_or, Decidable.not_not] at h
      exact h.2.trans h.1.symm
  diagnostics_kept := List.prefix_rfl
  events_kept := kept_push _ _

theorem record (p : Parser) (diagnostic : Diagnostic) : Ahead p (p.record diagnostic) :=
  ⟨rfl, ⟨0, rfl⟩, Nat.le_refl _, fun _ => rfl, kept_push _ _, kept_push _ _⟩

theorem note (p : Parser) (event : Event) : Ahead p (p.note event) :=
  ⟨rfl, ⟨0, rfl⟩, Nat.le_refl _, fun _ => rfl, List.prefix_rfl, kept_push _ _⟩

/-- A state that is ahead stands where statements end only if it has moved or the first does. -/
theorem endsBody_eq (h : Ahead p q) (same : q.cursor.remaining = p.cursor.remaining) :
    q.endsBody = p.endsBody := by
  simp [endsBody, h.kind_eq same, h.openBlocks_eq]

end Ahead

end Parser

end Monkey
