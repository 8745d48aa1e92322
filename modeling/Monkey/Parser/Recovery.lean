import Monkey.Grammar.Table
import Monkey.Parser.Basic

/-!
# Recovery

After a diagnostic the parser gives up the statement and skips to where another may begin: past the
next semicolon, before the next token that begins a statement by itself, or where the statements it
reads end. Braces opened on the way are skipped with what is in them.

Results:
* `Parser.ahead_recover`: recovery leads ahead.
* `Parser.remaining_recover_lt`: it leaves less to read, unless it starts where statements end.
-/

namespace Monkey

/-- Whether a kind begins a statement by itself. -/
def Kind.beginsStatement (kind : Kind) : Bool :=
  (Grammar.standard.statement kind).isSome

/-- How many braces are open after a token, of those opened while skipping. -/
def Kind.bracesAfter (kind : Kind) (braces : Nat) : Nat :=
  match kind with
  | .lbrace => braces + 1
  | .rbrace => braces - 1
  | _ => braces

theorem Kind.bracesAfter_other {kind : Kind} (lbrace : kind ≠ .lbrace) (rbrace : kind ≠ .rbrace)
    (braces : Nat) : kind.bracesAfter braces = braces := by
  unfold bracesAfter
  split
  · exact absurd rfl lbrace
  · exact absurd rfl rbrace
  · rfl

namespace Parser

/-- Skips to where another statement may begin, inside a number of braces to be skipped first. -/
def skipStatement (braces : Nat) (p : Parser) : Parser :=
  if p.current.kind = .eof ∨ braces = 0 ∧ p.endsBody then p
  else if braces = 0 ∧ p.current.kind = .semicolon then p.advance
  else
    let left := p.current.kind.bracesAfter braces
    if left = 0 ∧ p.peek.kind.beginsStatement then p.advance else skipStatement left p.advance
termination_by p.cursor.remaining
decreasing_by exact remaining_advance_lt (.inl (by simp_all))

/-- Records a diagnostic and skips the statement it stopped. -/
def recover (p : Parser) (diagnostic : Diagnostic) : Parser :=
  let q := (p.record diagnostic).skipStatement 0
  q.note (.resynchronised p.position.offset q.position.offset)

theorem ahead_skipStatement (braces : Nat) (p : Parser) : p.Ahead (p.skipStatement braces) := by
  fun_induction skipStatement braces p with
  | case1 => exact .refl _
  | case2 => exact .advance _
  | case3 => exact .advance _
  | case4 braces p _ _ left _ ih => exact (Ahead.advance p).trans ih

/-- Skipping reads a token or more, unless statements end here. -/
theorem remaining_skipStatement_lt {p : Parser} (h : p.endsBody = false) :
    (p.skipStatement 0).cursor.remaining < p.cursor.remaining := by
  have not_eof : p.current.kind ≠ .eof := fun eof => by simp [endsBody, eof] at h
  have less := remaining_advance_lt (.inl not_eof)
  unfold skipStatement
  rw [if_neg (by simp [not_eof, h])]
  split
  · exact less
  · dsimp only
    split
    · exact less
    · exact Nat.lt_of_le_of_lt (ahead_skipStatement _ _).remaining_le less

theorem ahead_recover (p : Parser) (diagnostic : Diagnostic) : p.Ahead (p.recover diagnostic) :=
  ((Ahead.record p diagnostic).trans (ahead_skipStatement 0 _)).trans (.note _ _)

theorem remaining_recover_lt {p : Parser} (h : p.endsBody = false) (diagnostic : Diagnostic) :
    (p.recover diagnostic).cursor.remaining < p.cursor.remaining :=
  remaining_skipStatement_lt (p := p.record diagnostic) h

end Parser

end Monkey
