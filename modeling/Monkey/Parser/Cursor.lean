import Monkey.Token.Stream

/-!
# The cursor of the parser

The parser sees two tokens of a stream, the current one and the one after it. `remaining` measures
what is still to be read: it counts three for each token the stream holds, two for the lookahead and
one for the current token, the last two only if they are not `eof`. So an `eof` token of a zero byte
still in the stream counts, and the end of input does not.

Results:
* `Cursor.remaining_advance_le`, `remaining_advance_lt`: moving on never reads backwards, and
  unless everything is read it leaves less.
-/

namespace Monkey

/-- Two tokens in view, and those after them. -/
structure Cursor where
  current : Token
  peek : Token
  stream : TokenStream
deriving DecidableEq, Repr

/-- One for a token, none for the end of input. -/
def Token.weight (token : Token) : Nat :=
  if token.kind = .eof then 0 else 1

namespace Cursor

/-- A view of the first two tokens of a stream. -/
def ofStream (stream : TokenStream) : Cursor :=
  ⟨stream.head, stream.tail.head, stream.tail.tail⟩

/-- Moves on by one token. -/
def advance (cursor : Cursor) : Cursor :=
  ⟨cursor.peek, cursor.stream.head, cursor.stream.tail⟩

/-- Moves on by a number of tokens. -/
def move (cursor : Cursor) : Nat → Cursor
  | 0 => cursor
  | count + 1 => cursor.advance.move count

theorem move_add (cursor : Cursor) (first second : Nat) :
    cursor.move (first + second) = (cursor.move first).move second := by
  induction first generalizing cursor with
  | zero => rw [Nat.zero_add, move]
  | succ first ih => rw [Nat.succ_add, move, move, ih]

/-- A measure of what is still to be read. -/
def remaining (cursor : Cursor) : Nat :=
  3 * cursor.stream.pending.length + 2 * cursor.peek.weight + cursor.current.weight

theorem weight_le (token : Token) : token.weight ≤ 1 := by
  unfold Token.weight
  split <;> omega

theorem weight_pos {token : Token} (h : token.kind ≠ .eof) : 0 < token.weight := by
  simp [Token.weight, h]

theorem weight_endOfInput (position : Position) : (Token.endOfInput position).weight = 0 := rfl

/-- Moving on leaves one less, if anything is left. -/
theorem remaining_advance (cursor : Cursor) :
    cursor.advance.remaining ≤ cursor.remaining - 1 := by
  obtain ⟨current, peek, ⟨pending, finish⟩⟩ := cursor
  have one := weight_le peek
  cases pending with
  | nil =>
    change 3 * 0 + 2 * (Token.endOfInput finish).weight + peek.weight ≤
      3 * 0 + 2 * peek.weight + current.weight - 1
    rw [weight_endOfInput]
    omega
  | cons token rest =>
    have two := weight_le token
    change 3 * rest.length + 2 * token.weight + peek.weight ≤
      3 * (rest.length + 1) + 2 * peek.weight + current.weight - 1
    omega

theorem remaining_advance_le (cursor : Cursor) : cursor.advance.remaining ≤ cursor.remaining :=
  Nat.le_trans cursor.remaining_advance (Nat.sub_le _ 1)

theorem remaining_advance_lt {cursor : Cursor}
    (h : cursor.current.kind ≠ .eof ∨ cursor.peek.kind ≠ .eof) :
    cursor.advance.remaining < cursor.remaining := by
  have left : 0 < cursor.remaining := by
    unfold remaining
    rcases h with h | h <;> have := weight_pos h <;> omega
  have := cursor.remaining_advance
  omega

end Cursor

end Monkey
