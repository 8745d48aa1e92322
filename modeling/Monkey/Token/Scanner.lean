import Monkey.Token.Lexer

/-!
# The scanner

A scanner reads a text through a cursor. `pos` is the offset of the byte `ch` it looks at, `readPos`
the offset of the byte after that one; past the end `ch` is zero and `pos` stays where the text ends.

A token that is more than one byte is cut out of the text. Cuts are at offsets in bytes, and there is
no slice of a text that begins or ends inside a character: `Text.slice?` gives none then, and with it
the step that asked for the slice.

Results:
* `Scanner.unread_readChar`: reading a byte other than zero is progress, so runs of bytes end.
-/

namespace Monkey

/-! ## Slices of a text -/

namespace Text

/-- What comes before an offset and what comes after it, unless it lies inside a character or past
the end. -/
def cut? : List Char → Nat → Option (List Char × List Char)
  | text, 0 => some ([], text)
  | [], _ + 1 => none
  | c :: text, offset + 1 =>
    if offset + 1 < c.utf8Size then none
    else (cut? text (offset + 1 - c.utf8Size)).map fun (before, after) => (c :: before, after)

/-- The text between two offsets, if it can be cut there. -/
def slice? (text : String) (start stop : Nat) : Option String :=
  if start ≤ stop then do
    let (_, rest) ← cut? text.toList start
    let (piece, _) ← cut? rest (stop - start)
    return String.ofList piece
  else none

end Text

/-! ## Tables -/

namespace Kind

/-- The operators of two bytes. -/
def pairs : List (String × Kind) := [("==", eq), ("!=", notEq)]

/-- The kind of an operator of two bytes. -/
def ofPair? (literal : String) : Option Kind :=
  pairs.lookup literal

/-- The kind of a byte that is a token by itself, where a zero byte is an `eof`. -/
def ofByte? (byte : UInt8) : Option Kind :=
  ((0, eof) :: symbols).lookup byte

end Kind

/-! ## The cursor -/

/-- A text and a cursor in it. -/
structure Scanner where
  source : String
  file : String
  pos : Nat
  readPos : Nat
  ch : UInt8
deriving DecidableEq, Repr

namespace Scanner

/-- How many bytes the text has. -/
def size (s : Scanner) : Nat :=
  (Text.utf8 s.source).length

/-- The byte after the current one, or zero past the end. -/
def peekChar (s : Scanner) : UInt8 :=
  (Text.utf8 s.source).getD s.readPos 0

/-- Moves on by a byte, but not past the end. -/
def readChar (s : Scanner) : Scanner :=
  { s with
    ch := s.peekChar
    pos := min s.readPos s.size
    readPos := min (s.readPos + 1) (s.size + 1) }

/-- A scanner at the first byte of a text. -/
def ofText (text : String) (file : Option String) : Scanner :=
  readChar ⟨text, file.getD Lexer.defaultFile, 0, 0, 0⟩

/-- How many times a byte other than zero can still be read. -/
def unread (s : Scanner) : Nat :=
  s.size + 1 - s.readPos + if s.ch = 0 then 0 else 1

theorem unread_readChar {s : Scanner} (h : s.ch ≠ 0) : s.readChar.unread < s.unread := by
  have size : s.readChar.size = s.size := rfl
  rw [unread, unread, if_neg h, size]
  have moved : s.readChar.readPos = min (s.readPos + 1) (s.size + 1) := rfl
  by_cases inside : s.readPos < s.size
  · split <;> omega
  · have zero : s.readChar.ch = 0 := by
      simp [readChar, peekChar, List.getElem?_eq_none (Nat.le_of_not_lt inside)]
    rw [if_pos zero]
    omega

/-- Moves on as far as bytes are accepted. Zero never is, so this ends with the text. -/
def skipWhile (accept : UInt8 → Bool) (stops : accept 0 = false) (s : Scanner) : Scanner :=
  if _h : accept s.ch then skipWhile accept stops s.readChar else s
termination_by s.unread
decreasing_by exact unread_readChar fun zero => by simp [zero, stops] at _h

/-- The span from the cursor to an offset. -/
def spanTo (s : Scanner) (stop : Nat) : Span :=
  ⟨⟨s.pos, s.file⟩, ⟨stop, s.file⟩⟩

/-! ## Tokens -/

/-- Reads an operator of two bytes. -/
def readPair (s : Scanner) : Option (Token × Scanner) := do
  let second := s.readChar
  let literal ← Text.slice? s.source s.pos (second.pos + 1)
  let after := second.readChar
  return (⟨(Kind.ofPair? literal).getD .illegal, literal, s.spanTo after.pos⟩, after)

/-- Reads a byte that is a token by itself. An `eof` says nothing and spans nothing. -/
def readSymbol (kind : Kind) (s : Scanner) : Token × Scanner :=
  let literal := if kind = .eof then "" else String.singleton (Char.ofNat s.ch.toNat)
  let stop := if kind = .eof then s.pos else s.pos + 1
  (⟨kind, literal, s.spanTo stop⟩, s.readChar)

/-- Reads a run of bytes as one token. -/
def readRun (accept : UInt8 → Bool) (stops : accept 0 = false) (kind : String → Kind)
    (s : Scanner) : Option (Token × Scanner) := do
  let after := s.skipWhile accept stops
  let literal ← Text.slice? s.source s.pos after.pos
  return (⟨kind literal, literal, s.spanTo after.pos⟩, after)

/-- Reads a byte that begins no token. -/
def readStray (s : Scanner) : Token × Scanner :=
  (⟨.illegal, Text.ofBytes [s.ch], s.spanTo (s.pos + 1)⟩, s.readChar)

/-- Reads the token that begins at the cursor. -/
def readToken (s : Scanner) : Option (Token × Scanner) :=
  if (s.ch = '='.toUInt8 ∨ s.ch = '!'.toUInt8) ∧ s.peekChar = '='.toUInt8 then s.readPair
  else match Kind.ofByte? s.ch with
    | some kind => some (s.readSymbol kind)
    | none =>
      if isLetter s.ch then s.readRun isLetter (by decide) Kind.ofWord
      else if isDigit s.ch then s.readRun isDigit (by decide) fun _ => .int
      else some s.readStray

/-- Skips blanks, reads a token and moves past it. -/
def next (s : Scanner) : Option (Token × Scanner) :=
  (s.skipWhile isBlank (by decide)).readToken

/-- The scanner after some calls of `next`. -/
def after (s : Scanner) : Nat → Option Scanner
  | 0 => some s
  | n + 1 => do
    let t ← s.after n
    let (_, u) ← t.next
    return u

end Scanner

end Monkey
