import Monkey.Text.Utf8
import Monkey.Token.Basic

/-!
# Lexing

`Lexeme.read` takes the longest lexeme at the start of some bytes. `Lexer.next` skips blanks, reads
one lexeme and places it in the source. A zero byte reads as an `eof` token like the end of input,
with the difference that the lexer moves past it; at the end of input it stays where it is.

Results:
* `Lexeme.read_append_drop`: a lexeme is the text it was read from.
* `Lexer.next_rest_length_lt`: unless the input is used up, a step consumes some of it.
* `Lexer.next_of_atEnd`: at the end of input every step gives the same `eof` token.
-/

namespace Monkey

/-! ## Classes of bytes -/

/-- Space, tab, line feed and carriage return separate tokens. -/
def isBlank (byte : UInt8) : Bool :=
  byte == 0x20 || byte == 0x09 || byte == 0x0A || byte == 0x0D

/-- The bytes of words: ASCII letters, the underscore and the question mark. -/
def isLetter (byte : UInt8) : Bool :=
  ('a'.toUInt8 ≤ byte && byte ≤ 'z'.toUInt8) || ('A'.toUInt8 ≤ byte && byte ≤ 'Z'.toUInt8) ||
    byte == '_'.toUInt8 || byte == '?'.toUInt8

/-- The ASCII digits. -/
def isDigit (byte : UInt8) : Bool :=
  '0'.toUInt8 ≤ byte && byte ≤ '9'.toUInt8

/-! ## Lexemes -/

/-- A kind and the bytes that were read as one token of it. -/
structure Lexeme where
  kind : Kind
  bytes : List UInt8
deriving DecidableEq, Repr

namespace Lexeme

/-- The longest lexeme at the start of `bytes`, which has no bytes only if they are used up. -/
def read : List UInt8 → Lexeme
  | [] => ⟨.eof, []⟩
  | byte :: rest =>
    if byte = 0 then ⟨.eof, [byte]⟩
    else if byte = '='.toUInt8 ∧ rest.head? = some '='.toUInt8 then ⟨.eq, [byte, '='.toUInt8]⟩
    else if byte = '!'.toUInt8 ∧ rest.head? = some '='.toUInt8 then ⟨.notEq, [byte, '='.toUInt8]⟩
    else match Kind.ofSymbol? byte with
      | some kind => ⟨kind, [byte]⟩
      | none =>
        if isLetter byte then
          let word := byte :: rest.takeWhile isLetter
          ⟨.ofWord (Text.ofBytes word), word⟩
        else if isDigit byte then ⟨.int, byte :: rest.takeWhile isDigit⟩
        else ⟨.illegal, [byte]⟩

/-- What a token of this lexeme says: nothing at an `eof`, else the text of the bytes. -/
def value (lexeme : Lexeme) : String :=
  if lexeme.kind = .eof then "" else Text.ofBytes lexeme.bytes

/-- How many bytes a token of this lexeme spans. An `eof` spans none, even over a zero byte. -/
def width (lexeme : Lexeme) : Nat :=
  if lexeme.kind = .eof then 0 else lexeme.bytes.length

/-- A lexeme is the text it was read from. -/
theorem read_append_drop (bytes : List UInt8) :
    (read bytes).bytes ++ bytes.drop (read bytes).bytes.length = bytes := by
  cases bytes with
  | nil => rfl
  | cons byte rest =>
    have double : rest.head? = some '='.toUInt8 →
        byte :: '='.toUInt8 :: rest.drop 1 = byte :: rest := by
      cases rest <;> simp_all
    have run (p : UInt8 → Bool) :
        rest.takeWhile p ++ rest.drop (rest.takeWhile p).length = rest := by
      conv => rhs; rw [← List.take_append_drop (rest.takeWhile p).length rest]
      congr 1
      exact (List.prefix_iff_eq_take.mp (List.takeWhile_prefix p))
    unfold read
    repeat' split
    all_goals simp_all

theorem length_bytes_read_le (bytes : List UInt8) :
    (read bytes).bytes.length ≤ bytes.length := by
  have := congrArg List.length (read_append_drop bytes)
  simp only [List.length_append] at this
  omega

theorem read_bytes_ne_nil {bytes : List UInt8} (h : bytes ≠ []) : (read bytes).bytes ≠ [] := by
  cases bytes with
  | nil => exact absurd rfl h
  | cons byte rest =>
    simp only [read]
    repeat' split
    all_goals simp

end Lexeme

/-! ## The lexer -/

/-- A place in a source: how many bytes came before it and which come after. -/
structure Lexer where
  file : String
  offset : Nat
  rest : List UInt8
deriving DecidableEq, Repr

namespace Lexer

/-- The name of a text that was given none. -/
def defaultFile : String := "shell"

/-- The start of a text. -/
def ofText (text : String) (file : Option String) : Lexer :=
  ⟨file.getD defaultFile, 0, Text.utf8 text⟩

/-- Where the lexer stands. -/
def position (lexer : Lexer) : Position :=
  ⟨lexer.offset, lexer.file⟩

/-- The place `count` bytes further on. -/
def skip (lexer : Lexer) (count : Nat) : Lexer :=
  ⟨lexer.file, lexer.offset + count, lexer.rest.drop count⟩

/-- The place of the next byte that is not blank. -/
def skipBlanks (lexer : Lexer) : Lexer :=
  lexer.skip (lexer.rest.takeWhile isBlank).length

/-- Whether only blanks are left. -/
def atEnd (lexer : Lexer) : Bool :=
  lexer.skipBlanks.rest.isEmpty

/-- The end of the text. -/
def finish (lexer : Lexer) : Position :=
  ⟨lexer.offset + lexer.rest.length, lexer.file⟩

/-- Reads the token at this place, where no blank stands, and moves past it. -/
def readToken (lexer : Lexer) : Token × Lexer :=
  let lexeme := Lexeme.read lexer.rest
  (⟨lexeme.kind, lexeme.value, lexer.position, (lexer.skip lexeme.width).position⟩,
    lexer.skip lexeme.bytes.length)

/-- Skips blanks, reads a token and moves past it. -/
def next (lexer : Lexer) : Token × Lexer :=
  lexer.skipBlanks.readToken

theorem skip_rest_length (lexer : Lexer) (count : Nat) :
    (lexer.skip count).rest.length = lexer.rest.length - count := by
  simp [skip]

/-- What is left after the blanks begins with none. -/
theorem rest_skipBlanks (lexer : Lexer) :
    lexer.skipBlanks.rest = lexer.rest.dropWhile isBlank := by
  change lexer.rest.drop (lexer.rest.takeWhile isBlank).length = _
  induction lexer.rest with
  | nil => rfl
  | cons byte rest ih =>
    rw [List.takeWhile_cons, List.dropWhile_cons]
    split
    · exact ih
    · rfl

/-- Unless only blanks are left, a step consumes a byte or more. -/
theorem next_rest_length_lt {lexer : Lexer} (h : lexer.atEnd = false) :
    lexer.next.2.rest.length < lexer.rest.length := by
  have unread : lexer.skipBlanks.rest ≠ [] := by
    simpa [atEnd, List.isEmpty_iff] using h
  have taken := List.length_pos_iff.mpr (Lexeme.read_bytes_ne_nil unread)
  have left := List.length_pos_iff.mpr unread
  have fewer : lexer.skipBlanks.rest.length ≤ lexer.rest.length := by
    simp [skipBlanks, skip_rest_length]
  simp only [next, readToken, skip_rest_length]
  omega

/-- Where no byte is left an `eof` token is read and the lexer stays. -/
theorem readToken_of_rest_eq_nil {lexer : Lexer} (h : lexer.rest = []) :
    lexer.readToken = (Token.endOfInput lexer.position, lexer) := by
  cases lexer
  subst h
  rfl

/-- At the end of input every step reads the same `eof` token. -/
theorem next_of_atEnd {lexer : Lexer} (h : lexer.atEnd = true) :
    lexer.next = (Token.endOfInput lexer.skipBlanks.position, lexer.skipBlanks) :=
  readToken_of_rest_eq_nil (List.isEmpty_iff.mp h)

/-- The tokens before the end of input, those of zero bytes included. -/
def tokens (lexer : Lexer) : List Token :=
  if _h : lexer.atEnd then []
  else lexer.next.1 :: tokens lexer.next.2
termination_by lexer.rest.length
decreasing_by exact next_rest_length_lt (by simpa using _h)

end Lexer

end Monkey
