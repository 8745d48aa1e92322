import Monkey.Token.Lexer

/-!
# Streams of tokens

A stream is the tokens still to come and the position where input ends; after its last token it
gives `eof` tokens at that position for ever. `tokenize` lists the tokens of a text up to the first
`eof` token, which is the end of input or an earlier zero byte.

Results:
* `TokenStream.head_ofLexer`, `tail_ofLexer`: taking tokens from the stream of a lexer is stepping
  the lexer.
-/

namespace Monkey

/-- The tokens to come, and where the `eof` tokens after them stand. -/
structure TokenStream where
  pending : List Token
  finish : Position
deriving DecidableEq, Repr

/-! ## Where input ends -/

namespace Lexer

theorem finish_skip (lexer : Lexer) {count : Nat} (h : count ≤ lexer.rest.length) :
    (lexer.skip count).finish = lexer.finish := by
  simp only [finish, skip, List.length_drop, Position.mk.injEq, and_true]
  omega

theorem finish_skipBlanks (lexer : Lexer) : lexer.skipBlanks.finish = lexer.finish :=
  lexer.finish_skip (List.takeWhile_prefix isBlank).length_le

/-- A step keeps the position where input ends. -/
theorem finish_next (lexer : Lexer) : lexer.next.2.finish = lexer.finish := by
  rw [← lexer.finish_skipBlanks]
  exact lexer.skipBlanks.finish_skip (Lexeme.length_bytes_read_le _)

theorem position_of_rest_eq_nil {lexer : Lexer} (h : lexer.rest = []) :
    lexer.position = lexer.finish := by
  simp [finish, position, h]

theorem atEnd_of_rest_eq_nil {lexer : Lexer} (h : lexer.rest = []) : lexer.atEnd = true := by
  simp [atEnd, skipBlanks, skip, h]

theorem tokens_of_atEnd {lexer : Lexer} (h : lexer.atEnd = true) : lexer.tokens = [] := by
  rw [tokens]
  simp [h]

theorem tokens_of_not_atEnd {lexer : Lexer} (h : lexer.atEnd = false) :
    lexer.tokens = lexer.next.1 :: lexer.next.2.tokens := by
  rw [tokens]
  simp [h]

end Lexer

/-! ## Taking tokens -/

namespace TokenStream

/-- The tokens a lexer would read. -/
def ofLexer (lexer : Lexer) : TokenStream :=
  ⟨lexer.tokens, lexer.finish⟩

/-- The tokens of a text. -/
def ofText (text : String) (file : Option String) : TokenStream :=
  ofLexer (.ofText text file)

/-- The next token. -/
def head (stream : TokenStream) : Token :=
  stream.pending.headD (.endOfInput stream.finish)

/-- The stream after its next token. -/
def tail (stream : TokenStream) : TokenStream :=
  ⟨stream.pending.tail, stream.finish⟩

theorem head_ofLexer (lexer : Lexer) : (ofLexer lexer).head = lexer.next.1 := by
  cases h : lexer.atEnd with
  | false => simp [ofLexer, head, Lexer.tokens_of_not_atEnd h]
  | true =>
    rw [Lexer.next_of_atEnd h, Lexer.position_of_rest_eq_nil (List.isEmpty_iff.mp h),
      Lexer.finish_skipBlanks]
    simp [ofLexer, head, Lexer.tokens_of_atEnd h]

theorem tail_ofLexer (lexer : Lexer) : (ofLexer lexer).tail = ofLexer lexer.next.2 := by
  cases h : lexer.atEnd with
  | false => simp [ofLexer, tail, Lexer.tokens_of_not_atEnd h, Lexer.finish_next]
  | true =>
    have used := Lexer.atEnd_of_rest_eq_nil (List.isEmpty_iff.mp h)
    rw [Lexer.next_of_atEnd h]
    simp [ofLexer, tail, Lexer.tokens_of_atEnd h, Lexer.tokens_of_atEnd used,
      Lexer.finish_skipBlanks]

/-- The tokens before the first `eof`. -/
def beforeEof (stream : TokenStream) : List Token :=
  stream.pending.takeWhile (·.kind ≠ .eof)

/-- The first `eof`. -/
def firstEof (stream : TokenStream) : Token :=
  (stream.pending.find? (·.kind = .eof)).getD (.endOfInput stream.finish)

/-- The tokens up to the first `eof` and with it. -/
def upToEof (stream : TokenStream) : List Token :=
  stream.beforeEof ++ [stream.firstEof]

end TokenStream

/-- The tokens of a text up to the first `eof` and with it. -/
def tokenize (text : String) (file : Option String) : List Token :=
  (TokenStream.ofText text file).upToEof

end Monkey
