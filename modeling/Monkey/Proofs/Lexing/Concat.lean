import Monkey.Diagnostic.Basic
import Monkey.Proofs.Lexing.MaximalMunch
import Monkey.Proofs.Lexing.Place

/-!
# Tokens of a concatenation

`shift` moves what a position marks further into the same file. Lexing does not depend on where a
text starts, so the tokens of a text that stands after another are its own tokens, shifted; and where
the first text ends with a semicolon no token reaches from one into the other.

Results:
* `Lexer.tokens_shift`: a lexer that starts further on gives the same tokens, shifted.
* `Lexer.Within.tokens_append`: after a semicolon the tokens of two texts stay apart.
* `Lexer.kind_ne_eof`: without zero bytes there is no `eof` before the end of input.
-/

namespace Monkey

/-! ## Shifting -/

/-- The position further on in the same file. -/
def Position.shift (count : Nat) (position : Position) : Position :=
  ⟨position.offset + count, position.file⟩

/-- The token further on in the same file. -/
def Token.shift (count : Nat) (token : Token) : Token :=
  ⟨token.kind, token.value, ⟨token.span.start.shift count, token.span.stop.shift count⟩⟩

/-- The diagnostic further on in the same file. -/
def Diagnostic.shift (count : Nat) (diagnostic : Diagnostic) : Diagnostic :=
  ⟨diagnostic.cause, diagnostic.position.shift count⟩

theorem Token.shift_endOfInput (count : Nat) (position : Position) :
    (Token.endOfInput position).shift count = .endOfInput (position.shift count) := rfl

/-- The lexer further on in the same file, before the same bytes. -/
def Lexer.shift (count : Nat) (lexer : Lexer) : Lexer :=
  ⟨lexer.file, lexer.offset + count, lexer.rest⟩

namespace Lexer

theorem placed_shift (count : Nat) (lexer : Lexer) :
    Placed (.shift count) lexer (lexer.shift count) where
  rest := rfl
  position further := by
    simp only [skip, shift, position, Position.shift, Nat.add_right_comm]

/-- A lexer that starts further on gives the same tokens further on. -/
theorem tokens_shift (count : Nat) (lexer : Lexer) :
    (lexer.shift count).tokens = lexer.tokens.map (·.shift count) :=
  (placed_shift count lexer).tokens

end Lexer

/-! ## Bytes after a lexeme -/

/-- A run that ends before the bytes do is the same when more bytes follow. -/
theorem takeWhile_append_of_lt {p : UInt8 → Bool} {rest : List UInt8} (more : List UInt8)
    (stops : (rest.takeWhile p).length < rest.length) :
    (rest ++ more).takeWhile p = rest.takeWhile p := by
  rw [List.takeWhile_append, if_neg (Nat.ne_of_lt stops)]

/-- A lexeme that ends before the bytes do is the same when more bytes follow. -/
theorem read_append_of_lt {bytes : List UInt8} (more : List UInt8)
    (stops : (Lexeme.read bytes).bytes.length < bytes.length) :
    Lexeme.read (bytes ++ more) = Lexeme.read bytes := by
  cases bytes with
  | nil => exact absurd stops (Nat.not_lt_zero _)
  | cons byte rest =>
    have longer : rest ≠ [] := by
      rintro rfl
      have := List.length_pos_iff.mpr (Lexeme.read_bytes_ne_nil (List.cons_ne_nil byte []))
      simp only [List.length_singleton] at stops
      omega
    by_cases letter : isLetter byte = true
    · rw [read_letter letter] at stops ⊢
      rw [List.cons_append, read_letter letter, takeWhile_append_of_lt more]
      simpa using stops
    by_cases digit : isDigit byte = true
    · rw [read_digit digit] at stops ⊢
      rw [List.cons_append, read_digit digit, takeWhile_append_of_lt more]
      simpa using stops
    -- any other lexeme depends on the next byte alone
    have head : (rest ++ more).head? = rest.head? := by
      obtain ⟨next, rest, rfl⟩ := List.exists_cons_of_ne_nil longer
      rfl
    rw [List.cons_append, Lexeme.read, Lexeme.read, head]
    simp only [if_neg letter, if_neg digit]

theorem IsLexeme.semicolon {lexeme : List UInt8} (h : IsLexeme .semicolon lexeme) :
    lexeme = [';'.toUInt8] := by
  cases h with
  | symbol listed =>
    have all : ∀ entry ∈ Kind.symbols, entry.2 = .semicolon → entry.1 = ';'.toUInt8 := by decide
    exact congrArg ([·]) (all _ listed rfl)
  | keyword listed =>
    have all : ∀ entry ∈ Kind.keywords, entry.2 ≠ .semicolon := by decide
    exact absurd rfl (all _ listed)

/-- A semicolon is the same when more bytes follow, also as the last byte. -/
theorem read_append_semicolon {bytes : List UInt8} (more : List UInt8)
    (longest : Longest bytes .semicolon (Lexeme.read bytes).bytes) :
    Lexeme.read (bytes ++ more) = Lexeme.read bytes := by
  obtain ⟨after, split⟩ := longest.begins
  rw [longest.isLexeme.semicolon] at split
  subst split
  rfl

/-! ## Two texts, one after the other -/

namespace Lexer

/-- The lexer before more bytes. -/
def followedBy (lexer : Lexer) (more : List UInt8) : Lexer :=
  ⟨lexer.file, lexer.offset, lexer.rest ++ more⟩

/-- The lexer at the end of its bytes, before others. -/
def atStop (lexer : Lexer) (more : List UInt8) : Lexer :=
  ⟨lexer.file, lexer.offset + lexer.rest.length, more⟩

theorem skip_followedBy (lexer : Lexer) (more : List UInt8) {count : Nat}
    (le : count ≤ lexer.rest.length) :
    (lexer.followedBy more).skip count = (lexer.skip count).followedBy more := by
  simp only [skip, followedBy, List.drop_append_of_le_length le]

theorem atStop_skip (lexer : Lexer) (more : List UInt8) {count : Nat}
    (le : count ≤ lexer.rest.length) : (lexer.skip count).atStop more = lexer.atStop more := by
  simp only [skip, atStop, List.length_drop, mk.injEq, and_true, true_and]
  omega

/-- Where only blanks are left, lexing goes on with the other bytes. -/
theorem skipBlanks_followedBy_of_atEnd {lexer : Lexer} (more : List UInt8)
    (done : lexer.atEnd = true) :
    (lexer.followedBy more).skipBlanks = (lexer.atStop more).skipBlanks := by
  have blank : lexer.rest.takeWhile isBlank = lexer.rest := by
    have used : lexer.skipBlanks.rest = [] := List.isEmpty_iff.mp done
    rw [rest_skipBlanks] at used
    have := List.takeWhile_append_dropWhile (p := isBlank) (l := lexer.rest)
    rwa [used, List.append_nil] at this
  simp only [skipBlanks, skip, followedBy, atStop, List.takeWhile_append, blank, if_true,
    List.length_append, mk.injEq, true_and, Nat.add_assoc]
  rw [← List.drop_drop, List.drop_left]

theorem skipBlanks_followedBy {lexer : Lexer} (more : List UInt8)
    (unread : lexer.atEnd = false) :
    (lexer.followedBy more).skipBlanks = lexer.skipBlanks.followedBy more := by
  have stops : (lexer.rest.takeWhile isBlank).length < lexer.rest.length := by
    have left : lexer.skipBlanks.rest ≠ [] := by
      simpa [atEnd, List.isEmpty_iff] using unread
    have := List.length_pos_iff.mpr left
    rw [skipBlanks, skip_rest_length] at this
    omega
  rw [skipBlanks, skipBlanks, ← lexer.skip_followedBy more (Nat.le_of_lt stops)]
  congr 2
  exact takeWhile_append_of_lt more stops

theorem tokens_eq_of_skipBlanks_eq {a b : Lexer} (same : a.skipBlanks = b.skipBlanks) :
    a.tokens = b.tokens := by
  have next : a.next = b.next := congrArg readToken same
  have ends : a.atEnd = b.atEnd := congrArg (·.rest.isEmpty) same
  rw [tokens, tokens.eq_def b]
  simp only [next, ends]

/-- Where a lexeme is the same before more bytes, so is the step that reads it. -/
theorem next_followedBy {lexer : Lexer} (more : List UInt8) (unread : lexer.atEnd = false)
    (same : Lexeme.read (lexer.skipBlanks.rest ++ more) = Lexeme.read lexer.skipBlanks.rest) :
    (lexer.followedBy more).next = (lexer.next.1, lexer.next.2.followedBy more) := by
  have read : Lexeme.read (lexer.skipBlanks.followedBy more).rest =
      Lexeme.read lexer.skipBlanks.rest := same
  rw [next, skipBlanks_followedBy more unread]
  simp only [readToken, read]
  rw [skip_followedBy _ _ (Lexeme.length_bytes_read_le _)]
  rfl

theorem atStop_next (lexer : Lexer) (more : List UInt8) :
    lexer.next.2.atStop more = lexer.atStop more := by
  rw [← lexer.atStop_skip more (List.takeWhile_prefix isBlank).length_le]
  exact lexer.skipBlanks.atStop_skip more (Lexeme.length_bytes_read_le _)

/-- There the first token is the same, and the others follow it. -/
theorem tokens_followedBy {lexer : Lexer} (more : List UInt8) (unread : lexer.atEnd = false)
    (same : Lexeme.read (lexer.skipBlanks.rest ++ more) = Lexeme.read lexer.skipBlanks.rest) :
    (lexer.followedBy more).tokens = lexer.next.1 :: (lexer.next.2.followedBy more).tokens := by
  have goes_on : (lexer.followedBy more).atEnd = false := by
    rw [atEnd, skipBlanks_followedBy more unread]
    have left : lexer.skipBlanks.rest ≠ [] := by
      simpa [atEnd, List.isEmpty_iff] using unread
    simp [followedBy, left]
  rw [tokens_of_not_atEnd goes_on, next_followedBy more unread same]

/-- **After a semicolon the tokens of two texts stay apart.** -/
theorem Within.tokens_append {bytes : List UInt8} {lexer : Lexer} (h : lexer.Within bytes)
    (more : List UInt8) (last : ∀ t ∈ lexer.tokens.getLast?, t.kind = .semicolon) :
    (lexer.followedBy more).tokens = lexer.tokens ++ (lexer.atStop more).tokens := by
  fun_induction tokens lexer with
  | case1 lexer done =>
    rw [tokens_eq_of_skipBlanks_eq (skipBlanks_followedBy_of_atEnd more done)]
    rfl
  | case2 lexer unread ih =>
    have unread : lexer.atEnd = false := by simpa using unread
    have longest := h.longest unread
    rw [← h.skipBlanks.rest_eq] at longest
    have same : Lexeme.read (lexer.skipBlanks.rest ++ more) = Lexeme.read lexer.skipBlanks.rest := by
      by_cases stops : (Lexeme.read lexer.skipBlanks.rest).bytes.length <
          lexer.skipBlanks.rest.length
      · exact read_append_of_lt more stops
      · -- the lexeme uses the bytes up, so it is the semicolon
        have used : lexer.next.2.rest = [] := List.drop_of_length_le (Nat.le_of_not_lt stops)
        rw [tokens_of_atEnd (atEnd_of_rest_eq_nil used)] at last
        have semicolon : (Lexeme.read lexer.skipBlanks.rest).kind = .semicolon := last _ rfl
        exact read_append_semicolon more (semicolon ▸ longest)
    rw [tokens_followedBy more unread same, ih h.next ?_, atStop_next, List.cons_append]
    intro t ht
    refine last t ?_
    rw [List.getLast?_cons]
    rw [Option.mem_def] at ht ⊢
    rw [ht]
    rfl

/-- The tokens of a text after another that ends with a semicolon. -/
theorem tokens_ofText_append (first second : String) (file : Option String)
    (last : ∀ t ∈ (ofText first file).tokens.getLast?, t.kind = .semicolon) :
    (ofText (first ++ second) file).tokens = (ofText first file).tokens ++
      (ofText second file).tokens.map (·.shift (Text.utf8 first).length) := by
  have apart := (within_ofText first file).tokens_append (Text.utf8 second) last
  have whole : (ofText first file).followedBy (Text.utf8 second) =
      ofText (first ++ second) file := by
    simp only [followedBy, ofText, Text.utf8_append]
  have after : (ofText first file).atStop (Text.utf8 second) =
      (ofText second file).shift (Text.utf8 first).length := by
    simp only [atStop, ofText, shift]
  rw [whole, after, tokens_shift] at apart
  exact apart

theorem finish_ofText_append (first second : String) (file : Option String) :
    (ofText (first ++ second) file).finish =
      (ofText second file).finish.shift (Text.utf8 first).length := by
  simp only [finish_ofText, Text.utf8_append, List.length_append, Position.shift, Nat.add_comm]

/-- Without zero bytes there is no `eof` before the end of input. -/
theorem kind_ne_eof {text : String} (zero_free : 0 ∉ Text.utf8 text) (file : Option String)
    {t : Token} (ht : t ∈ (ofText text file).tokens) : t.kind ≠ .eof := by
  intro eof
  obtain ⟨zero, -⟩ := (within_ofText text file).maximalMunch_tokens.zero t ht eof
  exact zero_free (List.mem_of_getElem? zero)

/-- If no token is an `eof`, a listing is the tokens and the end of input. -/
theorem tokenize_of_not_eof {text : String} {file : Option String}
    (not_eof : ∀ t ∈ (ofText text file).tokens, t.kind ≠ .eof) :
    tokenize text file = (ofText text file).tokens ++ [.endOfInput (ofText text file).finish] := by
  have before : (TokenStream.ofText text file).beforeEof = (ofText text file).tokens :=
    List.takeWhile_eq_self_iff.mpr fun t ht => by simpa using not_eof t ht
  rw [tokenize, TokenStream.upToEof, before, TokenStream.firstEof, List.find?_eq_none.mpr]
  · rfl
  · intro t ht
    simpa using not_eof t ht

/-- So it is without zero bytes. -/
theorem tokenize_eq {text : String} (zero_free : 0 ∉ Text.utf8 text) (file : Option String) :
    tokenize text file = (ofText text file).tokens ++ [.endOfInput (ofText text file).finish] :=
  tokenize_of_not_eof fun _ => kind_ne_eof zero_free file

theorem dropLast_tokenize {text : String} (zero_free : 0 ∉ Text.utf8 text) (file : Option String) :
    (tokenize text file).dropLast = (ofText text file).tokens := by
  rw [tokenize_eq zero_free, List.dropLast_concat]

end Lexer

end Monkey
