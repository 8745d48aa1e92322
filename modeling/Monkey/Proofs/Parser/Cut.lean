import Mathlib.Data.List.Infix
import Monkey.Proofs.Lexing.Spelling
import Monkey.Proofs.Parser.Accounting

/-!
# Where input ends

A zero byte is an `eof` token, and a listing of the tokens ends with it. The lexer moves past it, so
the parser has the tokens after it at hand, and it does read them in one case: a block that is still
open there ends at the `eof`, and what contains the block goes on behind it. If every brace before the
zero byte is closed then no block is open there, and the parser stops as at the end of a text.

Results:
* `Lexer.tokens_zero`: the tokens of a text, and an `eof` where a zero byte follows.
* `cutting`: a parse of tokens simulates one of the same tokens with an `eof` and others after them.
* `zero_byte_ends_input`: the listing ends at the first zero byte, and so does the parse if the
  braces before it are closed.
-/

namespace Monkey

/-! ## Tokens before a zero byte -/

namespace Lexer

/-- Bytes that go on with no lexeme leave the tokens before them as they are. -/
theorem Within.tokens_append_of_separates {bytes : List UInt8} {lexer : Lexer}
    (h : lexer.Within bytes) {more : List UInt8} (separates : Separates more) :
    (lexer.followedBy more).tokens = lexer.tokens ++ (lexer.atStop more).tokens := by
  fun_induction tokens lexer with
  | case1 lexer done =>
    rw [tokens_eq_of_skipBlanks_eq (skipBlanks_followedBy_of_atEnd more done)]
    rfl
  | case2 lexer unread ih =>
    have unread : lexer.atEnd = false := by simpa using unread
    have longest := h.longest unread
    rw [← h.skipBlanks.rest_eq] at longest
    have same : Lexeme.read (lexer.skipBlanks.rest ++ more) = Lexeme.read lexer.skipBlanks.rest := by
      by_cases stops : (Lexeme.read lexer.skipBlanks.rest).bytes.length <
          lexer.skipBlanks.rest.length
      · exact read_append_of_lt more stops
      · have whole : (Lexeme.read lexer.skipBlanks.rest).bytes = lexer.skipBlanks.rest :=
          longest.begins.eq_of_length_le (Nat.le_of_not_lt stops)
        have apart := Apart.of_separates separates longest.isLexeme.ne_nil
        have read := apart.read longest.isLexeme
        rw [whole] at read
        rw [read]
        exact congrArg (Lexeme.mk _) whole.symm
    rw [tokens_followedBy more unread same, ih h.next, atStop_next, List.cons_append]

/-- A zero byte is read as an `eof` token that stands where the text before it ends. -/
theorem tokens_zero (before after : String) (file : Option String) :
    ∃ later, (ofText (before ++ "\x00" ++ after) file).tokens =
      (ofText before file).tokens ++ .endOfInput (ofText before file).finish :: later := by
  have separates : Separates (0 :: Text.utf8 after) := by
    intro b hb
    cases hb
    decide
  have whole : (ofText before file).followedBy (0 :: Text.utf8 after) =
      ofText (before ++ "\x00" ++ after) file := by
    simp only [followedBy, ofText, Text.utf8_append, List.append_assoc]
    rfl
  have apart := (within_ofText before file).tokens_append_of_separates separates
  have unread : ((ofText before file).atStop (0 :: Text.utf8 after)).atEnd = false := rfl
  have first : ((ofText before file).atStop (0 :: Text.utf8 after)).next.1 =
      .endOfInput (ofText before file).finish := rfl
  rw [whole, tokens_of_not_atEnd unread, first] at apart
  exact ⟨_, apart⟩

end Lexer

/-- A listing ends at the first zero byte. -/
theorem tokenize_zero {before : String} (zero_free : 0 ∉ Text.utf8 before) (after : String)
    (file : Option String) : tokenize (before ++ "\x00" ++ after) file = tokenize before file := by
  obtain ⟨later, eq⟩ := Lexer.tokens_zero before after file
  have not_eof (t : Token) (ht : t ∈ (Lexer.ofText before file).tokens) :
      decide (t.kind ≠ .eof) = true := decide_eq_true (Lexer.kind_ne_eof zero_free file ht)
  rw [Lexer.tokenize_eq zero_free file, tokenize, TokenStream.upToEof, TokenStream.beforeEof,
    TokenStream.firstEof]
  change (Lexer.ofText (before ++ "\x00" ++ after) file).tokens.takeWhile _ ++ [Option.getD
    ((Lexer.ofText (before ++ "\x00" ++ after) file).tokens.find? _) _] = _
  rw [eq, List.takeWhile_append_of_pos not_eof, List.find?_append, List.find?_eq_none.mpr]
  · simp
  · intro t ht
    simpa using not_eof t ht

/-! ## Closed braces -/

/-- Each opening brace is closed by another of the tokens. -/
def BracesClosed (tokens : List Token) : Prop :=
  ∀ tail ∈ tokens.tails, lookahead tail = .lbrace → closing 0 tail.tail ≠ []

instance (tokens : List Token) : Decidable (BracesClosed tokens) :=
  inferInstanceAs (Decidable (∀ tail ∈ tokens.tails, _))

theorem BracesClosed.head {token : Token} {rest : List Token} (h : BracesClosed (token :: rest))
    (lbrace : token.kind = .lbrace) : closing 0 rest ≠ [] :=
  h (token :: rest) (by simp) lbrace

theorem BracesClosed.tail {tokens : List Token} (h : BracesClosed tokens) :
    BracesClosed tokens.tail := by
  intro tail mem
  refine h tail ?_
  rw [List.mem_tails] at mem ⊢
  exact mem.trans (List.tail_suffix tokens)

/-- The tokens close so many blocks that are open before them. -/
def Closes (blocks : Nat) (tokens : List Token) : Prop :=
  ∀ n < blocks, closing n tokens ≠ []

namespace Closes

variable {blocks fewer : Nat} {token : Token} {rest : List Token}

theorem mono (h : Closes blocks rest) (le : fewer ≤ blocks) : Closes fewer rest :=
  fun n lt => h n (Nat.lt_of_lt_of_le lt le)

theorem ne_nil (h : Closes (blocks + 1) rest) : rest ≠ [] := by
  rintro rfl
  exact h 0 (Nat.succ_pos blocks) rfl

theorem rbrace (h : Closes (blocks + 1) (token :: rest)) (kind : token.kind = .rbrace) :
    Closes blocks rest := by
  intro n lt
  rw [← closing_rbrace n kind]
  exact h (n + 1) (Nat.succ_lt_succ lt)

/-- A brace that is closed may be opened. -/
theorem lbrace (h : Closes blocks (token :: rest)) (kind : token.kind = .lbrace)
    (closed : closing 0 rest ≠ []) : Closes (blocks + 1) rest := by
  intro n lt
  cases n with
  | zero => exact closed
  | succ n =>
    rw [← closing_lbrace kind]
    exact h n (Nat.lt_of_succ_lt_succ lt)

theorem other (h : Closes blocks (token :: rest)) (lbrace : token.kind ≠ .lbrace)
    (rbrace : token.kind ≠ .rbrace) : Closes blocks rest := by
  intro n lt
  rw [← closing_other lbrace rbrace]
  exact h n lt

end Closes

/-! ## A parse that is cut off -/

section

variable (finish finish' : Position) (later : List Token)

/-- `q` sees the tokens that `p` sees, and others after the `eof`. -/
structure Cut (tokens : List Token) (p q : Parser) : Prop where
  left : p.At finish tokens
  right : q.At finish' (tokens ++ .endOfInput finish :: later)
  not_eof : ∀ t ∈ tokens, t.kind ≠ .eof
  closed : BracesClosed tokens
  openBlocks : q.openBlocks = p.openBlocks
  diagnostics : q.diagnostics = p.diagnostics

/-- The tokens close the blocks that are open. -/
def AtCut (p q : Parser) : Prop :=
  ∃ tokens, Cut finish finish' later tokens p q ∧ Closes p.openBlocks tokens

/-- There are tokens left, and those after the first one close the blocks that are open. -/
def PastCut (p q : Parser) : Prop :=
  ∃ token rest, Cut finish finish' later (token :: rest) p q ∧
    Closes p.openBlocks (token :: rest) ∧ Closes p.openBlocks rest

end

variable {finish finish' : Position} {later tokens : List Token} {p q : Parser}

namespace Cut

theorem current (h : Cut finish finish' later tokens p q) : q.current = p.current := by
  cases tokens with
  | nil => rw [h.left.current_nil, h.right.current]
  | cons token rest => rw [h.left.current, h.right.current]

theorem endsBody (h : Cut finish finish' later tokens p q) : q.endsBody = p.endsBody := by
  unfold Parser.endsBody
  rw [h.current, h.openBlocks]

/-- While there are tokens left both parsers move on to the same. -/
theorem advance {token : Token} (h : Cut finish finish' later (token :: tokens) p q) :
    Cut finish finish' later tokens p.advance q.advance where
  left := h.left.advance
  right := h.right.advance
  not_eof t ht := h.not_eof t (List.mem_cons_of_mem _ ht)
  closed := h.closed.tail
  openBlocks := h.openBlocks
  diagnostics := h.diagnostics

theorem exists_cons (h : Cut finish finish' later tokens p q) (some : p.current.kind ≠ .eof) :
    ∃ token rest, tokens = token :: rest ∧ p.current = token := by
  obtain ⟨rest, eq⟩ := h.left.exists_cons some
  exact ⟨p.current, rest, eq, rfl⟩

end Cut

/-! ## Recovery before the end -/

/-- Inside some braces that recovery has opened, these have to be closed as well. -/
def WithinCut (finish finish' : Position) (later : List Token) (braces : Nat) (p q : Parser) : Prop :=
  ∃ tokens, Cut finish finish' later tokens p q ∧
    (0 < p.openBlocks → Closes (p.openBlocks + braces) tokens)

namespace WithinCut

variable {braces : Nat}

theorem current (h : WithinCut finish finish' later braces p q) : q.current = p.current := by
  obtain ⟨tokens, cut, -⟩ := h
  exact cut.current

theorem endsBody (h : WithinCut finish finish' later braces p q) : q.endsBody = p.endsBody := by
  obtain ⟨tokens, cut, -⟩ := h
  exact cut.endsBody

theorem atCut (h : WithinCut finish finish' later braces p q) : AtCut finish finish' later p q := by
  obtain ⟨tokens, cut, closes⟩ := h
  refine ⟨tokens, cut, ?_⟩
  cases blocks : p.openBlocks with
  | zero => exact fun n lt => absurd lt (Nat.not_lt_zero n)
  | succ n =>
    have closes := closes (blocks ▸ Nat.succ_pos n)
    rw [blocks] at closes
    exact closes.mono (Nat.le_add_right _ _)

theorem skip (h : WithinCut finish finish' later braces p q) (some : p.current.kind ≠ .eof)
    (goes_on : ¬ (braces = 0 ∧ p.endsBody = true)) :
    WithinCut finish finish' later (p.current.kind.bracesAfter braces) p.advance q.advance := by
  obtain ⟨tokens, cut, closes⟩ := h
  obtain ⟨token, rest, rfl, current⟩ := cut.exists_cons some
  rw [current]
  refine ⟨rest, cut.advance, fun blocks => ?_⟩
  have blocks : 0 < p.openBlocks := blocks
  have closes := closes blocks
  change Closes (p.openBlocks + token.kind.bracesAfter braces) rest
  by_cases lbrace : token.kind = .lbrace
  · rw [lbrace]
    exact closes.lbrace lbrace (cut.closed.head lbrace)
  by_cases rbrace : token.kind = .rbrace
  · cases braces with
    | zero =>
      have ends : p.endsBody = true := by simp [Parser.endsBody, current, rbrace, blocks]
      exact absurd ⟨rfl, ends⟩ goes_on
    | succ braces =>
      rw [rbrace]
      exact closes.rbrace rbrace
  · rw [Kind.bracesAfter_other lbrace rbrace]
    exact closes.other lbrace rbrace

end WithinCut

theorem AtCut.recover (h : AtCut finish finish' later p q) (d : Diagnostic) :
    AtCut finish finish' later (p.recover d) (q.recover d) := by
  obtain ⟨tokens, cut, closes⟩ := h
  have recorded : WithinCut finish finish' later 0 (p.record d) (q.record d) := by
    refine ⟨tokens, { cut with left := cut.left, right := cut.right, diagnostics := ?_ },
      fun _ => closes⟩
    exact congrArg (·.push d) cut.diagnostics
  have skipped : AtCut finish finish' later ((p.record d).skipStatement 0)
      ((q.record d).skipStatement 0) := by
    refine Parser.related_skipStatement (WithinCut finish finish' later)
      (AtCut finish finish' later) ?_ (fun h => h.endsBody) ?_ ?_ ?_ (fun h _ => h.atCut) recorded
    · intro braces p q h
      rw [h.current]
    · intro braces p q h some goes_on _
      rw [← Parser.current_advance, ← Parser.current_advance, (h.skip some goes_on).current]
    · intro braces p q h some goes_on _
      exact h.skip some goes_on
    · intro p q h semicolon
      refine (h.skip (by simp [semicolon]) ?_).atCut
      simp [Parser.endsBody, semicolon]
  obtain ⟨tokens, cut, closes⟩ := skipped
  exact ⟨tokens, { cut with left := cut.left, right := cut.right }, closes⟩

/-! ## Rules before the end -/

namespace PastCut

theorem advance (h : PastCut finish finish' later p q) :
    AtCut finish finish' later p.advance q.advance := by
  obtain ⟨token, rest, cut, -, closes⟩ := h
  exact ⟨rest, cut.advance, closes⟩

theorem atCut (h : PastCut finish finish' later p q) : AtCut finish finish' later p q := by
  obtain ⟨token, rest, cut, closes, -⟩ := h
  exact ⟨token :: rest, cut, closes⟩

theorem peek (h : PastCut finish finish' later p q) : q.peek = p.peek := by
  obtain ⟨token, rest, cut, -⟩ := h
  exact cut.advance.current

/-- A token that is no brace is left behind. -/
theorem of_current (h : AtCut finish finish' later p q) (eof : p.current.kind ≠ .eof)
    (lbrace : p.current.kind ≠ .lbrace) (rbrace : p.current.kind ≠ .rbrace) :
    PastCut finish finish' later p q := by
  obtain ⟨tokens, cut, closes⟩ := h
  obtain ⟨token, rest, rfl, current⟩ := cut.exists_cons eof
  rw [current] at lbrace rbrace
  exact ⟨token, rest, cut, closes, closes.other lbrace rbrace⟩

end PastCut

namespace AtCut

theorem openBlock (h : AtCut finish finish' later p q) (lbrace : p.current.kind = .lbrace) :
    AtCut finish finish' later p.advance.openBlock q.advance.openBlock := by
  obtain ⟨tokens, cut, closes⟩ := h
  obtain ⟨token, rest, rfl, current⟩ := cut.exists_cons (by simp [lbrace])
  rw [current] at lbrace
  have next := cut.advance
  exact ⟨rest, { next with
    left := next.left, right := next.right, openBlocks := congrArg (· + 1) next.openBlocks },
    closes.lbrace lbrace (cut.closed.head lbrace)⟩

/-- A block that is open where statements end is closed by the current token. -/
theorem closeBlock (h : AtCut finish finish' later p q) (blocks : 0 < p.openBlocks)
    (ends : p.endsBody = true) : PastCut finish finish' later p.closeBlock q.closeBlock := by
  obtain ⟨tokens, cut, closes⟩ := h
  obtain ⟨n, eq⟩ := Nat.exists_eq_add_one_of_ne_zero (Nat.ne_of_gt blocks)
  rw [eq] at closes
  obtain ⟨token, rest, rfl⟩ := List.exists_cons_of_ne_nil closes.ne_nil
  have rbrace : token.kind = .rbrace := by
    have eof := cut.not_eof token List.mem_cons_self
    simpa [Parser.endsBody, cut.left.current, eof, blocks] using ends
  have left : p.closeBlock.openBlocks = n := by
    change p.openBlocks - 1 = n
    rw [eq, Nat.add_sub_cancel]
  refine ⟨token, rest, { cut with left := cut.left, right := cut.right, openBlocks := ?_ }, ?_, ?_⟩
  · exact congrArg (· - 1) cut.openBlocks
  · rw [left]
    exact closes.mono (Nat.le_succ n)
  · rw [left]
    exact closes.rbrace rbrace

theorem enter (h : AtCut finish finish' later p q) :
    AtCut finish finish' later p.enter q.enter := by
  obtain ⟨tokens, cut, closes⟩ := h
  exact ⟨tokens, { cut with left := cut.left, right := cut.right }, closes⟩

theorem leave (h : AtCut finish finish' later p q) :
    AtCut finish finish' later p.leave q.leave := by
  obtain ⟨tokens, cut, closes⟩ := h
  exact ⟨tokens, { cut with left := cut.left, right := cut.right }, closes⟩

theorem position (h : AtCut finish finish' later p q) : q.position = p.position := by
  obtain ⟨tokens, cut, -⟩ := h
  exact congrArg (·.span.start) cut.current

end AtCut

theorem PastCut.leave (h : PastCut finish finish' later p q) :
    PastCut finish finish' later p.leave q.leave := by
  obtain ⟨token, rest, cut, closes⟩ := h
  exact ⟨token, rest, { cut with left := cut.left, right := cut.right }, closes⟩

/-- **Nothing after the `eof` matters** while the blocks that are open are closed before it. -/
def cutting (finish finish' : Position) (later : List Token) : Simulation where
  token := id
  fresh := AtCut finish finish' later
  held := PastCut finish finish' later
  ended := PastCut finish finish' later
  between := AtCut finish finish' later
  stuck d e p q := e = d ∧ AtCut finish finish' later p q
  scope _ := True
  floor := 0
  kind_token := Token.kind_id
  value_token := Token.value_id
  scope_succ _ _ := trivial
  floor_le _ := Nat.zero_le _
  current := by
    rintro p q ⟨tokens, cut, -⟩
    exact cut.current
  openBlocks := by
    rintro p q ⟨tokens, cut, -⟩
    exact cut.openBlocks
  peek h := congrArg Token.kind h.peek
  hold h plain := by
    obtain ⟨lbrace, rbrace, -⟩ := Kind.ne_of_plain plain
    refine .of_current h ?_ lbrace rbrace
    intro eof
    rw [eof] at plain
    cases plain
  advance h := h.advance
  enter h := h.enter
  leave h := h.leave
  leave_stuck h := ⟨h.1, h.2.leave⟩
  blame h _ := ⟨congrArg (Diagnostic.mk _) h.position, h⟩
  unexpected h _ := ⟨by rw [h.peek], h.atCut⟩
  openBlock h lbrace := h.openBlock lbrace
  endsBody := by
    rintro p q ⟨tokens, cut, -⟩
    exact cut.endsBody
  start h _ := h
  closeBlock h blocks ends := h.closeBlock blocks ends
  settle h _ := h
  semicolon h semicolon := by
    refine .of_current h.advance ?_ ?_ ?_ <;>
      rw [Parser.current_advance, semicolon] <;> decide
  next h _ := h.advance
  recover := by
    rintro d e p q ⟨rfl, h⟩ -
    exact h.recover _

/-! ## Texts -/

/-- **A zero byte ends the input**, for a listing of tokens, and for the parser as well if the braces
before it are closed. Then nothing after it has an influence on the program or the diagnostics. -/
theorem zero_byte_ends_input (before after : String) (file : Option String)
    (zero_free : 0 ∉ Text.utf8 before) :
    let text := before ++ "\x00" ++ after
    tokenize text file = tokenize before file ∧
      (BracesClosed (tokenize before file).dropLast →
        (parse text file).program = (parse before file).program ∧
          (parse text file).diagnostics = (parse before file).diagnostics) := by
  intro text
  refine ⟨tokenize_zero zero_free after file, fun closed => ?_⟩
  let p := (Parser.ofText before file).note (.started (Parser.ofText before file).position.file)
  let q := (Parser.ofText text file).note (.started (Parser.ofText text file).position.file)
  obtain ⟨later, eq⟩ := Lexer.tokens_zero before after file
  rw [Lexer.dropLast_tokenize zero_free file] at closed
  have right : q.At (Lexer.ofText text file).finish
      ((Lexer.ofText before file).tokens ++
        .endOfInput (Lexer.ofText before file).finish :: later) := by
    rw [← eq]
    exact .ofStream _ _
  have begins : AtCut (Lexer.ofText before file).finish (Lexer.ofText text file).finish later p q :=
    ⟨_, ⟨.ofStream _ _, right, fun _ => Lexer.kind_ne_eof zero_free file, closed, rfl, rfl⟩,
      fun n lt => absurd lt (Nat.not_lt_zero n)⟩
  obtain ⟨same, tokens, cut, -⟩ :=
    Simulation.statements ((cutting _ _ _).follows maxDepth) begins trivial
  refine ⟨congrArg Program.mk ?_, congrArg Array.toList cut.diagnostics⟩
  exact same.trans (relabelStatements_id _)

/-- A zero byte after a block, and what would go on with the condition. -/
theorem zero_byte_ends_input_condition :
    let before := "if (a) \x7b b \x7d"
    0 ∉ Text.utf8 before ∧ BracesClosed (tokenize before none).dropLast ∧
      (parse (before ++ "\x00" ++ " else \x7b c \x7d") none).program = (parse before none).program :=
  have closed : BracesClosed (tokenize "if (a) \x7b b \x7d" none).dropLast := by decide +kernel
  ⟨by decide, closed,
    ((zero_byte_ends_input "if (a) \x7b b \x7d" " else \x7b c \x7d" none (by decide)).2 closed).1⟩

/-- A block that is open at the zero byte: the listing ends there, and the parse goes on. -/
theorem open_block_reads_past_zero_byte :
    let before := "fn() \x7b 1 "
    let text := before ++ "\x00" ++ " 2"
    0 ∉ Text.utf8 before ∧ tokenize text none = tokenize before none ∧
      (parse text none).program ≠ (parse before none).program := by
  refine ⟨by decide, by decide +kernel, fun same => ?_⟩
  have sizes : (parse "fn() \x7b 1 \x00 2" none).program.size ≠
      (parse "fn() \x7b 1 " none).program.size := by decide +kernel
  exact sizes (congrArg Program.size same)

end Monkey
