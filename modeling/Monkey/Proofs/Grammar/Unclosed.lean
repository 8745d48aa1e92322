import Monkey.Proofs.Grammar.Nesting
import Monkey.Proofs.Grammar.Roundtrip
import Monkey.Proofs.Parser.Cut

/-!
# Blocks left open

A block may run to the end of input. The blocks that are open there are inside one another, and each
of them is the last part of what contains it. So a program stays the same if they are closed there,
with a brace each: where a phrase ended with the input it now ends before a closing brace, and neither
goes on with anything.

`Open tokens rest count` says that from `tokens` on to `rest` there are `count` more opening braces
than closing ones, and `Closers` are as many closing braces.

Results:
* `Derives.exists_open`: a derived phrase leaves some blocks open, and has the same tree when closing
  braces for them come after it.
* `derives_of_clean`: a parse without diagnostics has read a program of the grammar.
* `Lexer.tokens_closers`: closing braces after a text are tokens of their own.
* `unclosed_blocks_close`: a parse gives the same program when open blocks are closed at the end.
-/

namespace Monkey

/-! ## Open braces -/

/-- How many of the tokens are of a kind. -/
def countKind (kind : Kind) (tokens : List Token) : Nat :=
  tokens.countP (·.kind = kind)

theorem countKind_self {token : Token} {kind : Kind} (same : token.kind = kind)
    (tokens : List Token) : countKind kind (token :: tokens) = countKind kind tokens + 1 :=
  List.countP_cons_of_pos (by simp [same])

theorem countKind_other {token : Token} {kind : Kind} (other : token.kind ≠ kind)
    (tokens : List Token) : countKind kind (token :: tokens) = countKind kind tokens :=
  List.countP_cons_of_neg (by simp [other])

/-- From `tokens` on to `rest` there are `count` more opening braces than closing ones. -/
def Open (tokens rest : List Token) (count : Nat) : Prop :=
  countKind .lbrace tokens + countKind .rbrace rest =
    countKind .rbrace tokens + countKind .lbrace rest + count

namespace Open

variable {token : Token} {tokens middle rest : List Token} {first second count : Nat}

theorem none (rest : List Token) : Open rest rest 0 := Nat.add_comm _ _

theorem trans (h : Open tokens middle first) (k : Open middle rest second) :
    Open tokens rest (first + second) := by
  unfold Open at *
  omega

theorem other (h : Open tokens rest count) (lbrace : token.kind ≠ .lbrace)
    (rbrace : token.kind ≠ .rbrace) : Open (token :: tokens) rest count := by
  unfold Open at *
  rwa [countKind_other lbrace, countKind_other rbrace]

theorem plain {kind : Kind} (h : Open tokens rest count) (same : token.kind = kind)
    (plain : kind.plain = true) : Open (token :: tokens) rest count := by
  obtain ⟨lbrace, rbrace, -⟩ := Kind.ne_of_plain plain
  rw [← same] at lbrace rbrace
  exact h.other lbrace rbrace

/-- A plain token that is left is no brace. -/
theorem past {kind : Kind} (h : Open tokens (token :: rest) count) (same : token.kind = kind)
    (plain : kind.plain = true) : Open tokens rest count :=
  h.trans ((none rest).plain same plain)

theorem lbrace (h : Open tokens rest count) (kind : token.kind = .lbrace) :
    Open (token :: tokens) rest (count + 1) := by
  unfold Open at *
  rw [countKind_self kind, countKind_other (by simp [kind])]
  omega

/-- A brace that is closed is not open. -/
theorem closed {opening : Token} (h : Open tokens (token :: rest) count)
    (opens : opening.kind = .lbrace) (closes : token.kind = .rbrace) :
    Open (opening :: tokens) rest count := by
  unfold Open at *
  rw [countKind_self closes, countKind_other (by simp [closes])] at h
  rw [countKind_self opens, countKind_other (by simp [opens])]
  omega

end Open

/-! ## Closing braces -/

/-- The kinds that end what a block contains. -/
def Kind.endsBlock (kind : Kind) : Bool :=
  kind == .eof || kind == .rbrace

/-- So many closing braces, and after these no more tokens or another brace. -/
inductive Closers : Nat → List Token → List Token → Prop
  | none {more : List Token} (ends : (lookahead more).endsBlock = true) : Closers 0 more more
  | brace {count : Nat} {token : Token} {tokens more : List Token} (kind : token.kind = .rbrace)
      (others : Closers count tokens more) : Closers (count + 1) (token :: tokens) more

namespace Closers

variable {first second count : Nat} {tokens more rest : List Token}

theorem ends (h : Closers count tokens more) : (lookahead tokens).endsBlock = true := by
  cases h with
  | none ends => exact ends
  | brace kind => simp [lookahead, kind, Kind.endsBlock]

/-- The first of the braces, and the others. -/
theorem split (h : Closers (first + second) tokens more) :
    ∃ middle, Closers first tokens middle ∧ Closers second middle more := by
  induction first generalizing tokens with
  | zero =>
    rw [Nat.zero_add] at h
    exact ⟨tokens, .none h.ends, h⟩
  | succ first ih =>
    rw [Nat.succ_add] at h
    cases h with
    | brace kind others =>
      obtain ⟨middle, left, right⟩ := ih others
      exact ⟨middle, .brace kind left, right⟩

theorem ends_more (h : Closers count tokens more) : (lookahead more).endsBlock = true := by
  induction h with
  | none ends => exact ends
  | brace _ _ ih => exact ih

theorem of_zero (h : Closers 0 tokens more) : tokens = more := by
  cases h
  rfl

end Closers

theorem Tier.operators_of_endsBlock {kind : Kind} (ends : kind.endsBlock = true) (tier : Tier) :
    tier.operators kind = false := by
  simp only [Kind.endsBlock, Bool.or_eq_true, beq_iff_eq] at ends
  rcases ends with rfl | rfl <;> cases tier <;> rfl

/-! ## Phrases with closing braces after them -/

theorem MoreParams.append {names : List Ident} {tokens rest : List Token}
    (h : MoreParams names tokens rest) (more : List Token) :
    MoreParams names (tokens ++ more) (rest ++ more) := by
  induction h with
  | nil => exact .nil
  | cons separator kind _ ih => exact .cons separator kind ih

theorem Params.append {names : List Ident} {tokens rest : List Token}
    (h : Params names tokens rest) (more : List Token) :
    Params names (tokens ++ more) (rest ++ more) := by
  cases h with
  | none closes => exact .none closes
  | some kind others closes => exact .some kind (others.append more) closes

theorem MoreParams.none_open {names : List Ident} {tokens rest : List Token}
    (h : MoreParams names tokens rest) : Open tokens rest 0 := by
  induction h with
  | nil => exact .none _
  | cons separator kind _ ih => exact (ih.plain kind rfl).plain separator rfl

theorem Params.none_open {names : List Ident} {tokens rest : List Token}
    (h : Params names tokens rest) : Open tokens rest 0 := by
  cases h with
  | none closes => exact (Open.none _).plain closes rfl
  | some kind others closes => exact (others.none_open.past closes rfl).plain kind rfl

theorem Terminator.none_open {tokens rest : List Token} (h : Terminator tokens rest) :
    Open tokens rest 0 := by
  cases h with
  | present kind => exact (Open.none _).other (by simp [kind]) (by simp [kind])
  | absent => exact .none _

/-- A statement does not go on before a closing brace. -/
theorem Terminator.append {tokens rest more : List Token} (h : Terminator tokens rest)
    (ends : (lookahead more).endsBlock = true) : Terminator (tokens ++ more) (rest ++ more) := by
  cases h with
  | present kind => exact .present kind
  | absent kind =>
    refine .absent ?_
    cases tokens with
    | nil =>
      intro semicolon
      rw [List.nil_append] at semicolon
      rw [semicolon] at ends
      cases ends
    | cons token tokens => exact kind

/-- A phrase leaves `count` blocks open, and has the same tree with closing braces for them after it. -/
structure Closable (depth : Nat) (phrase : Phrase) (tokens rest : List Token) (count : Nat) :
    Prop where
  isOpen : Open tokens rest count
  closes : ∀ closers more, Closers count closers more →
    Derives (fun _ _ _ => False) depth phrase (tokens ++ closers) (rest ++ more)

namespace Derives

variable {depth : Nat} {phrase : Phrase} {tokens rest : List Token}

/-- **Open blocks can be closed where a phrase ends.** -/
theorem exists_open (h : Derives (fun _ _ _ => False) depth phrase tokens rest) :
    ∃ count, Closable depth phrase tokens rest count := by
  induction h with
  | tier binary first more ih ih' =>
    obtain ⟨a, first⟩ := ih
    obtain ⟨b, chain⟩ := ih'
    refine ⟨a + b, first.isOpen.trans chain.isOpen, fun closers more h => ?_⟩
    obtain ⟨between, left, right⟩ := h.split
    exact .tier binary (first.closes _ _ left) (chain.closes _ _ right)
  | @stop depth tier tree rest last =>
    refine ⟨0, .none rest, fun closers more h => ?_⟩
    cases h with
    | none ends =>
      refine .stop ?_
      cases rest with
      | nil => exact tier.operators_of_endsBlock ends
      | cons token rest => exact last
  | step kind operand more ih ih' =>
    obtain ⟨a, operand⟩ := ih
    obtain ⟨b, chain⟩ := ih'
    have plain := Tier.plain_of_operators kind
    refine ⟨a + b, (operand.isOpen.trans chain.isOpen).plain rfl plain, fun closers more h => ?_⟩
    obtain ⟨between, left, right⟩ := h.split
    exact .step kind (operand.closes _ _ left) (chain.closes _ _ right)
  | ident kind => exact ⟨0, (Open.none _).plain kind rfl, fun _ _ h => h.of_zero ▸ .ident kind⟩
  | int kind small =>
    exact ⟨0, (Open.none _).plain kind rfl, fun _ _ h => h.of_zero ▸ .int kind small⟩
  | truth kind => exact ⟨0, (Open.none _).plain kind rfl, fun _ _ h => h.of_zero ▸ .truth kind⟩
  | falsity kind => exact ⟨0, (Open.none _).plain kind rfl, fun _ _ h => h.of_zero ▸ .falsity kind⟩
  | unary kind operand ih =>
    obtain ⟨count, operand⟩ := ih
    refine ⟨count, ?_, fun closers more h => .unary kind (operand.closes _ _ h)⟩
    rcases kind with kind | kind
    · exact operand.isOpen.plain kind rfl
    · exact operand.isOpen.plain kind rfl
  | group opens inner closes ih =>
    obtain ⟨count, inner⟩ := ih
    exact ⟨count, (inner.isOpen.past closes rfl).plain opens rfl,
      fun closers more h => .group opens (inner.closes _ _ h) closes⟩
  | cond kind opens test closes body ih ih' =>
    obtain ⟨a, test⟩ := ih
    obtain ⟨b, body⟩ := ih'
    have isOpen := (test.isOpen.past closes rfl).trans body.isOpen
    refine ⟨a + b, (isOpen.plain opens rfl).plain kind rfl, fun closers more h => ?_⟩
    obtain ⟨between, left, right⟩ := h.split
    exact .cond kind opens (test.closes _ _ left) closes (body.closes _ _ right)
  | condElse kind opens test closes body otherwise other ih ih' ih'' =>
    obtain ⟨a, test⟩ := ih
    obtain ⟨b, body⟩ := ih'
    obtain ⟨c, other⟩ := ih''
    have bodies := (body.isOpen.past otherwise rfl).trans other.isOpen
    have isOpen := (test.isOpen.past closes rfl).trans bodies
    refine ⟨a + (b + c), (isOpen.plain opens rfl).plain kind rfl, fun closers more h => ?_⟩
    obtain ⟨between, left, right⟩ := h.split
    obtain ⟨between', middle, right⟩ := right.split
    exact .condElse kind opens (test.closes _ _ left) closes (body.closes _ _ middle) otherwise
      (other.closes _ _ right)
  | func kind opens params body ih =>
    obtain ⟨count, body⟩ := ih
    have isOpen := params.none_open.trans body.isOpen
    rw [Nat.zero_add] at isOpen
    exact ⟨count, (isOpen.plain opens rfl).plain kind rfl,
      fun closers more h => .func kind opens (params.append closers) (body.closes _ _ h)⟩
  | closed opens inner closes ih =>
    obtain ⟨count, inner⟩ := ih
    exact ⟨count, inner.isOpen.closed opens closes,
      fun closers more h => .closed opens (inner.closes _ _ h) closes⟩
  | unclosed opens inner ih =>
    -- the last brace is for this block
    obtain ⟨count, inner⟩ := ih
    refine ⟨count + 1, inner.isOpen.lbrace opens, fun closers more h => ?_⟩
    obtain ⟨between, left, right⟩ := h.split
    cases right with
    | brace kind others =>
      cases others with
      | none => exact .closed opens (inner.closes _ _ left) kind
  | bind kind named assigned inner terminator ih =>
    obtain ⟨count, value⟩ := ih
    have isOpen := value.isOpen.trans terminator.none_open
    refine ⟨count, ((isOpen.plain assigned rfl).plain named rfl).plain kind rfl,
      fun closers more h => ?_⟩
    exact .bind kind named assigned (value.closes _ _ h) (terminator.append h.ends_more)
  | ret kind inner terminator ih =>
    obtain ⟨count, value⟩ := ih
    refine ⟨count, (value.isOpen.trans terminator.none_open).plain kind rfl,
      fun closers more h => ?_⟩
    exact .ret kind (value.closes _ _ h) (terminator.append h.ends_more)
  | expr inner terminator ih =>
    obtain ⟨count, value⟩ := ih
    refine ⟨count, value.isOpen.trans terminator.none_open, fun closers more h => ?_⟩
    exact .expr (value.closes _ _ h) (terminator.append h.ends_more)
  | nil => exact ⟨0, .none _, fun _ _ h => h.of_zero ▸ .nil⟩
  | cons first more ih ih' =>
    obtain ⟨a, first⟩ := ih
    obtain ⟨b, others⟩ := ih'
    refine ⟨a + b, first.isOpen.trans others.isOpen, fun closers more h => ?_⟩
    obtain ⟨between, left, right⟩ := h.split
    exact .cons (first.closes _ _ left) (others.closes _ _ right)
  | skip gap => exact gap.elim

end Derives

/-! ## Texts -/

/-- A text of closing braces. -/
def closingBraces (count : Nat) : String :=
  String.ofList (List.replicate count '\x7d')

theorem utf8_closingBraces (count : Nat) :
    Text.utf8 (closingBraces count) = List.replicate count '\x7d'.toUInt8 := by
  rw [closingBraces, Text.utf8, String.toList_ofList]
  induction count with
  | zero => rfl
  | succ count ih =>
    rw [List.replicate_succ, List.flatMap_cons, ih]
    rfl

namespace Lexer

/-- Closing braces are tokens of their own. -/
theorem closers_of_rest {lexer : Lexer} {count : Nat}
    (braces : lexer.rest = List.replicate count '\x7d'.toUInt8) : Closers count lexer.tokens [] := by
  induction count generalizing lexer with
  | zero =>
    rw [tokens_of_atEnd (atEnd_of_rest_eq_nil braces)]
    exact .none rfl
  | succ count ih =>
    obtain ⟨file, offset, rest⟩ := lexer
    cases braces
    rw [tokens_of_not_atEnd rfl]
    exact .brace rfl (ih rfl)

/-- They are read as such after any text. -/
theorem tokens_closers (text : String) (file : Option String) (count : Nat) :
    ∃ closers, Closers count closers [] ∧
      (ofText (text ++ closingBraces count) file).tokens = (ofText text file).tokens ++ closers := by
  have separates : Separates (Text.utf8 (closingBraces count)) := by
    rw [utf8_closingBraces]
    intro b hb
    obtain rfl := (List.mem_replicate.mp (List.mem_of_mem_head? hb)).2
    decide
  have apart := (within_ofText text file).tokens_append_of_separates separates
  have whole : (ofText text file).followedBy (Text.utf8 (closingBraces count)) =
      ofText (text ++ closingBraces count) file := by
    simp only [followedBy, ofText, Text.utf8_append]
  rw [whole] at apart
  exact ⟨_, closers_of_rest (utf8_closingBraces count), apart⟩

end Lexer

/-- A parse without diagnostics has read a program of the grammar. -/
theorem derives_of_clean {text : String} {file : Option String} (zero_free : 0 ∉ Text.utf8 text)
    (clean : (parse text file).diagnostics = []) :
    (parse text file).program.Derives maxDepth (Lexer.ofText text file).tokens := by
  let start := (Parser.ofText text file).note (.started (Parser.ofText text file).position.file)
  have before : start.Before (Lexer.ofText text file).finish (Lexer.ofText text file).tokens :=
    ⟨rfl, fun _ => Lexer.kind_ne_eof zero_free file⟩
  obtain ⟨rest, after, derived⟩ :=
    Reading.statements ((Reading.clean _).sound maxDepth) before clean
  have blocks : (start.statements (.of maxDepth)).2.openBlocks = 0 :=
    (Parser.ahead_statements (.of maxDepth) start).openBlocks_eq
  rcases after.nil_or_rbrace (Parser.endsBody_statements (.of maxDepth) start) with rfl | ⟨-, block⟩
  · exact derived
  · exact absurd blocks (Nat.ne_of_gt block)

/-- **A block left open at the end of input means the same as one closed there.** If a text without
zero bytes is parsed without diagnostics, it closes no more braces than it opens; and with closing
braces for those that are open it is parsed to the same program, without diagnostics. -/
theorem unclosed_blocks_close (text : String) (file : Option String)
    (zero_free : 0 ∉ Text.utf8 text) (clean : (parse text file).diagnostics = []) :
    let tokens := tokenize text file
    countKind .rbrace tokens ≤ countKind .lbrace tokens ∧
      let count := countKind .lbrace tokens - countKind .rbrace tokens
      let closed := parse (text ++ closingBraces count) file
      closed.program = (parse text file).program ∧ closed.diagnostics = [] := by
  intro tokens
  have derived := derives_of_clean zero_free clean
  obtain ⟨count, isOpen, closes⟩ := Derives.exists_open derived
  -- the end of input is no brace
  have counts (kind : Kind) (some : kind ≠ .eof) :
      countKind kind tokens = countKind kind (Lexer.ofText text file).tokens := by
    change countKind kind (tokenize text file) = _
    rw [Lexer.tokenize_eq zero_free file, countKind, countKind, List.countP_append]
    simp [some.symm]
  have balance : countKind .lbrace tokens = countKind .rbrace tokens + count := by
    rw [counts .lbrace (by decide), counts .rbrace (by decide)]
    exact isOpen
  refine ⟨by omega, ?_⟩
  intro missing closed
  obtain rfl : count = missing := by omega
  have zero_free' : 0 ∉ Text.utf8 (text ++ closingBraces missing) := by
    rw [Text.utf8_append, utf8_closingBraces, List.mem_append, not_or, List.mem_replicate]
    exact ⟨zero_free, fun h => absurd h.2 (by decide)⟩
  obtain ⟨braces, closers, tokens_eq⟩ := Lexer.tokens_closers text file missing
  have derived' : (parse text file).program.Derives maxDepth
      (Lexer.ofText (text ++ closingBraces missing) file).tokens :=
    tokens_eq ▸ closes braces [] closers
  exact derived'.parse_eq fun _ => Lexer.kind_ne_eof zero_free' file

/-- Three blocks are open: in a right operand, in an `else` and in the operand of a prefix operator. -/
theorem unclosed_blocks_close_nested :
    let text := "let f = 1 + fn(x) \x7b if (x) \x7b 2 \x7d else \x7b -fn() \x7b y;"
    0 ∉ Text.utf8 text ∧ (parse text none).diagnostics = [] ∧
      (parse (text ++ "\x7d\x7d\x7d") none).program = (parse text none).program ∧
      (parse (text ++ "\x7d\x7d\x7d") none).diagnostics = [] := by
  intro text
  have clean : (parse text none).diagnostics = [] := by decide +kernel
  have closed := (unclosed_blocks_close text none (by decide) clean).2
  have count :
      countKind .lbrace (tokenize text none) - countKind .rbrace (tokenize text none) = 3 := by
    decide +kernel
  rw [count] at closed
  exact ⟨by decide, clean, closed⟩

end Monkey
