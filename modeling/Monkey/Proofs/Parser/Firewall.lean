import Monkey.Proofs.Lexing.Concat
import Monkey.Proofs.Parser.Replacement

/-!
# A semicolon is a firewall

Two parses are set side by side: of a text that ends with a semicolon and closes every brace it
opens, and of that text with another after it. However wrong the first text is, they stay together
until both have read it. The reason is an invariant: the parser never has more blocks open than the
text before it has opened braces. So the semicolon that no brace encloses is read where no block is
open, and nothing looks past it.

Results:
* `firewall`: inside a block the two parses simulate one another.
* `Between.statements`: outside of blocks they stay together as far as the first text goes.
* `shifted`: what follows is parsed as if it stood alone, further on.
* `parse_append`: the parse of the whole is the parses of its parts, one after the other.
-/

namespace Monkey

/-! ## What is still to come of the first text -/

/-- Tokens that close the `depth` braces open before them and those of their own, and of which the
last is a semicolon. -/
structure Sealed (depth : Nat) (tokens : List Token) : Prop where
  balanced : depthAfter depth tokens = some 0
  last : ∀ t ∈ tokens.getLast?, t.kind = .semicolon
  not_eof : ∀ t ∈ tokens, t.kind ≠ .eof

namespace Sealed

variable {depth : Nat} {token : Token} {tokens : List Token}

theorem eq_zero (h : Sealed depth []) : depth = 0 :=
  Option.some.inj h.balanced

theorem tail (h : Sealed depth (token :: tokens)) :
    Sealed (token.kind.bracesAfter depth) tokens where
  balanced := depthAfter_cons h.balanced
  last t ht := by
    refine h.last t ?_
    rw [List.getLast?_cons, Option.mem_def.mp ht]
    rfl
  not_eof t ht := h.not_eof t (List.mem_cons_of_mem token ht)

/-- Only a semicolon is the last token. -/
theorem ne_nil (h : Sealed depth (token :: tokens)) (kind : token.kind ≠ .semicolon) :
    tokens ≠ [] := by
  rintro rfl
  exact kind (h.last token rfl)

/-- A token that opens no brace can be put before the others. -/
theorem cons (h : Sealed depth tokens) (some : tokens ≠ []) (lbrace : token.kind ≠ .lbrace)
    (eof : token.kind ≠ .eof) : ∃ before, depth ≤ before ∧ Sealed before (token :: tokens) := by
  obtain ⟨before, le, balanced⟩ := exists_depthAfter_cons h.balanced lbrace
  refine ⟨before, le, balanced, fun t ht => h.last t ?_, ?_⟩
  · rwa [List.getLast?_cons_of_ne_nil some] at ht
  · simpa [eof] using h.not_eof

end Sealed

/-! ## The two parses -/

/-- The parser `p` has `tokens` before it, the parser `q` has `more` after these, and they are alike
otherwise. -/
structure Abreast (finish finish' : Position) (more tokens : List Token) (p q : Parser) : Prop where
  left : p.At finish tokens
  right : q.At finish' (tokens ++ more)
  openBlocks : q.openBlocks = p.openBlocks
  diagnostics : q.diagnostics = p.diagnostics

namespace Abreast

variable {finish finish' : Position} {more tokens : List Token} {token : Token} {p q : Parser}
  {depth : Nat}

theorem advance (h : Abreast finish finish' more (token :: tokens) p q) :
    Abreast finish finish' more tokens p.advance q.advance :=
  ⟨h.left.advance, h.right.advance, h.openBlocks, h.diagnostics⟩

theorem current (h : Abreast finish finish' more tokens p q) (some : tokens ≠ []) :
    q.current = p.current := by
  obtain ⟨token, rest, rfl⟩ := List.exists_cons_of_ne_nil some
  rw [h.left.current, h.right.current]

theorem endsBody (h : Abreast finish finish' more tokens p q) (some : tokens ≠ []) :
    q.endsBody = p.endsBody := by
  unfold Parser.endsBody
  rw [h.current some, h.openBlocks]

/-- Statements end before a token of a sealed text only at a brace. -/
theorem endsBody_iff (h : Abreast finish finish' more (token :: tokens) p q)
    (sealed : Sealed depth (token :: tokens)) :
    p.endsBody = true ↔ token.kind = .rbrace ∧ 0 < p.openBlocks := by
  have eof := sealed.not_eof token List.mem_cons_self
  simp [Parser.endsBody, h.left.current, eof]

end Abreast

section

variable (finish finish' : Position) (more : List Token)

/-- The parsers have tokens of the first text before them, and `braces` of the braces open there are
skipped. -/
def Inside (braces : Nat) (p q : Parser) : Prop :=
  ∃ depth token rest, Abreast finish finish' more (token :: rest) p q ∧
    Sealed depth (token :: rest) ∧ p.openBlocks + braces ≤ depth

/-- Some of the first text or nothing is before the parsers, where statements may begin. -/
def Between (p q : Parser) : Prop :=
  ∃ depth tokens, Abreast finish finish' more tokens p q ∧ Sealed depth tokens ∧
    p.openBlocks ≤ depth

/-- The parsers have reached a token that opens no brace, and `follow` holds of the tokens of the
first text after it. -/
def Reached (follow : List Token → Prop) (p q : Parser) : Prop :=
  ∃ depth token rest, Abreast finish finish' more (token :: rest) p q ∧ token.kind ≠ .lbrace ∧
    token.kind ≠ .eof ∧ Sealed depth rest ∧ p.openBlocks ≤ depth ∧ follow rest

end

variable {finish finish' : Position} {more : List Token} {follow : List Token → Prop}
  {braces : Nat} {p q : Parser}

namespace Inside

theorem current (h : Inside finish finish' more braces p q) : q.current = p.current := by
  obtain ⟨_, _, _, abreast, -⟩ := h
  exact abreast.current (List.cons_ne_nil _ _)

theorem endsBody (h : Inside finish finish' more braces p q) : q.endsBody = p.endsBody := by
  obtain ⟨_, _, _, abreast, -⟩ := h
  exact abreast.endsBody (List.cons_ne_nil _ _)

/-- Tokens follow a token that is no semicolon, or stands in a brace that is skipped. -/
theorem advance (h : Inside finish finish' more braces p q)
    (goes_on : ¬ (braces = 0 ∧ p.endsBody = true))
    (within : ¬ (braces = 0 ∧ p.current.kind = .semicolon)) :
    Inside finish finish' more (p.current.kind.bracesAfter braces) p.advance q.advance := by
  obtain ⟨depth, token, rest, abreast, sealed, le⟩ := h
  rw [abreast.endsBody_iff sealed] at goes_on
  rw [abreast.left.current] at within ⊢
  have some : rest ≠ [] := by
    rintro rfl
    have semicolon : token.kind = .semicolon := sealed.last token rfl
    have zero := sealed.tail.eq_zero
    rw [semicolon, Kind.bracesAfter_other (by decide) (by decide)] at zero
    exact within ⟨by omega, semicolon⟩
  obtain ⟨next, rest, rfl⟩ := List.exists_cons_of_ne_nil some
  refine ⟨_, next, rest, abreast.advance, sealed.tail, ?_⟩
  change p.openBlocks + _ ≤ _
  unfold Kind.bracesAfter
  split
  · omega
  · next rbrace =>
    have : braces = 0 → ¬ 0 < p.openBlocks := fun zero pos => goes_on ⟨zero, rbrace, pos⟩
    omega
  · exact le

/-- A plain token is followed by others. -/
theorem reached (h : Inside finish finish' more 0 p q) (plain : p.current.kind.plain = true) :
    Reached finish finish' more (· ≠ []) p q := by
  obtain ⟨depth, token, rest, abreast, sealed, le⟩ := h
  rw [abreast.left.current] at plain
  obtain ⟨lbrace, rbrace, semicolon⟩ := Kind.ne_of_plain plain
  refine ⟨depth, token, rest, abreast, lbrace, sealed.not_eof _ List.mem_cons_self, ?_, le,
    sealed.ne_nil semicolon⟩
  rw [← Kind.bracesAfter_other lbrace rbrace depth]
  exact sealed.tail

theorem openBlocks_eq (h : Inside finish finish' more braces p q) : q.openBlocks = p.openBlocks := by
  obtain ⟨_, _, _, abreast, -⟩ := h
  exact abreast.openBlocks

theorem enter (h : Inside finish finish' more 0 p q) :
    Inside finish finish' more 0 p.enter q.enter := by
  obtain ⟨depth, token, rest, ⟨left, right, openBlocks, diagnostics⟩, sealed, le⟩ := h
  exact ⟨depth, token, rest, ⟨left, right, openBlocks, diagnostics⟩, sealed, le⟩

theorem leave (h : Inside finish finish' more 0 p q) :
    Inside finish finish' more 0 p.leave q.leave := by
  obtain ⟨depth, token, rest, ⟨left, right, openBlocks, diagnostics⟩, sealed, le⟩ := h
  exact ⟨depth, token, rest, ⟨left, right, openBlocks, diagnostics⟩, sealed, le⟩

/-- A block opens at a brace that the first text closes. -/
theorem openBlock (h : Inside finish finish' more 0 p q) (brace : p.current.kind = .lbrace) :
    Inside finish finish' more 0 p.advance.openBlock q.advance.openBlock := by
  obtain ⟨depth, token, rest, ⟨left, right, openBlocks, diagnostics⟩, sealed, le⟩ :=
    h.advance (by simp [Parser.endsBody, brace]) (by simp [brace])
  rw [brace] at le
  exact ⟨depth, token, rest, ⟨left, right, congrArg (· + 1) openBlocks, diagnostics⟩, sealed, le⟩

/-- A block ends at a brace that the first text has more after. -/
theorem closeBlock (h : Inside finish finish' more 0 p q) (ends : p.endsBody = true) :
    Reached finish finish' more (· ≠ []) p.closeBlock q.closeBlock := by
  obtain ⟨depth, token, rest, abreast, sealed, le⟩ := h
  obtain ⟨rbrace, -⟩ := (abreast.endsBody_iff sealed).mp ends
  obtain ⟨left, right, openBlocks, diagnostics⟩ := abreast
  refine ⟨depth - 1, token, rest, ⟨left, right, congrArg (· - 1) openBlocks, diagnostics⟩,
    by simp [rbrace], by simp [rbrace], ?_, Nat.sub_le_sub_right le 1,
    sealed.ne_nil (by simp [rbrace])⟩
  have := sealed.tail
  rwa [rbrace] at this

end Inside

namespace Reached

/-- The token that was reached can be skipped. -/
theorem inside (h : Reached finish finish' more (· ≠ []) p q) :
    Inside finish finish' more 0 p q := by
  obtain ⟨depth, token, rest, abreast, lbrace, eof, sealed, le, some⟩ := h
  obtain ⟨before, more_open, sealed⟩ := sealed.cons some lbrace eof
  exact ⟨before, token, rest, abreast, sealed, Nat.le_trans le more_open⟩

theorem advance (h : Reached finish finish' more (· ≠ []) p q) :
    Inside finish finish' more 0 p.advance q.advance := by
  obtain ⟨depth, token, rest, abreast, -, -, sealed, le, some⟩ := h
  obtain ⟨next, rest, rfl⟩ := List.exists_cons_of_ne_nil some
  exact ⟨depth, next, rest, abreast.advance, sealed, le⟩

theorem peek (h : Reached finish finish' more (· ≠ []) p q) : q.peek = p.peek :=
  h.advance.current

theorem leave (h : Reached finish finish' more follow p q) :
    Reached finish finish' more follow p.leave q.leave := by
  obtain ⟨depth, token, rest, ⟨left, right, openBlocks, diagnostics⟩, reached⟩ := h
  exact ⟨depth, token, rest, ⟨left, right, openBlocks, diagnostics⟩, reached⟩

theorem settle (h : Reached finish finish' more follow p q) :
    Reached finish finish' more (fun _ => True) p q := by
  obtain ⟨depth, token, rest, abreast, lbrace, eof, sealed, le, -⟩ := h
  exact ⟨depth, token, rest, abreast, lbrace, eof, sealed, le, trivial⟩

/-- A semicolon may be the last token. -/
theorem semicolon (h : Reached finish finish' more (· ≠ []) p q)
    (kind : p.peek.kind = .semicolon) :
    Reached finish finish' more (fun _ => True) p.advance q.advance := by
  obtain ⟨depth, token, rest, abreast, -, -, sealed, le, some⟩ := h
  obtain ⟨next, rest, rfl⟩ := List.exists_cons_of_ne_nil some
  rw [abreast.left.kind_peek] at kind
  have kind : next.kind = .semicolon := kind
  have later := sealed.tail
  rw [kind, Kind.bracesAfter_other (by decide) (by decide)] at later
  exact ⟨depth, next, rest, abreast.advance, by simp [kind], by simp [kind], later, le,
    trivial⟩

theorem between (h : Reached finish finish' more follow p q) :
    Between finish finish' more p.advance q.advance := by
  obtain ⟨depth, token, rest, abreast, -, -, sealed, le, -⟩ := h
  exact ⟨depth, rest, abreast.advance, sealed, le⟩

end Reached

namespace Between

/-- In a block more of the first text is to come. -/
theorem inside (h : Between finish finish' more p q) (block : 0 < p.openBlocks) :
    Inside finish finish' more 0 p q := by
  obtain ⟨depth, tokens, abreast, sealed, le⟩ := h
  cases tokens with
  | nil => exact absurd sealed.eq_zero (by omega)
  | cons token rest => exact ⟨depth, token, rest, abreast, sealed, le⟩

theorem inside_of_not_endsBody (h : Between finish finish' more p q) (ends : p.endsBody = false) :
    Inside finish finish' more 0 p q := by
  obtain ⟨depth, tokens, abreast, sealed, le⟩ := h
  cases tokens with
  | nil => simp [Parser.endsBody, abreast.left.current_nil] at ends
  | cons token rest => exact ⟨depth, token, rest, abreast, sealed, le⟩

end Between

/-- Skipping stays inside the first text, or stops at its end. -/
theorem Inside.skipStatement (h : Inside finish finish' more braces p q) :
    Between finish finish' more (p.skipStatement braces) (q.skipStatement braces) := by
  refine Parser.related_skipStatement (Inside finish finish' more)
    (Between finish finish' more)
    (fun h => congrArg Token.kind h.current) (fun h => h.endsBody)
    (fun h _ goes_on within => congrArg Token.kind (h.advance goes_on within).current)
    (fun h _ goes_on within => h.advance goes_on within) ?_ ?_ h
  · rintro p q ⟨depth, token, rest, abreast, sealed, le⟩ semicolon
    refine ⟨_, rest, abreast.advance, sealed.tail, ?_⟩
    rw [abreast.left.current] at semicolon
    rwa [semicolon, Kind.bracesAfter_other (by decide) (by decide)]
  · rintro braces p q ⟨depth, token, rest, abreast, sealed, le⟩ _
    exact ⟨depth, _, abreast, sealed, Nat.le_of_add_right_le le⟩

theorem Inside.recover (h : Inside finish finish' more 0 p q) (diagnostic : Diagnostic) :
    Between finish finish' more (p.recover diagnostic) (q.recover diagnostic) := by
  obtain ⟨depth, token, rest, ⟨left, right, openBlocks, diagnostics⟩, sealed, le⟩ := h
  have recorded : Inside finish finish' more 0 (p.record diagnostic) (q.record diagnostic) :=
    ⟨depth, token, rest, ⟨left, right, openBlocks, congrArg (·.push diagnostic) diagnostics⟩,
      sealed, le⟩
  obtain ⟨depth, tokens, ⟨left, right, openBlocks, diagnostics⟩, sealed, le⟩ :=
    recorded.skipStatement
  exact ⟨depth, tokens, ⟨left, right, openBlocks, diagnostics⟩, sealed, le⟩

/-- In a block recovery stays inside the first text. -/
theorem Inside.recover_block (h : Inside finish finish' more 0 p q) {d e : Diagnostic} (same : d = e)
    (block : 0 < p.openBlocks) : Inside finish finish' more 0 (p.recover d) (q.recover e) := by
  subst same
  refine (h.recover d).inside ?_
  rwa [(Parser.ahead_recover p d).openBlocks_eq]

/-! ## Inside a block and outside -/

/-- Inside a block the parses simulate one another. -/
def firewall (finish finish' : Position) (more : List Token) : Simulation where
  token := id
  fresh := Inside finish finish' more 0
  held := Reached finish finish' more (· ≠ [])
  ended := Reached finish finish' more fun _ => True
  between := Inside finish finish' more 0
  stuck d e p q := d = e ∧ Inside finish finish' more 0 p q
  scope := (0 < ·)
  floor := 0
  kind_token := Token.kind_id
  value_token := Token.value_id
  scope_succ n _ := Nat.succ_pos n
  floor_le _ := Nat.zero_le _
  current h := h.current
  openBlocks h := h.openBlocks_eq
  peek h := congrArg Token.kind h.peek
  hold h plain := h.reached plain
  advance h := h.advance
  enter h := h.enter
  leave h := h.leave
  leave_stuck h := ⟨h.1, h.2.leave⟩
  blame h _ := ⟨congrArg (Diagnostic.mk _) (congrArg (·.span.start) h.current.symm), h⟩
  unexpected h _ := ⟨congrArg (Diagnostic.mk _) (congrArg (·.span.start) h.peek.symm), h.inside⟩
  openBlock h brace := h.openBlock brace
  endsBody h := h.endsBody
  start h _ := h
  closeBlock h _ ends := h.closeBlock ends
  settle h _ := h.settle
  semicolon h kind := h.semicolon kind
  next h block := h.between.inside block
  recover h block := h.2.recover_block h.1 block

/-- Outside of blocks the parses stay together as far as the first text goes, and then one of them
goes on. -/
theorem Between.statements (depth : Nat) (h : Between finish finish' more p q)
    (top : p.openBlocks = 0) :
    ∃ r : Parser, r.At finish' more ∧ r.openBlocks = 0 ∧
      r.diagnostics = (p.statements (.of depth)).2.diagnostics ∧
      q.statements (.of depth) =
        ((p.statements (.of depth)).1 ++ (r.statements (.of depth)).1,
          (r.statements (.of depth)).2) := by
  have follows := (firewall finish finish' more).follows depth
  fun_induction Parser.statements (.of depth) p generalizing q with
  | case1 p ends =>
    obtain ⟨count, tokens, abreast, sealed, le⟩ := h
    cases tokens with
    | nil =>
      exact ⟨q, abreast.right, abreast.openBlocks.trans top, abreast.diagnostics, rfl⟩
    | cons token rest =>
      obtain ⟨-, block⟩ := (abreast.endsBody_iff sealed).mp ends
      exact absurd top (Nat.ne_of_gt block)
  | case2 p ends statement p' tried rest r eq ih =>
    have inside := h.inside_of_not_endsBody (Bool.eq_false_iff.mpr ends)
    have one := Simulation.related_statement follows p q inside
    have blocks := ((Rule.statement (.of depth)).ahead p).openBlocks_eq
    rw [tried] at one blocks
    generalize eq' : (Rule.statement (.of depth)).run q = y at one
    cases one with
    | ok result state =>
      rw [eq] at ih
      obtain ⟨r, stands, topmost, diagnostics, later⟩ :=
        ih (Reached.between state) (blocks.trans top)
      have ends' : q.endsBody = false := inside.endsBody.trans (Bool.eq_false_iff.mpr ends)
      refine ⟨r, stands, topmost, diagnostics, ?_⟩
      rw [Parser.statements_of_ok ends' eq', later, result]
      exact congrArg (fun s => (s :: _, _)) statement.relabel_id
  | case3 p ends d p' tried ih =>
    have inside := h.inside_of_not_endsBody (Bool.eq_false_iff.mpr ends)
    have one := Simulation.related_statement follows p q inside
    have blocks := ((Rule.statement (.of depth)).ahead p).openBlocks_eq
    rw [tried] at one blocks
    generalize eq' : (Rule.statement (.of depth)).run q = y at one
    cases one with
    | error state =>
      obtain ⟨same, state⟩ := state
      subst same
      have ends' : q.endsBody = false := inside.endsBody.trans (Bool.eq_false_iff.mpr ends)
      rw [Parser.statements_of_error ends' eq']
      exact ih (state.recover d) (((Parser.ahead_recover p' d).openBlocks_eq.trans blocks).trans top)

/-! ## What follows -/

/-- The same tokens further on. -/
def Replacement.shift (count : Nat) : Replacement where
  token := Token.shift count
  position := Position.shift count
  kind_token _ := rfl
  value_token _ := rfl
  start_token _ := rfl

/-- The parser `q` has the tokens of `p` before it, further on, and its diagnostics are `before` and
those of `p`, further on. -/
abbrev Shifted (count : Nat) (finish : Position) (before : List Diagnostic) (p q : Parser) : Prop :=
  Replaced (.shift count) finish (finish.shift count) before p q

/-- A text is parsed further on as it is by itself. -/
def shifted (count : Nat) (finish : Position) (before : List Diagnostic) : Simulation :=
  (Replacement.shift count).simulation finish (finish.shift count) before
    (Token.shift_endOfInput count finish)

/-! ## The parse of a concatenation -/

/-- A list that ends with a semicolon and closes its braces is sealed, if no `eof` is in it. -/
theorem Sealed.of_tokens {tokens : List Token} (not_eof : ∀ t ∈ tokens, t.kind ≠ .eof)
    (last : tokens.getLast?.map (·.kind) = some .semicolon)
    (balanced : depthAfter 0 tokens = some 0) : Sealed 0 tokens where
  balanced := balanced
  last t ht := by
    rw [Option.mem_def.mp ht] at last
    exact Option.some.inj last
  not_eof := not_eof

/-- **A semicolon is a firewall.** After a text that ends with one and closes the braces it opens,
whatever else is wrong with it, another text is parsed as if it stood alone, further on. -/
theorem parse_append (first second : String) (file : Option String)
    (zero_free : 0 ∉ Text.utf8 first)
    (last : (tokenize first file).dropLast.getLast?.map (·.kind) = some .semicolon)
    (balanced : depthAfter 0 (tokenize first file).dropLast = some 0) :
    let count := (Text.utf8 first).length
    (parse (first ++ second) file).program.statements =
        (parse first file).program.statements ++
          (parse second file).program.statements.map (·.relabel (Token.shift count)) ∧
      (parse (first ++ second) file).diagnostics =
        (parse first file).diagnostics ++ (parse second file).diagnostics.map (·.shift count) := by
  intro count
  rw [Lexer.dropLast_tokenize zero_free] at last balanced
  have sealed := Sealed.of_tokens (fun t => Lexer.kind_ne_eof zero_free file) last balanced
  -- the three parses, at the start of the whole text, of the first and of the second
  let start (text : String) : Parser :=
    (Parser.ofText text file).note (.started (Parser.ofText text file).position.file)
  have whole_at : (start (first ++ second)).At ((Lexer.ofText second file).finish.shift count)
      ((Lexer.ofText first file).tokens ++
        (Lexer.ofText second file).tokens.map (·.shift count)) := by
    rw [← Lexer.tokens_ofText_append first second file sealed.last,
      ← Lexer.finish_ofText_append first second file]
    rfl
  have between : Between (Lexer.ofText first file).finish
      ((Lexer.ofText second file).finish.shift count)
      ((Lexer.ofText second file).tokens.map (·.shift count)) (start first)
      (start (first ++ second)) :=
    ⟨0, _, ⟨rfl, whole_at, rfl, rfl⟩, sealed, Nat.le_refl 0⟩
  obtain ⟨r, stands, topmost, diagnostics, whole⟩ := between.statements maxDepth rfl
  have alone : Shifted count (Lexer.ofText second file).finish
      ((start first).statements (.of maxDepth)).2.diagnostics.toList (start second) r :=
    ⟨⟨_, rfl, stands⟩, topmost, by rw [diagnostics]; exact (List.append_nil _).symm⟩
  obtain ⟨later, after⟩ := Simulation.statements (s := shifted _ _ _)
    ((shifted count (Lexer.ofText second file).finish _).follows maxDepth) alone trivial
  change ((start (first ++ second)).statements (.of maxDepth)).1 =
      ((start first).statements (.of maxDepth)).1 ++
        ((start second).statements (.of maxDepth)).1.map _ ∧
    ((start (first ++ second)).statements (.of maxDepth)).2.diagnostics.toList =
      ((start first).statements (.of maxDepth)).2.diagnostics.toList ++
        ((start second).statements (.of maxDepth)).2.diagnostics.toList.map _
  rw [whole, ← relabelStatements_eq_map]
  exact ⟨congrArg (_ ++ ·) later, after.diagnostics⟩

/-- A condition that is never closed leaves the statement after its semicolon alone. -/
theorem parse_append_open_condition :
    let first := "if (x \x7b y \x7d;"
    (0 ∉ Text.utf8 first ∧
        (tokenize first none).dropLast.getLast?.map (·.kind) = some .semicolon ∧
        depthAfter 0 (tokenize first none).dropLast = some 0) ∧
      (parse (first ++ "-z") none).program.statements =
        (parse first none).program.statements ++
          (parse "-z" none).program.statements.map (·.relabel (Token.shift 12)) ∧
      (parse (first ++ "-z") none).diagnostics =
        (parse first none).diagnostics ++ (parse "-z" none).diagnostics.map (·.shift 12) :=
  ⟨⟨by decide, by decide +kernel, by decide +kernel⟩,
    parse_append "if (x \x7b y \x7d;" "-z" none (by decide) (by decide +kernel)
      (by decide +kernel)⟩

end Monkey
