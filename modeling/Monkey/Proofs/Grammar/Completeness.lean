import Monkey.Proofs.Grammar.Soundness

/-!
# What is derived is read

From a derivation the parser's run follows: at the start of the phrase each rule succeeds, gives the
tree of the derivation and stops past the phrase, without a diagnostic. The parser decides by the
next token alone, so this needs what the grammar says of next tokens: how phrases begin, and what
cannot follow them.

Results:
* `Derives.read`: the parser reads a derived phrase.
* `parse_exact`: the parse of a text has no diagnostic exactly if the text is a program of the
  language, and then it gives that program.
-/

namespace Monkey

/-! ## How phrases begin -/

/-- Whether a statement begins with a kind. -/
def Kind.startsStatement (kind : Kind) : Prop :=
  Grammar.standard.operand kind ≠ none ∨ Grammar.standard.statement kind ≠ none

theorem Kind.startsStatement.ne {kind : Kind} (h : kind.startsStatement) :
    kind ≠ .eof ∧ kind ≠ .rbrace ∧ kind ≠ .kwElse := by
  refine ⟨?_, ?_, ?_⟩
  all_goals
    rintro rfl
    exact h.elim (fun h => h rfl) (fun h => h rfl)

/-- What begins an operand begins no other statement. -/
theorem Kind.statement_eq_none {kind : Kind} (h : Grammar.standard.operand kind ≠ none) :
    Grammar.standard.statement kind = none := by
  cases kind <;> first
    | rfl
    | exact absurd rfl h

/-- What a phrase begins with. -/
def Phrase.Begins : Phrase → List Token → List Token → Prop
  | .expr _ _, tokens, _ => Grammar.standard.operand (lookahead tokens) ≠ none
  | .statement _, tokens, _ => (lookahead tokens).startsStatement
  | .statements _ _, tokens, rest => tokens = rest ∨ (lookahead tokens).startsStatement
  | _, _, _ => True

namespace Derives

/-- Nothing is skipped. -/
abbrev Exactly (depth : Nat) (phrase : Phrase) (tokens rest : List Token) : Prop :=
  Derives (fun _ _ _ => False) depth phrase tokens rest

variable {depth : Nat} {phrase : Phrase} {tokens rest : List Token}

theorem begins (h : Exactly depth phrase tokens rest) : phrase.Begins tokens rest := by
  have operand {kind : Kind} {token : Token} {tokens : List Token} (eq : token.kind = kind)
      (some : Grammar.standard.operand kind ≠ none) :
      Grammar.standard.operand (lookahead (token :: tokens)) ≠ none := by
    change Grammar.standard.operand token.kind ≠ none
    rwa [eq]
  induction h with
  | tier _ _ _ ih => exact ih
  | ident kind => exact operand kind (by decide)
  | int kind => exact operand kind (by decide)
  | truth kind => exact operand kind (by decide)
  | falsity kind => exact operand kind (by decide)
  | unary kind =>
    rcases kind with kind | kind
    · exact operand kind (by decide)
    · exact operand kind (by decide)
  | group opens => exact operand opens (by decide)
  | cond kind => exact operand kind (by decide)
  | condElse kind => exact operand kind (by decide)
  | func kind => exact operand kind (by decide)
  | bind kind =>
    refine .inr ?_
    rw [lookahead, kind]
    decide
  | ret kind =>
    refine .inr ?_
    rw [lookahead, kind]
    decide
  | expr _ _ ih => exact .inl ih
  | nil => exact .inl rfl
  | cons _ _ ih => exact .inr ih
  | skip gap => exact gap.elim
  | stop | step | closed | unclosed => trivial

/-- What follows an operand is an operator or follows the whole expression. -/
theorem lookahead_chain {tier : Tier} {left tree : Expr}
    (h : Exactly depth (.chain tier left tree) tokens rest) (other : lookahead rest ≠ .kwElse) :
    lookahead tokens ≠ .kwElse := by
  cases h with
  | stop => exact other
  | step kind =>
    intro word
    rw [lookahead] at word
    rw [word] at kind
    cases tier <;> cases kind

/-- What follows a statement begins another or follows all of them. -/
theorem lookahead_statements {scope : Scope} {trees : List Stmt}
    (h : Exactly depth (.statements scope trees) tokens rest) (other : lookahead rest ≠ .kwElse) :
    lookahead tokens ≠ .kwElse := by
  rcases h.begins with rfl | starts
  · exact other
  · exact starts.ne.2.2

end Derives

theorem Terminator.lookahead_ne {tokens rest : List Token} (h : Terminator tokens rest)
    (other : lookahead rest ≠ .kwElse) : lookahead tokens ≠ .kwElse := by
  cases h with
  | present kind =>
    simp [lookahead, kind]
  | absent => exact other

/-! ## Runs that succeed -/

namespace Rule

variable {α β : Type} {r : Rule α} {f : α → Rule β} {p m : Parser} {a : α} {b : β}
  {middle after : Parser → Prop}

/-- A rule succeeds without a diagnostic. -/
def Gives (r : Rule α) (p : Parser) (a : α) (after : Parser → Prop) : Prop :=
  ∃ q, r.run p = (.ok a, q) ∧ q.diagnostics = p.diagnostics ∧ after q

theorem Gives.bind (first : r.Gives p a middle)
    (next : ∀ q, middle q → (f a).Gives q b after) : (r >>= f).Gives p b after := by
  obtain ⟨q, run, same, past⟩ := first
  obtain ⟨q', run', same', past'⟩ := next q past
  exact ⟨q', by rw [run_bind_ok run, run'], same'.trans same, past'⟩

theorem gives_pure (h : after p) : (pure a : Rule α).Gives p a after :=
  ⟨p, rfl, rfl, h⟩

theorem gives_nested (h : r.Gives p.enter a after) (leaves : ∀ q, after q → after q.leave) :
    (nested r).Gives p a after := by
  obtain ⟨q, run, same, past⟩ := h
  exact ⟨q.leave, by rw [run_nested, run], same, leaves q past⟩

variable {finish : Position} {token : Token} {tokens rest : List Token}

theorem gives_current (h : p.Before finish (token :: rest)) :
    current.Gives p token (·.Before finish (token :: rest)) :=
  ⟨p, by rw [run_current, h.stands.current], rfl, h⟩

theorem gives_advance (h : p.Past finish tokens) :
    advance.Gives p () (·.Before finish tokens) :=
  ⟨p.advance, rfl, rfl, h⟩

theorem gives_expect {kind : Kind} (h : p.Past finish (token :: rest)) (next : token.kind = kind) :
    (expect kind).Gives p () (·.Before finish (token :: rest)) :=
  ⟨p.advance, by rw [run_expect, if_pos (h.kind_peek.trans next)], rfl, h⟩

/-- What comes next decides. -/
theorem Gives.ifPeek {kind : Kind} {r' : Rule α} (h : p.Past finish tokens)
    (yes : lookahead tokens = kind → r.Gives p a after)
    (no : lookahead tokens ≠ kind → r'.Gives p a after) :
    (peek >>= fun next => if next.kind = kind then r else r').Gives p a after := by
  have looked : Rule.peek.Gives p p.peek (· = p) := ⟨p, rfl, rfl, rfl⟩
  refine looked.bind ?_
  rintro _ rfl
  rw [h.kind_peek]
  split
  · exact yes ‹_›
  · exact no ‹_›

/-! ## Operands -/

/-- A rule reads a tree from some tokens and leaves others. -/
def ReadsAt (finish : Position) (r : Rule α) (a : α) (tokens rest : List Token) : Prop :=
  ∀ p, p.Before finish tokens → r.Gives p a (·.Past finish rest)

variable {level : Level} {tree : Expr} {middle later : List Token}

theorem readsAt_operand (form : OperandForm)
    (kind : Grammar.standard.operand token.kind = some form)
    (read : ReadsAt finish (operandOf level form) tree (token :: tokens) rest) :
    ReadsAt finish (operand level) tree (token :: tokens) rest := by
  intro p h
  refine (gives_current h).bind fun q h => ?_
  rw [kind]
  exact read q h

theorem readsAt_ident (kind : token.kind = .ident) :
    ReadsAt finish (operand level) (.ident (.ofToken token)) (token :: rest) rest := by
  refine readsAt_operand .primary (by rw [kind]; rfl) fun p h => ?_
  refine (gives_current h).bind fun q h => ?_
  rw [kind]
  exact gives_pure h.past

theorem readsAt_int (kind : token.kind = .int) (small : Text.ofDecimal token.value ≤ maxInteger) :
    ReadsAt finish (operand level) (.int token (Text.ofDecimal token.value)) (token :: rest)
      rest := by
  refine readsAt_operand .primary (by rw [kind]; rfl) fun p h => ?_
  refine (gives_current h).bind fun q h => ?_
  rw [kind]
  dsimp only
  rw [if_pos small]
  exact gives_pure h.past

theorem readsAt_true (kind : token.kind = .kwTrue) :
    ReadsAt finish (operand level) (.bool token true) (token :: rest) rest := by
  refine readsAt_operand .primary (by rw [kind]; rfl) fun p h => ?_
  refine (gives_current h).bind fun q h => ?_
  rw [kind]
  exact gives_pure h.past

theorem readsAt_false (kind : token.kind = .kwFalse) :
    ReadsAt finish (operand level) (.bool token false) (token :: rest) rest := by
  refine readsAt_operand .primary (by rw [kind]; rfl) fun p h => ?_
  refine (gives_current h).bind fun q h => ?_
  rw [kind]
  exact gives_pure h.past

theorem readsAt_unary (operand : ReadsAt finish (level.expr .unary) tree tokens rest) :
    ReadsAt finish (unary level) (.unary token token.value tree) (token :: tokens) rest := by
  intro p h
  refine (gives_current h).bind fun q h => ?_
  refine (gives_advance h.past).bind fun q h => ?_
  exact (operand q h).bind fun q h => gives_pure h

theorem readsAt_group {closing : Token} (closes : closing.kind = .rparen)
    (inner : ReadsAt finish (level.expr .lowest) tree tokens (closing :: rest)) :
    ReadsAt finish (group level) tree (token :: tokens) rest := by
  intro p h
  refine (gives_advance h.past).bind fun q h => ?_
  refine (inner q h).bind fun q h => ?_
  exact (gives_expect h closes).bind fun q h => gives_pure h.past

theorem gives_nextBlock {b : Block} {opening : Token} (opens : opening.kind = .lbrace)
    (block : ReadsAt finish level.block b (opening :: tokens) rest)
    (h : p.Past finish (opening :: tokens)) :
    (nextBlock level).Gives p b (·.Past finish rest) :=
  (gives_expect h opens).bind fun q h => block q h

theorem readsAt_condElse {opening closing brace word brace' : Token} {condition : Expr}
    {consequence alternative : Block} (opens : opening.kind = .lparen)
    (test : ReadsAt finish (level.expr .lowest) condition tokens (closing :: brace :: middle))
    (closes : closing.kind = .rparen) (begins : brace.kind = .lbrace)
    (body : ReadsAt finish level.block consequence (brace :: middle) (word :: brace' :: later))
    (otherwise : word.kind = .kwElse) (begins' : brace'.kind = .lbrace)
    (other : ReadsAt finish level.block alternative (brace' :: later) rest) :
    ReadsAt finish (cond level) (.cond token condition consequence (some alternative))
      (token :: opening :: tokens) rest := by
  intro p h
  refine (gives_current h).bind fun q h => ?_
  refine (gives_expect h.past opens).bind fun q h => ?_
  refine (gives_advance h.past).bind fun q h => ?_
  refine (test q h).bind fun q h => ?_
  refine (gives_expect h closes).bind fun q h => ?_
  refine (gives_nextBlock begins body h.past).bind fun q h => ?_
  refine .ifPeek h (fun _ => ?_) fun no => absurd otherwise no
  refine (gives_advance h).bind fun q h => ?_
  exact (gives_nextBlock begins' other h.past).bind fun q h => gives_pure h

theorem readsAt_cond {opening closing brace : Token} {condition : Expr} {consequence : Block}
    (opens : opening.kind = .lparen)
    (test : ReadsAt finish (level.expr .lowest) condition tokens (closing :: brace :: middle))
    (closes : closing.kind = .rparen) (begins : brace.kind = .lbrace)
    (body : ReadsAt finish level.block consequence (brace :: middle) rest)
    (other : lookahead rest ≠ .kwElse) :
    ReadsAt finish (cond level) (.cond token condition consequence none)
      (token :: opening :: tokens) rest := by
  intro p h
  refine (gives_current h).bind fun q h => ?_
  refine (gives_expect h.past opens).bind fun q h => ?_
  refine (gives_advance h.past).bind fun q h => ?_
  refine (test q h).bind fun q h => ?_
  refine (gives_expect h closes).bind fun q h => ?_
  refine (gives_nextBlock begins body h.past).bind fun q h => ?_
  exact .ifPeek h (fun yes => absurd yes other) fun _ => gives_pure h

theorem gives_nextParam (h : p.Past finish (token :: rest)) (kind : token.kind = .ident) :
    nextParam.Gives p (.ofToken token) (·.Past finish rest) := by
  refine (gives_expect h kind).bind fun q h => ?_
  exact (gives_current h).bind fun q h => gives_pure h.past

/-- The loop over the parameters after the first one. -/
theorem gives_moreParams {more : List Ident} (h : MoreParams more tokens rest)
    (other : lookahead rest ≠ .comma) (names : List Ident) :
    ∀ p : Parser, p.Past finish tokens → (repeatWhile (· == .comma) rfl
      (fun names => return names ++ [← nextParam]) names).Gives p (names ++ more)
        (·.Past finish rest) := by
  induction h generalizing names with
  | nil =>
    intro p h
    refine ⟨p, ?_, rfl, h⟩
    rw [List.append_nil]
    refine repeatFrom_of_not rfl ?_
    rw [h.kind_peek, beq_iff_eq]
    exact other
  | cons separator kind _ ih =>
    intro p h
    have next : (p.peek.kind == .comma) = true := beq_iff_eq.mpr (h.kind_peek.trans separator)
    obtain ⟨m, run, same, past⟩ := gives_nextParam (Parser.Before.past h) kind
    obtain ⟨q, run', same', past'⟩ := ih other (names ++ [_]) m past
    refine ⟨q, ?_, same'.trans same, past'⟩
    rw [List.append_assoc] at run'
    refine Eq.trans (repeatFrom_of_ok rfl next ?_) run'
    rw [run_bind_ok run]
    rfl

theorem gives_params {names : List Ident} (h : Params names tokens rest)
    (past : p.Past finish tokens) : params.Gives p names (·.Past finish rest) := by
  cases h with
  | none closes =>
    refine .ifPeek past (fun _ => ?_) fun no => absurd closes no
    exact (gives_advance past).bind fun q h => gives_pure h.past
  | some kind more closes =>
    refine .ifPeek past (fun yes => ?_) fun _ => ?_
    · rw [lookahead, kind] at yes
      cases yes
    · refine (gives_nextParam past kind).bind fun q h => ?_
      refine (gives_moreParams more (by simp [lookahead, closes]) _ q h).bind fun q h => ?_
      exact (gives_expect h closes).bind fun q h => gives_pure h.past

theorem readsAt_func {opening brace : Token} {names : List Ident} {body : Block}
    (opens : opening.kind = .lparen) (params : Params names tokens (brace :: middle))
    (begins : brace.kind = .lbrace)
    (block : ReadsAt finish level.block body (brace :: middle) rest) :
    ReadsAt finish (func level) (.func token names body) (token :: opening :: tokens) rest := by
  intro p h
  refine (gives_current h).bind fun q h => ?_
  refine (gives_expect h.past opens).bind fun q h => ?_
  refine (gives_params params h.past).bind fun q h => ?_
  exact (gives_nextBlock begins block h).bind fun q h => gives_pure h

/-! ## Statements -/

theorem gives_skipOptional (h : p.Past finish tokens) (terminator : Terminator tokens rest) :
    (skipOptional .semicolon).Gives p () (·.Past finish rest) := by
  cases terminator with
  | present kind =>
    refine ⟨p.advance, ?_, rfl, Parser.Before.past h⟩
    rw [run_skipOptional, if_pos (h.kind_peek.trans kind)]
  | absent kind =>
    refine ⟨p, ?_, rfl, h⟩
    rw [run_skipOptional, if_neg (h.kind_peek ▸ kind)]

theorem readsAt_binding {name assign : Token} (named : name.kind = .ident)
    (assigned : assign.kind = .assign)
    (value : ReadsAt finish (level.expr .lowest) tree tokens middle)
    (terminator : Terminator middle rest) :
    ReadsAt finish (binding level) (.bind token (.ofToken name) tree)
      (token :: name :: assign :: tokens) rest := by
  intro p h
  refine (gives_current h).bind fun q h => ?_
  refine (gives_expect h.past named).bind fun q h => ?_
  refine (gives_current h).bind fun q h => ?_
  refine (gives_expect h.past assigned).bind fun q h => ?_
  refine (gives_advance h.past).bind fun q h => ?_
  refine (value q h).bind fun q h => ?_
  exact (gives_skipOptional h terminator).bind fun q h => gives_pure h

theorem readsAt_returning (value : ReadsAt finish (level.expr .lowest) tree tokens middle)
    (terminator : Terminator middle rest) :
    ReadsAt finish (returning level) (.ret token tree) (token :: tokens) rest := by
  intro p h
  refine (gives_current h).bind fun q h => ?_
  refine (gives_advance h.past).bind fun q h => ?_
  refine (value q h).bind fun q h => ?_
  exact (gives_skipOptional h terminator).bind fun q h => gives_pure h

theorem readsAt_expressionStatement
    (value : ReadsAt finish (level.expr .lowest) tree (token :: tokens) middle)
    (terminator : Terminator middle rest) :
    ReadsAt finish (expressionStatement level) (.expr token tree) (token :: tokens) rest := by
  intro p h
  refine (gives_current h).bind fun q h => ?_
  refine (value q h).bind fun q h => ?_
  exact (gives_skipOptional h terminator).bind fun q h => gives_pure h

theorem readsAt_statement (form : Option StatementForm) {statement : Stmt}
    (kind : Grammar.standard.statement token.kind = form)
    (read : ReadsAt finish (match form with
      | some form => statementOf level form
      | none => expressionStatement level) statement (token :: tokens) rest) :
    ReadsAt finish (Rule.statement level) statement (token :: tokens) rest := by
  intro p h
  refine (gives_current h).bind fun q h => ?_
  rw [kind]
  exact read q h

end Rule

/-! ## Derivations -/

/-- The parser reads a phrase from the tokens where it stands. -/
def Phrase.Read (finish : Position) (depth : Nat) : Phrase → List Token → List Token → Prop
  | .expr tier tree, tokens, rest => ∀ power : BindingPower, power.tier = tier →
    lookahead rest ≠ .kwElse → Rule.ReadsAt finish (.expression (.of depth) power) tree tokens rest
  | .chain tier left tree, tokens, rest => ∀ power : BindingPower, power.tier = tier →
    Rule.continues power.next (lookahead tokens) = false → lookahead rest ≠ .kwElse →
    ∀ p : Parser, p.Past finish tokens →
      (Rule.operators (.of depth) power left).Gives p tree (·.Past finish rest)
  | .block tree, tokens, rest => Rule.ReadsAt finish (.block (.of depth)) tree tokens rest
  | .statement tree, tokens, rest =>
    lookahead rest ≠ .kwElse → Rule.ReadsAt finish (.statement (.of depth)) tree tokens rest
  | .statements _ trees, tokens, rest => ∀ p : Parser, p.Before finish tokens →
    lookahead rest ≠ .kwElse →
    (∀ q : Parser, q.Before finish rest → q.openBlocks = p.openBlocks → q.endsBody = true) →
    (p.statements (.of depth)).1 = trees ∧
      (p.statements (.of depth)).2.diagnostics = p.diagnostics ∧
      (p.statements (.of depth)).2.Before finish rest

namespace Derives

variable {finish : Position} {depth : Nat} {tier : Tier} {tokens middle rest : List Token}

/-- An expression is read one level up. -/
theorem readsAt_expr {tree : Expr} {power : BindingPower}
    (h : Phrase.Read finish depth (.expr power.tier tree) tokens rest)
    (other : lookahead rest ≠ .kwElse) :
    Rule.ReadsAt finish ((Level.of (depth + 1)).expr power) tree tokens rest := by
  intro p before
  refine Rule.gives_nested (h power rfl other p.enter ⟨before.stands, before.not_eof⟩) ?_
  exact fun q past => ⟨past.stands, past.not_eof⟩

theorem readsAt_block {tree : Block} (h : Phrase.Read finish depth (.block tree) tokens rest) :
    Rule.ReadsAt finish (Level.of (depth + 1)).block tree tokens rest := by
  intro p before
  refine Rule.gives_nested (h p.enter ⟨before.stands, before.not_eof⟩) ?_
  exact fun q past => ⟨past.stands, past.not_eof⟩

/-- An operand is read as an expression of the tightest level. -/
theorem read_operand {tree : Expr}
    (h : Rule.ReadsAt finish (.operand (.of depth)) tree tokens rest) :
    Phrase.Read finish depth (.expr .operand tree) tokens rest := by
  intro power tier _
  rw [Rule.expression_operand _ tier]
  exact h

theorem exists_brace {tree : Block} (h : Exactly depth (.block tree) tokens rest) :
    ∃ brace later, tokens = brace :: later ∧ brace.kind = .lbrace := by
  cases h with
  | closed opens => exact ⟨_, _, rfl, opens⟩
  | unclosed opens => exact ⟨_, _, rfl, opens⟩

/-- An operator and its right operand come before the other operators of the level. -/
theorem read_step {operator : Token} {left right tree : Expr} {power : BindingPower}
    (kind : power.tier.operators operator.kind = true)
    (operand : Rule.ReadsAt finish ((Level.of depth).expr power.next) right tokens middle)
    (more : ∀ p : Parser, p.Past finish middle →
      (Rule.operators (.of depth) power (.binary operator left operator.value right)).Gives p tree
        (·.Past finish rest)) (p : Parser) (past : p.Past finish (operator :: tokens)) :
    (Rule.operators (.of depth) power left).Gives p tree (·.Past finish rest) := by
  have continues : Rule.continues power p.peek.kind = true := by
    rw [past.kind_peek, Rule.continues_eq]
    simp only [lookahead, kind, Bool.true_or]
  have step : (Rule.current >>= fun token =>
      Rule.binary (.of depth) left (Grammar.standard.power token.kind)).Gives p.advance
        (.binary operator left operator.value right) (·.Past finish middle) := by
    refine (Rule.gives_current past).bind fun q h => ?_
    rw [BindingPower.power_of_operator kind]
    refine (Rule.gives_current h).bind fun q h => ?_
    refine (Rule.gives_advance h.past).bind fun q h => ?_
    exact (operand q h).bind fun q h => Rule.gives_pure h
  obtain ⟨m, run, same, past⟩ := step
  obtain ⟨q, run', same', past'⟩ := more m past
  refine ⟨q, ?_, same'.trans same, past'⟩
  rw [Rule.run_operators] at run' ⊢
  rw [Rule.repeatFrom_of_ok _ continues run, run']

/-- A statement comes before the others of a list. -/
theorem read_cons {tree : Stmt} {trees : List Stmt}
    (first : Exactly depth (.statement tree) tokens middle)
    (head : Rule.ReadsAt finish (.statement (.of depth)) tree tokens middle)
    (tail : ∀ p : Parser, p.Before finish middle →
      (∀ q : Parser, q.Before finish rest → q.openBlocks = p.openBlocks → q.endsBody = true) →
      (p.statements (.of depth)).1 = trees ∧
        (p.statements (.of depth)).2.diagnostics = p.diagnostics ∧
        (p.statements (.of depth)).2.Before finish rest)
    {p : Parser} (before : p.Before finish tokens)
    (ends : ∀ q : Parser, q.Before finish rest → q.openBlocks = p.openBlocks → q.endsBody = true) :
    (p.statements (.of depth)).1 = tree :: trees ∧
      (p.statements (.of depth)).2.diagnostics = p.diagnostics ∧
      (p.statements (.of depth)).2.Before finish rest := by
  obtain ⟨q, run, same, past⟩ := head p before
  have starts : (lookahead tokens).startsStatement := first.begins
  have blocks := ((Rule.statement (.of depth)).ahead p).openBlocks_eq
  rw [run] at blocks
  have goes_on : p.endsBody = false := by
    simp [Parser.endsBody, before.kind, starts.ne.1, starts.ne.2.1]
  obtain ⟨trees', same', before'⟩ := tail q.advance past fun r h eq => ends r h (eq.trans blocks)
  rw [Parser.statements_of_ok goes_on run]
  exact ⟨congrArg _ trees', same'.trans same, before'⟩

/-- Statements in braces make a block, which is past the closing brace or at the end of input. -/
theorem read_block {opening : Token} {body : List Stmt} {later : List Token}
    (inner : Phrase.Read finish depth (.statements .block body) tokens later)
    (closes : lookahead later = .rbrace ∨ later = []) :
    Phrase.Read finish depth (.block (.mk opening body)) (opening :: tokens) later.tail := by
  intro p before
  have word : lookahead later ≠ .kwElse := by
    rcases closes with closes | rfl
    · rw [closes]
      decide
    · decide
  have ends (q : Parser) (h : q.Before finish later)
      (blocks : q.openBlocks = p.advance.openBlock.openBlocks) : q.endsBody = true := by
    have inside : 0 < q.openBlocks := by
      rw [blocks]
      exact Nat.succ_pos _
    rcases closes with closes | rfl
    · simp [Parser.endsBody, h.kind, closes, inside]
    · simp [Parser.endsBody, h.kind, lookahead]
  obtain ⟨trees, same, after⟩ := inner p.advance.openBlock
    ⟨before.past.stands, before.past.not_eof⟩ word ends
  refine ⟨(p.advance.openBlock.statements (.of depth)).2.closeBlock, ?_, same, after.past.stands,
    after.past.not_eof⟩
  rw [← trees, ← before.stands.current]
  rfl

/-- **What is derived is read.** -/
theorem read {phrase : Phrase} (h : Exactly depth phrase tokens rest) :
    phrase.Read finish depth tokens rest := by
  induction h with
  | tier binary first more ih ih' =>
    rintro power rfl other p before
    rw [Rule.expression_eq_bind]
    refine (ih power.next power.tier_next (lookahead_chain more other) p before).bind ?_
    exact ih' power rfl (first.stops power.next power.tier_next) other
  | @stop depth tier tree rest last =>
    rintro power rfl tighter other p past
    refine ⟨p, Rule.repeatFrom_of_not (Rule.continues_eof power) ?_, rfl, past⟩
    rw [past.kind_peek, Rule.continues_eq, last, tighter]
    exact Bool.false_ne_true
  | step kind operand more ih ih' =>
    rintro power rfl tighter other
    refine read_step kind ?_ (ih' power rfl (operand.stops power.next power.tier_next) other)
    rw [← power.tier_next] at ih
    exact readsAt_expr ih (lookahead_chain more other)
  | ident kind => exact read_operand (Rule.readsAt_ident kind)
  | int kind small => exact read_operand (Rule.readsAt_int kind small)
  | truth kind => exact read_operand (Rule.readsAt_true kind)
  | falsity kind => exact read_operand (Rule.readsAt_false kind)
  | unary kind operand ih =>
    intro power tier other
    refine read_operand (Rule.readsAt_operand .unary ?_ (Rule.readsAt_unary ?_)) power tier other
    · rcases kind with kind | kind <;> rw [kind] <;> rfl
    · exact readsAt_expr ih other
  | group opens inner closes ih =>
    refine read_operand
      (Rule.readsAt_operand .group (by rw [opens]; rfl) (Rule.readsAt_group closes ?_))
    exact readsAt_expr ih (by simp [lookahead, closes])
  | cond kind opens test closes body ih ih' =>
    intro power tier other
    obtain ⟨brace, later, rfl, begins⟩ := exists_brace body
    refine read_operand (Rule.readsAt_operand .cond (by rw [kind]; rfl)
      (Rule.readsAt_cond opens ?_ closes begins (readsAt_block ih') other)) power tier other
    exact readsAt_expr ih (by simp [lookahead, closes])
  | condElse kind opens test closes body otherwise alternative ih ih' ih'' =>
    obtain ⟨brace, later, rfl, begins⟩ := exists_brace body
    obtain ⟨brace', later', rfl, begins'⟩ := exists_brace alternative
    refine read_operand (Rule.readsAt_operand .cond (by rw [kind]; rfl)
      (Rule.readsAt_condElse opens ?_ closes begins (readsAt_block ih') otherwise begins'
        (readsAt_block ih'')))
    exact readsAt_expr ih (by simp [lookahead, closes])
  | func kind opens params body ih =>
    obtain ⟨brace, later, rfl, begins⟩ := exists_brace body
    exact read_operand (Rule.readsAt_operand .func (by rw [kind]; rfl)
      (Rule.readsAt_func opens params begins (readsAt_block ih)))
  | closed opens inner closes ih => exact read_block ih (.inl closes)
  | unclosed opens inner ih => exact read_block ih (.inr rfl)
  | bind kind named assigned inner terminator ih =>
    intro other
    refine Rule.readsAt_statement (some .bind) (by rw [kind]; rfl)
      (Rule.readsAt_binding named assigned (readsAt_expr ih ?_) terminator)
    exact terminator.lookahead_ne other
  | ret kind inner terminator ih =>
    intro other
    refine Rule.readsAt_statement (some .ret) (by rw [kind]; rfl)
      (Rule.readsAt_returning (readsAt_expr ih ?_) terminator)
    exact terminator.lookahead_ne other
  | expr inner terminator ih =>
    intro other
    refine Rule.readsAt_statement none (Kind.statement_eq_none inner.begins)
      (Rule.readsAt_expressionStatement (readsAt_expr ih ?_) terminator)
    exact terminator.lookahead_ne other
  | nil =>
    intro p before _ ends
    rw [Parser.statements_of_endsBody (ends p before rfl)]
    exact ⟨rfl, rfl, before⟩
  | cons first more ih ih' =>
    intro p before other ends
    exact read_cons first (ih (lookahead_statements more other)) (fun q h => ih' q h other) before
      ends
  | skip gap => exact gap.elim

end Derives

/-! ## Exactness -/

/-- A parse without diagnostics has skipped nothing. -/
def Reading.clean (finish : Position) : Reading where
  finish := finish
  skipped _ _ _ := False
  good p := p.diagnostics.toList = []
  earlier diagnostics _ none := by
    rw [none] at diagnostics
    exact List.prefix_nil.mp diagnostics
  gap := by
    intro depth p q d tokens _ _ _ none
    have recorded := (Parser.ahead_skipStatement 0 (q.record d)).diagnostics_kept
    change (q.recover d).diagnostics.toList = [] at none
    change _ <+: (q.recover d).diagnostics.toList at recorded
    rw [none, List.prefix_nil] at recorded
    simp [Parser.record, Parser.note] at recorded

/-- **The parser accepts its grammar and builds its tree.** Without zero bytes a text is parsed
without a diagnostic exactly if its tokens are a program of the language that nests no deeper than
`maxDepth`, and whatever program they are, the parse gives it. -/
theorem parse_exact (text : String) (file : Option String) (zero_free : 0 ∉ Text.utf8 text) :
    let tokens := (tokenize text file).dropLast
    ((parse text file).diagnostics = [] ↔ ∃ program : Program, program.Derives maxDepth tokens) ∧
      ∀ program : Program, program.Derives maxDepth tokens → (parse text file).program = program := by
  intro tokens
  let start := (Parser.ofText text file).note (.started (Parser.ofText text file).position.file)
  let final := start.statements (.of maxDepth)
  have before : start.Before _ tokens := Parser.before_ofText zero_free file _
  have blocks : final.2.openBlocks = 0 :=
    (Parser.ahead_statements (.of maxDepth) start).openBlocks_eq
  have ends : final.2.endsBody = true := Parser.endsBody_statements (.of maxDepth) start
  -- a derivation is followed, and the parse ends with no more diagnostics than it starts with
  have complete (program : Program) (derived : program.Derives maxDepth tokens) :
      final.1 = program.statements ∧ final.2.diagnostics = #[] := by
    obtain ⟨trees, same, -⟩ := Derives.read derived start before (by decide) fun q h _ => by
      simp [Parser.endsBody, h.kind, lookahead]
    exact ⟨trees, same⟩
  refine ⟨⟨fun none => ?_, fun accepted => ?_⟩, fun program derived => ?_⟩
  · obtain ⟨rest, after, derived⟩ :=
      Reading.statements ((Reading.clean _).sound maxDepth) before none
    obtain rfl : rest = [] := by
      rcases after.nil_or_rbrace ends with nil | ⟨-, block⟩
      · exact nil
      · exact absurd blocks (Nat.ne_of_gt block)
    exact ⟨⟨final.1⟩, derived⟩
  · obtain ⟨program, derived⟩ := accepted
    exact congrArg Array.toList (complete program derived).2
  · exact congrArg Program.mk (complete program derived).1

/-- A text without semicolons, of which the last block runs to the end of input, is a program. -/
theorem parse_exact_unclosed_block :
    let text := "let a = 1 + 2 * b -c fn(x) \x7b x"
    0 ∉ Text.utf8 text ∧ (parse text none).diagnostics = [] ∧
      ∃ program : Program, program.Derives maxDepth (tokenize text none).dropLast ∧
        (parse text none).program = program := by
  have both := parse_exact "let a = 1 + 2 * b -c fn(x) \x7b x" none (by decide)
  have none : (parse "let a = 1 + 2 * b -c fn(x) \x7b x" none).diagnostics = [] := by
    decide +kernel
  obtain ⟨program, derived⟩ := both.1.mp none
  exact ⟨by decide, none, program, derived, both.2 program derived⟩

end Monkey
