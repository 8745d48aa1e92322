import Monkey.Parser.Program
import Monkey.Proofs.Parser.Related
import Monkey.Proofs.Program.Relabel

/-!
# Simulations between parses

A `Simulation` relates the states of two parses at the places where a rule begins, goes on, ends and
fails, and says what each move of the parser does to related states: looking, moving on, entering
and leaving, recovering. `token` turns the tokens of the first parse into those of the second.

Between rules the current token is either `fresh`, still to be read, or `held`, the last token of
what has been read. A rule starts on a fresh token and leaves a held one. Between statements a parser
stands where one begins or where they end.

Results:
* `Simulation.expr`, `block`, `statement`: what is related before a rule of the grammar is related
  after it, and the results differ by the tokens only.
* `Simulation.statements`: the same for a list of statements and the recovery between them.
-/

namespace Monkey

/-- Kinds that neither separate statements nor enclose them. -/
def Kind.plain : Kind → Bool
  | .eof | .semicolon | .lbrace | .rbrace => false
  | _ => true

theorem Kind.ne_of_plain {kind : Kind} (plain : kind.plain = true) :
    kind ≠ .lbrace ∧ kind ≠ .rbrace ∧ kind ≠ .semicolon := by
  refine ⟨?_, ?_, ?_⟩
  all_goals
    rintro rfl
    cases plain

/-- What a cause says to be wrong with the current token. -/
def Cause.blames : Cause → Token → Prop
  | .unexpected _ _, _ => False
  | .noOperand kind, token => kind = token.kind ∧ Grammar.standard.operand kind = none
  | .integerTooLarge literal, token =>
    token.kind = .int ∧ literal = token.value ∧ maxInteger < Text.ofDecimal literal
  | .tooDeep limit, _ => limit = maxDepth

/-- The same token says the same. -/
theorem Token.kind_id (token : Token) : (id token).kind = token.kind := rfl

theorem Token.value_id (token : Token) : (id token).value = token.value := rfl

/-- Two parses side by side. -/
structure Simulation where
  token : Token → Token
  /-- The current token is still to be read. -/
  fresh : Parser → Parser → Prop
  /-- The current token is the last one that was read. -/
  held : Parser → Parser → Prop
  /-- The current token is the last one of a statement. -/
  ended : Parser → Parser → Prop
  /-- A statement begins at the current token, or statements end there. -/
  between : Parser → Parser → Prop
  /-- A rule has failed. -/
  stuck : Diagnostic → Diagnostic → Parser → Parser → Prop
  /-- How many blocks may be open around the statements that are compared. -/
  scope : Nat → Prop
  /-- At least as many blocks are open. -/
  floor : Nat
  kind_token : ∀ t, (token t).kind = t.kind
  value_token : ∀ t, (token t).value = t.value
  scope_succ : ∀ n, floor ≤ n → scope (n + 1)
  floor_le : ∀ {p q}, fresh p q → floor ≤ p.openBlocks
  current : ∀ {p q}, fresh p q → q.current = token p.current
  openBlocks : ∀ {p q}, fresh p q → q.openBlocks = p.openBlocks
  peek : ∀ {p q}, held p q → q.peek.kind = p.peek.kind
  hold : ∀ {p q}, fresh p q → p.current.kind.plain = true → held p q
  advance : ∀ {p q}, held p q → fresh p.advance q.advance
  enter : ∀ {p q}, fresh p q → fresh p.enter q.enter
  leave : ∀ {p q}, held p q → held p.leave q.leave
  leave_stuck : ∀ {d e p q}, stuck d e p q → stuck d e p.leave q.leave
  blame : ∀ {p q cause}, fresh p q → Cause.blames cause p.current →
    stuck ⟨cause, p.position⟩ ⟨cause, q.position⟩ p q
  unexpected : ∀ {p q kind}, held p q → p.peek.kind ≠ kind →
    stuck ⟨.unexpected kind p.peek.kind, p.peek.span.start⟩
      ⟨.unexpected kind p.peek.kind, q.peek.span.start⟩ p q
  openBlock : ∀ {p q}, fresh p q → p.current.kind = .lbrace →
    between p.advance.openBlock q.advance.openBlock
  endsBody : ∀ {p q}, between p q → q.endsBody = p.endsBody
  start : ∀ {p q}, between p q → p.endsBody = false → fresh p q
  closeBlock : ∀ {p q}, between p q → floor < p.openBlocks → p.endsBody = true →
    held p.closeBlock q.closeBlock
  settle : ∀ {p q}, held p q → p.peek.kind ≠ .semicolon → ended p q
  semicolon : ∀ {p q}, held p q → p.peek.kind = .semicolon → ended p.advance q.advance
  next : ∀ {p q}, ended p q → scope p.openBlocks → between p.advance q.advance
  recover : ∀ {d e p q}, stuck d e p q → scope p.openBlocks → between (p.recover d) (q.recover e)

namespace Simulation

variable (s : Simulation)

/-- The current token is fresh and its kind passes a test. -/
def facing (test : Kind → Prop) (p q : Parser) : Prop :=
  s.fresh p q ∧ test p.current.kind

variable {s} {α : Type} {p q : Parser}

theorem hold_of_facing {test : Kind → Prop} (plain : ∀ kind, test kind → kind.plain = true)
    (h : s.facing test p q) : s.held p q :=
  s.hold h.1 (plain _ h.2)

theorem kind_current (h : s.fresh p q) : q.current.kind = p.current.kind := by
  rw [s.current h, s.kind_token]

/-! ## Looking and moving -/

theorem related_current (test : Kind → Prop) : Rule.Related (s.facing test) .current .current
    (fun a b => b = s.token a ∧ test a.kind) (s.facing test) s.stuck :=
  fun _ _ h => .ok ⟨s.current h.1, h.2⟩ h

theorem related_advance :
    Rule.Related s.held .advance .advance (fun _ _ => True) s.fresh s.stuck :=
  fun _ _ h => .ok trivial (s.advance h)

/-- A token of a plain kind is read at once. -/
theorem related_advance_plain :
    Rule.Related (fun p q => s.held p q ∧ p.peek.kind.plain = true) .advance .advance
      (fun _ _ => True) s.held s.stuck :=
  fun _ _ h => .ok trivial (s.hold (s.advance h.1) h.2)

/-- Both rules look at the next token and branch alike. -/
theorem related_ifPeek (kind : Kind) {r t r' t' : Rule α} {results : α → α → Prop}
    {after : Parser → Parser → Prop}
    (yes : Rule.Related (fun p q => s.held p q ∧ p.peek.kind = kind) r t results after s.stuck)
    (no : Rule.Related s.held r' t' results after s.stuck) :
    Rule.Related s.held (.peek >>= fun next => if next.kind = kind then r else r')
      (.peek >>= fun next => if next.kind = kind then t else t') results after s.stuck := by
  intro p q h
  rw [Rule.run_bind, Rule.run_bind, Rule.run_peek, Rule.run_peek]
  dsimp only
  rw [s.peek h]
  by_cases same : p.peek.kind = kind
  · rw [if_pos same, if_pos same]
    exact yes p q ⟨h, same⟩
  · rw [if_neg same, if_neg same]
    exact no p q h

theorem related_expect (kind : Kind) : Rule.Related s.held (.expect kind) (.expect kind)
    (fun _ _ => True) (s.facing (· = kind)) s.stuck := by
  intro p q h
  rw [Rule.run_expect, Rule.run_expect, s.peek h]
  by_cases same : p.peek.kind = kind
  · rw [if_pos same, if_pos same]
    exact .ok trivial ⟨s.advance h, same⟩
  · rw [if_neg same, if_neg same]
    exact .error (s.unexpected h same)

/-- A token of a plain kind is read at once. -/
theorem related_expect_plain {kind : Kind} (plain : kind.plain = true) :
    Rule.Related s.held (.expect kind) (.expect kind) (fun _ _ => True) s.held s.stuck :=
  (related_expect kind).relax fun _ _ => hold_of_facing fun _ same => same ▸ plain

theorem related_skipOptional : Rule.Related s.held (.skipOptional .semicolon)
    (.skipOptional .semicolon) (fun _ _ => True) s.ended s.stuck := by
  intro p q h
  rw [Rule.run_skipOptional, Rule.run_skipOptional, s.peek h]
  by_cases same : p.peek.kind = .semicolon
  · rw [if_pos same, if_pos same]
    exact .ok trivial (s.semicolon h same)
  · rw [if_neg same, if_neg same]
    exact .ok trivial (s.settle h same)

theorem related_tooDeep {results : α → α → Prop} :
    Rule.Related s.fresh .tooDeep .tooDeep results s.held s.stuck :=
  fun _ _ h => .error (s.blame h rfl)

theorem related_nested (test : Kind → Prop) {r : Rule α} {results : α → α → Prop}
    (h : Rule.Related (s.facing test) r r results s.held s.stuck) :
    Rule.Related (s.facing test) (.nested r) (.nested r) results s.held s.stuck := by
  intro p q k
  rw [Rule.run_nested, Rule.run_nested]
  have inner := h p.enter q.enter ⟨s.enter k.1, k.2⟩
  generalize r.run p.enter = x at inner
  generalize r.run q.enter = y at inner
  cases inner with
  | ok result state => exact .ok result (s.leave state)
  | error state => exact .error (s.leave_stuck state)

/-! ## Rules of expressions -/

/-- Rules that simulate the first parse by the second, an expression or a block at a time. -/
structure Follows (s : Simulation) (level : Level) : Prop where
  expr : ∀ power, Rule.Related s.fresh (level.expr power) (level.expr power)
    (fun a b => b = a.relabel s.token) s.held s.stuck
  block : Rule.Related (s.facing (· = .lbrace)) level.block level.block
    (fun a b => b = a.relabel s.token) s.held s.stuck

variable {level : Level}

theorem related_primary :
    Rule.Related (s.facing fun kind => Grammar.standard.operand kind = some .primary)
      .primary .primary (fun a b => b = a.relabel s.token) s.held s.stuck := by
  intro p q ⟨h, form⟩
  unfold Rule.primary
  rw [Rule.run_bind, Rule.run_bind, Rule.run_current, Rule.run_current, s.current h]
  simp only [s.kind_token, s.value_token]
  cases kind : p.current.kind <;> rw [kind] at form
  case int =>
    simp only
    split
    · exact .ok rfl (s.hold h (by rw [kind]; rfl))
    · next large =>
      have blamed : (Cause.integerTooLarge p.current.value).blames p.current :=
        ⟨kind, rfl, Nat.lt_of_not_le large⟩
      have := s.blame h blamed
      simp only [Parser.position, s.current h] at this
      exact .error this
  case ident =>
    exact .ok (by rw [Expr.relabel, Ident.relabel_ofToken _ (s.value_token _)])
      (s.hold h (by rw [kind]; rfl))
  case kwTrue => exact .ok rfl (s.hold h (by rw [kind]; rfl))
  case kwFalse => exact .ok rfl (s.hold h (by rw [kind]; rfl))
  all_goals exact absurd form (by decide)

theorem related_unary (h : s.Follows level) :
    Rule.Related (s.facing fun kind => Grammar.standard.operand kind = some .unary)
      (.unary level) (.unary level) (fun a b => b = a.relabel s.token) s.held s.stuck := by
  refine (related_current _).bind fun a b ⟨token, _⟩ => ?_
  refine (related_advance.weaken fun p q => hold_of_facing fun kind form => ?_).bind fun _ _ _ => ?_
  · cases kind <;> first | rfl | exact absurd form (by decide)
  refine (h.expr .unary).bind fun c d operand => .pure ?_
  rw [Expr.relabel, token, operand, s.value_token]

theorem related_binary (h : s.Follows level) {left left' : Expr}
    (same : left' = left.relabel s.token) (power : BindingPower) :
    Rule.Related (s.facing fun kind => kind.plain = true)
      (.binary level left power) (.binary level left' power)
      (fun a b => b = a.relabel s.token) s.held s.stuck := by
  refine (related_current _).bind fun a b ⟨token, _⟩ => ?_
  refine (related_advance.weaken fun p q => hold_of_facing fun _ plain => plain).bind
    fun _ _ _ => ?_
  refine (h.expr power).bind fun c d right => .pure ?_
  rw [Expr.relabel, token, same, right, s.value_token]

theorem related_group (h : s.Follows level) :
    Rule.Related (s.facing (· = .lparen)) (.group level) (.group level)
      (fun a b => b = a.relabel s.token) s.held s.stuck := by
  refine (related_advance.weaken fun p q => hold_of_facing ?_).bind fun _ _ _ => ?_
  · rintro _ rfl
    rfl
  refine (h.expr .lowest).bind fun a b inner => ?_
  exact (related_expect_plain rfl).bind fun _ _ _ => .pure inner

theorem related_nextBlock (h : s.Follows level) :
    Rule.Related s.held (.nextBlock level) (.nextBlock level)
      (fun a b => b = a.relabel s.token) s.held s.stuck :=
  (related_expect .lbrace).bind fun _ _ _ => h.block

theorem related_cond (h : s.Follows level) :
    Rule.Related (s.facing (· = .kwIf)) (.cond level) (.cond level)
      (fun a b => b = a.relabel s.token) s.held s.stuck := by
  refine (related_current _).bind fun a b ⟨token, _⟩ => ?_
  refine ((related_expect_plain rfl).weaken fun p q => hold_of_facing ?_).bind fun _ _ _ => ?_
  · rintro _ rfl
    rfl
  refine related_advance.bind fun _ _ _ => ?_
  refine (h.expr .lowest).bind fun c d condition => ?_
  refine (related_expect_plain rfl).bind fun _ _ _ => ?_
  refine (related_nextBlock h).bind fun e f consequence => ?_
  refine related_ifPeek _ ?_ ?_
  · refine (related_advance_plain.weaken ?_).bind fun _ _ _ => ?_
    · rintro p q ⟨h, more⟩
      exact ⟨h, by rw [more]; rfl⟩
    refine (related_nextBlock h).bind fun g k alternative => .pure ?_
    rw [Expr.relabel, token, condition, consequence, alternative]
  · refine .pure ?_
    rw [Expr.relabel, token, condition, consequence]

theorem related_nextParam :
    Rule.Related s.held .nextParam .nextParam (fun a b => b = a.relabel s.token) s.held s.stuck := by
  refine (related_expect .ident).bind fun _ _ _ => ?_
  refine (related_current _).bind fun a b ⟨token, kind⟩ => ?_
  refine (Rule.Related.pure ?_).weaken fun p q => hold_of_facing ?_
  · rw [Ident.relabel_ofToken _ (s.value_token a), token]
  · rintro _ rfl
    rfl

theorem related_params :
    Rule.Related s.held .params .params (fun a b => b = a.map (·.relabel s.token)) s.held
      s.stuck := by
  refine related_ifPeek _ ?_ ?_
  · refine (related_advance_plain.weaken ?_).bind fun _ _ _ => .pure rfl
    rintro p q ⟨h, closed⟩
    exact ⟨h, by rw [closed]; rfl⟩
  · refine related_nextParam.bind fun a b first => ?_
    refine (Rule.Related.repeatWhile (fun a b => b = a.map (·.relabel s.token)) rfl
      (fun _ _ => s.peek) ?_ (by rw [first]; rfl)).bind fun c d all => ?_
    · intro names names' so_far
      refine (related_nextParam.weaken ?_).bind fun e f name => .pure ?_
      · rintro p q ⟨p', q', h, comma, rfl, rfl⟩
        exact s.hold (s.advance h) (by rw [Parser.current_advance, eq_of_beq comma]; rfl)
      · rw [so_far, name, List.map_append]
        rfl
    · exact (related_expect_plain rfl).bind fun _ _ _ => .pure all

theorem related_func (h : s.Follows level) :
    Rule.Related (s.facing (· = .kwFn)) (.func level) (.func level)
      (fun a b => b = a.relabel s.token) s.held s.stuck := by
  refine (related_current _).bind fun a b ⟨token, _⟩ => ?_
  refine ((related_expect_plain rfl).weaken fun p q => hold_of_facing ?_).bind fun _ _ _ => ?_
  · rintro _ rfl
    rfl
  refine related_params.bind fun c d names => ?_
  refine (related_nextBlock h).bind fun e f body => .pure ?_
  rw [Expr.relabel, token, names, body]

theorem related_operandOf (h : s.Follows level) (form : OperandForm) :
    Rule.Related (s.facing fun kind => Grammar.standard.operand kind = some form)
      (.operandOf level form) (.operandOf level form) (fun a b => b = a.relabel s.token) s.held
      s.stuck := by
  have first {p q : Parser} : s.facing (fun kind => Grammar.standard.operand kind = some form) p q →
      s.fresh p q ∧ form.begins p.current.kind := fun k => ⟨k.1, OperandForm.begins_of_operand k.2⟩
  cases form with
  | primary => exact related_primary
  | unary => exact related_unary h
  | group => exact (related_group h).weaken fun _ _ => first
  | cond => exact (related_cond h).weaken fun _ _ => first
  | func => exact (related_func h).weaken fun _ _ => first

theorem related_operand (h : s.Follows level) :
    Rule.Related s.fresh (.operand level) (.operand level)
      (fun a b => b = a.relabel s.token) s.held s.stuck := by
  intro p q k
  unfold Rule.operand
  rw [Rule.run_bind, Rule.run_bind, Rule.run_current, Rule.run_current]
  dsimp only
  rw [kind_current k]
  cases form : Grammar.standard.operand p.current.kind with
  | none => exact .error (s.blame k ⟨rfl, form⟩)
  | some form' => exact related_operandOf h form' p q ⟨k, form⟩

theorem plain_of_continues {power : BindingPower} {kind : Kind}
    (h : Rule.continues power kind = true) : kind.plain = true := by
  cases kind <;> first
    | rfl
    | exact absurd h (by cases power <;> decide)

theorem related_operators (h : s.Follows level) (power : BindingPower) {left left' : Expr}
    (same : left' = left.relabel s.token) :
    Rule.Related s.held (.operators level power left) (.operators level power left')
      (fun a b => b = a.relabel s.token) s.held s.stuck := by
  refine Rule.Related.repeatWhile _ (Rule.continues_eof power) (fun _ _ => s.peek) ?_ same
  intro left left' same
  refine (related_current fun kind => kind.plain = true).weaken ?_ |>.bind
    fun a b ⟨token, _⟩ => ?_
  · rintro p q ⟨p', q', k, more, rfl, rfl⟩
    exact ⟨s.advance k, plain_of_continues more⟩
  · rw [token, s.kind_token]
    exact related_binary h same _

theorem related_expression (h : s.Follows level) (power : BindingPower) :
    Rule.Related s.fresh (.expression level power) (.expression level power)
      (fun a b => b = a.relabel s.token) s.held s.stuck :=
  (related_operand h).bind fun _ _ left => related_operators h power left

/-! ## Rules of statements -/

theorem related_binding (h : s.Follows level) :
    Rule.Related (s.facing (· = .kwLet)) (.binding level) (.binding level)
      (fun a b => b = a.relabel s.token) s.ended s.stuck := by
  refine (related_current _).bind fun a b ⟨token, _⟩ => ?_
  refine ((related_expect .ident).weaken fun p q => hold_of_facing ?_).bind fun _ _ _ => ?_
  · rintro _ rfl
    rfl
  refine (related_current _).bind fun c d ⟨name, _⟩ => ?_
  refine ((related_expect_plain rfl).weaken fun p q => hold_of_facing ?_).bind fun _ _ _ => ?_
  · rintro _ rfl
    rfl
  refine related_advance.bind fun _ _ _ => ?_
  refine (h.expr .lowest).bind fun e f value => ?_
  refine related_skipOptional.bind fun _ _ _ => .pure ?_
  rw [Stmt.relabel, token, name, value, Ident.relabel_ofToken _ (s.value_token c)]

theorem related_returning (h : s.Follows level) :
    Rule.Related (s.facing (· = .kwReturn)) (.returning level) (.returning level)
      (fun a b => b = a.relabel s.token) s.ended s.stuck := by
  refine (related_current _).bind fun a b ⟨token, _⟩ => ?_
  refine (related_advance.weaken fun p q => hold_of_facing ?_).bind fun _ _ _ => ?_
  · rintro _ rfl
    rfl
  refine (h.expr .lowest).bind fun c d value => ?_
  refine related_skipOptional.bind fun _ _ _ => .pure ?_
  rw [Stmt.relabel, token, value]

theorem related_expressionStatement (h : s.Follows level) :
    Rule.Related s.fresh (.expressionStatement level) (.expressionStatement level)
      (fun a b => b = a.relabel s.token) s.ended s.stuck := by
  refine (related_current fun _ => True).weaken (fun p q k => ⟨k, trivial⟩) |>.bind
    fun a b ⟨token, _⟩ => ?_
  refine ((h.expr .lowest).weaken fun p q k => k.1).bind fun c d expression => ?_
  refine related_skipOptional.bind fun _ _ _ => .pure ?_
  rw [Stmt.relabel, token, expression]

/-- A statement that is read ends in both parses, and one that is not stops both. -/
theorem related_statement (h : s.Follows level) :
    Rule.Related s.fresh (.statement level) (.statement level)
      (fun a b => b = a.relabel s.token) s.ended s.stuck := by
  intro p q k
  unfold Rule.statement
  rw [Rule.run_bind, Rule.run_bind, Rule.run_current, Rule.run_current]
  dsimp only
  rw [kind_current k]
  cases form : Grammar.standard.statement p.current.kind with
  | none => exact related_expressionStatement h p q k
  | some form' =>
    have begins := StatementForm.begins_of_statement form
    cases form' with
    | bind => exact related_binding h p q ⟨k, begins⟩
    | ret => exact related_returning h p q ⟨k, begins⟩

/-! ## Lists of statements -/

/-- Statements that are read one after another. -/
theorem statements (h : s.Follows level) (k : s.between p q) (scope : s.scope p.openBlocks) :
    (q.statements level).1 = relabelStatements s.token (p.statements level).1 ∧
      s.between (p.statements level).2 (q.statements level).2 := by
  fun_induction Parser.statements level p generalizing q with
  | case1 p ends =>
    rw [Parser.statements_of_endsBody ((s.endsBody k).trans ends)]
    exact ⟨rfl, k⟩
  | case2 p ends statement p' tried rest r eq ih =>
    have goes_on : p.endsBody = false := Bool.eq_false_iff.mpr ends
    have one := related_statement h p q (s.start k goes_on)
    have blocks := ((Rule.statement level).ahead p).openBlocks_eq
    rw [tried] at one blocks
    generalize eq' : (Rule.statement level).run q = y at one
    cases one with
    | ok result state =>
      have := ih (s.next state (blocks ▸ scope)) (blocks ▸ scope)
      rw [Parser.statements_of_ok ((s.endsBody k).trans goes_on) eq', result]
      rw [eq] at this
      exact ⟨by rw [relabelStatements, this.1], this.2⟩
  | case3 p ends d p' tried ih =>
    have goes_on : p.endsBody = false := Bool.eq_false_iff.mpr ends
    have one := related_statement h p q (s.start k goes_on)
    have blocks := ((Rule.statement level).ahead p).openBlocks_eq
    rw [tried] at one blocks
    generalize eq' : (Rule.statement level).run q = y at one
    cases one with
    | error state =>
      rw [Parser.statements_of_error ((s.endsBody k).trans goes_on) eq']
      refine ih (s.recover state (blocks ▸ scope)) ?_
      rwa [(Parser.ahead_recover p' d).openBlocks_eq, blocks]

theorem related_block (h : s.Follows level) :
    Rule.Related (s.facing (· = .lbrace)) (.block level) (.block level)
      (fun a b => b = a.relabel s.token) s.held s.stuck := by
  intro p q ⟨k, brace⟩
  have floor : s.floor ≤ p.openBlocks := s.floor_le k
  have body := statements h (s.openBlock k brace) (s.scope_succ _ floor)
  have blocks := (Parser.ahead_statements level p.advance.openBlock).openBlocks_eq
  refine .ok ?_ (s.closeBlock body.2 ?_ (Parser.endsBody_statements level _))
  · rw [Block.relabel, ← body.1, s.current k]
  · rw [blocks]
    exact Nat.lt_succ_of_le floor

/-! ## Levels -/

theorem follows_lowest : s.Follows .lowest where
  expr _ := related_tooDeep
  block := related_tooDeep.weaken fun _ _ k => k.1

theorem Follows.above (h : s.Follows level) : s.Follows (.above level) where
  expr power := (related_nested (fun _ => True)
    ((related_expression h power).weaken fun _ _ k => k.1)).weaken fun _ _ k => ⟨k, trivial⟩
  block := related_nested _ (related_block h)

/-- **The grammar follows a simulation** at every depth. -/
theorem follows (s : Simulation) (depth : Nat) : s.Follows (.of depth) := by
  induction depth with
  | zero => exact follows_lowest
  | succ depth ih => exact ih.above

end Simulation

end Monkey
