import Monkey.Parser.Program
import Monkey.Proofs.Parser.Related

/-!
# Rules agree

Parsers that see the same tokens do the same. Let `S` relate states that show the same current token
and stay related when both move on. If the expressions and blocks of two levels agree on related
states, in results and in the states they leave, then so do all rules of the grammar at these levels,
whatever token they start on. The levels may differ, so this compares the grammar with a variant of
it; and `S` may say that both states are one state with a property, so it shows what a parse keeps.

Results:
* `agree_primary`, `agree_unary`, ..., `agree_statement`: one lemma for each rule.
* `agree_statements`, `agree_block`: statements with the recovery between them, and blocks.
* `Kept.level`: what every move of a parser keeps is kept at every level.
-/

namespace Monkey

variable {S : Parser → Parser → Prop} {α β : Type}

/-- From related states both rules give the same result or stop with the same diagnostic, and they
leave related states. -/
def Rule.Agree (S : Parser → Parser → Prop) (r r' : Rule α) : Prop :=
  Rule.Related S r r' (fun a b => b = a) S fun d e p q => e = d ∧ S p q

/-- The expressions and blocks of two levels agree. -/
structure Level.Agree (S : Parser → Parser → Prop) (level level' : Level) : Prop where
  expr : ∀ power, Rule.Agree S (level.expr power) (level'.expr power)
  block : Rule.Agree S level.block level'.block

/-- Related states show the same token and stay related when both move on. -/
structure Seen (S : Parser → Parser → Prop) : Prop where
  current : ∀ {p q}, S p q → q.current = p.current
  advance : ∀ {p q}, S p q → S p.advance q.advance

namespace Seen

variable {p q : Parser}

theorem peek (seen : Seen S) (h : S p q) : q.peek = p.peek :=
  seen.current (seen.advance h)

end Seen

namespace Rule.Agree

variable {r r' : Rule α} {f f' : α → Rule β} {p q p' q' : Parser}

/-- Rules that agree end alike. -/
theorem outcome (h : Agree S r r') (k : S p q) :
    (r'.run q).1 = (r.run p).1 ∧ S (r.run p).2 (r'.run q).2 := by
  have both := h p q k
  generalize r.run p = x at both
  generalize r'.run q = y at both
  cases both with
  | ok result state => exact ⟨congrArg Except.ok result, state⟩
  | error state => exact ⟨congrArg Except.error state.1, state.2⟩

/-- Rules that end alike agree. -/
theorem of_outcome (h : ∀ p q, S p q →
    (r'.run q).1 = (r.run p).1 ∧ S (r.run p).2 (r'.run q).2) : Agree S r r' := by
  intro p q k
  obtain ⟨same, state⟩ := h p q k
  generalize r.run p = x at same state ⊢
  generalize r'.run q = y at same state ⊢
  obtain ⟨x, m⟩ := x
  obtain ⟨y, n⟩ := y
  cases same
  cases x with
  | ok a => exact .ok rfl state
  | error d => exact .error ⟨rfl, state⟩

theorem pure (a : α) : Agree S (Pure.pure a) (Pure.pure a) := Related.pure rfl

theorem fail (cause : Cause) (position : Position) :
    Agree S (Rule.fail cause position : Rule α) (Rule.fail cause position) :=
  fun _ _ h => .error ⟨rfl, h⟩

theorem bind (first : Agree S r r') (next : ∀ a, Agree S (f a) (f' a)) :
    Agree S (r >>= f) (r' >>= f') :=
  Related.bind first fun a _ same => same ▸ next a

end Rule.Agree

open Rule (Agree)

section

variable (seen : Seen S)
include seen

/-! ## Looking and moving -/

theorem agree_current : Agree S .current .current :=
  fun _ _ h => .ok (seen.current h) h

theorem agree_peek : Agree S .peek .peek :=
  fun _ _ h => .ok (seen.peek h) h

theorem agree_advance : Agree S .advance .advance :=
  fun _ _ h => .ok rfl (seen.advance h)

theorem agree_expect (kind : Kind) : Agree S (.expect kind) (.expect kind) := by
  refine (agree_peek seen).bind fun next => ?_
  split
  · exact agree_advance seen
  · exact .fail _ _

theorem agree_skipOptional (kind : Kind) : Agree S (.skipOptional kind) (.skipOptional kind) := by
  refine (agree_peek seen).bind fun next => ?_
  split
  · exact agree_advance seen
  · exact .pure ()

/-- Repetitions of steps that agree. -/
theorem agree_repeatWhile {test : Kind → Bool} (not_eof : test .eof = false) {step step' : α → Rule α}
    (steps : ∀ a, Agree S (step a) (step' a)) (a : α) :
    Agree S (.repeatWhile test not_eof step a) (.repeatWhile test not_eof step' a) := by
  refine Rule.Related.repeatWhile (fun a b => b = a) not_eof
    (fun p q h => congrArg Token.kind (seen.peek h)) (fun a _ same => ?_) rfl
  rw [same]
  refine (steps a).weaken ?_
  rintro _ _ ⟨p, q, h, -, rfl, rfl⟩
  exact seen.advance h

theorem agree_tooDeep : Agree S (.tooDeep : Rule α) .tooDeep :=
  (agree_current seen).bind fun _ => .fail _ _

/-! ## Expressions -/

variable {level level' : Level}

theorem agree_primary : Agree S .primary .primary := by
  refine (agree_current seen).bind fun token => ?_
  dsimp only
  split
  · split
    · exact .pure _
    · exact .fail _ _
  · exact .pure _
  · exact .pure _
  · exact .pure _
  · exact .fail _ _

theorem agree_unary (h : level.Agree S level') : Agree S (.unary level) (.unary level') :=
  (agree_current seen).bind fun _ => (agree_advance seen).bind fun _ =>
    (h.expr .unary).bind fun _ => .pure _

theorem agree_binary (h : level.Agree S level') (left : Expr) (power : BindingPower) :
    Agree S (.binary level left power) (.binary level' left power) :=
  (agree_current seen).bind fun _ => (agree_advance seen).bind fun _ =>
    (h.expr power).bind fun _ => .pure _

theorem agree_group (h : level.Agree S level') : Agree S (.group level) (.group level') :=
  (agree_advance seen).bind fun _ => (h.expr .lowest).bind fun _ =>
    (agree_expect seen .rparen).bind fun _ => .pure _

theorem agree_nextBlock (h : level.Agree S level') :
    Agree S (.nextBlock level) (.nextBlock level') :=
  (agree_expect seen .lbrace).bind fun _ => h.block

theorem agree_cond (h : level.Agree S level') : Agree S (.cond level) (.cond level') := by
  refine (agree_current seen).bind fun _ => (agree_expect seen .lparen).bind fun _ => ?_
  refine (agree_advance seen).bind fun _ => (h.expr .lowest).bind fun condition => ?_
  refine (agree_expect seen .rparen).bind fun _ => (agree_nextBlock seen h).bind fun _ => ?_
  refine (agree_peek seen).bind fun next => ?_
  split
  · exact (agree_advance seen).bind fun _ => (agree_nextBlock seen h).bind fun _ => .pure _
  · exact .pure _

theorem agree_nextParam : Agree S .nextParam .nextParam :=
  (agree_expect seen .ident).bind fun _ => (agree_current seen).bind fun _ => .pure _

theorem agree_params : Agree S .params .params := by
  refine (agree_peek seen).bind fun next => ?_
  split
  · exact (agree_advance seen).bind fun _ => .pure _
  · refine (agree_nextParam seen).bind fun first => ?_
    refine (agree_repeatWhile seen rfl (fun names => ?_) [first]).bind fun all => ?_
    · exact (agree_nextParam seen).bind fun _ => .pure _
    · exact (agree_expect seen .rparen).bind fun _ => .pure _

theorem agree_func (h : level.Agree S level') : Agree S (.func level) (.func level') :=
  (agree_current seen).bind fun _ => (agree_expect seen .lparen).bind fun _ =>
    (agree_params seen).bind fun _ => (agree_nextBlock seen h).bind fun _ => .pure _

theorem agree_operandOf (h : level.Agree S level') (form : OperandForm) :
    Agree S (.operandOf level form) (.operandOf level' form) := by
  cases form with
  | primary => exact agree_primary seen
  | unary => exact agree_unary seen h
  | group => exact agree_group seen h
  | cond => exact agree_cond seen h
  | func => exact agree_func seen h

theorem agree_operand (h : level.Agree S level') : Agree S (.operand level) (.operand level') := by
  refine (agree_current seen).bind fun token => ?_
  cases Grammar.standard.operand token.kind with
  | none => exact .fail _ _
  | some form => exact agree_operandOf seen h form

theorem agree_operators (h : level.Agree S level') (power : BindingPower) (left : Expr) :
    Agree S (.operators level power left) (.operators level' power left) :=
  agree_repeatWhile seen (Rule.continues_eof power)
    (fun left => (agree_current seen).bind fun _ => agree_binary seen h left _) left

theorem agree_expression (h : level.Agree S level') (power : BindingPower) :
    Agree S (.expression level power) (.expression level' power) :=
  (agree_operand seen h).bind fun left => agree_operators seen h power left

/-! ## Statements -/

theorem agree_binding (h : level.Agree S level') : Agree S (.binding level) (.binding level') :=
  (agree_current seen).bind fun _ => (agree_expect seen .ident).bind fun _ =>
    (agree_current seen).bind fun _ => (agree_expect seen .assign).bind fun _ =>
    (agree_advance seen).bind fun _ => (h.expr .lowest).bind fun _ =>
    (agree_skipOptional seen .semicolon).bind fun _ => .pure _

theorem agree_returning (h : level.Agree S level') :
    Agree S (.returning level) (.returning level') :=
  (agree_current seen).bind fun _ => (agree_advance seen).bind fun _ =>
    (h.expr .lowest).bind fun _ => (agree_skipOptional seen .semicolon).bind fun _ => .pure _

theorem agree_expressionStatement (h : level.Agree S level') :
    Agree S (.expressionStatement level) (.expressionStatement level') :=
  (agree_current seen).bind fun _ => (h.expr .lowest).bind fun _ =>
    (agree_skipOptional seen .semicolon).bind fun _ => .pure _

theorem agree_statement (h : level.Agree S level') :
    Agree S (.statement level) (.statement level') := by
  refine (agree_current seen).bind fun token => ?_
  cases Grammar.standard.statement token.kind with
  | none => exact agree_expressionStatement seen h
  | some form =>
    cases form with
    | bind => exact agree_binding seen h
    | ret => exact agree_returning seen h

/-- Statements, if related states end them alike and recovery from a statement that fails keeps
states related. -/
theorem agree_statements (h : level.Agree S level')
    (endsBody : ∀ {p q}, S p q → q.endsBody = p.endsBody)
    (recover : ∀ {p q p' q' d}, S p q → p.endsBody = false →
      (Rule.statement level).run p = (.error d, p') → S p' q' → S (p'.recover d) (q'.recover d))
    {p q : Parser} (k : S p q) :
    (q.statements level').1 = (p.statements level).1 ∧
      S (p.statements level).2 (q.statements level').2 := by
  fun_induction Parser.statements level p generalizing q with
  | case1 p ends =>
    rw [Parser.statements_of_endsBody ((endsBody k).trans ends)]
    exact ⟨rfl, k⟩
  | case2 p ends statement p' tried rest r eq ih =>
    have goes_on : p.endsBody = false := Bool.eq_false_iff.mpr ends
    obtain ⟨same, state⟩ := (agree_statement seen h).outcome k
    rw [tried] at same state
    have read : (Rule.statement level').run q =
        (.ok statement, ((Rule.statement level').run q).2) := Prod.ext same rfl
    rw [Parser.statements_of_ok ((endsBody k).trans goes_on) read]
    obtain ⟨all, final⟩ := ih (seen.advance state)
    rw [eq] at all final
    exact ⟨congrArg (statement :: ·) all, final⟩
  | case3 p ends d p' tried ih =>
    have goes_on : p.endsBody = false := Bool.eq_false_iff.mpr ends
    obtain ⟨same, state⟩ := (agree_statement seen h).outcome k
    rw [tried] at same state
    have failed : (Rule.statement level').run q =
        (.error d, ((Rule.statement level').run q).2) := Prod.ext same rfl
    rw [Parser.statements_of_error ((endsBody k).trans goes_on) failed]
    exact ih (recover k goes_on tried state)

/-! ## Blocks -/

end

/-- Blocks, if statements in them agree on the states that opening a block leads to. -/
theorem agree_block {within : Parser → Parser → Prop} {level level' : Level}
    (current : ∀ {p q}, S p q → q.current = p.current)
    (openBlock : ∀ {p q}, S p q → within p.advance.openBlock q.advance.openBlock)
    (closeBlock : ∀ {p q}, within p q → S p.closeBlock q.closeBlock)
    (body : ∀ {p q}, within p q → (q.statements level').1 = (p.statements level).1 ∧
      within (p.statements level).2 (q.statements level').2) :
    Agree S (.block level) (.block level') := by
  intro p q h
  obtain ⟨same, state⟩ := body (openBlock h)
  refine .ok ?_ (closeBlock state)
  rw [current h, same]

/-- A rule that is read from inside a level, and leaves it again. -/
theorem agree_nested {within : Parser → Parser → Prop} {r r' : Rule α}
    (enter : ∀ {p q}, S p q → within p.enter q.enter)
    (leave : ∀ {p q}, within p q → S p.leave q.leave) (h : Agree within r r') :
    Agree S (.nested r) (.nested r') := by
  refine .of_outcome fun p q k => ?_
  obtain ⟨same, state⟩ := h.outcome (enter k)
  exact ⟨same, leave state⟩

/-! ## What a parse keeps -/

/-- Related states stay related in every move of a parser. -/
structure Kept (S : Parser → Parser → Prop) : Prop extends Seen S where
  enter : ∀ {p q}, S p q → S p.enter q.enter
  leave : ∀ {p q}, S p q → S p.leave q.leave
  openBlock : ∀ {p q}, S p q → S p.openBlock q.openBlock
  closeBlock : ∀ {p q}, S p q → S p.closeBlock q.closeBlock
  endsBody : ∀ {p q}, S p q → q.endsBody = p.endsBody
  recover : ∀ {depth p q p' q' d}, S p q → p.endsBody = false →
    (Rule.statement (.of depth)).run p = (.error d, p') → S p' q' → S (p'.recover d) (q'.recover d)

namespace Kept

theorem statements (kept : Kept S) {depth : Nat} (level : (Level.of depth).Agree S (.of depth))
    {p q : Parser} (h : S p q) :
    (q.statements (.of depth)).1 = (p.statements (.of depth)).1 ∧
      S (p.statements (.of depth)).2 (q.statements (.of depth)).2 :=
  agree_statements kept.toSeen level kept.endsBody kept.recover h

/-- **What every move keeps is kept at every level.** -/
theorem level (kept : Kept S) (depth : Nat) : (Level.of depth).Agree S (.of depth) := by
  induction depth with
  | zero => exact ⟨fun _ => agree_tooDeep kept.toSeen, agree_tooDeep kept.toSeen⟩
  | succ depth ih =>
    exact ⟨fun power => agree_nested kept.enter kept.leave (agree_expression kept.toSeen ih power),
      agree_nested kept.enter kept.leave (agree_block kept.current
        (fun h => kept.openBlock (kept.advance h)) kept.closeBlock (kept.statements ih))⟩

end Kept

end Monkey
