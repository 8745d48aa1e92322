import Monkey.Parser.Program
import Monkey.Proofs.Parser.Ensures

/-!
# Rules on keywords

No expression and no block begins with a token that begins a statement by itself, a keyword. So a rule
that reads one never ends on a keyword. If it fails on a keyword, then it was to read an expression or
a block there, and that is what the diagnostic says.

Results:
* `halts_primary`, `halts_unary`, ..., `halts_block`: one lemma for each rule.
* `halts`: every rule ends and fails so, at every level of nesting.
* `ensures_statement`: a statement that fails on a keyword fails on its own first token, as a binding
  without a name, or on a later one that was to begin an expression.
-/

namespace Monkey

/-- The current token does not begin a statement by itself. -/
def Parser.OffKeyword (p : Parser) : Prop :=
  p.current.kind.beginsStatement = false

/-- Nothing was read from the current token on, and the diagnostic is about that token. -/
structure Refused (d : Diagnostic) (p : Parser) : Prop where
  position : d.position = p.position
  cause : d.cause = .noOperand p.current.kind ∨ d.cause = .tooDeep maxDepth

/-- A rule that stops on a keyword refuses it. -/
def Halted (d : Diagnostic) (p : Parser) : Prop :=
  p.current.kind.beginsStatement = true → Refused d p

theorem Parser.OffKeyword.halted {p : Parser} (h : p.OffKeyword) (d : Diagnostic) : Halted d p :=
  fun keyword => absurd keyword (Bool.eq_false_iff.mp h)

section

variable {α : Type}

/-- From the states with `before` a rule ends off the keywords, or stops and refuses the keyword that
it is on. -/
def Halts (before : Parser → Prop) (r : Rule α) : Prop :=
  Rule.Ensures before r (fun _ => Parser.OffKeyword) Halted

/-- A rule that ends so wherever it starts. -/
def HaltsAnywhere (r : Rule α) : Prop :=
  Halts (fun _ => True) r

/-- The rules of a level end so wherever they start. -/
structure Level.Halts (level : Level) : Prop where
  expr : ∀ power, HaltsAnywhere (level.expr power)
  block : HaltsAnywhere level.block

namespace HaltsAnywhere

variable {r : Rule α}

theorem within {before : Parser → Prop} (h : HaltsAnywhere r) : Halts before r :=
  h.weaken fun _ _ => trivial

end HaltsAnywhere

end

variable {level : Level}

/-! ## Moving -/

theorem halts_pure {α : Type} (a : α) : Halts Parser.OffKeyword (pure a : Rule α) :=
  .pure fun _ off => off

theorem ensures_move (before : Parser → Prop) :
    Rule.Ensures before .advance (fun _ _ => True) Halted :=
  .advance fun _ _ => trivial

/-- A token that is seen to be next. -/
theorem halts_advance {next : Token} (other : next.kind.beginsStatement = false) :
    Halts (fun p => p.OffKeyword ∧ p.peek = next) .advance := by
  refine .advance ?_
  rintro p ⟨-, rfl⟩
  exact other

theorem halts_expect {kind : Kind} (other : kind.beginsStatement = false) :
    Halts Parser.OffKeyword (.expect kind) := by
  refine .expect (fun p _ same => ?_) fun _ off _ => off.halted _
  change p.peek.kind.beginsStatement = false
  rw [same, other]

theorem halts_skipOptional {kind : Kind} (other : kind.beginsStatement = false) :
    Halts Parser.OffKeyword (.skipOptional kind) := by
  refine .skipOptional (fun p _ same => ?_) fun _ off => off
  change p.peek.kind.beginsStatement = false
  rw [same, other]

/-! ## Expressions -/

theorem halts_tooDeep {α : Type} : HaltsAnywhere (.tooDeep : Rule α) := by
  refine .current fun token => .fail ?_
  rintro p ⟨-, rfl⟩ -
  exact ⟨rfl, .inr rfl⟩

theorem halts_primary : HaltsAnywhere .primary := by
  refine .current fun token => ?_
  have off {kind : Kind} (same : token.kind = kind) (other : kind.beginsStatement = false)
      (p : Parser) (h : True ∧ p.current = token) : p.OffKeyword := by
    rw [Parser.OffKeyword, h.2, same, other]
  dsimp only
  split
  · next same =>
    split
    · exact .pure (off same rfl)
    · exact .fail fun p h => (off same rfl p h).halted _
  · next same => exact .pure (off same rfl)
  · next same => exact .pure (off same rfl)
  · next same => exact .pure (off same rfl)
  · refine .fail ?_
    rintro p ⟨-, rfl⟩ -
    exact ⟨rfl, .inl rfl⟩

theorem halts_unary (h : level.Halts) : HaltsAnywhere (.unary level) :=
  .current fun _ => (ensures_move _).bind fun _ => (h.expr .unary).bind fun _ => halts_pure _

theorem halts_binary (h : level.Halts) (left : Expr) (power : BindingPower) :
    HaltsAnywhere (.binary level left power) :=
  .current fun _ => (ensures_move _).bind fun _ => (h.expr power).bind fun _ => halts_pure _

theorem halts_group (h : level.Halts) : HaltsAnywhere (.group level) :=
  (ensures_move _).bind fun _ => (h.expr .lowest).bind fun _ =>
    (halts_expect rfl).bind fun _ => halts_pure _

theorem halts_nextBlock (h : level.Halts) : Halts Parser.OffKeyword (.nextBlock level) :=
  (halts_expect rfl).bind fun _ => h.block.within

theorem halts_cond (h : level.Halts) : Halts Parser.OffKeyword (.cond level) := by
  refine .current fun token => ?_
  refine ((halts_expect rfl).weaken fun _ start => start.1).bind fun _ => ?_
  refine (ensures_move _).bind fun _ => (h.expr .lowest).bind fun condition => ?_
  refine (halts_expect rfl).bind fun _ => (halts_nextBlock h).bind fun consequence => ?_
  refine .peek fun next => ?_
  split
  · next otherwise =>
    exact (halts_advance (otherwise ▸ rfl)).bind fun _ =>
      (halts_nextBlock h).bind fun _ => halts_pure _
  · exact (halts_pure _).weaken fun _ start => start.1

theorem halts_nextParam : Halts Parser.OffKeyword .nextParam :=
  (halts_expect rfl).bind fun _ => .current fun _ => (halts_pure _).weaken fun _ start => start.1

/-- The parameters after the first one, each after a comma. -/
theorem halts_moreParams (first : List Ident) :
    Halts Parser.OffKeyword
      (.repeatWhile (· == .comma) rfl (fun names => return names ++ [← Rule.nextParam]) first) := by
  have param (names : List Ident) : Rule.Ensures
      (fun q => ∃ p : Parser, p.OffKeyword ∧ (p.peek.kind == .comma) = true ∧ q = p.advance)
      (do return names ++ [← Rule.nextParam]) (fun _ => Parser.OffKeyword) Halted := by
    refine (halts_nextParam.weaken ?_).bind fun _ => halts_pure _
    rintro _ ⟨p, -, comma, rfl⟩
    change p.peek.kind.beginsStatement = false
    rw [beq_iff_eq.mp comma]
    rfl
  exact .repeatWhile (· == .comma) rfl param first

theorem halts_params : Halts Parser.OffKeyword .params := by
  refine .peek fun next => ?_
  split
  · next closes => exact (halts_advance (closes ▸ rfl)).bind fun _ => halts_pure _
  · refine (halts_nextParam.weaken fun _ start => start.1).bind fun first => ?_
    exact (halts_moreParams [first]).bind fun _ => (halts_expect rfl).bind fun _ => halts_pure _

theorem halts_func (h : level.Halts) : Halts Parser.OffKeyword (.func level) := by
  refine .current fun token => ?_
  refine ((halts_expect rfl).weaken fun _ start => start.1).bind fun _ => ?_
  exact halts_params.bind fun _ => (halts_nextBlock h).bind fun _ => halts_pure _

/-- A kind has an operand form only if it begins no statement. -/
theorem Kind.not_beginsStatement_of_operand {kind : Kind} {form : OperandForm}
    (h : Grammar.standard.operand kind = some form) : kind.beginsStatement = false := by
  cases kind <;> cases h <;> rfl

theorem halts_operand (h : level.Halts) : HaltsAnywhere (.operand level) := by
  refine .current fun token => ?_
  have off {form : OperandForm} (eq : Grammar.standard.operand token.kind = some form) (p : Parser)
      (start : True ∧ p.current = token) : p.OffKeyword := by
    rw [Parser.OffKeyword, start.2, Kind.not_beginsStatement_of_operand eq]
  cases eq : Grammar.standard.operand token.kind with
  | none =>
    refine .fail ?_
    rintro p ⟨-, rfl⟩ -
    exact ⟨rfl, .inl rfl⟩
  | some form =>
    cases form with
    | primary => exact halts_primary.within
    | unary => exact (halts_unary h).within
    | group => exact (halts_group h).within
    | cond => exact (halts_cond h).weaken (off eq)
    | func => exact (halts_func h).weaken (off eq)

theorem halts_operators (h : level.Halts) (power : BindingPower) (left : Expr) :
    Halts Parser.OffKeyword (.operators level power left) := by
  have operation (left : Expr) : Rule.Ensures
      (fun q => ∃ p : Parser, p.OffKeyword ∧ Rule.continues power p.peek.kind = true ∧
        q = p.advance)
      (do Rule.binary level left (Grammar.standard.power (← Rule.current).kind))
      (fun _ => Parser.OffKeyword) Halted :=
    .current fun _ => (halts_binary h left _).within
  exact .repeatWhile (Rule.continues power) _ operation left

theorem halts_expression (h : level.Halts) (power : BindingPower) :
    HaltsAnywhere (.expression level power) :=
  (halts_operand h).bind fun left => halts_operators h power left

/-! ## Blocks -/

/-- Statements end at no keyword. -/
theorem Parser.OffKeyword.of_endsBody {p : Parser} (ends : p.endsBody = true) : p.OffKeyword := by
  simp only [endsBody, Bool.or_eq_true, Bool.and_eq_true, beq_iff_eq] at ends
  rcases ends with eof | ⟨rbrace, -⟩
  · rw [OffKeyword, eof]
    rfl
  · rw [OffKeyword, rbrace]
    rfl

theorem halts_block (level : Level) : HaltsAnywhere (.block level) := fun p _ =>
  Parser.OffKeyword.of_endsBody (p := (p.advance.openBlock.statements level).2)
    (Parser.endsBody_statements level _)

/-- **No rule ends on a keyword**, and each refuses the one that it stops on. -/
theorem halts (depth : Nat) : (Level.of depth).Halts := by
  induction depth with
  | zero => exact ⟨fun _ => halts_tooDeep, halts_tooDeep⟩
  | succ depth ih =>
    have nested {α : Type} {r : Rule α} (h : HaltsAnywhere r) : HaltsAnywhere (.nested r) :=
      Rule.Ensures.nested h (fun _ _ => trivial) (fun _ _ off => off) fun _ _ halted keyword =>
        ⟨(halted keyword).position, (halted keyword).cause⟩
    exact ⟨fun power => nested (halts_expression ih power), nested (halts_block _)⟩

/-! ## Statements -/

/-- How a statement that starts in one state may fail on a keyword in another. -/
inductive FailsOn (p : Parser) (d : Diagnostic) (q : Parser) : Prop
  /-- It is the first token of a binding, and no name follows. -/
  | unnamed (found : Kind) (here : q.cursor = p.cursor)
      (about : d = ⟨.unexpected .ident found, p.peek.span.start⟩)
  /-- It is a later token, and an expression was to begin there. -/
  | refused (count : Nat) (moved : q.cursor = p.advance.cursor.move count) (refused : Refused d q)

/-- A statement that fails on a keyword fails in one of these ways. -/
def StatementHalts (p : Parser) (d : Diagnostic) (q : Parser) : Prop :=
  q.current.kind.beginsStatement = true → FailsOn p d q

variable {p : Parser}

/-- The rest of a statement, after its first token. -/
theorem Halts.rest {before : Parser → Prop} {r : Rule Stmt} (h : Halts before r) (p : Parser) :
    Rule.Ensures (fun q => q = p.advance ∧ before q) r (fun _ => Parser.OffKeyword)
      (StatementHalts p) := by
  rintro _ ⟨rfl, start⟩
  have once := h _ start
  obtain ⟨count, moved⟩ := (r.ahead p.advance).moved
  generalize r.run p.advance = outcome at once moved ⊢
  rcases outcome with ⟨d | a, q⟩
  · exact fun keyword => .refused count moved (once keyword)
  · exact once

theorem ensures_binding (h : level.Halts) (p : Parser) :
    Rule.Ensures (· = p) (.binding level) (fun _ => Parser.OffKeyword) (StatementHalts p) := by
  have named : Rule.Ensures (· = p) (.expect .ident) (fun _ q => q = p.advance ∧ q.OffKeyword)
      (StatementHalts p) := by
    refine .expect ?_ ?_
    · rintro _ rfl same
      refine ⟨rfl, ?_⟩
      rw [Parser.OffKeyword, Parser.current_advance, same]
      rfl
    · rintro _ rfl - -
      exact .unnamed _ rfl rfl
  refine .current fun token => (named.weaken fun _ start => start.1).bind fun _ => ?_
  refine Halts.rest (.current fun name => ?_) p
  refine ((halts_expect rfl).weaken fun _ start => start.1).bind fun _ => ?_
  refine (ensures_move _).bind fun _ => (h.expr .lowest).bind fun value => ?_
  exact (halts_skipOptional rfl).bind fun _ => halts_pure _

theorem ensures_returning (h : level.Halts) (p : Parser) :
    Rule.Ensures (· = p) (.returning level) (fun _ => Parser.OffKeyword) (StatementHalts p) := by
  have moved : Rule.Ensures (· = p) .advance (fun _ q => q = p.advance ∧ True)
      (StatementHalts p) := by
    refine .advance ?_
    rintro _ rfl
    exact ⟨rfl, trivial⟩
  refine .current fun token => (moved.weaken fun _ start => start.1).bind fun _ => Halts.rest ?_ p
  exact (h.expr .lowest).bind fun value => (halts_skipOptional rfl).bind fun _ => halts_pure _

/-- An expression that starts off the keywords fails later, if it fails on one. -/
theorem ensures_expressionStatement (h : level.Halts) (off : p.OffKeyword) :
    Rule.Ensures (· = p) (.expressionStatement level) (fun _ => Parser.OffKeyword)
      (StatementHalts p) := by
  have once : HaltsAnywhere (.expressionStatement level) :=
    .current fun token => (h.expr .lowest).within.bind fun expression =>
      (halts_skipOptional rfl).bind fun _ => halts_pure _
  rintro p rfl
  have once := once p trivial
  obtain ⟨count, moved⟩ := ((Rule.expressionStatement level).ahead p).moved
  generalize (Rule.expressionStatement level).run p = outcome at once moved ⊢
  rcases outcome with ⟨d | a, q⟩
  · intro keyword
    cases count with
    | zero =>
      have same : q.current = p.current := congrArg Cursor.current moved
      rw [same, off] at keyword
      cases keyword
    | succ count => exact .refused count moved (once keyword)
  · exact once

/-- **Where a statement fails on a keyword.** -/
theorem ensures_statement (h : level.Halts) (p : Parser) :
    Rule.Ensures (· = p) (.statement level) (fun _ => Parser.OffKeyword) (StatementHalts p) := by
  have here : ∀ q, q = p → q.current = p.current := fun _ => congrArg Parser.current
  refine .current_eq here ?_
  cases eq : Grammar.standard.statement p.current.kind with
  | none =>
    refine ensures_expressionStatement h ?_
    rw [Parser.OffKeyword, Kind.beginsStatement, eq]
    rfl
  | some form =>
    cases form with
    | bind => exact ensures_binding h p
    | ret => exact ensures_returning h p

end Monkey
