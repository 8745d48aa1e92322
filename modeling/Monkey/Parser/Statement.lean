import Monkey.Parser.Expression
import Monkey.Parser.Recovery

/-!
# Reading statements

A statement may end in a semicolon and need not. `Parser.statements` reads statements until they end,
at the end of input or at the brace that closes the block. A statement that cannot be read leaves a
diagnostic, and reading goes on where recovery stops, so it never fails.

Results:
* `Parser.ahead_statements`: reading statements leads ahead.
* `Parser.endsBody_statements`: it stops where statements end.
-/

namespace Monkey

namespace Rule

/-- A name and the value it is bound to. -/
def binding (level : Level) : Rule Stmt := do
  let token ← current
  expect .ident
  let name ← current
  expect .assign
  advance
  let value ← level.expr .lowest
  skipOptional .semicolon
  return .bind token (.ofToken name) value

/-- A value to return. -/
def returning (level : Level) : Rule Stmt := do
  let token ← current
  advance
  let value ← level.expr .lowest
  skipOptional .semicolon
  return .ret token value

/-- An expression that stands as a statement. -/
def expressionStatement (level : Level) : Rule Stmt := do
  let token ← current
  let expression ← level.expr .lowest
  skipOptional .semicolon
  return .expr token expression

/-- A statement of the given form. -/
def statementOf (level : Level) : StatementForm → Rule Stmt
  | .bind => binding level
  | .ret => returning level

/-- A statement, of the form that the kind of its first token says, else an expression. -/
def statement (level : Level) : Rule Stmt := do
  let token ← current
  match Grammar.standard.statement token.kind with
  | some form => statementOf level form
  | none => expressionStatement level

end Rule

namespace Parser

theorem current_kind_ne_eof {p : Parser} (h : p.endsBody = false) : p.current.kind ≠ .eof :=
  fun eof => by simp [endsBody, eof] at h

/-- Moving on from a state that is ahead of one where statements go on leaves less to read. -/
theorem Ahead.remaining_advance_lt {p q : Parser} (ahead : Ahead p q) (h : p.endsBody = false) :
    q.advance.cursor.remaining < p.cursor.remaining := by
  by_cases same : q.cursor.remaining = p.cursor.remaining
  · rw [← same]
    exact Parser.remaining_advance_lt (.inl (ahead.kind_eq same ▸ current_kind_ne_eof h))
  · have := ahead.remaining_le
    have := (Ahead.advance q).remaining_le
    omega

/-- So does recovering there. -/
theorem Ahead.remaining_recover_lt {p q : Parser} (ahead : Ahead p q) (h : p.endsBody = false)
    (diagnostic : Diagnostic) :
    (q.recover diagnostic).cursor.remaining < p.cursor.remaining := by
  by_cases same : q.cursor.remaining = p.cursor.remaining
  · rw [← same]
    exact Parser.remaining_recover_lt ((ahead.endsBody_eq same).trans h) diagnostic
  · have := ahead.remaining_le
    have := (ahead_recover q diagnostic).remaining_le
    omega

/-- Reads statements until they end. -/
def statements (level : Level) (p : Parser) : List Stmt × Parser :=
  if _ends : p.endsBody then ([], p)
  else
    match _tried : (Rule.statement level).run p with
    | (.ok statement, q) =>
      let (rest, r) := statements level q.advance
      (statement :: rest, r)
    | (.error diagnostic, q) => statements level (q.recover diagnostic)
termination_by p.cursor.remaining
decreasing_by
  all_goals
    have ahead := (Rule.statement level).ahead p
    rw [_tried] at ahead
  · exact ahead.remaining_advance_lt (by simpa using _ends)
  · exact ahead.remaining_recover_lt (by simpa using _ends) diagnostic

section

variable {level : Level} {p q : Parser}

theorem statements_of_endsBody (ends : p.endsBody = true) : p.statements level = ([], p) := by
  rw [statements, dif_pos ends]

theorem statements_of_ok {statement : Stmt} (ends : p.endsBody = false)
    (tried : (Rule.statement level).run p = (.ok statement, q)) :
    p.statements level =
      (statement :: (q.advance.statements level).1, (q.advance.statements level).2) := by
  rw [statements, dif_neg (by simp [ends])]
  split
  · next eq =>
    rw [tried] at eq
    cases eq
    rfl
  · next eq =>
    rw [tried] at eq
    cases eq

theorem statements_of_error {diagnostic : Diagnostic} (ends : p.endsBody = false)
    (tried : (Rule.statement level).run p = (.error diagnostic, q)) :
    p.statements level = (q.recover diagnostic).statements level := by
  rw [statements, dif_neg (by simp [ends])]
  split
  · next eq =>
    rw [tried] at eq
    cases eq
  · next eq =>
    rw [tried] at eq
    cases eq
    rfl

end

theorem ahead_statements (level : Level) (p : Parser) : p.Ahead (p.statements level).2 := by
  fun_induction statements level p with
  | case1 => exact .refl _
  | case2 p _ statement q tried rest r eq ih =>
    have ahead := (Rule.statement level).ahead p
    rw [tried] at ahead
    rw [eq] at ih
    exact (ahead.trans (.advance q)).trans ih
  | case3 p _ diagnostic q tried ih =>
    have ahead := (Rule.statement level).ahead p
    rw [tried] at ahead
    exact (ahead.trans (ahead_recover q diagnostic)).trans ih

theorem endsBody_statements (level : Level) (p : Parser) :
    (p.statements level).2.endsBody = true := by
  fun_induction statements level p with
  | case1 p ends => exact ends
  | case2 p _ statement q tried rest r eq ih =>
    rw [eq] at ih
    exact ih
  | case3 p _ diagnostic q tried ih => exact ih

end Parser

/-- Statements between braces, from the opening brace to the closing one or the end of input. -/
def Rule.block (level : Level) : Rule Block where
  run p :=
    let (body, q) := p.advance.openBlock.statements level
    (.ok (.mk p.current body), q.closeBlock)
  ahead p := by
    have first := Parser.Ahead.advance p
    obtain ⟨blocks, moved, less, kind, diagnostics, events⟩ :=
      Parser.ahead_statements level p.advance.openBlock
    refine first.trans ⟨?_, moved, less, kind, diagnostics, events⟩
    change (p.advance.openBlock.statements level).2.openBlocks - 1 = p.advance.openBlocks
    rw [blocks]
    rfl

end Monkey
