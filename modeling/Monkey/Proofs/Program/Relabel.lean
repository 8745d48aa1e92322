import Monkey.Program.Printer

/-!
# Relabelled programs

`relabel f` puts another token in the place of each token of a tree and leaves the rest as it is: the
names, the numbers and the shape. Reading tokens that say the same gives trees that differ by a
relabelling only.

Results:
* `Expr.relabel_id`, `Stmt.relabel_id`, `Block.relabel_id`: the same tokens give the same tree.
* `Program.text_relabel`: tokens that say the same are printed alike.
-/

namespace Monkey

variable (f : Token → Token)

/-- The name, read from another token. -/
def Ident.relabel (name : Ident) : Ident := ⟨f name.token, name.value⟩

mutual

/-- The expression, read from other tokens. -/
def Expr.relabel : Expr → Expr
  | .ident name => .ident (name.relabel f)
  | .int token value => .int (f token) value
  | .bool token value => .bool (f token) value
  | .unary token operator operand => .unary (f token) operator operand.relabel
  | .binary token left operator right => .binary (f token) left.relabel operator right.relabel
  | .cond token condition consequence none =>
    .cond (f token) condition.relabel consequence.relabel none
  | .cond token condition consequence (some alternative) =>
    .cond (f token) condition.relabel consequence.relabel (some alternative.relabel)
  | .func token params body => .func (f token) (params.map (·.relabel f)) body.relabel

/-- The statement, read from other tokens. -/
def Stmt.relabel : Stmt → Stmt
  | .bind token name value => .bind (f token) (name.relabel f) value.relabel
  | .ret token value => .ret (f token) value.relabel
  | .expr token expression => .expr (f token) expression.relabel

/-- The block, read from other tokens. -/
def Block.relabel : Block → Block
  | .mk token body => .mk (f token) (relabelStatements body)

/-- The statements, read from other tokens. -/
def relabelStatements : List Stmt → List Stmt
  | [] => []
  | statement :: rest => statement.relabel :: relabelStatements rest

end

/-- The program, read from other tokens. -/
def Program.relabel (program : Program) : Program := ⟨relabelStatements f program.statements⟩

theorem relabelStatements_eq_map (statements : List Stmt) :
    relabelStatements f statements = statements.map (·.relabel f) := by
  induction statements with
  | nil => rfl
  | cons statement rest ih => rw [relabelStatements, ih, List.map_cons]

theorem Ident.relabel_ofToken {token : Token} (value : (f token).value = token.value) :
    (Ident.ofToken token).relabel f = .ofToken (f token) := by
  rw [relabel, ofToken, ofToken, value]

/-! ## The same tokens -/

theorem Ident.relabel_id (name : Ident) : name.relabel id = name := rfl

mutual

theorem Expr.relabel_id : ∀ e : Expr, e.relabel id = e
  | .ident _ => by rw [Expr.relabel, Ident.relabel_id]
  | .int _ _ => by rw [Expr.relabel, id]
  | .bool _ _ => by rw [Expr.relabel, id]
  | .unary _ _ operand => by rw [Expr.relabel, Expr.relabel_id operand, id]
  | .binary _ left _ right => by
    rw [Expr.relabel, Expr.relabel_id left, Expr.relabel_id right, id]
  | .cond _ condition consequence none => by
    rw [Expr.relabel, Expr.relabel_id condition, Block.relabel_id consequence, id]
  | .cond _ condition consequence (some alternative) => by
    rw [Expr.relabel, Expr.relabel_id condition, Block.relabel_id consequence,
      Block.relabel_id alternative, id]
  | .func _ params body => by
    rw [Expr.relabel, Block.relabel_id body, List.map_congr_left fun name _ => name.relabel_id,
      List.map_id', id]

theorem Stmt.relabel_id : ∀ s : Stmt, s.relabel id = s
  | .bind _ name value => by
    rw [Stmt.relabel, Expr.relabel_id value, name.relabel_id, id]
  | .ret _ value => by rw [Stmt.relabel, Expr.relabel_id value, id]
  | .expr _ expression => by rw [Stmt.relabel, Expr.relabel_id expression, id]

theorem Block.relabel_id : ∀ b : Block, b.relabel id = b
  | .mk _ body => by rw [Block.relabel, relabelStatements_id body, id]

theorem relabelStatements_id :
    ∀ statements : List Stmt, relabelStatements id statements = statements
  | [] => rfl
  | statement :: rest => by
    rw [relabelStatements, Stmt.relabel_id statement, relabelStatements_id rest]

end

/-! ## Printing -/

section

variable {f : Token → Token}

mutual

theorem Expr.text_relabel (value : ∀ t, (f t).value = t.value) :
    ∀ e : Expr, (e.relabel f).text = e.text
  | .ident _ => rfl
  | .int _ _ => by rw [Expr.relabel, Expr.text, Expr.text, value]
  | .bool _ _ => by rw [Expr.relabel, Expr.text, Expr.text, value]
  | .unary _ _ operand => by
    rw [Expr.relabel, Expr.text, Expr.text, Expr.text_relabel value operand]
  | .binary _ left _ right => by
    rw [Expr.relabel, Expr.text, Expr.text, Expr.text_relabel value left,
      Expr.text_relabel value right]
  | .cond _ condition consequence none => by
    rw [Expr.relabel, Expr.text, Expr.text, Expr.text_relabel value condition,
      Block.text_relabel value consequence]
  | .cond _ condition consequence (some alternative) => by
    rw [Expr.relabel, Expr.text, Expr.text, Expr.text_relabel value condition,
      Block.text_relabel value consequence, Block.text_relabel value alternative]
  | .func _ params body => by
    rw [Expr.relabel, Expr.text, Expr.text, Block.text_relabel value body, value, List.map_map]
    rfl

theorem Stmt.text_relabel (value : ∀ t, (f t).value = t.value) :
    ∀ s : Stmt, (s.relabel f).text = s.text
  | .bind _ _ e => by
    rw [Stmt.relabel, Stmt.text, Stmt.text, Expr.text_relabel value e, value]
    rfl
  | .ret _ e => by rw [Stmt.relabel, Stmt.text, Stmt.text, Expr.text_relabel value e, value]
  | .expr _ e => by rw [Stmt.relabel, Stmt.text, Stmt.text, Expr.text_relabel value e]

theorem Block.text_relabel (value : ∀ t, (f t).value = t.value) :
    ∀ b : Block, (b.relabel f).text = b.text
  | .mk _ body => by rw [Block.relabel, Block.text, Block.text, textOfStatements_relabel value body]

theorem textOfStatements_relabel (value : ∀ t, (f t).value = t.value) :
    ∀ statements : List Stmt,
      textOfStatements (relabelStatements f statements) = textOfStatements statements
  | [] => rfl
  | statement :: rest => by
    rw [relabelStatements, textOfStatements, textOfStatements, Stmt.text_relabel value statement,
      textOfStatements_relabel value rest]

end

theorem Program.text_relabel (value : ∀ t, (f t).value = t.value) (program : Program) :
    (program.relabel f).text = program.text :=
  textOfStatements_relabel value program.statements

end

end Monkey
