import Monkey.Proofs.Program.Nodes

/-!
# Heights of trees

A path goes down from an expression or a block to a leaf. A step of it goes into a left operand, or
into anything else: a right operand, the operand of a prefix operator, a condition, a block, or from
a block to the expression of one of its statements. `weight down left` is that of the heaviest path,
where a step into a left operand weighs `left` and any other `down`.

So a tree has `height`, the number of nodes on a longest path, and `weight 1 0`, which counts no
steps into left operands, and `weight 0 1`, which counts no others.

Results:
* `Expr.weight_le_of_mem`: what is in a tree is no heavier than the tree.
* `Node.height_le`: a height is at most what both kinds of step count for by themselves.
-/

namespace Monkey

mutual

/-- The weight of a heaviest path from an expression. -/
def Expr.weight (down left : Nat) : Expr → Nat
  | .ident _ | .int _ _ | .bool _ _ => 0
  | .unary _ _ operand => down + operand.weight down left
  | .binary _ first _ second =>
    max (left + first.weight down left) (down + second.weight down left)
  | .cond _ condition consequence none =>
    down + max (condition.weight down left) (consequence.weight down left)
  | .cond _ condition consequence (some alternative) =>
    down + max (condition.weight down left)
      (max (consequence.weight down left) (alternative.weight down left))
  | .func _ _ body => down + body.weight down left

/-- From the expression of a statement. -/
def Stmt.weight (down left : Nat) : Stmt → Nat
  | .bind _ _ value | .ret _ value | .expr _ value => value.weight down left

/-- From a block. -/
def Block.weight (down left : Nat) : Block → Nat
  | .mk _ body => weightOf down left body

/-- From a block of some statements. -/
def weightOf (down left : Nat) : List Stmt → Nat
  | [] => 0
  | statement :: rest => max (down + statement.weight down left) (weightOf down left rest)

end

/-- The weight of a heaviest path from a node. -/
def Node.weight (down left : Nat) : Node → Nat
  | .ident _ => 0
  | .expr e => e.weight down left
  | .statement s => s.weight down left
  | .block b => b.weight down left

/-- The number of expressions and blocks on a longest path. -/
def Node.height (node : Node) : Nat := node.weight 1 1 + 1

/-! ## Parts of a tree -/

section

variable (down left : Nat) {node : Node}

mutual

/-- What is in an expression is no heavier. -/
theorem Expr.weight_le_of_mem :
    ∀ {e : Expr}, node ∈ e.nodes → node.weight down left ≤ e.weight down left
  | .ident _, mem | .int _ _, mem | .bool _ _, mem => by
    rw [List.mem_singleton.mp mem]
    exact Nat.le_refl _
  | .unary _ _ operand, mem => by
    rcases List.mem_cons.mp mem with rfl | mem
    · exact Nat.le_refl _
    have := operand.weight_le_of_mem mem
    simp only [Expr.weight]
    omega
  | .binary _ first _ second, mem => by
    rcases List.mem_append.mp mem with mem | mem
    · have := first.weight_le_of_mem mem
      simp only [Expr.weight]
      omega
    rcases List.mem_cons.mp mem with rfl | mem
    · exact Nat.le_refl _
    have := second.weight_le_of_mem mem
    simp only [Expr.weight]
    omega
  | .cond _ condition consequence none, mem => by
    rcases List.mem_cons.mp mem with rfl | mem
    · exact Nat.le_refl _
    simp only [Expr.weight]
    rcases List.mem_append.mp mem with mem | mem
    · have := condition.weight_le_of_mem mem
      omega
    · have := consequence.weight_le_of_mem mem
      omega
  | .cond _ condition consequence (some alternative), mem => by
    rcases List.mem_cons.mp mem with rfl | mem
    · exact Nat.le_refl _
    simp only [Expr.weight]
    rcases List.mem_append.mp mem with mem | mem
    · have := condition.weight_le_of_mem mem
      omega
    rcases List.mem_append.mp mem with mem | mem
    · have := consequence.weight_le_of_mem mem
      omega
    · have := alternative.weight_le_of_mem mem
      omega
  | .func _ params body, mem => by
    rcases List.mem_cons.mp mem with rfl | mem
    · exact Nat.le_refl _
    rcases List.mem_append.mp mem with mem | mem
    · obtain ⟨name, -, rfl⟩ := List.mem_map.mp mem
      exact Nat.zero_le _
    · have := body.weight_le_of_mem mem
      simp only [Expr.weight]
      omega

theorem Stmt.weight_le_of_mem :
    ∀ {s : Stmt}, node ∈ s.nodes → node.weight down left ≤ s.weight down left
  | .bind _ _ value, mem => by
    rcases List.mem_cons.mp mem with rfl | mem
    · exact Nat.le_refl _
    rcases List.mem_cons.mp mem with rfl | mem
    · exact Nat.zero_le _
    · exact value.weight_le_of_mem mem
  | .ret _ value, mem | .expr _ value, mem => by
    rcases List.mem_cons.mp mem with rfl | mem
    · exact Nat.le_refl _
    · exact value.weight_le_of_mem mem

theorem Block.weight_le_of_mem :
    ∀ {b : Block}, node ∈ b.nodes → node.weight down left ≤ b.weight down left
  | .mk _ body, mem => by
    rcases List.mem_cons.mp mem with rfl | mem
    · exact Nat.le_refl _
    · exact weightOf_le_of_mem mem

theorem weightOf_le_of_mem :
    ∀ {body : List Stmt}, node ∈ nodesOf body → node.weight down left ≤ weightOf down left body
  | [], mem => by cases mem
  | statement :: rest, mem => by
    simp only [weightOf]
    rcases List.mem_append.mp mem with mem | mem
    · have := statement.weight_le_of_mem mem
      omega
    · have := weightOf_le_of_mem mem
      omega

end

end

/-- A node in a list of statements is in one of them. -/
theorem exists_mem_nodes {node : Node} {statements : List Stmt} (mem : node ∈ nodesOf statements) :
    ∃ s ∈ statements, node ∈ s.nodes := by
  induction statements with
  | nil => cases mem
  | cons s rest ih =>
    rcases List.mem_append.mp mem with mem | mem
    · exact ⟨s, List.mem_cons_self, mem⟩
    · obtain ⟨s, hs, mem⟩ := ih mem
      exact ⟨s, List.mem_cons_of_mem _ hs, mem⟩

/-- A block is a step above the heaviest of its statements. -/
theorem weightOf_lt {left bound : Nat} {statements : List Stmt}
    (h : ∀ s ∈ statements, s.weight 1 left < bound) : weightOf 1 left statements < bound + 1 := by
  induction statements with
  | nil => exact Nat.succ_pos bound
  | cons s rest ih =>
    obtain ⟨first, others⟩ := List.forall_mem_cons.mp h
    have := ih others
    simp only [weightOf]
    omega

/-! ## Two kinds of steps -/

section

variable (a b c d : Nat)

mutual

/-- If the weights of the steps are sums then a heaviest path is no heavier than one for each. -/
theorem Expr.weight_add_le : ∀ e : Expr, e.weight (a + c) (b + d) ≤ e.weight a b + e.weight c d
  | .ident _ | .int _ _ | .bool _ _ => Nat.zero_le _
  | .unary _ _ operand => by
    have := operand.weight_add_le
    simp only [Expr.weight]
    omega
  | .binary _ first _ second => by
    have := first.weight_add_le
    have := second.weight_add_le
    simp only [Expr.weight]
    omega
  | .cond _ condition consequence none => by
    have := condition.weight_add_le
    have := consequence.weight_add_le
    simp only [Expr.weight]
    omega
  | .cond _ condition consequence (some alternative) => by
    have := condition.weight_add_le
    have := consequence.weight_add_le
    have := alternative.weight_add_le
    simp only [Expr.weight]
    omega
  | .func _ _ body => by
    have := body.weight_add_le
    simp only [Expr.weight]
    omega

theorem Stmt.weight_add_le : ∀ s : Stmt, s.weight (a + c) (b + d) ≤ s.weight a b + s.weight c d
  | .bind _ _ value | .ret _ value | .expr _ value => value.weight_add_le

theorem Block.weight_add_le : ∀ x : Block, x.weight (a + c) (b + d) ≤ x.weight a b + x.weight c d
  | .mk _ body => weightOf_add_le body

theorem weightOf_add_le : ∀ body : List Stmt,
    weightOf (a + c) (b + d) body ≤ weightOf a b body + weightOf c d body
  | [] => Nat.zero_le _
  | statement :: rest => by
    have := statement.weight_add_le
    have := weightOf_add_le rest
    simp only [weightOf]
    omega

end

end

/-- A height is at most what the two kinds of steps count for by themselves. -/
theorem Node.height_le (node : Node) : node.height ≤ node.weight 1 0 + 1 + node.weight 0 1 := by
  have split : node.weight 1 1 ≤ node.weight 1 0 + node.weight 0 1 := by
    cases node with
    | ident => exact Nat.zero_le _
    | expr e => exact e.weight_add_le 1 0 0 1
    | statement s => exact s.weight_add_le 1 0 0 1
    | block b => exact b.weight_add_le 1 0 0 1
  rw [height]
  omega

end Monkey
