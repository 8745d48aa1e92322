import Monkey.Program.Printer
import Monkey.Proofs.Grammar.Powers
import Monkey.Proofs.Parser.Counters

/-!
# Thresholds of binding power

An expression is read with a threshold: the operators that it takes bind tighter. A lower threshold
takes more. It reads what the higher one reads and fails where that fails, and after it the loop over
operators goes on. So the tree at the higher threshold is on the left spine of the tree at the lower.

The loop applies operators one after another to what it has. Each of them has its right operand read
with its own power as the threshold, and where that ends no tighter operator follows. So the powers
of the operators in one loop never increase.

Results:
* `Rule.expression_eq_bind_of_le`: an expression is one at a higher threshold and the loop after it.
* `Rule.of_operators`: what one loop does to its left operand, and what it leaves ahead.
* `thresholds_split`: two thresholds compared, and the operators of one.
-/

namespace Monkey

/-! ## Trees of one loop -/

/-- A tree with operators applied to it, each with its token and right operand, the first one
innermost. -/
def Expr.applied (left : Expr) (operations : List (Token × Expr)) : Expr :=
  operations.foldl (fun tree operation => .binary operation.1 tree operation.1.value operation.2) left

/-- A tree is reached from another by steps to left operands, or by none. -/
inductive Expr.OnSpine (inner : Expr) : Expr → Prop
  | here : OnSpine inner inner
  | left {token : Token} {tree : Expr} {operator : String} {right : Expr} :
      OnSpine inner tree → OnSpine inner (.binary token tree operator right)

theorem Expr.OnSpine.trans {a b c : Expr} (h : a.OnSpine b) (k : b.OnSpine c) : a.OnSpine c := by
  induction k with
  | here => exact h
  | left _ ih => exact ih.left

theorem Expr.onSpine_applied (left : Expr) (operations : List (Token × Expr)) :
    left.OnSpine (left.applied operations) := by
  induction operations generalizing left with
  | nil => exact .here
  | cons operation rest ih => exact (OnSpine.here.left).trans (ih _)

/-- How tightly an operator of a loop binds. -/
def operationPower (operation : Token × Expr) : BindingPower :=
  Grammar.standard.power operation.1.kind

namespace Rule

variable {level : Level} {power : BindingPower} {p q : Parser}

/-! ## One loop -/

/-- What does not go on at a power binds no tighter. -/
theorem power_le_of_not_continues {kind : Kind} (h : continues power kind = false) :
    Grammar.standard.power kind ≤ power := by
  rcases Bool.and_eq_false_iff.mp h with semicolon | not_lt
  · rw [bne_eq_false_iff_eq.mp semicolon]
    exact Nat.zero_le _
  · exact Nat.not_lt.mp (of_decide_eq_false not_lt)

/-- A repetition ends before a token that does not pass the test. -/
theorem not_test_of_repeatFrom {α : Type} {test : Kind → Bool} {not_eof : test .eof = false}
    {step : α → Rule α} {a b : α} (run : repeatFrom test not_eof step a p = (.ok b, q)) :
    test q.peek.kind = false := by
  fun_induction repeatFrom test not_eof step a p with
  | case1 a p more c p' taken ih => exact ih run
  | case2 a p more d p' taken => cases run
  | case3 a p done =>
    cases run
    simpa using done

/-- After an expression no tighter operator follows. -/
theorem power_le_of_expr {count : Nat} {tree : Expr}
    (run : ((Level.of count).expr power).run p = (.ok tree, q)) :
    Grammar.standard.power q.peek.kind ≤ power := by
  cases count with
  | zero => cases run
  | succ count =>
    obtain ⟨m, read, rfl⟩ := of_nested_ok run
    obtain ⟨left, n, -, loop⟩ := of_bind_ok read
    have ends : continues power m.peek.kind = false := not_test_of_repeatFrom loop
    exact power_le_of_not_continues ends

/-- An operator takes its right operand, and leaves no tighter operator ahead. -/
theorem of_binary {count : Nat} {left tree : Expr}
    (run : (binary (.of count) left power).run p = (.ok tree, q)) :
    ∃ right, tree = .binary p.current left p.current.value right ∧
      Grammar.standard.power q.peek.kind ≤ power := by
  obtain ⟨token, _, look, run⟩ := of_bind_ok run
  cases look
  obtain ⟨_, _, move, run⟩ := of_bind_ok run
  cases move
  obtain ⟨right, _, read, done⟩ := of_bind_ok run
  cases done
  exact ⟨right, rfl, power_le_of_expr read⟩

/-- **One loop.** It applies operators that bind tighter than its power, the looser ones after the
tighter, beginning with the next token, and it ends before one that does not bind tighter. -/
theorem of_operators {count : Nat} {left tree : Expr}
    (run : (operators (.of count) power left).run p = (.ok tree, q)) :
    ∃ operations, tree = left.applied operations ∧
      (∀ operation ∈ operations, power < operationPower operation ∧
        operationPower operation ≤ Grammar.standard.power p.peek.kind) ∧
      operations.Pairwise (fun inner outer => operationPower outer ≤ operationPower inner) ∧
      Grammar.standard.power q.peek.kind ≤ power := by
  rw [run_operators] at run
  fun_induction repeatFrom (continues power) (continues_eof power) _ left p with
  | case1 left p more first p' taken ih =>
    obtain ⟨right, rfl, le⟩ := of_binary taken
    obtain ⟨rest, rfl, each, ordered, ends⟩ := ih run
    have below (operation : Token × Expr) (mem : operation ∈ rest) :
        operationPower operation ≤ operationPower (p.peek, right) :=
      Nat.le_trans (each operation mem).2 le
    refine ⟨(p.peek, right) :: rest, rfl, ?_, List.pairwise_cons.mpr ⟨below, ordered⟩, ends⟩
    intro operation mem
    rcases List.mem_cons.mp mem with rfl | mem
    · have tighter : p.peek.kind ≠ .semicolon ∧ power < Grammar.standard.power p.peek.kind := by
        simpa [continues] using more
      exact ⟨tighter.2, Nat.le_refl _⟩
    · exact ⟨(each operation mem).1, below operation mem⟩
  | case2 left p more d p' taken => cases run
  | case3 left p done =>
    cases run
    exact ⟨[], rfl, by simp, .nil, power_le_of_not_continues (by simpa using done)⟩

/-! ## Two thresholds -/

/-- An expression is one at a higher threshold, and the loop at the lower one after it. -/
theorem expression_eq_bind_of_le (level : Level) {tighter : BindingPower} (le : power ≤ tighter) :
    expression level power = expression level tighter >>= operators level power := by
  unfold expression
  rw [bind_assoc]
  congr 1
  funext left
  exact operators_eq_bind level le left

/-- Goes on with the operators after an expression that has been read. -/
def continued (power : BindingPower) (left : Expr) : Rule Expr :=
  nested (atDepth fun level => operators level power left)

end Rule

/-- A level that has been entered can be entered again once it is left. -/
theorem Parser.enter_leave {p : Parser} (h : 0 < p.depth) : p.leave.enter = p := by
  obtain ⟨cursor, diagnostics, events, openBlocks, depth⟩ := p
  exact congrArg (Parser.mk cursor diagnostics events openBlocks) (Nat.sub_add_cancel h)

/-- At the bound no expression is read. -/
theorem Parser.level_expr_of_le {p : Parser} (h : maxDepth ≤ p.depth) (power : BindingPower) :
    p.level.expr power = .tooDeep := by
  rw [Parser.level, Nat.sub_eq_zero_of_le h]
  rfl

/-- Below it an expression is read one level further down. -/
theorem Parser.level_expr_of_lt {p : Parser} (h : p.depth < maxDepth) (power : BindingPower) :
    p.level.expr power = .nested (.expression p.enter.level power) := by
  have eq : maxDepth - p.depth = (maxDepth - (p.depth + 1)) + 1 := by omega
  rw [Parser.level, eq]
  rfl

/-- An expression that is read leaves the level that it was read at, which is the parser's own. -/
theorem Parser.of_expr {p q : Parser} {power : BindingPower} {tree : Expr}
    (run : (p.level.expr power).run p = (.ok tree, q)) :
    p.depth < maxDepth ∧ q.enter.level = p.enter.level ∧
      (Rule.expression p.enter.level power).run p.enter = (.ok tree, q.enter) := by
  rcases Nat.lt_or_ge p.depth maxDepth with lt | ge
  · rw [level_expr_of_lt lt] at run
    obtain ⟨m, read, rfl⟩ := Rule.of_nested_ok run
    have depth : m.depth = p.enter.depth := by
      have level := Counting.level (maxDepth - p.enter.depth) p.enter.openBlocks p.enter.depth
      have kept := (agree_expression Counting.seen level power).outcome ⟨rfl, rfl, rfl⟩
      have := kept.2.2.2
      change ((Rule.expression p.enter.level power).run p.enter).2.depth = _ at this
      rwa [read] at this
    rw [enter_leave (depth ▸ Nat.succ_pos p.depth)]
    exact ⟨lt, by rw [Parser.level, Parser.level, depth], read⟩
  · rw [level_expr_of_le ge] at run
    cases run

/-- **Thresholds split cleanly.** Where an expression cannot be read at a threshold, a lower one fails
in the same way. Where it can, a lower one reads it as well and goes on with the loop over operators,
from the tokens after it; so it takes no fewer tokens, and its tree has the other on its left spine.
What is read at a threshold is an operand with the operators of one loop applied to it: all of them
bind tighter than the threshold, outer ones no tighter than inner ones, and the token after them does
not bind tighter than the threshold. -/
theorem thresholds_split (p : Parser) :
    (∀ lower higher : BindingPower, lower ≤ higher →
      (∀ d q, (p.level.expr higher).run p = (.error d, q) →
        (p.level.expr lower).run p = (.error d, q)) ∧
      ∀ tree q, (p.level.expr higher).run p = (.ok tree, q) →
        (p.level.expr lower).run p = (Rule.continued lower tree).run q ∧
        (∃ first more, q.cursor = p.cursor.move first ∧
          ((p.level.expr lower).run p).2.cursor = p.cursor.move (first + more)) ∧
        ∀ all q', (p.level.expr lower).run p = (.ok all, q') → tree.OnSpine all) ∧
    ∀ power tree q, (p.level.expr power).run p = (.ok tree, q) →
      ∃ left m operations, (Rule.operand p.enter.level).run p.enter = (.ok left, m) ∧
        (Rule.operators p.enter.level power left).run m = (.ok tree, q.enter) ∧
        tree = left.applied operations ∧
        (∀ operation ∈ operations, power < operationPower operation) ∧
        operations.Pairwise (fun inner outer => operationPower outer ≤ operationPower inner) ∧
        Grammar.standard.power q.peek.kind ≤ power := by
  constructor
  · intro lower higher le
    constructor
    · intro d q run
      rcases Nat.lt_or_ge p.depth maxDepth with lt | ge
      · rw [p.level_expr_of_lt lt, Rule.run_nested] at run ⊢
        obtain ⟨failed, state⟩ := Prod.mk.inj run
        have first : (Rule.expression p.enter.level higher).run p.enter =
            (.error d, ((Rule.expression p.enter.level higher).run p.enter).2) :=
          Prod.ext failed rfl
        rw [Rule.expression_eq_bind_of_le _ le, Rule.run_bind_error first]
        exact Prod.ext rfl state
      · rwa [p.level_expr_of_le ge] at run ⊢
    · intro tree q run
      obtain ⟨lt, level, first⟩ := Parser.of_expr run
      have split : (p.level.expr lower).run p = (Rule.continued lower tree).run q := by
        rw [p.level_expr_of_lt lt, Rule.run_nested, Rule.expression_eq_bind_of_le _ le,
          Rule.run_bind_ok first, ← level]
        rfl
      refine ⟨split, ?_, fun all q' whole => ?_⟩
      · obtain ⟨count, moved⟩ := ((p.level.expr higher).ahead p).moved
        obtain ⟨more, moved'⟩ := ((Rule.continued lower tree).ahead q).moved
        rw [run] at moved
        refine ⟨count, more, moved, ?_⟩
        rw [split, moved', moved, Cursor.move_add]
      · rw [split] at whole
        obtain ⟨m, loop, -⟩ := Rule.of_nested_ok whole
        obtain ⟨operations, rfl, -⟩ := Rule.of_operators loop
        exact tree.onSpine_applied operations
  · intro power tree q run
    obtain ⟨-, -, read⟩ := Parser.of_expr run
    obtain ⟨left, m, operand, loop⟩ := Rule.of_bind_ok read
    obtain ⟨operations, folded, each, ordered, ends⟩ := Rule.of_operators loop
    exact ⟨left, m, operations, operand, loop, folded, fun operation mem => (each operation mem).1,
      ordered, ends⟩

/-- An expression with operators of four powers, cut at one of them, and one that has no end. -/
theorem thresholds_split_comparison :
    let p : Parser := .ofText "1 - 2 * 3 < 4 == x" none
    let broken : Parser := .ofText "1 - 2 * (3 < 4" none
    (∃ tree q all q', (p.level.expr .lessGreater).run p = (.ok tree, q) ∧
        tree.text = "(1 - (2 * 3))" ∧ (p.level.expr .lowest).run p = (.ok all, q') ∧
        all.text = "(((1 - (2 * 3)) < 4) == x)" ∧ tree.OnSpine all ∧
        (p.level.expr .lowest).run p = (Rule.continued .lowest tree).run q ∧
        ∃ (left : Expr) (operations : List (Token × Expr)), tree = left.applied operations ∧
          ∀ operation ∈ operations, .lessGreater < operationPower operation) ∧
      ∃ d q, (broken.level.expr .lessGreater).run broken = (.error d, q) ∧
        (broken.level.expr .lowest).run broken = (.error d, q) := by
  intro p broken
  have read (power : BindingPower) (text : String)
      (h : ((p.level.expr power).run p).1.toOption.map Expr.text = some text) :
      ∃ tree q, (p.level.expr power).run p = (.ok tree, q) ∧ tree.text = text := by
    generalize (p.level.expr power).run p = outcome at h
    rcases outcome with ⟨_ | tree, q⟩
    · cases h
    · exact ⟨tree, q, rfl, Option.some.inj h⟩
  obtain ⟨tree, q, run, text⟩ := read .lessGreater "(1 - (2 * 3))" (by decide +kernel)
  obtain ⟨all, q', run', text'⟩ :=
    read .lowest "(((1 - (2 * 3)) < 4) == x)" (by decide +kernel)
  obtain ⟨split, -, spine⟩ := ((thresholds_split p).1 .lowest .lessGreater (by decide)).2 tree q run
  obtain ⟨left, _, operations, -, -, applied, each, -⟩ :=
    (thresholds_split p).2 .lessGreater tree q run
  refine ⟨⟨tree, q, all, q', run, text, run', text', spine all q' run', split, left, operations,
    applied, each⟩, ?_⟩
  have fails : ((broken.level.expr .lessGreater).run broken).1.toOption = none := by decide +kernel
  generalize run : (broken.level.expr .lessGreater).run broken = outcome at fails
  rcases outcome with ⟨d | tree, q⟩
  · exact ⟨d, q, rfl, ((thresholds_split broken).1 .lowest .lessGreater (by decide)).1 d q run⟩
  · cases fails

end Monkey
