import Monkey.Parser.Program
import Monkey.Proofs.Grammar.Chain
import Monkey.Proofs.Parser.Ensures

/-!
# Nesting bounds trees

A parser reads at most `maxDepth` expressions and blocks inside one another. Each of them is a step
further down in the tree, except that a left operand is read by the same expression as the operator
after it. So the bound holds of paths in which steps into left operands do not count, and a chain of
operators makes a tree of any height.

Results:
* `Level.Bounded.of`: what is read at a level is not as heavy as the level is deep.
* `nesting_bounds_height`: the height of a tree is at most `maxDepth` and the number of left operands
  on a path.
-/

namespace Monkey

namespace Rule

variable {α β : Type}

/-- Every result of a rule has a property, wherever it is run. -/
def Yields (r : Rule α) (property : α → Prop) : Prop :=
  Ensures (fun _ => True) r (fun a _ => property a) fun _ _ => True

namespace Yields

variable {r : Rule α} {f : α → Rule β} {property : α → Prop} {result : β → Prop}

theorem pure {a : α} (h : property a) : Yields (Pure.pure a) property := fun _ _ => h

theorem fail (cause : Cause) (position : Position) :
    Yields (Rule.fail cause position : Rule α) property := fun _ _ => trivial

theorem bind (first : Yields r property) (next : ∀ a, property a → Yields (f a) result) :
    Yields (r >>= f) result :=
  Ensures.bind first fun a p h => next a h p trivial

/-- What a rule gives may not matter to the rules after it. -/
theorem after (r : Rule α) (next : ∀ a, Yields (f a) result) : Yields (r >>= f) result := by
  have any : Yields r fun _ => True := by
    intro p _
    rcases r.run p with ⟨d | a, q⟩ <;> trivial
  exact any.bind fun a _ => next a

theorem nested (h : Yields r property) : Yields (Rule.nested r) property :=
  Ensures.nested h (fun _ h => h) (fun _ _ h => h) fun _ _ h => h

/-- A repetition yields what each of its steps preserves. -/
theorem repeatWhile (test : Kind → Bool) (not_eof : test .eof = false) {step : α → Rule α}
    (keeps : ∀ a, property a → Yields (step a) property) {a : α} (start : property a) :
    Yields (Rule.repeatWhile test not_eof step a) property := by
  refine (Ensures.repeatWhile test not_eof (fun a => ?_) a).weaken fun _ _ => start
  rintro q ⟨-, h, -⟩
  exact keeps a h q trivial

theorem of_ok (h : Yields r property) {p q : Parser} {a : α} (run : r.run p = (.ok a, q)) :
    property a :=
  Ensures.of_ok h trivial run

end Yields

end Rule

open Rule (Yields)

/-- What a level gives is not as heavy as the level is deep. -/
structure Level.Bounded (depth : Nat) (level : Level) : Prop where
  expr : ∀ power, Yields (level.expr power) fun e => e.weight 1 0 < depth
  block : Yields level.block fun b => b.weight 1 0 < depth

namespace Level.Bounded

variable {depth : Nat} {level : Level}

/-! ## Expressions -/

theorem primary : Yields .primary fun e => e.weight 1 0 < depth + 1 := by
  refine .after _ fun token => ?_
  dsimp only
  split
  · split
    · exact .pure (Nat.succ_pos depth)
    · exact .fail _ _
  · exact .pure (Nat.succ_pos depth)
  · exact .pure (Nat.succ_pos depth)
  · exact .pure (Nat.succ_pos depth)
  · exact .fail _ _

theorem unary (h : level.Bounded depth) :
    Yields (.unary level) fun e => e.weight 1 0 < depth + 1 := by
  refine .after _ fun token => .after _ fun _ => (h.expr .unary).bind fun operand lt => .pure ?_
  simp only [Expr.weight]
  omega

/-- The left operand of an operator is no step further down. -/
theorem binary (h : level.Bounded depth) {left : Expr} (first : left.weight 1 0 < depth + 1)
    (power : BindingPower) :
    Yields (.binary level left power) fun e => e.weight 1 0 < depth + 1 := by
  refine .after _ fun token => .after _ fun _ => (h.expr power).bind fun right lt => .pure ?_
  simp only [Expr.weight]
  omega

theorem group (h : level.Bounded depth) :
    Yields (.group level) fun e => e.weight 1 0 < depth + 1 := by
  refine .after _ fun _ => (h.expr .lowest).bind fun inner lt => .after _ fun _ => .pure ?_
  omega

theorem nextBlock (h : level.Bounded depth) :
    Yields (.nextBlock level) fun b => b.weight 1 0 < depth :=
  .after _ fun _ => h.block

theorem cond (h : level.Bounded depth) :
    Yields (.cond level) fun e => e.weight 1 0 < depth + 1 := by
  refine .after _ fun token => .after _ fun _ => .after _ fun _ => ?_
  refine (h.expr .lowest).bind fun condition lt => .after _ fun _ => ?_
  refine h.nextBlock.bind fun consequence lt' => .after _ fun next => ?_
  split
  · refine .after _ fun _ => h.nextBlock.bind fun alternative lt'' => .pure ?_
    simp only [Expr.weight]
    omega
  · refine .pure ?_
    simp only [Expr.weight]
    omega

theorem func (h : level.Bounded depth) :
    Yields (.func level) fun e => e.weight 1 0 < depth + 1 := by
  refine .after _ fun token => .after _ fun _ => .after _ fun names => ?_
  refine h.nextBlock.bind fun body lt => .pure ?_
  simp only [Expr.weight]
  omega

theorem operand (h : level.Bounded depth) :
    Yields (.operand level) fun e => e.weight 1 0 < depth + 1 := by
  refine .after _ fun token => ?_
  cases Grammar.standard.operand token.kind with
  | none => exact .fail _ _
  | some form =>
    cases form with
    | primary => exact primary
    | unary => exact h.unary
    | group => exact h.group
    | cond => exact h.cond
    | func => exact h.func

theorem expression (h : level.Bounded depth) (power : BindingPower) :
    Yields (.expression level power) fun e => e.weight 1 0 < depth + 1 := by
  refine h.operand.bind fun left first => ?_
  refine .repeatWhile (Rule.continues power) _ (fun left first => ?_) first
  exact .after _ fun operator => h.binary first _

/-! ## Statements -/

theorem binding (h : level.Bounded depth) :
    Yields (.binding level) fun s => s.weight 1 0 < depth := by
  refine .after _ fun token => .after _ fun _ => .after _ fun name => .after _ fun _ => ?_
  exact .after _ fun _ => (h.expr .lowest).bind fun value lt => .after _ fun _ => .pure lt

theorem returning (h : level.Bounded depth) :
    Yields (.returning level) fun s => s.weight 1 0 < depth := by
  refine .after _ fun token => .after _ fun _ => ?_
  exact (h.expr .lowest).bind fun value lt => .after _ fun _ => .pure lt

theorem expressionStatement (h : level.Bounded depth) :
    Yields (.expressionStatement level) fun s => s.weight 1 0 < depth := by
  refine .after _ fun token => ?_
  exact (h.expr .lowest).bind fun value lt => .after _ fun _ => .pure lt

theorem statement (h : level.Bounded depth) :
    Yields (.statement level) fun s => s.weight 1 0 < depth := by
  refine .after _ fun token => ?_
  cases Grammar.standard.statement token.kind with
  | none => exact h.expressionStatement
  | some form =>
    cases form with
    | bind => exact h.binding
    | ret => exact h.returning

/-- That holds of all statements that are read, whatever recovery passes over. -/
theorem statements (h : level.Bounded depth) (p : Parser) :
    ∀ s ∈ (p.statements level).1, s.weight 1 0 < depth := by
  fun_induction Parser.statements level p with
  | case1 => simp
  | case2 p ends statement q tried rest r eq ih =>
    rw [eq] at ih
    exact List.forall_mem_cons.mpr ⟨h.statement.of_ok tried, ih⟩
  | case3 p ends d q tried ih => exact ih

theorem block_above (h : level.Bounded depth) :
    Yields (.block level) fun b => b.weight 1 0 < depth + 1 :=
  fun p _ => weightOf_lt (h.statements p.advance.openBlock)

/-- **What is read at a level is not as heavy as the level is deep.** -/
theorem of (depth : Nat) : (Level.of depth).Bounded depth := by
  induction depth with
  | zero => exact ⟨fun _ => .after _ fun _ => .fail _ _, .after _ fun _ => .fail _ _⟩
  | succ depth ih => exact ⟨fun power => (ih.expression power).nested, ih.block_above.nested⟩

end Level.Bounded

/-! ## Programs -/

/-- **Nesting bounds trees.** Whatever the text, on a path in the program that was read there are at
most `maxDepth` expressions and blocks, if steps into left operands of operators do not count. So
there are no more than that and the number of such steps. -/
theorem nesting_bounds_height (text : String) (file : Option String) :
    ∀ node ∈ (parse text file).program.nodes,
      node.weight 1 0 + 1 ≤ maxDepth ∧ node.height ≤ maxDepth + node.weight 0 1 := by
  intro node mem
  let start := (Parser.ofText text file).note (.started (Parser.ofText text file).position.file)
  obtain ⟨s, hs, inside⟩ := exists_mem_nodes mem
  have lt : s.weight 1 0 < maxDepth := (Level.Bounded.of maxDepth).statements start s hs
  have le := s.weight_le_of_mem 1 0 inside
  have height := node.height_le
  omega

/-- Operators in a row, inside of one another, and before an operand. -/
theorem nesting_bounds_height_operators :
    ∃ node ∈ (parse "1 + 2 * -3 + 4" none).program.nodes, node.height = 5 ∧ node.weight 1 0 = 3 ∧
      node.weight 0 1 = 2 ∧ node.weight 1 0 + 1 ≤ maxDepth ∧
      node.height ≤ maxDepth + node.weight 0 1 := by
  have found : ∃ node ∈ (parse "1 + 2 * -3 + 4" none).program.nodes,
      node.height = 5 ∧ node.weight 1 0 = 3 ∧ node.weight 0 1 = 2 := by decide +kernel
  obtain ⟨node, mem, height, down, left⟩ := found
  exact ⟨node, mem, height, down, left, nesting_bounds_height _ none node mem⟩

/-- The number of nodes on a path is not bounded by the nesting: a sum of 257 ones is accepted. -/
theorem sum_higher_than_nesting :
    ∃ token tree, (parse (sumOfOnes 256) none).program = ⟨[.expr token tree]⟩ ∧
      (parse (sumOfOnes 256) none).diagnostics = [] ∧ 2 * maxDepth < (Node.expr tree).height := by
  obtain ⟨token, tree, program, diagnostics, height⟩ := parse_sumOfOnes 256 none
  exact ⟨token, tree, program, diagnostics, by rw [height]; decide⟩

end Monkey
