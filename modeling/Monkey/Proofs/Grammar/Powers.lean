import Monkey.Proofs.Grammar.Derivation

/-!
# Binding powers and levels of operators

The parser compares binding powers where the grammar has levels. An expression in which every
operator binds tighter than a power is one of the level above that power, and the loop over the
operators that bind tighter is one loop after another, the tighter operators first.

Results:
* `Rule.continues_eq`: an operator goes on at a power if it is of its level or goes on at the next.
* `Rule.expression_eq_bind`: an expression is a tighter one and the operators of its level.
* `Derives.not_continues`: after an expression no operator comes that would extend it.
-/

namespace Monkey

namespace BindingPower

/-- The level of the operators just above a power. -/
def tier : BindingPower → Tier
  | lowest => .equality
  | equals => .comparison
  | lessGreater => .sum
  | sum => .product
  | product | unary => .operand

/-- The power above a power, as far as operators go. -/
def next : BindingPower → BindingPower
  | lowest => equals
  | equals => lessGreater
  | lessGreater => sum
  | sum | product => product
  | unary => unary

theorem tier_next (power : BindingPower) : power.next.tier = power.tier.tighter := by
  cases power <;> rfl

theorem le_next (power : BindingPower) : power ≤ power.next := by
  cases power <;> decide

/-- What holds of operands, and of a level if of the next, holds of every level. -/
theorem tier_induction {motive : BindingPower → Prop}
    (operand : ∀ power : BindingPower, power.tier = .operand → motive power)
    (level : ∀ power : BindingPower, power.tier ≠ .operand → motive power.next → motive power)
    (power : BindingPower) : motive power := by
  have sum : motive .sum := level _ (by decide) (operand .product rfl)
  have lessGreater : motive .lessGreater := level _ (by decide) sum
  have equals : motive .equals := level _ (by decide) lessGreater
  cases power with
  | lowest => exact level _ (by decide) equals
  | equals => exact equals
  | lessGreater => exact lessGreater
  | sum => exact sum
  | product => exact operand _ rfl
  | unary => exact operand _ rfl

/-- An operator of the level above a power has the next power. -/
theorem power_of_operator {power : BindingPower} {kind : Kind}
    (h : power.tier.operators kind = true) : Grammar.standard.power kind = power.next := by
  cases power <;> cases kind <;> first
    | rfl
    | exact absurd h (by decide)

end BindingPower

namespace Rule

variable {power : BindingPower} {kind : Kind}

/-- An operator goes on at a power if it is of the level above it or goes on at the next power. -/
theorem continues_eq (power : BindingPower) (kind : Kind) :
    continues power kind = (power.tier.operators kind || continues power.next kind) := by
  cases power <;> cases kind <;> decide

/-- Nothing binds tighter than the operators of the tightest level. -/
theorem continues_operand (h : power.tier = .operand) (kind : Kind) :
    continues power kind = false := by
  cases power <;> cases kind <;> first
    | decide
    | cases h

theorem continues_mono {tighter : BindingPower} (le : power ≤ tighter)
    (h : continues tighter kind = true) : continues power kind = true := by
  simp only [continues, bne_iff_ne, ne_eq, Bool.and_eq_true, decide_eq_true_eq,
    BindingPower.lt_iff] at h ⊢
  exact ⟨h.1, Nat.lt_of_le_of_lt le h.2⟩

/-! ## Loops one after another -/

theorem run_operators (level : Level) (power : BindingPower) (left : Expr) (p : Parser) :
    (operators level power left).run p = repeatFrom (continues power) (continues_eof power)
      (fun left => do binary level left (Grammar.standard.power (← current).kind)) left p := rfl

/-- The loop at a power is the loop at a tighter one, and then at the power itself. -/
theorem operators_eq_bind (level : Level) {tighter : BindingPower} (le : power ≤ tighter)
    (left : Expr) :
    operators level power left = operators level tighter left >>= operators level power := by
  refine ext fun p => ?_
  simp only [run_bind, run_operators]
  generalize (fun left => do
    binary level left (Grammar.standard.power (← current).kind) : Expr → Rule Expr) = step
  fun_induction repeatFrom (continues tighter) (continues_eof tighter) step left p with
  | case1 left p more tree p' taken ih =>
    rw [repeatFrom_of_ok _ (continues_mono le more) taken, ih]
  | case2 left p more d p' taken =>
    rw [repeatFrom_of_error _ (continues_mono le more) taken]
  | case3 left p done => rfl

/-- An expression is one of a tighter level and the operators after it. -/
theorem expression_eq_bind (level : Level) (power : BindingPower) :
    expression level power = expression level power.next >>= operators level power := by
  unfold expression
  rw [bind_assoc]
  congr 1
  funext left
  exact operators_eq_bind level power.le_next left

/-- At the tightest level an expression is an operand. -/
theorem expression_operand (level : Level) (h : power.tier = .operand) :
    expression level power = operand level := by
  have none : operators level power = pure := by
    funext left
    refine ext fun p => repeatFrom_of_not (continues_eof power) ?_
    rw [continues_operand h]
    exact Bool.false_ne_true
  rw [expression, none, bind_pure]

end Rule

/-! ## What follows an expression -/

/-- What a phrase has after it: no operator that would extend it. -/
def Phrase.Stops (power : BindingPower) : Phrase → List Token → List Token → Prop
  | .expr tier _, _, rest =>
    power.tier = tier → Rule.continues power (lookahead rest) = false
  | .chain tier _ _, tokens, rest =>
    power.tier = tier → Rule.continues power.next (lookahead tokens) = false →
      Rule.continues power (lookahead rest) = false
  | _, _, _ => True

namespace Derives

variable {skipped : Scope → List Token → List Token → Prop} {depth : Nat} {phrase : Phrase}
  {tokens rest : List Token}

theorem stops (h : Derives skipped depth phrase tokens rest) (power : BindingPower) :
    phrase.Stops power tokens rest := by
  induction h generalizing power with
  | tier binary first more ih ih' =>
    rintro rfl
    exact ih' power rfl (ih power.next power.tier_next)
  | stop last =>
    rintro rfl tighter
    rw [Rule.continues_eq, last, tighter]
    rfl
  | step kind operand more ih ih' =>
    rintro rfl tighter
    exact ih' power rfl (ih power.next power.tier_next)
  | ident | int | truth | falsity | unary | group | cond | condElse | func =>
    exact fun h => Rule.continues_operand h _
  | closed | unclosed | bind | ret | expr | nil | cons | skip => trivial

/-- After an expression no operator comes that would extend it. -/
theorem not_continues {power : BindingPower} {tree : Expr}
    (h : Derives skipped depth (.expr power.tier tree) tokens rest) :
    Rule.continues power (lookahead rest) = false :=
  h.stops power rfl

end Derives

end Monkey
