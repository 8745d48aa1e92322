/-!
# Binding powers

How tightly an operator holds its operands, lowest first. The order is that of `rank`.

Results:
* `BindingPower.lt_iff`: `a < b` says that `a` has the smaller rank.
* `BindingPower.not_lt_lowest`: nothing binds more loosely than `lowest`.
-/

namespace Monkey

/-- The strengths of binding. `lowest` belongs to what is no operator, `unary` to the operators
written before their operand. -/
inductive BindingPower where
  | lowest | equals | lessGreater | sum | product | unary
deriving DecidableEq, Repr, Inhabited

namespace BindingPower

/-- Every binding power, in order. -/
def all : List BindingPower :=
  [lowest, equals, lessGreater, sum, product, unary]

/-- How many binding powers are looser. -/
def rank : BindingPower → Nat
  | lowest => 0
  | equals => 1
  | lessGreater => 2
  | sum => 3
  | product => 4
  | unary => 5

instance : LT BindingPower := ⟨fun a b => a.rank < b.rank⟩
instance : LE BindingPower := ⟨fun a b => a.rank ≤ b.rank⟩
instance (a b : BindingPower) : Decidable (a < b) := inferInstanceAs (Decidable (a.rank < b.rank))
instance (a b : BindingPower) : Decidable (a ≤ b) := inferInstanceAs (Decidable (a.rank ≤ b.rank))

theorem lt_iff {a b : BindingPower} : a < b ↔ a.rank < b.rank := Iff.rfl

theorem not_lt_lowest (a : BindingPower) : ¬ a < lowest := by
  simp [lt_iff, rank]

end BindingPower

end Monkey
