import Monkey.Program.Basic

/-!
# Equality of programs

Two programs are equal when they agree in every node, tokens and spans included. `same` compares
them; the results are the decidable equalities it gives.
-/

namespace Monkey

mutual

/-- Whether two expressions agree in every node. -/
def Expr.same : Expr → Expr → Bool
  | .ident a, .ident b => a == b
  | .int t a, .int u b => t == u && a == b
  | .bool t a, .bool u b => t == u && a == b
  | .unary t o a, .unary u p b => t == u && o == p && a.same b
  | .binary t a o b, .binary u c p d => t == u && o == p && a.same c && b.same d
  | .cond t a b none, .cond u d e none => t == u && a.same d && b.same e
  | .cond t a b (some c), .cond u d e (some f) => t == u && a.same d && b.same e && c.same f
  | .func t ps a, .func u qs b => t == u && ps == qs && a.same b
  | _, _ => false

/-- Whether two statements agree in every node. -/
def Stmt.same : Stmt → Stmt → Bool
  | .bind t n a, .bind u m b => t == u && n == m && a.same b
  | .ret t a, .ret u b => t == u && a.same b
  | .expr t a, .expr u b => t == u && a.same b
  | _, _ => false

/-- Whether two blocks agree in every node. -/
def Block.same : Block → Block → Bool
  | .mk t a, .mk u b => t == u && sameStatements a b

/-- Whether two lists of statements agree in every node. -/
def sameStatements : List Stmt → List Stmt → Bool
  | [], [] => true
  | a :: as, b :: bs => a.same b && sameStatements as bs
  | _, _ => false

end

mutual

theorem Expr.same_iff : ∀ a b : Expr, a.same b = true ↔ a = b
  | .ident _, b => by cases b <;> simp [Expr.same]
  | .int _ _, b => by cases b <;> simp [Expr.same]
  | .bool _ _, b => by cases b <;> simp [Expr.same]
  | .unary _ _ a, b => by cases b <;> simp [Expr.same, Expr.same_iff a, and_assoc]
  | .binary _ a _ c, b => by
    cases b <;> simp [Expr.same, Expr.same_iff a, Expr.same_iff c, and_assoc, and_left_comm]
  | .cond _ a c none, b => by
    rcases b with _ | _ | _ | _ | _ | ⟨_, _, _, _ | _⟩ | _ <;>
      simp [Expr.same, Expr.same_iff a, Block.same_iff c, and_assoc]
  | .cond _ a c (some d), b => by
    rcases b with _ | _ | _ | _ | _ | ⟨_, _, _, _ | _⟩ | _ <;>
      simp [Expr.same, Expr.same_iff a, Block.same_iff c, Block.same_iff d, and_assoc]
  | .func _ _ a, b => by cases b <;> simp [Expr.same, Block.same_iff a, and_assoc]

theorem Stmt.same_iff : ∀ a b : Stmt, a.same b = true ↔ a = b
  | .bind _ _ a, b => by cases b <;> simp [Stmt.same, Expr.same_iff a, and_assoc]
  | .ret _ a, b => by cases b <;> simp [Stmt.same, Expr.same_iff a]
  | .expr _ a, b => by cases b <;> simp [Stmt.same, Expr.same_iff a]

theorem Block.same_iff : ∀ a b : Block, a.same b = true ↔ a = b
  | .mk _ as, .mk _ bs => by simp [Block.same, sameStatements_iff as bs]

theorem sameStatements_iff : ∀ as bs : List Stmt, sameStatements as bs = true ↔ as = bs
  | [], bs => by cases bs <;> simp [sameStatements]
  | a :: as, [] => by simp [sameStatements]
  | a :: as, b :: bs => by simp [sameStatements, Stmt.same_iff a b, sameStatements_iff as bs]

end

instance : DecidableEq Expr := fun a b => decidable_of_iff _ (Expr.same_iff a b)
instance : DecidableEq Stmt := fun a b => decidable_of_iff _ (Stmt.same_iff a b)
instance : DecidableEq Block := fun a b => decidable_of_iff _ (Block.same_iff a b)
deriving instance DecidableEq for Program

end Monkey
