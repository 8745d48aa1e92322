import Monkey.Proofs.Grammar.Roundtrip
import Monkey.Proofs.Program.Height

/-!
# Operators in a row

The operators of a level that follow one another are read by one loop, so a row of any length is
nested no deeper than a single operator. But the tree leans to the left: an operator has all those
before it in its left operand. So programs of the language are as high as one likes, whatever bounds
their nesting.

Results:
* `Derives.additions`: a row of additions is derived with one level of nesting.
* `parse_sumOfOnes`: a sum of ones is read into a tree with all of its operators on one path.
-/

namespace Monkey

/-- Ones that are added. -/
def additions : Nat → String
  | 0 => ""
  | n + 1 => "+" ++ ("1" ++ additions n)

/-- The words of these additions. -/
def additionWords : Nat → List (Kind × String)
  | 0 => []
  | n + 1 => (.plus, "+") :: (.int, "1") :: additionWords n

/-- A one, and ones that are added to it. -/
def sumOfOnes (n : Nat) : String := "1" ++ additions n

/-! ## The words of a sum -/

theorem isDigit_one : ∀ b ∈ Text.utf8 "1", isDigit b = true := List.all_eq_true.mp (by decide)

theorem isWord_one : IsWord (.int, "1") where
  isLexeme := .digits (by decide) isDigit_one
  ascii b hb := isDigit_ascii (isDigit_one b hb)
  not_eof := by decide

theorem separates_additions (n : Nat) : Separates (Text.utf8 (additions n)) := by
  cases n with
  | zero =>
    rintro b ⟨⟩
  | succ n =>
    rw [additions, Text.utf8_append]
    rintro b ⟨⟩
    decide

/-- A one can stand before additions. -/
theorem Spelled.one {n : Nat} {words : List (Kind × String)}
    (more : Spelled words (Text.utf8 (additions n))) :
    Spelled ((.int, "1") :: words) (Text.utf8 "1" ++ Text.utf8 (additions n)) :=
  .word isWord_one (.of_separates (separates_additions n) (by decide)) more

theorem spelled_additions (n : Nat) : Spelled (additionWords n) (Text.utf8 (additions n)) := by
  induction n with
  | zero => exact .nil (List.forall_mem_nil _)
  | succ n ih =>
    rw [additions, Text.utf8_append, Text.utf8_append]
    exact .symbol .plus "+" rfl rfl (by decide) ih.one

theorem spelled_sumOfOnes (n : Nat) :
    Spelled ((.int, "1") :: additionWords n) (Text.utf8 (sumOfOnes n)) := by
  rw [sumOfOnes, Text.utf8_append]
  exact (spelled_additions n).one

/-! ## The tree of a sum -/

namespace Derives

variable {depth n : Nat} {tokens rest : List Token}

/-- A one is an operand of additions. -/
theorem one {token : Token} (said : token.said = (.int, "1"))
    (others : rest.map Token.said = additionWords n) :
    Exactly depth (.expr .product (.int token (Text.ofDecimal token.value))) (token :: rest)
      rest := by
  have small : Text.ofDecimal token.value ≤ 9223372036854775807 := by
    rw [Token.value_of_said said]
    decide
  refine .tier (by decide) (.int (Token.kind_of_said said) small) (.stop ?_)
  cases n with
  | zero =>
    obtain rfl := List.map_eq_nil_iff.mp others
    rfl
  | succ n =>
    obtain ⟨plus, later, rfl, same, -⟩ := List.map_eq_cons_iff.mp others
    rw [lookahead, Token.kind_of_said same]
    rfl

/-- **A row of additions needs one level of nesting**, and each of them makes the tree higher. -/
theorem additions (depth : Nat) (left : Expr) (said : tokens.map Token.said = additionWords n) :
    ∃ tree, Exactly (depth + 1) (.chain .sum left tree) tokens [] ∧
      tree.weight 1 1 = left.weight 1 1 + n := by
  induction n generalizing left tokens with
  | zero =>
    obtain rfl := List.map_eq_nil_iff.mp said
    exact ⟨left, .stop rfl, rfl⟩
  | succ n ih =>
    obtain ⟨plus, _, rfl, same, said⟩ := List.map_eq_cons_iff.mp said
    obtain ⟨one, rest, rfl, digit, said⟩ := List.map_eq_cons_iff.mp said
    have kind : Tier.sum.operators plus.kind = true := by
      rw [Token.kind_of_said same]
      rfl
    have operand : Exactly depth (.expr .product (.int one (Text.ofDecimal one.value)))
        (one :: rest) rest := .one digit said
    obtain ⟨tree, more, weight⟩ :=
      ih (.binary plus left plus.value (.int one (Text.ofDecimal one.value))) said
    refine ⟨tree, .step kind operand more, ?_⟩
    simp only [weight, Expr.weight]
    omega

end Derives

/-- **A sum of ones is read**, and all of its operators are on one path of its tree. -/
theorem parse_sumOfOnes (n : Nat) (file : Option String) :
    ∃ token tree, (parse (sumOfOnes n) file).program = ⟨[.expr token tree]⟩ ∧
      (parse (sumOfOnes n) file).diagnostics = [] ∧ (Node.expr tree).height = n + 1 := by
  have said := Lexer.said_tokens (spelled_sumOfOnes n) (.ofText (sumOfOnes n) file) rfl
  have not_eof : ∀ t ∈ (Lexer.ofText (sumOfOnes n) file).tokens, t.kind ≠ .eof := fun t ht =>
    ((spelled_sumOfOnes n).isWord t.said (said ▸ List.mem_map_of_mem ht)).not_eof
  obtain ⟨one, rest, eq, digit, said⟩ := List.map_eq_cons_iff.mp said
  obtain ⟨tree, chain, weight⟩ := Derives.additions 126
    (.int one (Text.ofDecimal one.value)) said
  have sum : Derives.Exactly 127 (.expr .equality tree) (one :: rest) [] :=
    .expr_of_tier (.tier (by decide) (.one digit said) chain) fun tier => by cases tier <;> rfl
  have program : Program.Derives maxDepth ⟨[.expr one tree]⟩ (one :: rest) :=
    .cons (.expr sum (.absent (by decide))) .nil
  obtain ⟨same, none⟩ := Program.Derives.parse_eq not_eof (eq ▸ program)
  refine ⟨one, tree, same, none, ?_⟩
  rw [Node.height, Node.weight, weight, Expr.weight, Nat.zero_add]

end Monkey
