import Monkey.Grammar.Table
import Monkey.Program.Equality
import Monkey.Proofs.Lexing.Spelling

/-!
# The nodes of a program

`nodes` lists the nodes of a tree in the order of the source, a binary expression between its
operands. Each node has a token, and what it keeps besides is what the token says: `Node.Agrees`. The
token of an expression statement is not its own but one that its expression begins with, so it is
left out of the `tokens` of a tree.

Results:
* `Token.Genuine`: a token that says a lexeme of its kind, as those of a text do.
* `Ident.agrees_ofToken`, `Node.agrees_int`, `agrees_bool`, `agrees_unary`, `agrees_binary`: a node
  that is read from a genuine token agrees with it.
-/

namespace Monkey

/-- A part of a program that keeps a token. -/
inductive Node where
  | ident (name : Ident)
  | expr (expression : Expr)
  | statement (statement : Stmt)
  | block (block : Block)
deriving DecidableEq

mutual

/-- The nodes of an expression. -/
def Expr.nodes : Expr → List Node
  | .ident name => [.ident name]
  | .int token value => [.expr (.int token value)]
  | .bool token value => [.expr (.bool token value)]
  | .unary token operator operand => .expr (.unary token operator operand) :: operand.nodes
  | .binary token left operator right =>
    left.nodes ++ .expr (.binary token left operator right) :: right.nodes
  | .cond token condition consequence none =>
    .expr (.cond token condition consequence none) :: (condition.nodes ++ consequence.nodes)
  | .cond token condition consequence (some alternative) =>
    .expr (.cond token condition consequence (some alternative)) ::
      (condition.nodes ++ (consequence.nodes ++ alternative.nodes))
  | .func token params body =>
    .expr (.func token params body) :: (params.map .ident ++ body.nodes)

/-- The nodes of a statement. -/
def Stmt.nodes : Stmt → List Node
  | .bind token name value => .statement (.bind token name value) :: .ident name :: value.nodes
  | .ret token value => .statement (.ret token value) :: value.nodes
  | .expr token expression => .statement (.expr token expression) :: expression.nodes

/-- The nodes of a block. -/
def Block.nodes : Block → List Node
  | .mk token body => .block (.mk token body) :: nodesOf body

/-- The nodes of a list of statements. -/
def nodesOf : List Stmt → List Node
  | [] => []
  | statement :: rest => statement.nodes ++ nodesOf rest

end

/-- The nodes of a program. -/
def Program.nodes (program : Program) : List Node := nodesOf program.statements

/-! ## Tokens of nodes -/

/-- The token that a node keeps. -/
def Node.token : Node → Token
  | .ident name => name.token
  | .expr e => e.token
  | .statement s => s.token
  | .block b => b.token

/-- Whether the token of a node stands for that node alone. -/
def Node.ownsToken : Node → Bool
  | .statement (.expr _ _) => false
  | _ => true

/-- The tokens of some nodes, each of them once. -/
def tokensOf (nodes : List Node) : List Token :=
  (nodes.filter Node.ownsToken).map Node.token

theorem tokensOf_append (a b : List Node) : tokensOf (a ++ b) = tokensOf a ++ tokensOf b := by
  simp [tokensOf]

theorem tokensOf_cons {node : Node} (owns : node.ownsToken = true) (nodes : List Node) :
    tokensOf (node :: nodes) = node.token :: tokensOf nodes := by
  simp [tokensOf, owns]

/-- The tokens of a program in the order of the source. -/
def Program.tokens (program : Program) : List Token := tokensOf program.nodes

/-! ## Agreement -/

/-- The operators before an operand. -/
def unaryOperators : List (Kind × String) := [(.bang, "!"), (.minus, "-")]

/-- The operators between two operands. -/
def binaryOperators : List (Kind × String) :=
  [(.eq, "=="), (.notEq, "!="), (.lt, "<"), (.gt, ">"), (.plus, "+"), (.minus, "-"),
    (.asterisk, "*"), (.slash, "/")]

/-- A name is the word that its token says, and no reserved word. -/
structure Ident.Agrees (name : Ident) : Prop where
  kind : name.token.kind = .ident
  value : name.value = name.token.value
  some : name.value ≠ ""
  letters : ∀ b ∈ Text.utf8 name.value, isLetter b = true
  free : ∀ entry ∈ Kind.keywords, entry.1 ≠ name.value

/-- A node is what its token says. -/
def Node.Agrees : Node → Prop
  | .ident name | .expr (.ident name) => name.Agrees
  | .expr (.int token value) =>
    token.kind = .int ∧ token.value ≠ "" ∧ (∀ b ∈ Text.utf8 token.value, isDigit b = true) ∧
      value = Text.ofDecimal token.value ∧ 0 ≤ value ∧ value ≤ 9223372036854775807
  | .expr (.bool token value) =>
    token.said = if value then (.kwTrue, "true") else (.kwFalse, "false")
  | .expr (.unary token operator _) => operator = token.value ∧ token.said ∈ unaryOperators
  | .expr (.binary token _ operator _) => operator = token.value ∧ token.said ∈ binaryOperators
  | .expr (.cond token _ _ _) => token.said = (.kwIf, "if")
  | .expr (.func token _ _) => token.said = (.kwFn, "fn")
  | .statement (.bind token _ _) => token.said = (.kwLet, "let")
  | .statement (.ret token _) => token.said = (.kwReturn, "return")
  | .statement (.expr _ _) => True
  | .block (.mk token _) => token.said = (.lbrace, "\x7b")

/-- A token that is its node's own is of a kind that has lexemes in ASCII. -/
theorem Node.Agrees.plain {node : Node} (h : node.Agrees) (owns : node.ownsToken = true) :
    node.token.kind ≠ .eof ∧ node.token.kind ≠ .illegal := by
  have of_kind {token : Token} {kind : Kind} (same : token.kind = kind)
      (plain : kind ≠ .eof ∧ kind ≠ .illegal) : token.kind ≠ .eof ∧ token.kind ≠ .illegal := by
    rwa [same]
  have of_said {token : Token} {word : Kind × String} (said : token.said = word)
      (plain : word.1 ≠ .eof ∧ word.1 ≠ .illegal) :
      token.kind ≠ .eof ∧ token.kind ≠ .illegal := of_kind (congrArg Prod.fst said) plain
  have unary : ∀ word ∈ unaryOperators, word.1 ≠ .eof ∧ word.1 ≠ .illegal := by decide
  have binary : ∀ word ∈ binaryOperators, word.1 ≠ .eof ∧ word.1 ≠ .illegal := by decide
  match node, h with
  | .ident _, h | .expr (.ident _), h => exact of_kind h.kind (by decide)
  | .expr (.int _ _), h => exact of_kind h.1 (by decide)
  | .expr (.bool _ true), h | .expr (.bool _ false), h => exact of_said h (by decide)
  | .expr (.unary _ _ _), h => exact unary _ h.2
  | .expr (.binary _ _ _ _), h => exact binary _ h.2
  | .expr (.cond _ _ _ _), h | .expr (.func _ _ _), h => exact of_said h (by decide)
  | .statement (.bind _ _ _), h | .statement (.ret _ _), h => exact of_said h (by decide)
  | .statement (.expr _ _), _ => cases owns
  | .block (.mk _ _), h => exact of_said h (by decide)

/-- The token says a lexeme of its kind, if it is of a kind that has some in ASCII. -/
def Token.Genuine (token : Token) : Prop :=
  token.kind ≠ .eof → token.kind ≠ .illegal → IsLexeme token.kind (Text.utf8 token.value)

section

variable {token : Token}

theorem Token.Genuine.isLexeme {kind : Kind} (h : token.Genuine) (same : token.kind = kind)
    (eof : kind ≠ .eof) (illegal : kind ≠ .illegal) : IsLexeme kind (Text.utf8 token.value) := by
  subst same
  exact h eof illegal

/-- A token of a kind that has one lexeme says it. -/
theorem Token.Genuine.said {kind : Kind} {text : String} (h : token.Genuine)
    (same : token.kind = kind) (only : kind.spelling? = some text) : token.said = (kind, text) := by
  have lexeme : IsLexeme kind (Text.utf8 token.value) := by
    refine h.isLexeme same ?_ ?_ <;>
      rintro rfl <;> cases only
  rw [Token.said, same, Text.utf8_injective (lexeme.eq_spelling only)]

theorem Ident.agrees_ofToken (h : token.Genuine) (kind : token.kind = .ident) :
    (Ident.ofToken token).Agrees := by
  have lexeme := h.isLexeme kind (by decide) (by decide)
  have some : token.value ≠ "" := fun nil => lexeme.ne_nil (by rw [nil]; rfl)
  generalize eq : Text.utf8 token.value = bytes at lexeme
  cases lexeme with
  | symbol listed =>
    have all : ∀ entry ∈ Kind.symbols, entry.2 ≠ .ident := by decide
    exact absurd rfl (all _ listed)
  | keyword listed =>
    have all : ∀ entry ∈ Kind.keywords, entry.2 ≠ .ident := by decide
    exact absurd rfl (all _ listed)
  | name _ letters free =>
    refine ⟨kind, rfl, some, ?_, fun entry listed same => free entry listed ?_⟩
    · change ∀ b ∈ Text.utf8 token.value, _
      rwa [eq]
    · rw [same, ← eq]
      rfl

namespace Node

theorem agrees_int (h : token.Genuine) (kind : token.kind = .int)
    (small : Text.ofDecimal token.value ≤ 9223372036854775807) :
    (Node.expr (.int token (Text.ofDecimal token.value))).Agrees := by
  have lexeme := h.isLexeme kind (by decide) (by decide)
  have some : token.value ≠ "" := fun nil => lexeme.ne_nil (by rw [nil]; rfl)
  refine ⟨kind, some, ?_, rfl, Int.natCast_nonneg _, Int.ofNat_le.mpr small⟩
  generalize Text.utf8 token.value = bytes at lexeme
  cases lexeme with
  | symbol listed =>
    have all : ∀ entry ∈ Kind.symbols, entry.2 ≠ .int := by decide
    exact absurd rfl (all _ listed)
  | keyword listed =>
    have all : ∀ entry ∈ Kind.keywords, entry.2 ≠ .int := by decide
    exact absurd rfl (all _ listed)
  | digits _ digits => exact digits

theorem agrees_unary (h : token.Genuine) (operand : Expr)
    (form : Grammar.standard.operand token.kind = some .unary) :
    (Node.expr (.unary token token.value operand)).Agrees := by
  refine ⟨rfl, ?_⟩
  cases kind : token.kind <;> rw [kind] at form <;> cases form
  · rw [h.said kind rfl]
    decide
  · rw [h.said kind rfl]
    decide

theorem agrees_binary (h : token.Genuine) (left right : Expr)
    (operator : Grammar.standard.operator token.kind ≠ none) :
    (Node.expr (.binary token left token.value right)).Agrees := by
  refine ⟨rfl, ?_⟩
  cases kind : token.kind <;> rw [kind] at operator <;> first
    | exact absurd rfl operator
    | (rw [h.said kind rfl]; decide)

end Node

end

end Monkey
