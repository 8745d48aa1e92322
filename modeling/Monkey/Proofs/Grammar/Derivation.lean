import Monkey.Parser.Program
import Monkey.Proofs.Parser.Standing

/-!
# The grammar of the language

The language without a parser: what the tokens of a program look like and which tree they stand for.
Binary operators are on four levels, each of them left-associative. A phrase is extended as far as it
goes: an operator that comes next is part of the expression before it, a semicolon part of the
statement. The number of a derivation bounds its nesting, a level for every expression of a
statement, of a condition or in parentheses, every operand of a prefix operator, every right operand
and every block.

`Derives` leaves open what may be skipped between statements. In the language it is nothing, and
`Program.Derives` is that; for texts with errors it is what recovery skips.
-/

namespace Monkey

/-! ## Levels of operators -/

/-- The levels of binary operators, the loosest first, and below them the operands. -/
inductive Tier where
  | equality | comparison | sum | product | operand
deriving DecidableEq, Repr

namespace Tier

/-- The operators of a level. -/
def operators : Tier → Kind → Bool
  | equality, .eq | equality, .notEq => true
  | comparison, .lt | comparison, .gt => true
  | sum, .plus | sum, .minus => true
  | product, .asterisk | product, .slash => true
  | _, _ => false

/-- The level of what stands between the operators of a level. -/
def tighter : Tier → Tier
  | equality => comparison
  | comparison => sum
  | sum => product
  | product | operand => operand

end Tier

/-! ## Phrases -/

/-- Where statements are listed: in a program or between braces. -/
inductive Scope where
  | program | block
deriving DecidableEq, Repr

/-- The parts of a program, with the trees they stand for. A `chain` is the operators of a level that
come after an expression `left`, and their right operands; with `left` it makes a tree. -/
inductive Phrase where
  | expr (tier : Tier) (tree : Expr)
  | chain (tier : Tier) (left tree : Expr)
  | block (tree : Block)
  | statement (tree : Stmt)
  | statements (scope : Scope) (trees : List Stmt)

/-- The end of a statement: a semicolon, if one is next. -/
inductive Terminator : List Token → List Token → Prop
  | present {semicolon : Token} {rest : List Token} (kind : semicolon.kind = .semicolon) :
      Terminator (semicolon :: rest) rest
  | absent {rest : List Token} (kind : lookahead rest ≠ .semicolon) : Terminator rest rest

/-- Any number of parameters, each after a comma. -/
inductive MoreParams : List Ident → List Token → List Token → Prop
  | nil {rest : List Token} : MoreParams [] rest rest
  | cons {comma name : Token} {names : List Ident} {tokens rest : List Token}
      (separator : comma.kind = .comma) (kind : name.kind = .ident)
      (more : MoreParams names tokens rest) :
      MoreParams (.ofToken name :: names) (comma :: name :: tokens) rest

/-- Parameters and the parenthesis that closes them. -/
inductive Params : List Ident → List Token → List Token → Prop
  | none {close : Token} {rest : List Token} (closes : close.kind = .rparen) :
      Params [] (close :: rest) rest
  | some {name close : Token} {names : List Ident} {tokens rest : List Token}
      (kind : name.kind = .ident) (more : MoreParams names tokens (close :: rest))
      (closes : close.kind = .rparen) : Params (.ofToken name :: names) (name :: tokens) rest

/-- `Derives skipped depth phrase tokens rest`: a phrase, nested no deeper than `depth`, stands at
the start of `tokens` and leaves `rest`. -/
inductive Derives (skipped : Scope → List Token → List Token → Prop) :
    Nat → Phrase → List Token → List Token → Prop
  | tier {depth : Nat} {tier : Tier} {left tree : Expr} {tokens middle rest : List Token}
      (binary : tier ≠ .operand)
      (first : Derives skipped depth (.expr tier.tighter left) tokens middle)
      (more : Derives skipped depth (.chain tier left tree) middle rest) :
      Derives skipped depth (.expr tier tree) tokens rest
  | stop {depth : Nat} {tier : Tier} {tree : Expr} {rest : List Token}
      (last : tier.operators (lookahead rest) = false) :
      Derives skipped depth (.chain tier tree tree) rest rest
  | step {depth : Nat} {tier : Tier} {operator : Token} {left right tree : Expr}
      {tokens middle rest : List Token} (kind : tier.operators operator.kind = true)
      (operand : Derives skipped depth (.expr tier.tighter right) tokens middle)
      (more : Derives skipped (depth + 1)
        (.chain tier (.binary operator left operator.value right) tree) middle rest) :
      Derives skipped (depth + 1) (.chain tier left tree) (operator :: tokens) rest
  | ident {depth : Nat} {token : Token} {rest : List Token} (kind : token.kind = .ident) :
      Derives skipped depth (.expr .operand (.ident (.ofToken token))) (token :: rest) rest
  | int {depth : Nat} {token : Token} {rest : List Token} (kind : token.kind = .int)
      (small : Text.ofDecimal token.value ≤ 9223372036854775807) :
      Derives skipped depth (.expr .operand (.int token (Text.ofDecimal token.value)))
        (token :: rest) rest
  | truth {depth : Nat} {token : Token} {rest : List Token} (kind : token.kind = .kwTrue) :
      Derives skipped depth (.expr .operand (.bool token true)) (token :: rest) rest
  | falsity {depth : Nat} {token : Token} {rest : List Token} (kind : token.kind = .kwFalse) :
      Derives skipped depth (.expr .operand (.bool token false)) (token :: rest) rest
  | unary {depth : Nat} {operator : Token} {tree : Expr} {tokens rest : List Token}
      (kind : operator.kind = .bang ∨ operator.kind = .minus)
      (operand : Derives skipped depth (.expr .operand tree) tokens rest) :
      Derives skipped (depth + 1) (.expr .operand (.unary operator operator.value tree))
        (operator :: tokens) rest
  | group {depth : Nat} {opening closing : Token} {tree : Expr} {tokens rest : List Token}
      (opens : opening.kind = .lparen)
      (inner : Derives skipped depth (.expr .equality tree) tokens (closing :: rest))
      (closes : closing.kind = .rparen) :
      Derives skipped (depth + 1) (.expr .operand tree) (opening :: tokens) rest
  | cond {depth : Nat} {token opening closing : Token} {condition : Expr} {consequence : Block}
      {tokens middle rest : List Token} (kind : token.kind = .kwIf)
      (opens : opening.kind = .lparen)
      (test : Derives skipped depth (.expr .equality condition) tokens (closing :: middle))
      (closes : closing.kind = .rparen)
      (body : Derives skipped depth (.block consequence) middle rest) :
      Derives skipped (depth + 1) (.expr .operand (.cond token condition consequence none))
        (token :: opening :: tokens) rest
  | condElse {depth : Nat} {token opening closing word : Token} {condition : Expr}
      {consequence alternative : Block} {tokens middle later rest : List Token}
      (kind : token.kind = .kwIf) (opens : opening.kind = .lparen)
      (test : Derives skipped depth (.expr .equality condition) tokens (closing :: middle))
      (closes : closing.kind = .rparen)
      (body : Derives skipped depth (.block consequence) middle (word :: later))
      (otherwise : word.kind = .kwElse)
      (other : Derives skipped depth (.block alternative) later rest) :
      Derives skipped (depth + 1)
        (.expr .operand (.cond token condition consequence (some alternative)))
        (token :: opening :: tokens) rest
  | func {depth : Nat} {token opening : Token} {names : List Ident} {tree : Block}
      {tokens middle rest : List Token} (kind : token.kind = .kwFn)
      (opens : opening.kind = .lparen) (params : Params names tokens middle)
      (body : Derives skipped depth (.block tree) middle rest) :
      Derives skipped (depth + 1) (.expr .operand (.func token names tree))
        (token :: opening :: tokens) rest
  | closed {depth : Nat} {opening closing : Token} {body : List Stmt} {tokens rest : List Token}
      (opens : opening.kind = .lbrace)
      (inner : Derives skipped depth (.statements .block body) tokens (closing :: rest))
      (closes : closing.kind = .rbrace) :
      Derives skipped depth (.block (.mk opening body)) (opening :: tokens) rest
  | unclosed {depth : Nat} {opening : Token} {body : List Stmt} {tokens : List Token}
      (opens : opening.kind = .lbrace)
      (inner : Derives skipped depth (.statements .block body) tokens []) :
      Derives skipped depth (.block (.mk opening body)) (opening :: tokens) []
  | bind {depth : Nat} {token name assign : Token} {value : Expr} {tokens middle rest : List Token}
      (kind : token.kind = .kwLet) (named : name.kind = .ident)
      (assigned : assign.kind = .assign)
      (inner : Derives skipped depth (.expr .equality value) tokens middle)
      (terminator : Terminator middle rest) :
      Derives skipped (depth + 1) (.statement (.bind token (.ofToken name) value))
        (token :: name :: assign :: tokens) rest
  | ret {depth : Nat} {token : Token} {value : Expr} {tokens middle rest : List Token}
      (kind : token.kind = .kwReturn)
      (inner : Derives skipped depth (.expr .equality value) tokens middle)
      (terminator : Terminator middle rest) :
      Derives skipped (depth + 1) (.statement (.ret token value)) (token :: tokens) rest
  | expr {depth : Nat} {token : Token} {value : Expr} {tokens middle rest : List Token}
      (inner : Derives skipped depth (.expr .equality value) (token :: tokens) middle)
      (terminator : Terminator middle rest) :
      Derives skipped (depth + 1) (.statement (.expr token value)) (token :: tokens) rest
  | nil {depth : Nat} {scope : Scope} {rest : List Token} :
      Derives skipped depth (.statements scope []) rest rest
  | cons {depth : Nat} {scope : Scope} {tree : Stmt} {trees : List Stmt}
      {tokens middle rest : List Token}
      (first : Derives skipped depth (.statement tree) tokens middle)
      (more : Derives skipped depth (.statements scope trees) middle rest) :
      Derives skipped depth (.statements scope (tree :: trees)) tokens rest
  | skip {depth : Nat} {scope : Scope} {trees : List Stmt} {tokens middle rest : List Token}
      (gap : skipped scope tokens middle)
      (more : Derives skipped depth (.statements scope trees) middle rest) :
      Derives skipped depth (.statements scope trees) tokens rest

/-- `tokens` are a program of the language, nested no deeper than `depth`. -/
def Program.Derives (depth : Nat) (program : Program) (tokens : List Token) : Prop :=
  Monkey.Derives (fun _ _ _ => False) depth (.statements .program program.statements) tokens []

end Monkey
