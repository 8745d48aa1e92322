import Monkey.Proofs.Grammar.Completeness
import Monkey.Proofs.Program.Printable
import Monkey.Proofs.Program.Relabel

/-!
# What is printed is read back

The words of a printed program are a program of the grammar, of the same tree. Each operator stands
in parentheses with its operands, so it is the only one of its level there, and costs two levels of
nesting: one for the parentheses and one for an operand. So the parser, which reads what is derived,
gives the printed program back, but for spans and for the token of an expression statement, which
may be a parenthesis now.

Results:
* `Derives.expr_of_operand`, `expr_of_tier`: an expression is one of any looser level where no
  operator follows that would extend it.
* `Expr.Printable.derived`, `Stmt.Printable.derived`: tokens that say the words of a printable tree
  derive that tree.
* `text_faithful`: the text of a printable program is parsed without a diagnostic, and into that
  program.
-/

namespace Monkey

/-! ## Trees without spans -/

/-- The token without its span. -/
def Token.bare (token : Token) : Token := ⟨token.kind, token.value, ⟨.null, .null⟩⟩

theorem Token.value_bare (token : Token) : token.bare.value = token.value := rfl

theorem Token.kind_of_said {token : Token} {word : Kind × String} (said : token.said = word) :
    token.kind = word.1 :=
  congrArg Prod.fst said

theorem Token.value_of_said {token : Token} {word : Kind × String} (said : token.said = word) :
    token.value = word.2 :=
  congrArg Prod.snd said

theorem Token.bare_eq {t u : Token} (said : t.said = u.said) : t.bare = u.bare := by
  obtain ⟨kind, value⟩ := Prod.mk.inj said
  rw [bare, bare, kind, value]

/-- The statement without spans, and without the token of an expression statement. -/
def Stmt.core : Stmt → Stmt
  | .expr _ expression => .expr (.endOfInput .null) (expression.relabel Token.bare)
  | s => s.relabel Token.bare

/-- The program without spans, and without the tokens of expression statements. -/
def Program.core (program : Program) : Program := ⟨program.statements.map Stmt.core⟩

theorem Stmt.text_core (s : Stmt) : s.core.text = s.text := by
  cases s with
  | bind token name value => exact Stmt.text_relabel Token.value_bare (.bind token name value)
  | ret token value => exact Stmt.text_relabel Token.value_bare (.ret token value)
  | expr token expression => exact Expr.text_relabel Token.value_bare expression

theorem Program.text_core (program : Program) : program.core.text = program.text := by
  obtain ⟨statements⟩ := program
  change textOfStatements (statements.map Stmt.core) = textOfStatements statements
  induction statements with
  | nil => rfl
  | cons s rest ih => rw [List.map_cons, textOfStatements, textOfStatements, s.text_core, ih]

/-! ## Looser levels -/

namespace Derives

variable {depth : Nat} {tokens rest : List Token} {e : Expr}

/-- An operand is an expression of a level if no operator of it, or of a tighter one, follows. -/
theorem expr_of_operand {power : BindingPower} (h : Exactly depth (.expr .operand e) tokens rest)
    (none : Rule.continues power (lookahead rest) = false) :
    Exactly depth (.expr power.tier e) tokens rest := by
  induction power using BindingPower.tier_induction with
  | operand power tier =>
    rw [tier]
    exact h
  | level power binary ih =>
    rw [Rule.continues_eq, Bool.or_eq_false_iff] at none
    have inner := ih none.2
    rw [BindingPower.tier_next] at inner
    exact .tier binary inner (.stop none.1)

/-- An expression of a level is one of the loosest if no operator follows. -/
theorem expr_of_tier {tier : Tier} (h : Exactly depth (.expr tier e) tokens rest)
    (none : ∀ tier : Tier, tier.operators (lookahead rest) = false) :
    Exactly depth (.expr .equality e) tokens rest := by
  have looser (tier : Tier) (binary : tier ≠ .operand)
      (h : Exactly depth (.expr tier.tighter e) tokens rest) :
      Exactly depth (.expr tier e) tokens rest := .tier binary h (.stop (none tier))
  have of_comparison := looser .equality (by decide)
  have of_sum := of_comparison ∘ looser .comparison (by decide)
  have of_product := of_sum ∘ looser .sum (by decide)
  cases tier with
  | equality => exact h
  | comparison => exact of_comparison h
  | sum => exact of_sum h
  | product => exact of_product h
  | operand => exact of_product (looser .product (by decide) h)

end Derives

/-! ## Expressions -/

theorem kind_of_unaryOperators :
    ∀ word ∈ unaryOperators, word.1 = .bang ∨ word.1 = .minus := by
  decide

/-- A binary operator is of some level. -/
theorem exists_power_of_binaryOperators : ∀ word ∈ binaryOperators,
    ∃ power ∈ BindingPower.all, power.tier.operators word.1 = true := by
  decide

namespace Derives

variable {depth : Nat} {tokens middle later rest : List Token} {words : List (Kind × String)}

/-- An expression in parentheses is an operand. -/
theorem parenthesized {tier : Tier} {e : Expr} {opening : Token}
    (opens : opening.said = (.lparen, "(")) (inner : Exactly depth (.expr tier e) tokens middle)
    (said : middle.map Token.said = (.rparen, ")") :: words) :
    ∃ rest, Exactly (depth + 1) (.expr .operand e) (opening :: tokens) rest ∧
      rest.map Token.said = words := by
  obtain ⟨closing, rest, rfl, closes, said⟩ := List.map_eq_cons_iff.mp said
  have closes : closing.kind = .rparen := Token.kind_of_said closes
  refine ⟨rest, .group (Token.kind_of_said opens) (inner.expr_of_tier fun tier => ?_) closes, said⟩
  rw [lookahead, closes]
  cases tier <;> rfl

/-- A binary operator between two operands, where no other operator follows. -/
theorem operation {power : BindingPower} {operator : Token} {left right : Expr}
    (kind : power.tier.operators operator.kind = true)
    (first : Exactly (depth + 1) (.expr .operand left) tokens (operator :: later))
    (second : Exactly depth (.expr .operand right) later rest)
    (none : ∀ power, Rule.continues power (lookahead rest) = false) :
    Exactly (depth + 1) (.expr power.tier (.binary operator left operator.value right)) tokens
      rest := by
  have binary : power.tier ≠ .operand := fun operand => by
    rw [operand] at kind
    cases kind
  have ends : Rule.continues power.next (lookahead (operator :: later)) = false := by
    simp [Rule.continues, lookahead, BindingPower.power_of_operator kind, BindingPower.lt_iff]
  have first := first.expr_of_operand ends
  have second := second.expr_of_operand (none power.next)
  rw [BindingPower.tier_next] at first second
  have last := none power
  rw [Rule.continues_eq, Bool.or_eq_false_iff] at last
  exact .tier binary first (.step kind second (.stop last.1))

end Derives

/-- **Tokens that say the words of an expression derive it**, with two levels for each operator. -/
theorem Expr.Printable.derived {bound : Nat} {e : Expr} (h : e.Printable bound) (depth : Nat)
    (deep : 2 * bound ≤ depth) {tokens : List Token} {words : List (Kind × String)}
    (said : tokens.map Token.said = e.words ++ words) :
    ∃ e' rest, Derives.Exactly depth (.expr .operand e') tokens rest ∧
      rest.map Token.said = words ∧ e'.relabel Token.bare = e.relabel Token.bare := by
  induction h generalizing depth tokens words with
  | @ident _ name agrees =>
    obtain ⟨token, rest, rfl, same, tail⟩ := List.map_eq_cons_iff.mp said
    have kind : token.kind = .ident := (Token.kind_of_said same).trans agrees.kind
    have value : token.value = name.value := (Token.value_of_said same).trans agrees.value.symm
    refine ⟨_, rest, .ident kind, tail, ?_⟩
    rw [relabel, relabel, Ident.relabel, Ident.relabel, Ident.ofToken, Token.bare_eq same, value]
  | @int _ token value agrees =>
    obtain ⟨token', rest, rfl, same, tail⟩ := List.map_eq_cons_iff.mp said
    obtain ⟨kind, -, -, rfl, -, small⟩ := agrees
    have kind : token'.kind = .int := (Token.kind_of_said same).trans kind
    have value : token'.value = token.value := Token.value_of_said same
    refine ⟨_, rest, .int kind (value ▸ Int.ofNat_le.mp small), tail, ?_⟩
    rw [relabel, relabel, Token.bare_eq same, value]
  | @bool _ token value agrees =>
    obtain ⟨token', rest, rfl, same, tail⟩ := List.map_eq_cons_iff.mp said
    have kind := Token.kind_of_said (same.trans agrees)
    cases value with
    | true => exact ⟨_, rest, .truth kind, tail, by rw [relabel, relabel, Token.bare_eq same]⟩
    | false => exact ⟨_, rest, .falsity kind, tail, by rw [relabel, relabel, Token.bare_eq same]⟩
  | @unary bound token operator operand agrees inner ih =>
    obtain ⟨rfl, listed⟩ := agrees
    obtain ⟨depth, rfl⟩ : ∃ d, depth = d + 2 := ⟨depth - 2, by omega⟩
    simp only [Expr.words, List.cons_append, List.append_assoc, List.nil_append] at said
    obtain ⟨opening, _, rfl, opens, said⟩ := List.map_eq_cons_iff.mp said
    obtain ⟨sign, _, rfl, same, said⟩ := List.map_eq_cons_iff.mp said
    obtain ⟨operand', middle, inner, said, core⟩ := ih depth (by omega) said
    have kind : sign.kind = .bang ∨ sign.kind = .minus := kind_of_unaryOperators _ (same ▸ listed)
    have value : sign.value = token.value := Token.value_of_said same
    obtain ⟨rest, whole, tail⟩ := Derives.parenthesized opens (.unary kind inner) said
    refine ⟨_, rest, whole, tail, ?_⟩
    rw [relabel, relabel, core, Token.bare_eq same, value]
  | @binary bound token left right operator agrees first second ih ih' =>
    obtain ⟨rfl, listed⟩ := agrees
    obtain ⟨depth, rfl⟩ : ∃ d, depth = d + 2 := ⟨depth - 2, by omega⟩
    simp only [Expr.words, List.cons_append, List.append_assoc, List.nil_append] at said
    obtain ⟨opening, _, rfl, opens, said⟩ := List.map_eq_cons_iff.mp said
    obtain ⟨left', middle, first, said, core⟩ := ih (depth + 1) (by omega) said
    obtain ⟨sign, later, rfl, same, said⟩ := List.map_eq_cons_iff.mp said
    obtain ⟨right', after, second, said, core'⟩ := ih' depth (by omega) said
    obtain ⟨power, -, kind⟩ := exists_power_of_binaryOperators _ (same ▸ listed)
    have value : sign.value = token.value := Token.value_of_said same
    have none (power : BindingPower) : Rule.continues power (lookahead after) = false := by
      obtain ⟨closing, _, rfl, closes, -⟩ := List.map_eq_cons_iff.mp said
      have closes : closing.kind = .rparen := Token.kind_of_said closes
      rw [lookahead, closes]
      cases power <;> rfl
    obtain ⟨rest, whole, tail⟩ :=
      Derives.parenthesized opens (.operation kind first second none) said
    refine ⟨_, rest, whole, tail, ?_⟩
    rw [relabel, relabel, core, core', Token.bare_eq same, value]

/-! ## Statements -/

/-- The semicolon of a statement. -/
theorem exists_terminator {middle : List Token} {words : List (Kind × String)}
    (said : middle.map Token.said = (.semicolon, ";") :: words) :
    ∃ rest, Terminator middle rest ∧ rest.map Token.said = words := by
  obtain ⟨semicolon, rest, rfl, kind, tail⟩ := List.map_eq_cons_iff.mp said
  exact ⟨rest, .present (Token.kind_of_said kind), tail⟩

/-- The value of a statement, with no operator after it. -/
theorem Expr.Printable.derived_value {e : Expr} (h : e.Printable maxOperators) {tokens : List Token}
    {words : List (Kind × String)} (said : tokens.map Token.said = e.words ++ words)
    (none : ∀ word ∈ words.head?, Grammar.standard.operator word.1 = none) :
    ∃ e' rest, Derives.Exactly 127 (.expr .equality e') tokens rest ∧
      rest.map Token.said = words ∧ e'.relabel Token.bare = e.relabel Token.bare := by
  obtain ⟨e', rest, derived, tail, core⟩ := h.derived 127 (by decide) said
  refine ⟨e', rest, derived.expr_of_tier fun tier => ?_, tail, core⟩
  subst tail
  cases rest with
  | nil => cases tier <;> rfl
  | cons token rest =>
    have none : Grammar.standard.operator token.kind = .none := none token.said rfl
    rw [lookahead]
    cases tier <;> cases kind : token.kind <;> first
      | rfl
      | (rw [kind] at none; cases none)

/-- **Tokens that say the words of a statement derive it**, if nothing follows an expression. -/
theorem Stmt.Printable.derived {s : Stmt} (h : s.Printable) {tokens : List Token}
    {words : List (Kind × String)} (ends : s.isExpr = true → words = [])
    (said : tokens.map Token.said = s.words ++ words) :
    ∃ s' rest, Derives.Exactly maxDepth (.statement s') tokens rest ∧
      rest.map Token.said = words ∧ s'.core = s.core := by
  have semicolon : ∀ word ∈ ((.semicolon, ";") :: words : List (Kind × String)).head?,
      Grammar.standard.operator word.1 = none := by
    rintro word ⟨⟩
    rfl
  cases s with
  | bind token name value =>
    obtain ⟨agrees, named, printable⟩ := h
    simp only [Stmt.words, List.cons_append, List.append_assoc, List.nil_append] at said
    obtain ⟨word, _, rfl, same, said⟩ := List.map_eq_cons_iff.mp said
    obtain ⟨ident, _, rfl, same', said⟩ := List.map_eq_cons_iff.mp said
    obtain ⟨assign, _, rfl, assigned, said⟩ := List.map_eq_cons_iff.mp said
    obtain ⟨value', middle, inner, said, core⟩ := printable.derived_value said semicolon
    obtain ⟨rest, terminator, tail⟩ := exists_terminator said
    have kind : word.kind = .kwLet := Token.kind_of_said (same.trans agrees)
    have named' : ident.kind = .ident := (Token.kind_of_said same').trans named.kind
    have value_eq : ident.value = name.value :=
      (Token.value_of_said same').trans named.value.symm
    refine ⟨_, rest, .bind kind named' (Token.kind_of_said assigned) inner terminator, tail, ?_⟩
    rw [Stmt.core, Stmt.core, Stmt.relabel, Stmt.relabel, core, Token.bare_eq same, Ident.relabel,
      Ident.relabel, Ident.ofToken, Token.bare_eq same', value_eq]
    all_goals simp
  | ret token value =>
    obtain ⟨agrees, printable⟩ := h
    simp only [Stmt.words, List.cons_append, List.append_assoc, List.nil_append] at said
    obtain ⟨word, _, rfl, same, said⟩ := List.map_eq_cons_iff.mp said
    obtain ⟨value', middle, inner, said, core⟩ := printable.derived_value said semicolon
    obtain ⟨rest, terminator, tail⟩ := exists_terminator said
    have kind : word.kind = .kwReturn := Token.kind_of_said (same.trans agrees)
    refine ⟨_, rest, .ret kind inner terminator, tail, ?_⟩
    rw [Stmt.core, Stmt.core, Stmt.relabel, Stmt.relabel, core, Token.bare_eq same]
    all_goals simp
  | expr token expression =>
    obtain rfl := ends rfl
    obtain ⟨value', middle, inner, said, core⟩ := Expr.Printable.derived_value h said (by simp)
    obtain rfl : middle = [] := List.map_eq_nil_iff.mp said
    obtain ⟨first, rest, rfl⟩ : ∃ first rest, tokens = first :: rest := by
      refine List.exists_cons_of_ne_nil ?_
      rintro rfl
      exact inner.begins rfl
    exact ⟨_, [], .expr inner (.absent (by decide)), rfl, congrArg (Stmt.expr _) core⟩

/-! ## Programs -/

/-- **Tokens that say the words of a program derive it.** -/
theorem Program.Printable.derived {program : Program} (h : program.Printable)
    {tokens : List Token} (said : tokens.map Token.said = program.words) :
    ∃ program' : Program, program'.Derives maxDepth tokens ∧ program'.core = program.core := by
  obtain ⟨statements⟩ := program
  obtain ⟨each, last⟩ := h
  change tokens.map Token.said = statements.flatMap Stmt.words at said
  induction statements generalizing tokens with
  | nil =>
    obtain rfl : tokens = [] := List.map_eq_nil_iff.mp said
    exact ⟨⟨[]⟩, .nil, rfl⟩
  | cons s more ih =>
    obtain ⟨first, each⟩ := List.forall_mem_cons.mp each
    have ends : s.isExpr = true → more.flatMap Stmt.words = [] := fun expr => by
      cases more with
      | nil => rfl
      | cons => exact absurd expr (by simp [last s (by simp)])
    obtain ⟨s', middle, head, said, core⟩ := first.derived ends said
    obtain ⟨⟨more'⟩, derived, cores⟩ :=
      ih each (fun t ht => last t (by cases more <;> simp_all)) said
    refine ⟨⟨s' :: more'⟩, .cons head derived, ?_⟩
    have cores : more'.map Stmt.core = more.map Stmt.core := congrArg Program.statements cores
    rw [Program.core, Program.core, List.map_cons, List.map_cons, core, cores]

/-- A text that derives a program is parsed into it. -/
theorem Program.Derives.parse_eq {text : String} {file : Option String} {program : Program}
    (not_eof : ∀ t ∈ (Lexer.ofText text file).tokens, t.kind ≠ .eof)
    (h : program.Derives maxDepth (Lexer.ofText text file).tokens) :
    (parse text file).program = program ∧ (parse text file).diagnostics = [] := by
  let start := (Parser.ofText text file).note (.started (Parser.ofText text file).position.file)
  have before : start.Before (Lexer.ofText text file).finish (Lexer.ofText text file).tokens :=
    ⟨rfl, not_eof⟩
  obtain ⟨trees, none, -⟩ := Monkey.Derives.read h start before (by decide) fun q h _ => by
    simp [Parser.endsBody, h.kind, lookahead]
  exact ⟨congrArg Program.mk trees, congrArg Array.toList none⟩

/-- The text of a printable program is parsed into that program, but for its core. -/
theorem Program.Printable.parse_text {program : Program} (h : program.Printable)
    (file : Option String) :
    (parse program.text file).diagnostics = [] ∧
      (parse program.text file).program.core = program.core := by
  have said : (Lexer.ofText program.text file).tokens.map Token.said = program.words :=
    Lexer.said_tokens h.spelled _ rfl
  have not_eof : ∀ t ∈ (Lexer.ofText program.text file).tokens, t.kind ≠ .eof := fun t ht =>
    (h.spelled.isWord t.said (said ▸ List.mem_map_of_mem ht)).not_eof
  obtain ⟨program', derived, core⟩ := h.derived said
  obtain ⟨same, none⟩ := derived.parse_eq not_eof
  exact ⟨none, same ▸ core⟩

/-- **The canonical text is faithful.** The text of a printable program is parsed without a
diagnostic and gives the program back, but for spans and for the token of an expression statement.
So programs with the same text are the same but for these, and what is read is printed as it was. -/
theorem text_faithful (program : Program) (h : program.Printable) (file : Option String) :
    let parsed := parse program.text file
    parsed.diagnostics = [] ∧ parsed.program.core = program.core ∧
      parsed.program.text = program.text ∧
      ∀ other : Program, other.Printable → other.text = program.text → other.core = program.core := by
  intro parsed
  obtain ⟨none, core⟩ := h.parse_text file
  refine ⟨none, core, ?_, fun other h' same => ?_⟩
  · rw [← Program.text_core, core, Program.text_core]
  · rw [← core, ← (h'.parse_text file).2, same]

/-- A number with leading zeros, a prefix operator and an expression at the end. -/
theorem text_faithful_leading_zeros :
    let name : Ident := ⟨⟨.ident, "a", default⟩, "a"⟩
    let program : Program := ⟨[
      .bind ⟨.kwLet, "let", default⟩ name
        (.unary ⟨.minus, "-", default⟩ "-" (.int ⟨.int, "007", default⟩ 7)),
      .expr default (.binary ⟨.plus, "+", default⟩ (.ident name) "+"
        (.bool ⟨.kwTrue, "true", default⟩ true))]⟩
    program.Printable ∧ program.text = "let a = (-007);(a + true)" ∧
      (parse program.text none).diagnostics = [] ∧
      (parse program.text none).program.core = program.core ∧
      (parse program.text none).program.text = program.text := by
  intro name program
  have named : name.Agrees :=
    ⟨rfl, rfl, by decide, List.all_eq_true.mp (by decide), by decide⟩
  have number : Expr.Printable 62 (.int ⟨.int, "007", default⟩ 7) :=
    .int ⟨rfl, by decide, List.all_eq_true.mp (by decide), by decide, by decide, by decide⟩
  have printable : program.Printable := by
    refine ⟨?_, by decide⟩
    refine List.forall_mem_cons.mpr ⟨⟨rfl, named, .unary ⟨rfl, by decide⟩ number⟩, ?_⟩
    exact List.forall_mem_singleton.mpr
      (Expr.Printable.binary ⟨rfl, by decide⟩ (.ident named) (.bool rfl))
  obtain ⟨none, core, text, -⟩ := text_faithful program printable none
  exact ⟨printable, by decide +kernel, none, core, text⟩

end Monkey
