import Monkey.Program.Printer
import Monkey.Proofs.Program.Nodes

/-!
# Programs that are printed as they are read

The text of a program has parentheses around every operator with its operands, and blanks where
words would run together. `Printable` is the class of programs for which that is enough: names,
numbers, truth values and operators, each agreeing with its token, in `let` and `return` statements
and at most one expression statement, which has to be the last, since nothing ends it. `words` are
the words that the text of such a program is made of.

Results:
* `Expr.Printable.spelled`, `Stmt.Printable.spelled`: a printed text spells these words.
* `Program.Printable.spelled`: so does the text of a program.
-/

namespace Monkey

/-! ## Printable programs -/

/-- Names, numbers, truth values and operators that agree with their tokens, with at most `bound`
operators on the way to an operand. -/
inductive Expr.Printable : Nat → Expr → Prop
  | ident {bound : Nat} {name : Ident} (agrees : name.Agrees) : Printable bound (.ident name)
  | int {bound : Nat} {token : Token} {value : Int} (agrees : (Node.expr (.int token value)).Agrees) :
      Printable bound (.int token value)
  | bool {bound : Nat} {token : Token} {value : Bool}
      (agrees : (Node.expr (.bool token value)).Agrees) : Printable bound (.bool token value)
  | unary {bound : Nat} {token : Token} {operator : String} {operand : Expr}
      (agrees : (Node.expr (.unary token operator operand)).Agrees)
      (inner : Printable bound operand) : Printable (bound + 1) (.unary token operator operand)
  | binary {bound : Nat} {token : Token} {left right : Expr} {operator : String}
      (agrees : (Node.expr (.binary token left operator right)).Agrees)
      (first : Printable bound left) (second : Printable bound right) :
      Printable (bound + 1) (.binary token left operator right)

/-- The most operators on the way to an operand, so that no text nests too deep. -/
def maxOperators : Nat := 63

/-- A statement that agrees with its tokens, of a printable expression. -/
def Stmt.Printable : Stmt → Prop
  | .bind token name value =>
    (Node.statement (.bind token name value)).Agrees ∧ name.Agrees ∧ value.Printable maxOperators
  | .ret token value => (Node.statement (.ret token value)).Agrees ∧ value.Printable maxOperators
  | .expr _ expression => expression.Printable maxOperators

/-- Whether a statement is an expression. -/
def Stmt.isExpr : Stmt → Bool
  | .expr _ _ => true
  | _ => false

/-- Printable statements, of which only the last may be an expression. -/
structure Program.Printable (program : Program) : Prop where
  each : ∀ s ∈ program.statements, s.Printable
  last : ∀ s ∈ program.statements.dropLast, s.isExpr = false

/-! ## The words of a text -/

/-- The words that a printable expression is written with. -/
def Expr.words : Expr → List (Kind × String)
  | .ident name => [name.token.said]
  | .int token _ | .bool token _ => [token.said]
  | .unary token _ operand => (.lparen, "(") :: token.said :: (operand.words ++ [(.rparen, ")")])
  | .binary token left _ right =>
    (.lparen, "(") :: (left.words ++ token.said :: (right.words ++ [(.rparen, ")")]))
  | .cond _ _ _ _ | .func _ _ _ => []

/-- The words that a printable statement is written with. -/
def Stmt.words : Stmt → List (Kind × String)
  | .bind token name value =>
    token.said :: name.token.said :: (.assign, "=") :: (value.words ++ [(.semicolon, ";")])
  | .ret token value => token.said :: (value.words ++ [(.semicolon, ";")])
  | .expr _ expression => expression.words

/-- The words of a program. -/
def Program.words (program : Program) : List (Kind × String) :=
  program.statements.flatMap Stmt.words

/-! ## Words of nodes -/

theorem Ident.Agrees.isWord {name : Ident} (h : name.Agrees) : IsWord name.token.said where
  isLexeme := by
    rw [Token.said, h.kind, ← h.value]
    refine .name (fun nil => h.some (utf8_eq_nil nil)) h.letters fun entry listed same => ?_
    exact h.free entry listed (Text.utf8_injective same)
  ascii := by
    rw [Token.said, ← h.value]
    exact fun b hb => isLetter_ascii (h.letters b hb)
  not_eof eof := by cases h.kind.symm.trans eof

theorem Node.isWord_of_int {token : Token} {value : Int}
    (h : (Node.expr (.int token value)).Agrees) : IsWord token.said where
  isLexeme := by
    rw [Token.said, h.1]
    exact .digits (fun nil => h.2.1 (utf8_eq_nil nil)) h.2.2.1
  ascii b hb := isDigit_ascii (h.2.2.1 b hb)
  not_eof eof := by cases h.1.symm.trans eof

theorem Node.isWord_of_bool {token : Token} {value : Bool}
    (h : (Node.expr (.bool token value)).Agrees) : IsWord token.said := by
  have said : token.said = if value then (.kwTrue, "true") else (.kwFalse, "false") := h
  rw [said]
  cases value
  · exact isWord_spelling rfl
  · exact isWord_spelling rfl

/-- The operators before an operand are one byte each. -/
theorem unaryOperators_spelling : ∀ word ∈ unaryOperators, word.1.spelling? = some word.2 ∧
    ∃ byte, Text.utf8 word.2 = [byte] ∧ isLetter byte = false ∧ isDigit byte = false := by
  intro word listed
  simp only [unaryOperators, List.mem_cons, List.not_mem_nil, or_false] at listed
  rcases listed with rfl | rfl
  · exact ⟨rfl, _, rfl, by decide, by decide⟩
  · exact ⟨rfl, _, rfl, by decide, by decide⟩

theorem binaryOperators_spelling : ∀ word ∈ binaryOperators, word.1.spelling? = some word.2 := by
  decide

/-! ## Texts of expressions -/

/-- No expression begins with an equals sign. -/
theorem Expr.Printable.head_ne {bound : Nat} {e : Expr} (h : e.Printable bound)
    (rest : List UInt8) : ∀ b ∈ (Text.utf8 e.text ++ rest).head?, b ≠ '='.toUInt8 := by
  have of_class {p : UInt8 → Bool} {text : String} (some : text ≠ "")
      (all : ∀ b ∈ Text.utf8 text, p b = true) (equal : p '='.toUInt8 = false) :
      ∀ b ∈ (Text.utf8 text ++ rest).head?, b ≠ '='.toUInt8 := by
    obtain ⟨byte, tail, eq⟩ := List.exists_cons_of_ne_nil fun nil => some (utf8_eq_nil nil)
    rw [eq] at all ⊢
    rintro b ⟨⟩ rfl
    rw [all _ List.mem_cons_self] at equal
    cases equal
  have of_paren (text : String) :
      ∀ b ∈ (Text.utf8 ("(" ++ text) ++ rest).head?, b ≠ '='.toUInt8 := by
    rw [Text.utf8_append]
    rintro b ⟨⟩
    decide
  cases h with
  | ident agrees => exact of_class agrees.some agrees.letters (by decide)
  | int agrees => exact of_class agrees.2.1 agrees.2.2.1 (by decide)
  | @bool _ token value agrees =>
    have said : token.said = if value then (.kwTrue, "true") else (.kwFalse, "false") := agrees
    have value_eq : token.value = if value then "true" else "false" := by
      have := congrArg Prod.snd said
      rw [apply_ite Prod.snd] at this
      exact this
    rw [text, value_eq]
    cases value
    · exact of_class (p := isLetter) (by decide) (List.all_eq_true.mp (by decide)) (by decide)
    · exact of_class (p := isLetter) (by decide) (List.all_eq_true.mp (by decide)) (by decide)
  | unary =>
    rw [text, String.append_assoc, String.append_assoc]
    exact of_paren _
  | binary =>
    simp only [text, String.append_assoc]
    exact of_paren _

/-- A symbol that begins no operator is a word, whatever follows. -/
theorem Spelled.symbol (kind : Kind) (text : String) {byte : UInt8} {words : List (Kind × String)}
    {rest : List UInt8} (only : kind.spelling? = some text) (one : Text.utf8 text = [byte])
    (symbol : isLetter byte = false ∧ isDigit byte = false ∧
      ¬ (byte = '='.toUInt8 ∨ byte = '!'.toUInt8)) (more : Spelled words rest) :
    Spelled ((kind, text) :: words) (Text.utf8 text ++ rest) := by
  refine .word (isWord_spelling only) ?_ more
  rw [one]
  exact .of_symbol symbol.1 symbol.2.1 fun h => absurd h symbol.2.2

/-- **The text of an expression spells its words.** -/
theorem Expr.Printable.spelled {bound : Nat} {e : Expr} (h : e.Printable bound)
    {words : List (Kind × String)} {rest : List UInt8} (separates : Separates rest)
    (more : Spelled words rest) :
    Spelled (e.words ++ words) (Text.utf8 e.text ++ rest) := by
  have closes (words : List (Kind × String)) (rest : List UInt8) (more : Spelled words rest) :
      Separates (Text.utf8 ")" ++ rest) ∧
        Spelled ((.rparen, ")") :: words) (Text.utf8 ")" ++ rest) := by
    refine ⟨?_, .symbol .rparen ")" rfl rfl (by decide) more⟩
    rintro b ⟨⟩
    decide
  induction h generalizing words rest with
  | ident agrees =>
    have isWord := agrees.isWord
    rw [text, agrees.value]
    exact .word isWord (.of_separates separates isWord.isLexeme.ne_nil) more
  | int agrees =>
    have isWord := Node.isWord_of_int agrees
    exact .word isWord (.of_separates separates isWord.isLexeme.ne_nil) more
  | bool agrees =>
    have isWord := Node.isWord_of_bool agrees
    exact .word isWord (.of_separates separates isWord.isLexeme.ne_nil) more
  | @unary _ token operator operand agrees inner ih =>
    obtain ⟨rfl, listed⟩ := agrees
    obtain ⟨only, byte, one, letter, digit⟩ := unaryOperators_spelling _ listed
    obtain ⟨separates, closing⟩ := closes words rest more
    have apart : Apart (Text.utf8 token.said.2)
        (Text.utf8 operand.text ++ (Text.utf8 ")" ++ rest)) := by
      rw [one]
      exact .of_symbol letter digit fun _ => inner.head_ne _
    have whole : Spelled _ _ := .symbol .lparen "(" rfl rfl (by decide)
      (.word (isWord_spelling only) apart (ih separates closing))
    simpa [Expr.words, text, Text.utf8_append, Token.said] using whole
  | @binary _ token left right operator agrees first second ih ih' =>
    obtain ⟨rfl, listed⟩ := agrees
    obtain ⟨separates, closing⟩ := closes words rest more
    have blank : isBlank 0x20 = true := by decide
    have before (bytes : List UInt8) : Separates (0x20 :: bytes) := by
      rintro b ⟨⟩
      decide
    have apart (bytes : List UInt8) : Apart (Text.utf8 token.said.2) (0x20 :: bytes) :=
      .of_blank (by rintro b ⟨⟩; exact blank)
    have operator := Spelled.word (isWord_spelling (binaryOperators_spelling _ listed)) (apart _)
      ((ih' separates closing).blank blank)
    have whole : Spelled _ _ := .symbol .lparen "(" rfl rfl (by decide)
      (ih (before _) (operator.blank blank))
    have space : Text.utf8 " " = [0x20] := by decide
    simpa [Expr.words, text, Text.utf8_append, Token.said, space] using whole

/-! ## Texts of programs -/

/-- A word with a blank after it. -/
theorem Spelled.wordBlank {word : Kind × String} {words : List (Kind × String)} {rest : List UInt8}
    (isWord : IsWord word) (more : Spelled words rest) :
    Spelled (word :: words) (Text.utf8 word.2 ++ 0x20 :: rest) := by
  refine .word isWord (.of_blank ?_) (more.blank (by decide))
  rintro b ⟨⟩
  decide

/-- **The text of a statement spells its words**, if nothing follows an expression. -/
theorem Stmt.Printable.spelled {s : Stmt} (h : s.Printable) {words : List (Kind × String)}
    {rest : List UInt8} (ends : s.isExpr = true → rest = []) (more : Spelled words rest) :
    Spelled (s.words ++ words) (Text.utf8 s.text ++ rest) := by
  have space : Text.utf8 " " = [0x20] := by decide
  have closing : Spelled ((.semicolon, ";") :: words) (Text.utf8 ";" ++ rest) :=
    .symbol .semicolon ";" rfl rfl (by decide) more
  have separates : Separates (Text.utf8 ";" ++ rest) := by
    rintro b ⟨⟩
    decide
  cases s with
  | bind token name value =>
    obtain ⟨said, named, printable⟩ := h
    have word : IsWord token.said := (show token.said = (.kwLet, "let") from said) ▸
      isWord_spelling rfl
    have assign : IsWord (.assign, "=") := isWord_spelling rfl
    have whole := Spelled.wordBlank word (.wordBlank named.isWord
      (.wordBlank assign (printable.spelled separates closing)))
    have equals : Text.utf8 " = " = 0x20 :: (Text.utf8 "=" ++ [0x20]) := by decide
    simpa [Stmt.words, text, Text.utf8_append, Token.said, space, equals, named.value] using whole
  | ret token value =>
    obtain ⟨said, printable⟩ := h
    have word : IsWord token.said := (show token.said = (.kwReturn, "return") from said) ▸
      isWord_spelling rfl
    have whole := Spelled.wordBlank word (printable.spelled separates closing)
    simpa [Stmt.words, text, Text.utf8_append, Token.said, space] using whole
  | expr token expression =>
    obtain rfl := ends rfl
    exact Expr.Printable.spelled h (by simp [Separates]) more

/-- **The text of a program spells its words.** -/
theorem Program.Printable.spelled {program : Program} (h : program.Printable) :
    Spelled program.words (Text.utf8 program.text) := by
  obtain ⟨statements⟩ := program
  obtain ⟨each, last⟩ := h
  change Spelled (statements.flatMap Stmt.words) (Text.utf8 (textOfStatements statements))
  induction statements with
  | nil => exact .nil (by simp [textOfStatements, Text.utf8])
  | cons s rest ih =>
    obtain ⟨first, each⟩ := List.forall_mem_cons.mp each
    rw [textOfStatements, Text.utf8_append, List.flatMap_cons]
    cases rest with
    | nil => exact first.spelled (fun _ => rfl) (ih each (by simp))
    | cons next rest =>
      rw [List.dropLast_cons_cons] at last
      obtain ⟨not_last, last⟩ := List.forall_mem_cons.mp last
      exact first.spelled (fun expr => absurd expr (by simp [not_last])) (ih each last)

end Monkey
