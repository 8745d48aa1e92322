import Monkey.Grammar.BindingPower
import Monkey.Token.Kind

/-!
# The grammar as a table

What the grammar does with a token depends on the kind alone: which statement the kind begins, which
operand of an expression it begins, and whether it is an operator between two operands. `Grammar` is
that table, and `Grammar.standard` is the language.

Results:
* `Grammar.registered_eq_standard`: the language is the table of its entries, made one by one.
* `Grammar.not_lt_power_eof`: no operator is the end of input.
* `OperandForm.begins_of_operand`, `StatementForm.begins_of_statement`: what a form begins with.
-/

namespace Monkey

/-- The statements that begin with a word of their own. Any other statement is an expression. -/
inductive StatementForm where
  | bind | ret
deriving DecidableEq, Repr, Inhabited

/-- The ways to begin an expression. -/
inductive OperandForm where
  | primary | unary | group | cond | func
deriving DecidableEq, Repr, Inhabited

/-- What each kind of token begins, and how tightly it binds between two operands. -/
structure Grammar where
  statement : Kind → Option StatementForm
  operand : Kind → Option OperandForm
  operator : Kind → Option BindingPower

namespace Grammar

/-- The table with no entry. -/
def empty : Grammar :=
  ⟨fun _ => none, fun _ => none, fun _ => none⟩

/-- Lets a kind begin a statement. -/
def withStatement (grammar : Grammar) (kind : Kind) (form : StatementForm) : Grammar :=
  { grammar with statement := fun k => if k = kind then some form else grammar.statement k }

/-- Lets a kind begin an operand. -/
def withOperand (grammar : Grammar) (kind : Kind) (form : OperandForm) : Grammar :=
  { grammar with operand := fun k => if k = kind then some form else grammar.operand k }

/-- Makes a kind an operator between two operands. -/
def withOperator (grammar : Grammar) (kind : Kind) (power : BindingPower) : Grammar :=
  { grammar with operator := fun k => if k = kind then some power else grammar.operator k }

/-- How tightly a kind binds to the operand before it, `lowest` if it is no operator. -/
def power (grammar : Grammar) (kind : Kind) : BindingPower :=
  (grammar.operator kind).getD .lowest

/-- The language: four levels of operators, all of them left-associative. -/
def standard : Grammar where
  statement
    | .kwLet => some .bind
    | .kwReturn => some .ret
    | _ => none
  operand
    | .ident | .int | .kwTrue | .kwFalse => some .primary
    | .bang | .minus => some .unary
    | .lparen => some .group
    | .kwIf => some .cond
    | .kwFn => some .func
    | _ => none
  operator
    | .eq | .notEq => some .equals
    | .lt | .gt => some .lessGreater
    | .plus | .minus => some .sum
    | .asterisk | .slash => some .product
    | _ => none

/-- The table with the entries of the language, made one by one. -/
def registered : Grammar :=
  empty
    |>.withOperator .eq .equals |>.withOperator .notEq .equals
    |>.withOperator .lt .lessGreater |>.withOperator .gt .lessGreater
    |>.withOperator .plus .sum |>.withOperator .minus .sum
    |>.withOperator .asterisk .product |>.withOperator .slash .product
    |>.withOperand .ident .primary |>.withOperand .int .primary
    |>.withOperand .kwTrue .primary |>.withOperand .kwFalse .primary
    |>.withOperand .bang .unary |>.withOperand .minus .unary
    |>.withOperand .lparen .group |>.withOperand .kwIf .cond |>.withOperand .kwFn .func
    |>.withStatement .kwLet .bind |>.withStatement .kwReturn .ret

/-- **The language is the table of its entries.** No entry is overwritten by a later one, and a kind
without an entry has none. -/
theorem registered_eq_standard : registered = standard := by
  have statement : registered.statement = standard.statement := by
    funext kind
    cases kind <;> rfl
  have operand : registered.operand = standard.operand := by
    funext kind
    cases kind <;> rfl
  have operator : registered.operator = standard.operator := by
    funext kind
    cases kind <;> rfl
  exact congr (congr (congrArg Grammar.mk statement) operand) operator

/-- Nothing binds to the end of input. -/
theorem not_lt_power_eof (power : BindingPower) : ¬ power < standard.power .eof :=
  BindingPower.not_lt_lowest power

end Grammar

/-- How an operand that is not a single token begins. -/
def OperandForm.begins : OperandForm → Kind → Prop
  | .primary, _ | .unary, _ => True
  | .group, kind => kind = .lparen
  | .cond, kind => kind = .kwIf
  | .func, kind => kind = .kwFn

theorem OperandForm.begins_of_operand {form : OperandForm} {kind : Kind}
    (h : Grammar.standard.operand kind = some form) : form.begins kind := by
  cases kind <;> cases h <;> first | rfl | trivial

/-- How a statement that is no expression begins. -/
def StatementForm.begins : StatementForm → Kind → Prop
  | .bind, kind => kind = .kwLet
  | .ret, kind => kind = .kwReturn

theorem StatementForm.begins_of_statement {form : StatementForm} {kind : Kind}
    (h : Grammar.standard.statement kind = some form) : form.begins kind := by
  cases kind <;> cases h <;> rfl

end Monkey
