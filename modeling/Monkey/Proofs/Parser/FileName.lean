import Monkey.Proofs.Parser.Layout

/-!
# The name of a text

Every token and every diagnostic carries the name of its text. Nothing is decided by it: under another
name the tokens, the program and the diagnostics are the same, with the other name in their positions.

Results:
* `tokenize_inFile`: the tokens of a text under a name.
* `parse_inFile`: its program and its diagnostics.
-/

namespace Monkey

/-- The same place in a text of another name. -/
def Position.inFile (name : String) (position : Position) : Position :=
  ⟨position.offset, name⟩

/-- The same token in a text of another name. -/
def Token.inFile (name : String) (token : Token) : Token :=
  token.place (.inFile name)

/-- The same diagnostic about a text of another name. -/
def Diagnostic.inFile (name : String) (diagnostic : Diagnostic) : Diagnostic :=
  ⟨diagnostic.cause, diagnostic.position.inFile name⟩

variable (text : String) (file : Option String) (name : String)

theorem Lexer.placed_inFile : Placed (.inFile name) (ofText text file) (ofText text (some name)) where
  rest := rfl
  position _ := rfl

/-- The tokens of a text under another name. -/
theorem Lexer.tokens_inFile :
    (ofText text (some name)).tokens = (ofText text file).tokens.map (.inFile name) :=
  (placed_inFile text file name).tokens

theorem tokenize_inFile (zero_free : 0 ∉ Text.utf8 text) :
    tokenize text (some name) = (tokenize text file).map (.inFile name) := by
  rw [Lexer.tokenize_eq zero_free, Lexer.tokenize_eq zero_free, List.map_append,
    Lexer.tokens_inFile text file, (Lexer.placed_inFile text file name).finish]
  rfl

/-- The tokens and positions of a text, under another name. -/
def Replacement.inFile : Replacement where
  token := .inFile name
  position := .inFile name
  kind_token _ := rfl
  value_token _ := rfl
  start_token _ := rfl

/-- The tokens and positions as they are. -/
def Replacement.same : Replacement where
  token := id
  position := id
  kind_token _ := rfl
  value_token _ := rfl
  start_token _ := rfl

/-- **A parse under another name** differs by the name only. -/
theorem parse_inFile :
    (parse text (some name)).program = (parse text file).program.relabel (.inFile name) ∧
      (parse text (some name)).diagnostics = (parse text file).diagnostics.map (.inFile name) := by
  obtain ⟨program, diagnostics⟩ := (Replacement.inFile name).statements text file
    (Lexer.ofText text (some name)).finish
    (congrArg Token.endOfInput (Lexer.placed_inFile text file name).finish).symm
  obtain ⟨program', diagnostics'⟩ := Replacement.same.statements text (some name)
    (Lexer.ofText text (some name)).finish rfl
  have tokens : (Lexer.ofText text file).tokens.map (Replacement.inFile name).token =
      (Lexer.ofText text (some name)).tokens.map Replacement.same.token :=
    (Lexer.tokens_inFile text file name).symm.trans (List.map_id _).symm
  rw [tokens] at program diagnostics
  have same : (parse text (some name)).program.relabel Replacement.same.token =
      (parse text (some name)).program :=
    congrArg Program.mk (relabelStatements_id _)
  rw [same] at program'
  exact ⟨congrArg Program.mk (program'.symm.trans program),
    (List.map_id _).symm.trans (diagnostics'.symm.trans diagnostics)⟩

end Monkey
