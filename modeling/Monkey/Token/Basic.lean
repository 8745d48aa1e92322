import Monkey.Source.Position
import Monkey.Token.Kind

/-!
# Tokens

A token is a kind, the text it was read from and the span it was read at. `Token.describe` is its
one-line form for listings: only the kinds whose text varies show it.
-/

namespace Monkey

/-- One token of a source. The value of an `eof` token is empty, and its span too. -/
structure Token where
  kind : Kind
  value : String
  span : Span
deriving DecidableEq, Repr, Inhabited

namespace Token

/-- The token that stands at the end of input. -/
def endOfInput (position : Position) : Token :=
  ⟨.eof, "", ⟨position, position⟩⟩

@[simp] theorem endOfInput_kind (position : Position) : (endOfInput position).kind = .eof := rfl

/-- The value, for the kinds that the value is not already clear from. -/
def shownValue (token : Token) : String :=
  match token.kind with
  | .ident | .int | .illegal => token.value
  | _ => ""

/-- One line for a listing of tokens: the kind, and the value in parentheses if it varies. -/
def describe (token : Token) : String :=
  token.kind.name ++ " (" ++ token.shownValue ++ ")"

/-- Kind and value, a line each, whatever the kind. -/
def display (token : Token) : String :=
  "Token \x7b\nkind: " ++ token.kind.name ++ ",\nvalue: " ++ token.value ++ "\x7d"

end Token

end Monkey
