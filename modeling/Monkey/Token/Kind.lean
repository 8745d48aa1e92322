/-!
# Token kinds

A kind is what the grammar sees of a token. `Kind.name` is how messages write it: punctuation as
itself, every other kind as a word in capitals. The two tables say which single bytes and which
whole words have a kind of their own.
-/

namespace Monkey

/-- The kinds of token. `illegal` is a byte no token can start with, `eof` the end of input; the
`kw` kinds are the reserved words. -/
inductive Kind where
  | illegal | eof | ident | int
  | assign | plus | minus | bang | slash | asterisk
  | lt | gt | eq | notEq
  | comma | semicolon
  | lparen | rparen | lbrace | rbrace
  | kwFn | kwLet | kwTrue | kwFalse | kwIf | kwElse | kwReturn
deriving DecidableEq, Repr, Inhabited

namespace Kind

/-- How messages write a kind. -/
def name : Kind → String
  | illegal => "ILLEGAL"
  | eof => "EOF"
  | ident => "IDENT"
  | int => "INT"
  | assign => "="
  | plus => "+"
  | minus => "-"
  | bang => "!"
  | slash => "/"
  | asterisk => "*"
  | lt => "<"
  | gt => ">"
  | eq => "=="
  | notEq => "!="
  | comma => ","
  | semicolon => ";"
  | lparen => "("
  | rparen => ")"
  | lbrace => "\x7b"
  | rbrace => "\x7d"
  | kwFn => "FUNCTION"
  | kwLet => "LET"
  | kwTrue => "TRUE"
  | kwFalse => "FALSE"
  | kwIf => "IF"
  | kwElse => "ELSE"
  | kwReturn => "RETURN"

/-! ## Reserved words and punctuation -/

/-- The reserved words. -/
def keywords : List (String × Kind) :=
  [("let", kwLet), ("fn", kwFn), ("true", kwTrue), ("false", kwFalse), ("if", kwIf),
    ("else", kwElse), ("return", kwReturn)]

/-- The kind of a whole word: a reserved word's own, or `ident`. -/
def ofWord (word : String) : Kind :=
  (keywords.lookup word).getD ident

/-- The bytes that are a token by themselves. -/
def symbols : List (UInt8 × Kind) :=
  [('='.toUInt8, assign), (';'.toUInt8, semicolon), ('('.toUInt8, lparen),
    (')'.toUInt8, rparen), ('\x7b'.toUInt8, lbrace), ('\x7d'.toUInt8, rbrace),
    ('+'.toUInt8, plus), ('-'.toUInt8, minus), ('!'.toUInt8, bang), ('/'.toUInt8, slash),
    ('*'.toUInt8, asterisk), ('<'.toUInt8, lt), ('>'.toUInt8, gt), (','.toUInt8, comma)]

/-- The kind of a byte that is a token by itself. -/
def ofSymbol? (byte : UInt8) : Option Kind :=
  symbols.lookup byte

end Kind

end Monkey
