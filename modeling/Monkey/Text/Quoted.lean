import Monkey.Text.Unprintable

/-!
# Quoted text

`quote` writes a text between double quotes so that its extent and every character of it can be
seen: the quote, the backslash and four controls have escapes of their own, any other character
that leaves no mark is written as its code point in lower-case hexadecimal, and all else stands as
it is.
-/

namespace Monkey.Text

/-- One character inside quotes. -/
def quoteChar (c : Char) : List Char :=
  match c with
  | '"' => ['\\', '"']
  | '\\' => ['\\', '\\']
  | '\n' => ['\\', 'n']
  | '\r' => ['\\', 'r']
  | '\t' => ['\\', 't']
  | '\x00' => ['\\', '0']
  | c =>
    if isPrintable c then [c]
    else ['\\', 'u', '\x7b'] ++ Nat.toDigits 16 c.toNat ++ ['\x7d']

/-- A text between double quotes. -/
def quote (text : String) : String :=
  String.ofList ('"' :: text.toList.flatMap quoteChar ++ ['"'])

end Monkey.Text
