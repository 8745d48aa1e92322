/-!
# Decimal numbers

`decimal` writes a natural number and `ofDecimal` reads one; leading zeros do not count.
-/

namespace Monkey.Text

/-- A natural number in decimal digits. -/
def decimal (n : Nat) : String :=
  String.ofList (Nat.toDigits 10 n)

/-- The number that decimal digits stand for. -/
def ofDecimal (digits : String) : Nat :=
  Nat.ofDigitChars 10 digits.toList 0

end Monkey.Text
