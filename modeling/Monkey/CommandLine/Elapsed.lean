import Monkey.Text.Decimal

/-!
# Spans of time in words

A span of nanoseconds is written in the largest unit that gives it an integer part, with the rest as
decimals and no zeros after them.
-/

namespace Monkey.CommandLine

/-- A part of a unit as decimals, none if there is nothing to write. -/
def decimals (part places : Nat) : String :=
  let digits := (Text.decimal part).toList
  let padded := List.replicate (places - digits.length) '0' ++ digits
  let shown := (padded.reverse.dropWhile (· == '0')).reverse
  if shown.isEmpty then "" else "." ++ String.ofList shown

/-- Nanoseconds in a unit that holds so many of them, with the rest in as many decimals as that
number has zeros. -/
def inUnit (nanoseconds unit places : Nat) (name : String) : String :=
  Text.decimal (nanoseconds / unit) ++ decimals (nanoseconds % unit) places ++ name

/-- A span of time in words. -/
def elapsedText (nanoseconds : Nat) : String :=
  if 1000000000 ≤ nanoseconds then inUnit nanoseconds 1000000000 9 "s"
  else if 1000000 ≤ nanoseconds then inUnit nanoseconds 1000000 6 "ms"
  else if 1000 ≤ nanoseconds then inUnit nanoseconds 1000 3 "µs"
  else inUnit nanoseconds 1 0 "ns"

end Monkey.CommandLine
