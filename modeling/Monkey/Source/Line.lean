import Monkey.Text.Utf8

/-!
# Lines of a source

A line runs to the next line feed and keeps it; the last line has none, and may be empty.
`lineAt?` finds the line of a byte offset. The end of the text belongs to its last line, so what
goes wrong at the end of input has a line to be shown in.

Results:
* `flatten_splitLines`: the lines of a text, put together, are the text.
* `lineAt?_eq_none_iff`: an offset has a line unless it is beyond the end.
-/

namespace Monkey

/-- The lines of a text, each but the last with its line feed. -/
def splitLines : List Char → List (List Char)
  | [] => [[]]
  | '\n' :: rest => ['\n'] :: splitLines rest
  | c :: rest =>
    match splitLines rest with
    | [] => [[c]]
    | line :: lines => (c :: line) :: lines

/-- The number of bytes of some characters. -/
def byteWidth : List Char → Nat
  | [] => 0
  | c :: rest => c.utf8Size + byteWidth rest

/-- A line, counted from 1, and an offset into it. -/
structure LineAt where
  number : Nat
  text : String
  offset : Nat
deriving DecidableEq, Repr

/-- The line of an offset among lines of which the first has the given number. -/
def findLine? (number : Nat) : List (List Char) → Nat → Option LineAt
  | [], _ => none
  | [line], offset =>
    if offset ≤ byteWidth line then some ⟨number, String.ofList line, offset⟩ else none
  | line :: next :: lines, offset =>
    if offset < byteWidth line then some ⟨number, String.ofList line, offset⟩
    else findLine? (number + 1) (next :: lines) (offset - byteWidth line)

/-- The line of a byte offset, none beyond the end of the text. -/
def lineAt? (source : String) (offset : Nat) : Option LineAt :=
  findLine? 1 (splitLines source.toList) offset

theorem splitLines_ne_nil (text : List Char) : splitLines text ≠ [] := by
  fun_cases splitLines text <;> simp_all

theorem flatten_splitLines (text : List Char) : (splitLines text).flatten = text := by
  fun_induction splitLines text <;> simp_all

theorem byteWidth_append (a b : List Char) : byteWidth (a ++ b) = byteWidth a + byteWidth b := by
  induction a with
  | nil => simp [byteWidth]
  | cons c rest ih => simp [byteWidth, ih, Nat.add_assoc]

theorem findLine?_eq_none_iff (number : Nat) {lines : List (List Char)} (h : lines ≠ [])
    (offset : Nat) : findLine? number lines offset = none ↔ byteWidth lines.flatten < offset := by
  fun_induction findLine? number lines offset with
  | case1 => exact absurd rfl h
  | case2 => simp_all
  | case3 => simp_all
  | case4 => simp_all [byteWidth_append]; omega
  | case5 number line next lines offset far ih =>
    rw [ih (by simp)]
    simp only [List.flatten_cons, byteWidth_append]
    omega

theorem lineAt?_eq_none_iff (source : String) (offset : Nat) :
    lineAt? source offset = none ↔ byteWidth source.toList < offset := by
  rw [lineAt?, findLine?_eq_none_iff _ (splitLines_ne_nil _), flatten_splitLines]

end Monkey
