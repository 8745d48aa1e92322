import Monkey.Diagnostic.Basic
import Monkey.Source.Line
import Monkey.Text.Blank

/-!
# Reports

A report shows a diagnostic with the line it points into:

```
Error: UnexpectedToken (Expected `IDENT` here, found `=`)
-> shell
  |
1 | let = 5;
  | ----^
```

The line is shown without its leading spaces and tabs and without the blanks at its end, and a rule
of dashes leads to the byte in question, one dash a byte. A position beyond the end of the source
has no line, and its report ends after the name of the file.

The rule and the caret are laid out to a width that is known at run time only, and no row can be laid
out to more than `maxWidth` characters. Where more are asked for the program breaks off, and there is
no report.
-/

namespace Monkey

/-- Whether a character indents a line. -/
def isIndent (c : Char) : Bool :=
  c == ' ' || c == '\t'

/-- The greatest width that a row can be laid out to. -/
def maxWidth : Nat := 65535

/-- The bar that stands left of the lines of an excerpt, under a line number. Its width is some more
than the digits of a number of lines, which no text brings near `maxWidth`. -/
def gutter (number : Nat) : String :=
  String.ofList (List.replicate ((Text.decimal number).length + 1) ' ') ++ "|"

/-- A caret at the end of a row of dashes that is `width` characters wide, if a row can be. -/
def pointer? (width : Nat) : Option String :=
  if width ≤ maxWidth then some (String.ofList (List.replicate (width - 1) '-') ++ "^") else none

/-- A line of source between two lines that hold the bar, the second with the pointer. There is none
if more than 65534 bytes lie between the indentation and the offset. -/
def LineAt.excerpt? (line : LineAt) : Option String :=
  let text := line.text.toList
  let indent := (text.takeWhile isIndent).length
  (pointer? (line.offset - indent + 1)).map fun pointer =>
    gutter line.number ++ "\n" ++
      Text.decimal line.number ++ " | " ++ String.ofList (Text.trimEnd (text.drop indent)) ++ "\n" ++
      gutter line.number ++ " " ++ pointer ++ "\n"

/-- The excerpt for a byte of a source, empty beyond the end. -/
def excerptAt? (source : String) (offset : Nat) : Option String :=
  match lineAt? source offset with
  | none => some ""
  | some line => line.excerpt?

namespace Diagnostic

/-- The first line of a report. -/
def headline (diagnostic : Diagnostic) : String :=
  match diagnostic.cause.tip? with
  | none => "Error: " ++ diagnostic.cause.name ++ "\n"
  | some tip => "Error: " ++ diagnostic.cause.name ++ " (" ++ tip ++ ")\n"

/-- A report that holds an excerpt. -/
def reportWith (diagnostic : Diagnostic) (excerpt : String) : String :=
  diagnostic.headline ++ "-> " ++ diagnostic.position.file ++ "\n" ++ excerpt

/-- A diagnostic with the line of the source it points into, if that can be shown. -/
def report? (diagnostic : Diagnostic) (source : String) : Option String :=
  (excerptAt? source diagnostic.position.offset).map diagnostic.reportWith

end Diagnostic

end Monkey
