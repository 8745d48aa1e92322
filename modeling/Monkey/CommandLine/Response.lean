import Monkey.CommandLine.Input
import Monkey.Diagnostic.Report
import Monkey.Parser.Program
import Monkey.Program.Printer

/-!
# What the command answers

A response is an exit code and what is written to the two output streams. Code 0 says that the text
was read without a diagnostic, or its tokens listed; code 1 that it could not be read or has
diagnostics. A program is printed only if nothing is wrong with it. Otherwise all messages are written,
and after them all reports.

A report that needs too wide a row breaks the program off where it should be written. Then the code is
101, and the errors are those written so far. The notice of the runtime about its own end, which
follows them, is not modelled.
-/

namespace Monkey.CommandLine

/-- An exit code and what is written to standard output and standard error. -/
structure Response where
  code : Nat
  output : String
  errors : String
deriving DecidableEq, Repr, Inhabited

/-- Lines, each with its line feed. -/
def lines (texts : List String) : String :=
  String.join (texts.map (· ++ "\n"))

/-- The answer to an input that cannot be read. -/
def ReadError.response (error : ReadError) : Response :=
  ⟨1, "", "Error: could not read input: " ++ error.text ++ "\n"⟩

/-- The tokens of a text, one a line. -/
def listTokens (source name : String) : Response :=
  ⟨0, lines ((tokenize source (some name)).map (·.describe)), ""⟩

/-- What a parse reports of itself, with the time it took. -/
def record (parsed : Parsed) (elapsed : String) : String :=
  lines (listing .debug parsed.events ++ ["[INFO] Parsed in " ++ elapsed])

/-- Reports one after another, up to the first that does not come about, and whether they all do. -/
def reports (source : String) : List Diagnostic → String × Bool
  | [] => ("", true)
  | diagnostic :: rest =>
    match diagnostic.report? source with
    | none => ("", false)
    | some report =>
      let (more, complete) := reports source rest
      (report ++ more, complete)

/-- The answer to a text with diagnostics: what is logged, all messages, and after them the reports.
The code says whether the reports were completed. -/
def complaint (log source : String) (diagnostics : List Diagnostic) : Response :=
  let (shown, complete) := reports source diagnostics
  ⟨if complete then 1 else 101, "", log ++ (lines (diagnostics.map (·.message)) ++ shown)⟩

/-- The answer under some options, once the input is read or not and the time of the parse is
known. -/
def Options.response (options : Options) (input : Except ReadError String) (elapsed : String) :
    Response :=
  match input with
  | .error error => error.response
  | .ok source =>
    if options.tokens then listTokens source options.input.name
    else
      let parsed := parse source (some options.input.name)
      let log := if options.verbose then record parsed elapsed else ""
      if parsed.diagnostics.isEmpty then ⟨0, parsed.program.text ++ "\n", log⟩
      else complaint log source parsed.diagnostics

end Monkey.CommandLine
