import Monkey.CommandLine.Elapsed
import Monkey.CommandLine.Response

/-!
# Answering a command line

Arguments are read as options; then the input that the options name is read and, if the answer tells
it, the time of the parse is taken. How all that is done is a parameter here. A program does it by
actions of the system, and with functions of fixed surroundings an answer is a function of the
arguments.
-/

namespace Monkey.CommandLine

variable {m : Type → Type} [Monad m]

/-- A way to read arguments: as options, or as a request that the reader answers by itself, which is
how it treats one for help and arguments that it does not understand. -/
abbrev ArgumentReader := List String → Except Response Options

/-- The bytes of an input, where `standard` reads standard input and `file` reads a file. -/
def Input.bytesBy (standard : m ByteArray) (file : String → m ByteArray) : Input → m ByteArray
  | .text source => return source.toUTF8
  | .file path => file path
  | .standard => standard

/-- The answer to some arguments, where `read` reads an input and `time` takes the nanoseconds that
the parse of an input under a name lasts. -/
def answerBy (reader : ArgumentReader) (read : Input → m (Except ReadError String))
    (time : Except ReadError String → String → m Nat) (arguments : List String) : m Response := do
  match reader arguments with
  | .error response => return response
  | .ok options =>
    let source ← read options.input
    let elapsed ← if options.verbose then time source options.input.name else pure 0
    return options.response source (elapsedText elapsed)

end Monkey.CommandLine
