import Monkey.CommandLine.Arguments

/-!
# The command

Reads the input that the arguments name and writes the response.
-/

namespace Monkey.CommandLine

/-- The number of an error of the system, which may come with its sign turned. -/
def systemCode (code : UInt32) : UInt32 :=
  if code < 0x80000000 then code else 0 - code

/-- The reading error that an error of the system stands for. -/
def ReadError.ofSystem : IO.Error → ReadError
  | .noFileOrDirectory _ _ _ => .notFound
  | .permissionDenied _ _ _ => .denied
  | .inappropriateType _ code details =>
    if systemCode code = 21 then .isDirectory
    else if systemCode code = 20 then .notDirectory
    else .other details
  | error => .other error.toString

/-- Everything that is left in a stream. -/
partial def readAll (stream : IO.FS.Stream) (bytes : ByteArray) : IO ByteArray := do
  let more ← stream.read 65536
  if more.isEmpty then return bytes else readAll stream (bytes ++ more)

/-- The bytes of an input. -/
def Input.bytes (input : Input) : IO ByteArray :=
  input.bytesBy (do readAll (← IO.getStdin) .empty) fun path => IO.FS.readBinFile path

/-- The text of an input. -/
def Input.read (input : Input) : IO (Except ReadError String) := do
  match ← input.bytes.toBaseIO with
  | .ok bytes => return decode bytes
  | .error error => return .error (.ofSystem error)

/-- How long a parse of a text takes, in nanoseconds. -/
def timeParse (source : Except ReadError String) (name : String) : IO Nat := do
  let start ← IO.monoNanosNow
  if let .ok text := source then
    if (parse text (some name)).events.isEmpty then return 0
  return (← IO.monoNanosNow) - start

/-- The response to some arguments. -/
def respond (arguments : List String) : IO Response :=
  answerBy readArguments Input.read timeParse arguments

end Monkey.CommandLine

/-- Answers a command line. -/
def main (arguments : List String) : IO UInt32 := do
  let response ← Monkey.CommandLine.respond arguments
  IO.print response.output
  IO.eprint response.errors
  return response.code.toUInt32
