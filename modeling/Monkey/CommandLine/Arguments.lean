import Monkey.CommandLine.Answer

/-!
# The arguments of the command

```
monkey-front [OPTIONS] [FILE]
  -e, --eval <EVAL>   read this text, not a file
      --tokens        list the tokens, do not parse
  -v, --verbose       report what the parser does
  -h, --help          print this help
  -V, --version       print the version
```

`readArguments` is the reader that the command is run with. It belongs to the outer layer: answers are
defined, and what is proved of them holds, for any reader.

Arguments are read from left to right. The value of an option stands in the same argument or in the
next one, which must not look like an option. Flags in one letter can share an argument. After `--`
nothing is an option. No option may be given twice, and a text excludes a file; that is judged at the
end, while every other fault stops the reading where it is found, and `--help` and `--version` stop it
with success. The wording of the help and of the faults is this reader's own.
-/

namespace Monkey.CommandLine

/-- What is wrong with the arguments. -/
inductive UsageError where
  | unknown (argument : String)
  | missingValue
  | needlessValue (option : String)
  | repeated (option : String)
  | extraFile (path : String)
  | emptyFile
  | textAndFile
deriving DecidableEq, Repr, Inhabited

/-- A usage error in words. -/
def UsageError.message : UsageError → String
  | unknown argument => "unknown argument " ++ argument
  | missingValue => "--eval needs a value"
  | needlessValue option => option ++ " takes no value"
  | repeated option => option ++ " is given twice"
  | extraFile path => "only one file can be read, not also " ++ path
  | emptyFile => "the name of the file is empty"
  | textAndFile => "a text and a file exclude each other"

/-- What ends the reading without options. -/
inductive Stop where
  | help
  | version
  | wrong (error : UsageError)
deriving DecidableEq, Repr, Inhabited

/-- What is answered where the reading ends without options. -/
def Stop.response : Stop → Response
  | help => ⟨0, lines [
      "Usage: monkey-front [OPTIONS] [FILE]",
      "",
      "Options:",
      "  -e, --eval <EVAL>  Read this text, not a file",
      "      --tokens       List the tokens, do not parse",
      "  -v, --verbose      Report what the parser does",
      "  -h, --help         Print this help",
      "  -V, --version      Print the version"], ""⟩
  | version => ⟨0, "monkey-front 0.1.0\n", ""⟩
  | wrong error => ⟨2, "", "error: " ++ error.message ++ "\n"⟩

namespace Options

/-- No option. -/
def none : Options := ⟨.none, .none, false, false⟩

/-- Adds the text to be read. -/
def setEval (options : Options) (text : String) : Except Stop Options :=
  if options.eval.isSome then .error (.wrong (.repeated "--eval"))
  else .ok { options with eval := some text }

/-- Adds the file to be read. -/
def setFile (options : Options) (path : String) : Except Stop Options :=
  if options.file.isSome then .error (.wrong (.extraFile path))
  else if path.isEmpty then .error (.wrong .emptyFile)
  else .ok { options with file := some path }

/-- Asks for the tokens. -/
def setTokens (options : Options) : Except Stop Options :=
  if options.tokens then .error (.wrong (.repeated "--tokens"))
  else .ok { options with tokens := true }

/-- Asks for a record of the parse. -/
def setVerbose (options : Options) : Except Stop Options :=
  if options.verbose then .error (.wrong (.repeated "--verbose"))
  else .ok { options with verbose := true }

/-- The options, unless they exclude each other. -/
def checked (options : Options) : Except Stop Options :=
  if options.eval.isSome && options.file.isSome then .error (.wrong .textAndFile) else .ok options

end Options

/-! ## One argument -/

/-- What follows from an argument: the options to go on with, and whether a value is due. -/
inductive Reading where
  | next (options : Options)
  | value (options : Options)

/-- Reads the letters after a single dash. The letters after `e` are its value, as they stand or
after an equals sign. -/
def readLetters (options : Options) : List Char → Except Stop Reading
  | [] => .ok (.next options)
  | 'v' :: rest => do readLetters (← options.setVerbose) rest
  | 'V' :: _ => .error .version
  | 'h' :: _ => .error .help
  | 'e' :: [] => .ok (.value options)
  | 'e' :: '=' :: text => do return .next (← options.setEval (String.ofList text))
  | 'e' :: text => do return .next (← options.setEval (String.ofList text))
  | letter :: _ => .error (.wrong (.unknown (String.ofList ['-', letter])))

/-- Reads a word after two dashes, with the value after the equals sign if there is one. -/
def readWord (options : Options) (word : String) (value : Option String) : Except Stop Reading :=
  match word, value with
  | "eval", some text => do return .next (← options.setEval text)
  | "eval", none => .ok (.value options)
  | "tokens", none => do return .next (← options.setTokens)
  | "verbose", none => do return .next (← options.setVerbose)
  | "version", none => .error .version
  | "help", none => .error .help
  | word, some _ =>
    if word ∈ ["tokens", "verbose", "version", "help"] then
      .error (.wrong (.needlessValue ("--" ++ word)))
    else .error (.wrong (.unknown ("--" ++ word)))
  | word, none => .error (.wrong (.unknown ("--" ++ word)))

/-- Cuts a word at its first equals sign. -/
def cutAtEquals (word : List Char) : String × Option String :=
  let name := word.takeWhile (· != '=')
  match word.drop name.length with
  | [] => (String.ofList name, none)
  | _ :: value => (String.ofList name, some (String.ofList value))

/-- Reads an argument that may be an option. -/
def readArgument (options : Options) (argument : String) : Except Stop Reading :=
  match argument.toList with
  | '-' :: '-' :: word =>
    let (name, value) := cutAtEquals word
    readWord options name value
  | '-' :: letter :: letters => readLetters options (letter :: letters)
  | _ => do return .next (← options.setFile argument)

/-- Whether an argument can be the value of the option before it. -/
def isValue (argument : String) : Bool :=
  argument == "-" || argument.toList.head? != some '-'

/-! ## All arguments -/

/-- Reads the arguments after some options. -/
def readAfter (options : Options) : List String → Except Stop Options
  | [] => options.checked
  | "--" :: paths => do (← paths.foldlM Options.setFile options).checked
  | argument :: rest => do
    match ← readArgument options argument with
    | .next options => readAfter options rest
    | .value options =>
      match rest with
      | [] => throw (.wrong .missingValue)
      | value :: rest =>
        if isValue value then readAfter (← options.setEval value) rest
        else throw (.wrong .missingValue)

/-- The reader of arguments. -/
def readArguments : ArgumentReader :=
  fun arguments => (readAfter .none arguments).mapError Stop.response

end Monkey.CommandLine
