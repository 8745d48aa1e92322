/-!
# Where the program text comes from

The text is given as an argument, read from a file or read from standard input; the options say which.
Each has a name that reports use. What keeps an input from being read is a `ReadError`.
-/

namespace Monkey.CommandLine

/-- Where the program text comes from. -/
inductive Input where
  | text (source : String)
  | file (path : String)
  | standard
deriving DecidableEq, Repr, Inhabited

/-- What the arguments of a command line set. -/
structure Options where
  file : Option String
  eval : Option String
  tokens : Bool
  verbose : Bool
deriving DecidableEq, Repr, Inhabited

/-- The input that options name: a text goes before a file, and without either it is standard
input. -/
def Options.input (options : Options) : Input :=
  match options.eval, options.file with
  | some source, _ => .text source
  | none, some path => .file path
  | none, none => .standard

/-- The parts of a path that name something. -/
def pathNames (path : String) : List String :=
  (path.splitOn "/").filter fun part => part != "" && part != "."

/-- The last name of a path; a path that ends in no name is its own. -/
def fileName (path : String) : String :=
  match (pathNames path).getLast? with
  | none | some ".." => path
  | some name => name

/-- The name reports give an input. -/
def Input.name : Input → String
  | text _ => "eval"
  | file path => fileName path
  | standard => "stdin"

/-- What keeps an input from being read. -/
inductive ReadError where
  | notFound
  | notDirectory
  | isDirectory
  | denied
  | notText
  | other (text : String)
deriving DecidableEq, Repr, Inhabited

/-- A reading error in words. -/
def ReadError.text : ReadError → String
  | notFound => "No such file or directory (os error 2)"
  | notDirectory => "Not a directory (os error 20)"
  | isDirectory => "Is a directory (os error 21)"
  | denied => "Permission denied (os error 13)"
  | notText => "stream did not contain valid UTF-8"
  | other text => text

/-- The text that bytes encode. -/
def decode (bytes : ByteArray) : Except ReadError String :=
  match String.fromUTF8? bytes with
  | some text => .ok text
  | none => .error .notText

end Monkey.CommandLine
