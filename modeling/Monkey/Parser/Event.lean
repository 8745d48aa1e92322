import Monkey.Diagnostic.Basic
import Monkey.Token.Basic

/-!
# What a parse reports of itself

A parser records what it does: every token it takes from the stream, where a program starts and
ends, each diagnostic and the skip that follows it. Every event has a severity, by which a listing
selects.
-/

namespace Monkey

/-- How much an event matters, the most severe first. -/
inductive Severity where
  | error | warn | info | debug | trace
deriving DecidableEq, Repr, Inhabited

namespace Severity

/-- The place of a severity in the order. -/
def rank : Severity → Nat
  | error => 0
  | warn => 1
  | info => 2
  | debug => 3
  | trace => 4

/-- How listings write a severity. -/
def name : Severity → String
  | error => "ERROR"
  | warn => "WARN"
  | info => "INFO"
  | debug => "DEBUG"
  | trace => "TRACE"

end Severity

/-- Something a parser did. -/
inductive Event where
  | lexed (token : Token)
  | started (file : String)
  | finished (statements diagnostics : Nat)
  | failed (diagnostic : Diagnostic)
  | resynchronised (start stop : Nat)
deriving DecidableEq, Repr, Inhabited

namespace Event

/-- How much an event matters. -/
def severity : Event → Severity
  | lexed _ => .trace
  | started _ | finished _ _ => .info
  | failed _ | resynchronised _ _ => .debug

/-- An event in words. -/
def text : Event → String
  | lexed token => "lexed " ++ token.describe
  | started file => "parsing " ++ file
  | finished statements diagnostics =>
    "parsed " ++ Text.decimal statements ++ " statement(s) with " ++ Text.decimal diagnostics ++
      " diagnostic(s)"
  | failed diagnostic =>
    diagnostic.message ++ " at " ++ Text.decimal diagnostic.position.offset
  | resynchronised start stop =>
    "resynchronised from " ++ Text.decimal start ++ " to " ++ Text.decimal stop

/-- A line of a listing. -/
def line (event : Event) : String :=
  "[" ++ event.severity.name ++ "] " ++ event.text

/-- Whether an event is at least as severe as a limit. -/
def atLeast (limit : Severity) (event : Event) : Bool :=
  event.severity.rank ≤ limit.rank

end Event

/-- The lines of the events that are at least as severe as a limit. -/
def listing (limit : Severity) (events : Array Event) : List String :=
  (events.toList.filter (·.atLeast limit)).map (·.line)

end Monkey
