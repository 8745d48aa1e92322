import Monkey.Main
import Monkey.Program.Equality
import Monkey.Proofs.Grammar.Completeness
import Monkey.Proofs.Grammar.Nesting
import Monkey.Proofs.Parser.Ensures
import Monkey.Proofs.Parser.Ledger
import Monkey.Proofs.Parser.Firewall
import Monkey.Proofs.Diagnostic.Order
import Monkey.Proofs.Lexing.Spelling
import Monkey.Proofs.Program.Nodes
import Monkey.Proofs.Parser.Provenance
import Monkey.Proofs.Parser.Layout
import Monkey.Proofs.Program.Printable
import Monkey.Proofs.Grammar.Roundtrip
import Monkey.Proofs.Parser.Bookkeeping
import Monkey.Proofs.Parser.Cut
import Monkey.Proofs.Grammar.Chain
import Monkey.Proofs.Parser.Bounded
import Monkey.Proofs.Source.Lines
import Monkey.Proofs.Diagnostic.Pointer
import Monkey.Proofs.Parser.Counters
import Monkey.Proofs.Grammar.Thresholds
import Monkey.Proofs.Parser.Failure
import Monkey.Proofs.Parser.FileName
import Monkey.Proofs.Diagnostic.Naming
import Monkey.Proofs.CommandLine.Channel
import Monkey.Proofs.Source.LineBytes
import Monkey.Proofs.Grammar.Unclosed
import Monkey.Proofs.Lexing.Scanner
import Monkey.Proofs.Parser.Progress
