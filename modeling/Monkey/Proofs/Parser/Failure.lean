import Monkey.Proofs.Diagnostic.Order
import Monkey.Proofs.Parser.Agreement
import Monkey.Proofs.Parser.Keyword
import Monkey.Proofs.Parser.Resumption

/-!
# The failures of a parse

A `Failure` is a statement that failed: the states that it started and stopped in, and the diagnostic.
Each entry in the record of a parse is one of them, and recovery goes on from where it stopped by the
rule of `Resumes`, with one exception. Recovery that starts on a keyword passes over it, as it should
if the keyword is the first token of the statement that failed. It is another one if an expression was
to begin there; then a statement is lost that the rule would read.

Results:
* `Told.recover`: recovery puts a failure on record.
* `resumption_exact`: what recovery passes over after each failure of a parse, and where it goes on.
* `keyword_lost`: a binding that is lost.
-/

namespace Monkey

/-- A statement that failed, read at a level of nesting. -/
structure Failure where
  depth : Nat
  start : Parser
  stop : Parser
  diagnostic : Diagnostic

namespace Failure

/-- Where recovery goes on. -/
def resumed (f : Failure) : Parser :=
  f.stop.recover f.diagnostic

/-- What the log says of a failure. -/
def records (f : Failure) : List Event :=
  [.failed f.diagnostic, .resynchronised f.stop.position.offset f.resumed.position.offset]

/-- The statement was read where statements go on, at some of the tokens of a text, and it failed. -/
structure Genuine (finish : Position) (stream : List Token) (f : Failure) : Prop where
  stands : ∃ tokens, f.start.At finish tokens ∧ tokens <:+ stream
  goes_on : f.start.endsBody = false
  ran : (Rule.statement (.of f.depth)).run f.start = (.error f.diagnostic, f.stop)

/-- Why recovery may pass over a keyword that it starts on. -/
inductive Passes (f : Failure) (keyword : Token) : Prop
  /-- The statement begins with it, and the diagnostic is about the token after it. -/
  | own (same : f.start.current = keyword) (found : Kind)
      (cause : f.diagnostic.cause = .unexpected .ident found)
      (about : keyword.start < f.diagnostic.position.offset)
  /-- An expression was to begin with it, and the diagnostic is about the keyword itself. -/
  | operand (later : f.start.current.start < keyword.start)
      (cause : f.diagnostic.cause = .noOperand keyword.kind ∨ f.diagnostic.cause = .tooDeep maxDepth)
      (about : f.diagnostic.position = keyword.span.start)

end Failure

variable {finish : Position} {stream : List Token} {p q : Parser}

/-! ## The record -/

/-- What a parser has recorded are failures. -/
structure Told (finish : Position) (stream : List Token) (p : Parser) : Prop where
  stands : ∃ tokens, p.At finish tokens ∧ tokens <:+ stream
  record : ∃ failures : List Failure, p.diagnostics.toList = failures.map Failure.diagnostic ∧
    p.events.toList.filter (·.severity = .debug) = failures.flatMap Failure.records ∧
    ∀ f ∈ failures, f.Genuine finish stream

namespace Told

theorem congr (h : Told finish stream p) (cursor : q.cursor = p.cursor)
    (diagnostics : q.diagnostics = p.diagnostics) (events : q.events = p.events) :
    Told finish stream q := by
  obtain ⟨⟨tokens, stands, suffix⟩, record⟩ := h
  exact ⟨⟨tokens, cursor.trans stands, suffix⟩, diagnostics ▸ events ▸ record⟩

theorem advance (h : Told finish stream p) : Told finish stream p.advance := by
  obtain ⟨⟨tokens, stands, suffix⟩, failures, diagnostics, log, genuine⟩ := h
  refine ⟨⟨_, stands.advance, (List.tail_suffix tokens).trans suffix⟩, failures, diagnostics, ?_,
    genuine⟩
  change (p.events.push (.lexed _)).toList.filter _ = _
  rw [Array.toList_push, List.filter_append, log]
  simp [Event.severity]

/-- Recovery puts a failure on record. -/
theorem recover {f : Failure} (h : Told finish stream f.stop) (genuine : f.Genuine finish stream) :
    Told finish stream f.resumed := by
  obtain ⟨⟨tokens, stands, suffix⟩, failures, diagnostics, log, others⟩ := h
  obtain ⟨count, stands⟩ := stands.ahead (Parser.ahead_recover f.stop f.diagnostic)
  obtain ⟨taken, events, -⟩ := Parser.events_recover f.stop f.diagnostic
  refine ⟨⟨_, stands, (List.drop_suffix count tokens).trans suffix⟩, failures ++ [f], ?_, ?_, ?_⟩
  · rw [Failure.resumed, Parser.diagnostics_recover]
    change (f.stop.diagnostics.push f.diagnostic).toList = _
    rw [Array.toList_push, diagnostics, List.map_append]
    rfl
  · rw [Failure.resumed, events, List.filter_append, log, List.flatMap_append]
    simp [Event.severity, Failure.records, Failure.resumed, List.filter_map, Function.comp_def]
  · intro other mem
    rcases List.mem_append.mp mem with mem | mem
    · exact others other mem
    · rwa [List.mem_singleton.mp mem]

end Told

/-- A parse keeps the record. -/
theorem kept_told (finish : Position) (stream : List Token) :
    Kept fun p q => p = q ∧ Told finish stream p where
  current := by
    rintro p _ ⟨rfl, -⟩
    rfl
  advance := by
    rintro p _ ⟨rfl, told⟩
    exact ⟨rfl, told.advance⟩
  enter := by
    rintro p _ ⟨rfl, told⟩
    exact ⟨rfl, told.congr rfl rfl rfl⟩
  leave := by
    rintro p _ ⟨rfl, told⟩
    exact ⟨rfl, told.congr rfl rfl rfl⟩
  openBlock := by
    rintro p _ ⟨rfl, told⟩
    exact ⟨rfl, told.congr rfl rfl rfl⟩
  closeBlock := by
    rintro p _ ⟨rfl, told⟩
    exact ⟨rfl, told.congr rfl rfl rfl⟩
  endsBody := by
    rintro p _ ⟨rfl, -⟩
    rfl
  recover := by
    rintro depth p _ stop _ d ⟨rfl, told⟩ goes_on ran ⟨rfl, stopped⟩
    exact ⟨rfl, stopped.recover (f := ⟨depth, p, stop, d⟩) ⟨told.stands, goes_on, ran⟩⟩

/-! ## After a failure -/

namespace Failure

variable {f : Failure}

/-- Why a keyword is passed over, from the way the statement fails on it. -/
theorem passes (numbered : Numbered finish stream) (h : f.Genuine finish stream)
    (keyword : f.stop.current.kind.beginsStatement = true) : f.Passes f.stop.current := by
  obtain ⟨⟨tokens, stands, suffix⟩, goes_on, ran⟩ := h
  obtain ⟨rest, rfl⟩ := stands.exists_cons (Parser.current_kind_ne_eof goes_on)
  have ascending := numbered.toAscending.suffix suffix
  cases (ensures_statement (halts f.depth) f.start).of_error rfl ran keyword with
  | unnamed found here about =>
    have same : f.stop.current = f.start.current := congrArg Cursor.current here
    have next : f.start.peek.span.start.offset = startOf finish rest := stands.advance.offset
    refine .own same.symm found (by rw [about]) ?_
    rw [same, about]
    exact next ▸ ascending.lt_startOf List.suffix_rfl
  | refused count moved refused =>
    have later : f.stop.At finish (rest.drop count) := stands.advance.move moved
    have start : f.stop.current.start = startOf finish (rest.drop count) := later.offset
    refine .operand ?_ refused.cause refused.position
    exact start ▸ ascending.lt_startOf (List.drop_suffix count rest)

/-- **After a failure** recovery goes on by the rule, but for a keyword that it starts on. -/
theorem resumes (numbered : Numbered finish stream) (h : f.Genuine finish stream) :
    ∃ passed skipped rest, passed ++ (skipped ++ rest) <:+ stream ∧
      f.stop.At finish (passed ++ (skipped ++ rest)) ∧ f.resumed.At finish rest ∧
      Resumes (0 < f.stop.openBlocks) 0 skipped rest ∧
      (passed = [] ∨ ∃ keyword, passed = [keyword] ∧ keyword.kind.beginsStatement = true ∧
        f.Passes keyword) := by
  obtain ⟨tokens, stands, suffix⟩ := h.stands
  have ahead := (Rule.statement (.of f.depth)).ahead f.start
  rw [h.ran] at ahead
  obtain ⟨count, stands⟩ := stands.ahead ahead
  have suffix := (List.drop_suffix count tokens).trans suffix
  generalize tokens.drop count = tokens at stands suffix
  have stopped : (f.stop.record f.diagnostic).Before finish tokens :=
    ⟨stands, (numbered.suffix suffix).not_eof⟩
  obtain ⟨passed, skipped, rest, rfl, resumed, resumes, own⟩ := stopped.exists_resumes
  refine ⟨passed, skipped, rest, suffix, stands, resumed, resumes, own.imp_right ?_⟩
  rintro ⟨rfl, keyword⟩
  exact ⟨_, rfl, keyword, passes numbered h keyword⟩

end Failure

/-! ## Texts -/

/-- **Where reading goes on.** In a text without zero bytes the diagnostics of a parse and the debug
entries of its log are those of its failures, in order. After each of them recovery passes over some
tokens, and the statements are read on from there. It follows the rule: outside of the braces opened
on the way it passes over no keyword, it stops after the first semicolon, before the first keyword or
before the brace that closes the block. Only a keyword that it starts on is passed over before. It is
the first token of the statement that failed, or an expression was to begin with it. -/
theorem resumption_exact (text : String) (file : Option String)
    (zero_free : 0 ∉ Text.utf8 text) :
    let stream := (tokenize text file).dropLast
    let finish := (Lexer.ofText text file).finish
    let parsed := parse text file
    ∃ failures : List Failure, parsed.diagnostics = failures.map Failure.diagnostic ∧
      parsed.events.toList.filter (·.severity = .debug) = failures.flatMap Failure.records ∧
      ∀ f ∈ failures, f.Genuine finish stream ∧
        f.start.statements (.of f.depth) = f.resumed.statements (.of f.depth) ∧
        ∃ passed skipped rest, passed ++ (skipped ++ rest) <:+ stream ∧
          f.stop.At finish (passed ++ (skipped ++ rest)) ∧ f.resumed.At finish rest ∧
          Resumes (0 < f.stop.openBlocks) 0 skipped rest ∧
          (passed = [] ∨ ∃ keyword, passed = [keyword] ∧ keyword.kind.beginsStatement = true ∧
            f.Passes keyword) := by
  intro stream finish parsed
  let start := (Parser.ofText text file).note (.started (Parser.ofText text file).position.file)
  have tokens : stream = (Lexer.ofText text file).tokens := Lexer.dropLast_tokenize zero_free file
  have numbered : Numbered finish stream := tokens ▸ .ofText zero_free file
  have begins : Told finish stream start :=
    ⟨⟨stream, tokens ▸ rfl, List.suffix_rfl⟩, [], rfl, rfl, by simp⟩
  have kept := kept_told finish stream
  obtain ⟨-, -, told⟩ := kept.statements (kept.level maxDepth) ⟨rfl, begins⟩
  obtain ⟨failures, diagnostics, log, genuine⟩ := told.record
  refine ⟨failures, diagnostics, ?_, fun f mem => ⟨genuine f mem, ?_, ?_⟩⟩
  · change ((start.statements (.of maxDepth)).2.events.push (.finished _ _)).toList.filter _ = _
    rw [Array.toList_push, List.filter_append, log]
    simp [Event.severity]
  · exact Parser.statements_of_error (genuine f mem).goes_on (genuine f mem).ran
  · exact Failure.resumes numbered (genuine f mem)

/-- A binding without a name: the one after it is read. -/
theorem resumption_exact_unnamed :
    let text := "let let y = 2; fn() \x7b 1 + return 3; \x7d"
    let stream := (tokenize text none).dropLast
    let finish := (Lexer.ofText text none).finish
    let parsed := parse text none
    0 ∉ Text.utf8 text ∧ parsed.diagnostics.map (·.position.offset) = [4, 26] ∧
      ∃ failures : List Failure, parsed.diagnostics = failures.map Failure.diagnostic ∧
        parsed.events.toList.filter (·.severity = .debug) = failures.flatMap Failure.records ∧
        ∀ f ∈ failures, f.Genuine finish stream ∧
          f.start.statements (.of f.depth) = f.resumed.statements (.of f.depth) ∧
          ∃ passed skipped rest, passed ++ (skipped ++ rest) <:+ stream ∧
            f.stop.At finish (passed ++ (skipped ++ rest)) ∧ f.resumed.At finish rest ∧
            Resumes (0 < f.stop.openBlocks) 0 skipped rest ∧
            (passed = [] ∨ ∃ keyword, passed = [keyword] ∧ keyword.kind.beginsStatement = true ∧
              f.Passes keyword) :=
  ⟨by decide, by decide +kernel,
    resumption_exact "let let y = 2; fn() \x7b 1 + return 3; \x7d" none (by decide)⟩

/-- **A keyword is lost.** The value of the first binding was to begin with the second `let`. That is not
the token that the failed statement began with, and by the rule reading goes on there. Recovery passes
over it to the end of input, so the second binding, which has nothing wrong, is not in the program. -/
theorem keyword_lost :
    let text := "let x = let y = 2;"
    let stream := (tokenize text none).dropLast
    let finish := (Lexer.ofText text none).finish
    let parsed := parse text none
    ∃ f : Failure, ∃ keyword rest, f.Genuine finish stream ∧ parsed.diagnostics = [f.diagnostic] ∧
      f.stop.At finish (keyword :: rest) ∧ keyword.kind.beginsStatement = true ∧
      keyword ≠ f.start.current ∧ resume false 0 (keyword :: rest) = keyword :: rest ∧
      f.resumed.At finish [] ∧ parsed.program.text = "" ∧
      (parse "let y = 2;" none).diagnostics = [] ∧
      (parse "let y = 2;" none).program.text = "let y = 2;" := by
  intro text stream finish parsed
  let start := (Parser.ofText text none).note (.started "shell")
  let tried := (Rule.statement (.of maxDepth)).run start
  let f : Failure := ⟨maxDepth, start, tried.2, ⟨.noOperand .kwLet, ⟨8, "shell"⟩⟩⟩
  refine ⟨f, f.stop.current, stream.drop 4, ⟨⟨stream, ?_, List.suffix_rfl⟩, ?_, Prod.ext ?_ rfl⟩, ?_⟩
  all_goals decide +kernel

end Monkey
