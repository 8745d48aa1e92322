import Monkey.Proofs.Grammar.Nesting
import Monkey.Source.Line

/-!
# Diagnostics are true and in order

A diagnostic is about a token: the current one, or the next one that was expected to be another. What
it says of that token is so. The tokens that a parser has diagnostics about lie behind it, with one
exception: where recovery stalls, the parser stands at a brace and the last diagnostic is about the
token after it. There statements end, so nothing is said about the brace any more, and diagnostics
come in the order of the text.

Results:
* `Chronicle.record`: a true diagnostic about a token further on keeps the order.
* `reporting`: the order is kept, as a simulation of a parse by itself.
* `diagnostics_true`: every diagnostic of a parse is true of the token at its position, they are in
  order, and each has a line.
-/

namespace Monkey

/-- What a cause says of the token that it is about. -/
def Cause.Describes : Cause → Token → Prop
  | .unexpected expected got, token => token.kind = got ∧ got ≠ expected
  | .noOperand kind, token => token.kind = kind ∧ Grammar.standard.operand kind = none
  | .integerTooLarge literal, token =>
    token.kind = .int ∧ token.value = literal ∧ 9223372036854775807 < Text.ofDecimal literal
  | .tooDeep limit, _ => limit = maxDepth

theorem Cause.describes_of_blames {cause : Cause} {token : Token} (h : cause.blames token) :
    cause.Describes token := by
  cases cause with
  | unexpected => exact h.elim
  | noOperand kind => exact ⟨h.1.symm, h.1 ▸ h.2⟩
  | integerTooLarge literal => exact ⟨h.1, h.2.1.symm, h.2.2⟩
  | tooDeep limit => exact h

/-- The diagnostic is true of one of some tokens, at the position where that token starts. -/
def Diagnostic.TrueOf (tokens : List Token) (diagnostic : Diagnostic) : Prop :=
  ∃ token ∈ tokens, token.span.start = diagnostic.position ∧ diagnostic.cause.Describes token

/-! ## Records -/

/-- The first of some tokens, or the end of input. -/
def firstOf (finish : Position) (tokens : List Token) : Token :=
  tokens.headD (.endOfInput finish)

theorem Parser.At.current_eq {finish : Position} {tokens : List Token} {p : Parser}
    (h : p.At finish tokens) : p.current = firstOf finish tokens := by
  cases tokens with
  | nil => exact h.current_nil
  | cons token rest => exact h.current

theorem firstOf_mem {finish : Position} {stream tokens : List Token} (suffix : tokens <:+ stream) :
    firstOf finish tokens ∈ stream ++ [.endOfInput finish] := by
  cases tokens with
  | nil => exact List.mem_append_right _ List.mem_cons_self
  | cons token rest => exact List.mem_append_left _ (suffix.subset List.mem_cons_self)

/-- Diagnostics in order, none of them about a token after a place, each true of a token. -/
structure Chronicle (tokens : List Token) (place : Nat) (diagnostics : List Diagnostic) : Prop where
  ordered : diagnostics.Pairwise fun d e => d.position.offset ≤ e.position.offset
  behind : ∀ d ∈ diagnostics, d.position.offset ≤ place
  true_of : ∀ d ∈ diagnostics, d.TrueOf tokens

namespace Chronicle

variable {tokens : List Token} {place later : Nat} {diagnostics : List Diagnostic}

theorem nil (tokens : List Token) (place : Nat) : Chronicle tokens place [] where
  ordered := .nil
  behind := by simp
  true_of := by simp

theorem mono (h : Chronicle tokens place diagnostics) (le : place ≤ later) :
    Chronicle tokens later diagnostics where
  ordered := h.ordered
  behind d hd := (h.behind d hd).trans le
  true_of := h.true_of

/-- A diagnostic about the token at the place comes after the others. -/
theorem record (h : Chronicle tokens place diagnostics) {d : Diagnostic}
    (here : d.position.offset = place) (holds : d.TrueOf tokens) :
    Chronicle tokens place (diagnostics ++ [d]) where
  ordered := by
    refine List.pairwise_append.mpr ⟨h.ordered, List.pairwise_singleton _ _, fun e he f hf => ?_⟩
    rw [List.mem_singleton.mp hf, here]
    exact h.behind e he
  behind e he := by
    rcases List.mem_append.mp he with he | he
    · exact h.behind e he
    · rw [List.mem_singleton.mp he, here]
  true_of e he := by
    rcases List.mem_append.mp he with he | he
    · exact h.true_of e he
    · rwa [List.mem_singleton.mp he]

end Chronicle

/-! ## Reports of a parser -/

section

variable (finish : Position) (stream : List Token)

/-- The record of a parser, up to where some of the tokens of a text start. -/
structure Reported (tokens : List Token) (p : Parser) : Prop where
  suffix : tokens <:+ stream
  chronicle : Chronicle (stream ++ [.endOfInput finish]) (startOf finish tokens)
    p.diagnostics.toList

/-- The parser stands at tokens that nothing after has been reported of. -/
def AtReported (p : Parser) : Prop :=
  ∃ tokens, p.At finish tokens ∧ Reported finish stream tokens p

/-- Nothing has been reported of the tokens after the next one. -/
def PastReported (p : Parser) : Prop :=
  ∃ tokens, p.advance.At finish tokens ∧ Reported finish stream tokens p

end

variable {finish : Position} {stream tokens rest : List Token} {p q : Parser}

namespace Reported

theorem congr (h : Reported finish stream tokens p) (same : q.diagnostics = p.diagnostics) :
    Reported finish stream tokens q :=
  ⟨h.suffix, same ▸ h.chronicle⟩

/-- Further on there is no more to report. -/
theorem onward (numbered : Numbered finish stream) (h : Reported finish stream tokens p)
    (suffix : rest <:+ tokens) : Reported finish stream rest p :=
  ⟨suffix.trans h.suffix, h.chronicle.mono ((numbered.suffix h.suffix).startOf_le suffix)⟩

/-- What is said of the first of the tokens is recorded. -/
theorem record (h : Reported finish stream tokens p) {cause : Cause}
    (holds : cause.Describes (firstOf finish tokens)) :
    Reported finish stream tokens (p.record ⟨cause, (firstOf finish tokens).span.start⟩) where
  suffix := h.suffix
  chronicle := by
    change Chronicle _ _ (p.diagnostics.push _).toList
    rw [Array.toList_push]
    refine h.chronicle.record ?_ ⟨_, firstOf_mem h.suffix, rfl, holds⟩
    cases tokens <;> rfl

end Reported

theorem AtReported.past (numbered : Numbered finish stream) (h : AtReported finish stream p) :
    PastReported finish stream p := by
  obtain ⟨tokens, stands, reported⟩ := h
  exact ⟨tokens.tail, stands.advance, reported.onward numbered (List.tail_suffix tokens)⟩

theorem PastReported.advance (h : PastReported finish stream p) :
    AtReported finish stream p.advance := by
  obtain ⟨tokens, stands, reported⟩ := h
  exact ⟨tokens, stands, reported.congr rfl⟩

/-! ## Recovery -/

theorem Parser.diagnostics_skipStatement (braces : Nat) (p : Parser) :
    (p.skipStatement braces).diagnostics = p.diagnostics := by
  fun_induction skipStatement braces p with
  | case1 => rfl
  | case2 => rfl
  | case3 => rfl
  | case4 _ _ _ _ _ _ ih => exact ih

theorem Parser.diagnostics_recover (p : Parser) (d : Diagnostic) :
    (p.recover d).diagnostics = (p.record d).diagnostics :=
  diagnostics_skipStatement 0 (p.record d)

/-- Recovery that leaves less to read moves on. -/
theorem Parser.Ahead.exists_move_advance (ahead : p.Ahead q)
    (less : q.cursor.remaining < p.cursor.remaining) :
    ∃ count, q.cursor = p.advance.cursor.move count := by
  obtain ⟨count, moved⟩ := ahead.moved
  cases count with
  | zero =>
    rw [moved] at less
    exact absurd less (Nat.lt_irrefl _)
  | succ count => exact ⟨count, moved⟩

/-- A rule has failed at the first of some tokens, which is the current token or the one after it. -/
def Failed (finish : Position) (stream : List Token) (d : Diagnostic) (p : Parser) : Prop :=
  ∃ tokens, (p.At finish tokens ∨ p.advance.At finish tokens) ∧ Reported finish stream tokens p ∧
    d.position = (firstOf finish tokens).span.start ∧ d.cause.Describes (firstOf finish tokens)

namespace Failed

variable {d : Diagnostic} {cause : Cause}

/-- A rule may stop at the current token, if nothing is reported after it. -/
theorem here (h : AtReported finish stream p) (holds : cause.Describes p.current) :
    Failed finish stream ⟨cause, p.position⟩ p := by
  obtain ⟨tokens, stands, reported⟩ := h
  rw [stands.current_eq] at holds
  exact ⟨tokens, .inl stands, reported, congrArg (·.span.start) stands.current_eq, holds⟩

/-- Or at the next one. -/
theorem next (h : PastReported finish stream p) (holds : cause.Describes p.peek) :
    Failed finish stream ⟨cause, p.peek.span.start⟩ p := by
  obtain ⟨tokens, stands, reported⟩ := h
  have first : p.peek = firstOf finish tokens := stands.current_eq
  rw [first] at holds
  exact ⟨tokens, .inr stands, reported, congrArg (·.span.start) first, holds⟩

theorem leave (h : Failed finish stream d p) : Failed finish stream d p.leave := by
  obtain ⟨tokens, stands, reported, position, holds⟩ := h
  exact ⟨tokens, stands, reported.congr rfl, position, holds⟩

/-- After recovery nothing has been reported of tokens further on. Only if it stalls, the last
diagnostic is about the token after the brace at which statements end. -/
theorem recover (numbered : Numbered finish stream) (h : Failed finish stream d p) :
    AtReported finish stream (p.recover d) ∨
      (p.recover d).endsBody = true ∧ PastReported finish stream (p.recover d) := by
  obtain ⟨tokens, stands, reported, position, holds⟩ := h
  have recorded : Reported finish stream tokens (p.recover d) := by
    obtain ⟨cause, _⟩ := d
    cases position
    exact (reported.record holds).congr (p.diagnostics_recover _)
  have ahead := Parser.ahead_recover p d
  have onward {count : Nat} (stands : (p.recover d).At finish (tokens.drop count)) :
      AtReported finish stream (p.recover d) :=
    ⟨_, stands, recorded.onward numbered (List.drop_suffix count tokens)⟩
  rcases stands with here | next
  · obtain ⟨count, stands⟩ := here.ahead ahead
    exact .inl (onward stands)
  · cases ends : p.endsBody with
    | true =>
      obtain ⟨cursor, -⟩ := Parser.stalls_recover_of_endsBody ends d
      refine .inr ⟨?_, tokens, ?_, recorded⟩
      · rw [ahead.endsBody_eq (congrArg _ cursor), ends]
      · exact (congrArg Cursor.advance cursor).trans next
    | false =>
      obtain ⟨count, moved⟩ := ahead.exists_move_advance (Parser.remaining_recover_lt ends d)
      exact .inl (onward (next.move moved))

end Failed

/-! ## Reporting in order -/

/-- The reports of a parse, as a simulation by itself. -/
def reporting (numbered : Numbered finish stream) : Simulation where
  token := id
  fresh p q := p = q ∧ AtReported finish stream p
  held p q := p = q ∧ PastReported finish stream p
  ended p q := p = q ∧ PastReported finish stream p
  between p q := p = q ∧
    (AtReported finish stream p ∨ p.endsBody = true ∧ PastReported finish stream p)
  stuck d e p q := d = e ∧ p = q ∧ Failed finish stream d p
  scope _ := True
  floor := 0
  kind_token := Token.kind_id
  value_token := Token.value_id
  scope_succ _ _ := trivial
  floor_le _ := Nat.zero_le _
  current := by
    rintro p _ ⟨rfl, -⟩
    rfl
  openBlocks := by
    rintro p _ ⟨rfl, -⟩
    rfl
  peek := by
    rintro p _ ⟨rfl, -⟩
    rfl
  hold := by
    rintro p _ ⟨rfl, h⟩ -
    exact ⟨rfl, h.past numbered⟩
  advance := by
    rintro p _ ⟨rfl, h⟩
    exact ⟨rfl, h.advance⟩
  enter := by
    rintro p _ ⟨rfl, tokens, stands, reported⟩
    exact ⟨rfl, tokens, stands, reported.congr rfl⟩
  leave := by
    rintro p _ ⟨rfl, tokens, stands, reported⟩
    exact ⟨rfl, tokens, stands, reported.congr rfl⟩
  leave_stuck := by
    rintro d _ p _ ⟨rfl, rfl, h⟩
    exact ⟨rfl, rfl, h.leave⟩
  blame := by
    rintro p _ cause ⟨rfl, h⟩ blames
    exact ⟨rfl, rfl, .here h (Cause.describes_of_blames blames)⟩
  unexpected := by
    rintro p _ kind ⟨rfl, h⟩ other
    exact ⟨rfl, rfl, .next h ⟨rfl, other⟩⟩
  openBlock := by
    rintro p _ ⟨rfl, h⟩ -
    obtain ⟨tokens, stands, reported⟩ := (h.past numbered).advance
    exact ⟨rfl, .inl ⟨tokens, stands, reported.congr rfl⟩⟩
  endsBody := by
    rintro p _ ⟨rfl, -⟩
    rfl
  start := by
    rintro p _ ⟨rfl, h | ⟨ends, -⟩⟩ goes_on
    · exact ⟨rfl, h⟩
    · exact absurd ends (Bool.eq_false_iff.mp goes_on)
  closeBlock := by
    rintro p _ ⟨rfl, h⟩ - -
    obtain ⟨tokens, stands, reported⟩ := h.elim (·.past numbered) (·.2)
    exact ⟨rfl, tokens, stands, reported.congr rfl⟩
  settle := by
    rintro p _ ⟨rfl, h⟩ -
    exact ⟨rfl, h⟩
  semicolon := by
    rintro p _ ⟨rfl, h⟩ -
    exact ⟨rfl, h.advance.past numbered⟩
  next := by
    rintro p _ ⟨rfl, h⟩ -
    exact ⟨rfl, .inl h.advance⟩
  recover := by
    rintro d _ p _ ⟨rfl, rfl, h⟩ -
    exact ⟨rfl, h.recover numbered⟩

/-! ## Texts -/

/-- The width of a text is the number of its bytes. -/
theorem length_utf8 (text : String) : (Text.utf8 text).length = byteWidth text.toList := by
  unfold Text.utf8
  induction text.toList with
  | nil => rfl
  | cons c rest ih =>
    rw [List.flatMap_cons, List.length_append, ih, byteWidth, String.length_utf8EncodeChar]

/-- The diagnostics of a parse are a chronicle of the tokens of the text. -/
theorem chronicle_parse {text : String} (zero_free : 0 ∉ Text.utf8 text) (file : Option String) :
    ∃ place, Chronicle (tokenize text file) place (parse text file).diagnostics := by
  let stream := (Lexer.ofText text file).tokens
  let finish := (Lexer.ofText text file).finish
  let start := (Parser.ofText text file).note (.started (Parser.ofText text file).position.file)
  have numbered : Numbered finish stream := .ofText zero_free file
  have begins : AtReported finish stream start :=
    ⟨stream, rfl, List.suffix_rfl, .nil _ _⟩
  rw [Lexer.tokenize_eq zero_free file]
  obtain ⟨-, -, ends⟩ := Simulation.statements ((reporting numbered).follows maxDepth)
    ⟨rfl, .inl begins⟩ trivial
  rcases ends with ⟨tokens, -, reported⟩ | ⟨-, tokens, -, reported⟩
  · exact ⟨_, reported.chronicle⟩
  · exact ⟨_, reported.chronicle⟩

/-- **Diagnostics are true and in order.** In a text without zero bytes the diagnostics of a parse
are in the order of their positions. Each of them is about a token of the text that starts at its
position, in the file of the text, and what it says of that token is so. So each has a line. -/
theorem diagnostics_true (text : String) (file : Option String) (zero_free : 0 ∉ Text.utf8 text) :
    let diagnostics := (parse text file).diagnostics
    diagnostics.Pairwise (fun d e => d.position.offset ≤ e.position.offset) ∧
      ∀ d ∈ diagnostics, d.TrueOf (tokenize text file) ∧
        d.position.file = file.getD Lexer.defaultFile ∧
        d.position.offset ≤ (Text.utf8 text).length ∧ lineAt? text d.position.offset ≠ none := by
  intro diagnostics
  obtain ⟨place, chronicle⟩ := chronicle_parse zero_free file
  refine ⟨chronicle.ordered, fun d hd => ?_⟩
  obtain ⟨token, mem, position, -⟩ := chronicle.true_of d hd
  have inside : token.span.start.file = file.getD Lexer.defaultFile ∧
      token.start ≤ (Text.utf8 text).length := by
    rw [Lexer.tokenize_eq zero_free file, List.mem_append, List.mem_singleton] at mem
    rcases mem with mem | rfl
    · have munch := (Lexer.within_ofText text file).maximalMunch_tokens
      obtain ⟨-, le, bound, name, -⟩ := munch.spans token mem
      exact ⟨name, le.trans bound⟩
    · rw [Lexer.finish_ofText]
      exact ⟨rfl, Nat.le_refl _⟩
  have bound : d.position.offset ≤ (Text.utf8 text).length := position ▸ inside.2
  refine ⟨chronicle.true_of d hd, position ▸ inside.1, bound, fun none => ?_⟩
  rw [lineAt?_eq_none_iff, ← length_utf8] at none
  exact absurd bound (Nat.not_le_of_lt none)

/-- After a recovery that stalls, with the brace it stalls at before the token of the diagnostic. -/
theorem diagnostics_true_stalled :
    let text := "fn() \x7b (fn() \x7b\x7d x \x7d; 9223372036854775808"
    let diagnostics := (parse text none).diagnostics
    0 ∉ Text.utf8 text ∧ diagnostics.map (·.position.offset) = [16, 18, 21] ∧
      diagnostics.Pairwise (fun d e => d.position.offset ≤ e.position.offset) ∧
      ∀ d ∈ diagnostics, d.TrueOf (tokenize text none) ∧ d.position.file = "shell" ∧
        d.position.offset ≤ 40 ∧ lineAt? text d.position.offset ≠ none :=
  ⟨by decide, by decide +kernel,
    diagnostics_true "fn() \x7b (fn() \x7b\x7d x \x7d; 9223372036854775808" none (by decide)⟩

end Monkey
