import Monkey.Proofs.Diagnostic.Order
import Monkey.Proofs.Lexing.Spelling
import Monkey.Proofs.Parser.Provenance
import Monkey.Proofs.Parser.Replacement

/-!
# Layout does not matter

A token can be told by its number in the list of the tokens of its text. With numbers in the place
of spans the tokens of two texts are the same as soon as their kinds and values are, and replaced
tokens are parsed as the tokens are. So the parses of two such texts differ by spans only, and not
even by these once tokens are told by their numbers.

Results:
* `map_numbered`: numbered tokens depend on kinds and values only.
* `Replacement.statements`: the parse of replaced tokens is the parse with replaced tokens.
* `layout_free`: blanks between tokens do not change their kinds and values, and texts with the same
  kinds and values have the same parse but for spans.
-/

namespace Monkey

/-! ## Tokens by their numbers -/

/-- Which of some tokens starts at a position, counted from 0. -/
def indexAt (tokens : List Token) (position : Position) : Nat :=
  (tokens.map (·.span.start)).idxOf position

/-- The position that stands for a number. -/
def Position.numbered (tokens : List Token) (position : Position) : Position :=
  ⟨indexAt tokens position, ""⟩

/-- The token with its number in a list of tokens for a span. -/
def Token.numbered (tokens : List Token) (token : Token) : Token :=
  ⟨token.kind, token.value, ⟨token.span.start.numbered tokens, token.span.start.numbered tokens⟩⟩

/-- A number is that of a token if some token starts there. -/
theorem indexAt_lt {tokens : List Token} {token : Token} (mem : token ∈ tokens) :
    indexAt tokens token.span.start < tokens.length := by
  rw [indexAt, ← List.length_map (·.span.start)]
  exact List.idxOf_lt_length_of_mem (List.mem_map_of_mem mem)

/-- Tokens that start one after another are numbered in order. -/
theorem indexAt_getElem {tokens : List Token} (distinct : (tokens.map (·.span.start)).Nodup) {i : Nat}
    (bound : i < tokens.length) : indexAt tokens tokens[i].span.start = i := by
  have := distinct.idxOf_getElem i (by simpa using bound)
  rwa [List.getElem_map] at this

/-- **Numbered tokens depend on kinds and values only.** -/
theorem map_numbered {a b : List Token} (distinct : (a.map (·.span.start)).Nodup)
    (distinct' : (b.map (·.span.start)).Nodup) (same : a.map Token.said = b.map Token.said) :
    a.map (Token.numbered a) = b.map (Token.numbered b) := by
  have length : a.length = b.length := by
    simpa using congrArg List.length same
  refine List.ext_getElem (by simpa using length) fun i hi hi' => ?_
  rw [List.length_map] at hi hi'
  have said : a[i].said = b[i].said := by
    have := List.getElem_of_eq same (by simpa using hi)
    rwa [List.getElem_map, List.getElem_map] at this
  obtain ⟨kind, value⟩ := Prod.mk.inj said
  rw [List.getElem_map, List.getElem_map]
  simp only [Token.numbered, Position.numbered, indexAt_getElem distinct hi,
    indexAt_getElem distinct' hi', kind, value]

/-- The tokens of a text start at different places. -/
theorem nodup_start_tokenize {text : String} (zero_free : 0 ∉ Text.utf8 text)
    (file : Option String) : ((tokenize text file).map (·.span.start)).Nodup := by
  have numbered : Numbered (Lexer.ofText text file).finish (Lexer.ofText text file).tokens :=
    .ofText zero_free file
  rw [Lexer.tokenize_eq zero_free, List.Nodup, List.pairwise_map]
  refine List.pairwise_append.mpr ⟨?_, List.pairwise_singleton _ _, fun t ht u hu => ?_⟩
  · exact numbered.ordered.imp fun lt same => absurd (congrArg Position.offset same) (Nat.ne_of_lt lt)
  · rw [List.mem_singleton.mp hu]
    exact fun same => absurd (congrArg Position.offset same) (Nat.ne_of_lt (numbered.start_lt t ht))

/-! ## Parses by numbers -/

/-- Numbers for spans. -/
def Replacement.numbering (tokens : List Token) : Replacement where
  token := Token.numbered tokens
  position := Position.numbered tokens
  kind_token _ := rfl
  value_token _ := rfl
  start_token _ := rfl

/-- **The parse of replaced tokens is the parse with replaced tokens.** -/
theorem Replacement.statements (r : Replacement) (text : String) (file : Option String)
    (finish : Position)
    (eof : r.token (.endOfInput (Lexer.ofText text file).finish) = .endOfInput finish) :
    let read := (Parser.ofStream ⟨(Lexer.ofText text file).tokens.map r.token, finish⟩).statements
      (.of maxDepth)
    read.1 = ((parse text file).program.relabel r.token).statements ∧
      read.2.diagnostics.toList = (parse text file).diagnostics.map r.diagnostic := by
  let start := (Parser.ofText text file).note (.started (Parser.ofText text file).position.file)
  have begins : Replaced r (Lexer.ofText text file).finish finish [] start
      (.ofStream ⟨(Lexer.ofText text file).tokens.map r.token, finish⟩) :=
    ⟨⟨(Lexer.ofText text file).tokens, rfl, rfl⟩, rfl, rfl⟩
  obtain ⟨statements, after⟩ := Simulation.statements
    ((r.simulation _ _ [] eof).follows maxDepth) begins trivial
  exact ⟨statements, after.diagnostics⟩

/-- Texts with the same kinds and values have the same parse, with numbers for spans. -/
theorem parse_numbered {text text' : String} {file file' : Option String}
    (zero_free : 0 ∉ Text.utf8 text) (zero_free' : 0 ∉ Text.utf8 text')
    (same : (tokenize text file).map Token.said = (tokenize text' file').map Token.said) :
    let r := Replacement.numbering (tokenize text file)
    let r' := Replacement.numbering (tokenize text' file')
    (parse text file).program.relabel r.token = (parse text' file').program.relabel r'.token ∧
      (parse text file).diagnostics.map r.diagnostic =
        (parse text' file').diagnostics.map r'.diagnostic := by
  intro r r'
  have numbered : (tokenize text file).map r.token = (tokenize text' file').map r'.token :=
    map_numbered (nodup_start_tokenize zero_free file) (nodup_start_tokenize zero_free' file') same
  -- the tokens before the end of input are numbered alike, and the end of input too
  rw [Lexer.tokenize_eq zero_free, Lexer.tokenize_eq zero_free', List.map_append, List.map_append]
    at numbered
  obtain ⟨stream, last⟩ := List.append_inj' numbered rfl
  have finish : r.position (Lexer.ofText text file).finish =
      r'.position (Lexer.ofText text' file').finish :=
    congrArg (·.span.start) (List.singleton_inj.mp last)
  obtain ⟨program, diagnostics⟩ :=
    r.statements text file (r.position (Lexer.ofText text file).finish) rfl
  obtain ⟨program', diagnostics'⟩ :=
    r'.statements text' file' (r'.position (Lexer.ofText text' file').finish) rfl
  rw [stream, finish] at program diagnostics
  exact ⟨congrArg Program.mk (program.symm.trans program'), diagnostics.symm.trans diagnostics'⟩

/-- **Layout does not matter.** A text that writes the values of another with any blanks between
them has the same kinds and values. And texts with the same kinds and values have the same program
but for spans, with the same text, and the same diagnostics about the tokens with the same
numbers. -/
theorem layout_free :
    (∀ (source text : String) (file file' : Option String), (∀ b ∈ Text.utf8 source, b < 0x80) →
      0 ∉ Text.utf8 source → Writes ((tokenize source file).dropLast.map (·.value)) text →
      (tokenize text file').map Token.said = (tokenize source file).map Token.said) ∧
    ∀ (text text' : String) (file file' : Option String), 0 ∉ Text.utf8 text → 0 ∉ Text.utf8 text' →
      let tokens := tokenize text file
      let tokens' := tokenize text' file'
      let parsed := parse text file
      let parsed' := parse text' file'
      tokens.map Token.said = tokens'.map Token.said →
      parsed.program.relabel (.numbered tokens) = parsed'.program.relabel (.numbered tokens') ∧
        (∀ node ∈ parsed.program.nodes, node.token ∈ tokens) ∧
        parsed.program.text = parsed'.program.text ∧
        parsed.diagnostics.map (fun d => (d.cause, indexAt tokens d.position)) =
          parsed'.diagnostics.map (fun d => (d.cause, indexAt tokens' d.position)) ∧
        ∀ d ∈ parsed.diagnostics, indexAt tokens d.position < tokens.length := by
  refine ⟨fun source text file file' ascii zero_free writes =>
    said_tokenize_of_writes ascii zero_free writes file', ?_⟩
  intro text text' file file' zero_free zero_free' tokens tokens' parsed parsed' same
  obtain ⟨program, diagnostics⟩ := parse_numbered zero_free zero_free' same
  refine ⟨program, fun node mem => ?_, ?_, ?_, fun d mem => ?_⟩
  · obtain ⟨rest, drawn⟩ := drawn_parse text file
    change node.token ∈ tokenize text file
    rw [Lexer.tokenize_eq zero_free]
    exact List.mem_append_left _ (drawn.token_mem List.suffix_rfl mem).1
  · have text_eq := congrArg Program.text program
    rwa [Program.text_relabel (Replacement.value_token _),
      Program.text_relabel (Replacement.value_token _)] at text_eq
  · have indices := congrArg (List.map fun d => (d.cause, d.position.offset)) diagnostics
    rwa [List.map_map, List.map_map] at indices
  · obtain ⟨place, chronicle⟩ := chronicle_parse zero_free file
    obtain ⟨token, mem, position, -⟩ := chronicle.true_of d mem
    rw [← position]
    exact indexAt_lt mem

/-- A text on one line and the same on three, with an error at the fourth token of both. -/
theorem layout_free_lines :
    let source := "let a=(1;b"
    let text := "let\ta\n=\r\n(  1 ; b\n"
    ((∀ b ∈ Text.utf8 source, b < 0x80) ∧ 0 ∉ Text.utf8 source ∧
        Writes ((tokenize source none).dropLast.map (·.value)) text) ∧
      (tokenize text (some "b")).map Token.said = (tokenize source none).map Token.said ∧
      (parse source none).diagnostics.map
          (fun d => (d.cause, indexAt (tokenize source none) d.position)) =
        (parse text (some "b")).diagnostics.map
          (fun d => (d.cause, indexAt (tokenize text (some "b")) d.position)) ∧
      (parse source none).program.text = (parse text (some "b")).program.text := by
  have writes : Writes ((tokenize "let a=(1;b" none).dropLast.map (·.value))
      "let\ta\n=\r\n(  1 ; b\n" :=
    ⟨"", [("let", "\t"), ("a", "\n"), ("=", "\r\n"), ("(", "  "), ("1", " "), (";", " "),
      ("b", "\n")], by decide, by decide +kernel, by decide, by decide, by decide⟩
  have ascii : ∀ b ∈ Text.utf8 "let a=(1;b", b < 0x80 := by decide +kernel
  have same := layout_free.1 "let a=(1;b" "let\ta\n=\r\n(  1 ; b\n" none (some "b") ascii
    (by decide) writes
  obtain ⟨-, -, text, diagnostics, -⟩ := layout_free.2 "let a=(1;b" "let\ta\n=\r\n(  1 ; b\n" none
    (some "b") (by decide) (by decide) same.symm
  exact ⟨⟨ascii, by decide, writes⟩, same, diagnostics, text⟩

end Monkey
