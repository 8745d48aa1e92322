import Monkey.Proofs.Source.Slice

/-!
# The scanner is the lexer

A scanner moves a cursor over the bytes of a text, a lexer drops bytes from a list. `InText` is the
invariant of the cursor, and under it a scanner stands for a lexer, `Scanner.lexer`: each of its steps
is one of the lexer. What the scanner does more than the lexer is to cut slices, which can fail; the
slices it asks for are runs of bytes of ASCII, and these always can be cut.

Results:
* `Scanner.InText.next`: a step of the scanner succeeds, and it is a step of the lexer.
* `Scanner.cursor_safe`: all calls succeed and keep the invariant; each of them moves the cursor until
  it is at the end, where it stays.
-/

namespace Monkey

theorem Lexer.skip_skip (lexer : Lexer) (m n : Nat) :
    (lexer.skip m).skip n = lexer.skip (m + n) := by
  simp [skip, Nat.add_assoc]

/-- No word is an `eof`. -/
theorem Kind.ofWord_ne_eof (word : String) : ofWord word ≠ .eof := by
  have listed : ∀ entry ∈ keywords, entry.2 ≠ .eof := by decide
  unfold ofWord
  cases found : keywords.lookup word with
  | none => exact nofun
  | some kind =>
    obtain ⟨before, after, split, -⟩ := List.lookup_eq_some_iff.mp found
    exact listed (word, kind) (by simp [split])

namespace Scanner

/-- The cursor is at a byte of the text, or at its end. -/
structure InText (s : Scanner) : Prop where
  readPos_eq : s.readPos = s.pos + 1
  pos_le : s.pos ≤ s.size
  ch_eq : s.ch = (Text.utf8 s.source).getD s.pos 0

/-- The lexer at the cursor. -/
def lexer (s : Scanner) : Lexer :=
  ⟨s.file, s.pos, (Text.utf8 s.source).drop s.pos⟩

/-- From `s` a scanner came to `t`, where it stands for the given lexer. -/
structure Reaches (s : Scanner) (lexer : Lexer) (t : Scanner) : Prop where
  inText : t.InText
  source : t.source = s.source
  lexer_eq : t.lexer = lexer

variable {s t u : Scanner} {lexer : Lexer}

namespace Reaches

theorem trans {middle : Lexer} (h : Reaches s middle t) (k : Reaches t lexer u) :
    Reaches s lexer u :=
  ⟨k.inText, k.source.trans h.source, k.lexer_eq⟩

theorem size (h : Reaches s lexer t) : t.size = s.size := by
  rw [Scanner.size, Scanner.size, h.source]

theorem pos (h : Reaches s lexer t) : t.pos = lexer.offset :=
  congrArg Lexer.offset h.lexer_eq

/-- Where a scanner came is determined by the lexer it stands for. -/
theorem unique (h : Reaches s lexer t) (k : Reaches s lexer u) : t = u := by
  have lexers := h.lexer_eq.trans k.lexer_eq.symm
  have file : t.file = u.file := congrArg Lexer.file lexers
  have pos : t.pos = u.pos := h.pos.trans k.pos.symm
  have source := h.source.trans k.source.symm
  have readPos := h.inText.readPos_eq
  have ch := h.inText.ch_eq
  rw [pos] at readPos ch
  rw [source] at ch
  rw [← k.inText.readPos_eq] at readPos
  rw [← k.inText.ch_eq] at ch
  cases t
  cases u
  simp_all

end Reaches

/-! ## The cursor -/

/-- Reading a byte leaves the cursor in the text. -/
theorem inText_readChar (s : Scanner) : s.readChar.InText where
  readPos_eq := Nat.add_min_add_right _ _ _
  pos_le := Nat.min_le_right _ _
  ch_eq := by
    change (Text.utf8 s.source).getD s.readPos 0 =
      (Text.utf8 s.source).getD (min s.readPos s.size) 0
    rcases Nat.le_total s.readPos s.size with inside | past
    · rw [Nat.min_eq_left inside]
    · rw [Nat.min_eq_right past]
      simp [size, List.getElem?_eq_none past]

theorem lexer_ofText (text : String) (file : Option String) :
    (ofText text file).lexer = .ofText text file := by
  simp [ofText, readChar, lexer, Lexer.ofText]

theorem rest_eq_nil (done : ¬ s.pos < s.size) : s.lexer.rest = [] :=
  List.drop_eq_nil_of_le (Nat.le_of_not_lt done)

/-- The byte after the current one is the first of those after it. -/
theorem peekChar_eq_iff {byte : UInt8} (more : byte ≠ 0) :
    s.peekChar = byte ↔ ((Text.utf8 s.source).drop s.readPos).head? = some byte := by
  rw [List.head?_drop, peekChar, List.getD_eq_getElem?_getD]
  cases (Text.utf8 s.source)[s.readPos]? with
  | none => simpa using more.symm
  | some b => simp

namespace InText

theorem refl (h : s.InText) : Reaches s s.lexer s := ⟨h, rfl, rfl⟩

theorem within (h : s.InText) : s.lexer.Within (Text.utf8 s.source) := ⟨rfl, h.pos_le⟩

/-- Before the end the current byte is the first of those left. -/
theorem rest_eq (h : s.InText) (inside : s.pos < s.size) :
    s.lexer.rest = s.ch :: (Text.utf8 s.source).drop s.readPos := by
  have bound : s.pos < (Text.utf8 s.source).length := inside
  have ch : s.ch = (Text.utf8 s.source)[s.pos] := by
    rw [h.ch_eq, List.getD_eq_getElem?_getD, List.getElem?_eq_getElem bound, Option.getD_some]
  rw [ch, h.readPos_eq]
  exact List.drop_eq_getElem_cons bound

/-- At the end the current byte is zero. -/
theorem ch_eq_zero (h : s.InText) (done : ¬ s.pos < s.size) : s.ch = 0 := by
  rw [h.ch_eq, List.getD_eq_getElem?_getD, List.getElem?_eq_none (Nat.le_of_not_lt done),
    Option.getD_none]

/-- Before the end a byte is read. -/
theorem readChar (h : s.InText) (inside : s.pos < s.size) :
    Reaches s (s.lexer.skip 1) s.readChar where
  inText := inText_readChar s
  source := rfl
  lexer_eq := by
    have pos : s.readChar.pos = s.pos + 1 := by
      change min s.readPos s.size = s.pos + 1
      rw [h.readPos_eq]
      exact Nat.min_eq_left inside
    simp only [Scanner.lexer, Lexer.skip, List.drop_drop, pos]
    rfl

/-- At the end nothing is read. -/
theorem readChar_of_end (h : s.InText) (done : ¬ s.pos < s.size) : s.readChar = s := by
  have pos : s.readChar.pos = s.pos := by
    change min s.readPos s.size = s.pos
    rw [h.readPos_eq]
    have := h.pos_le
    omega
  have still : Reaches s s.lexer s.readChar := by
    refine ⟨inText_readChar s, rfl, ?_⟩
    rw [Scanner.lexer, pos]
    rfl
  exact still.unique h.refl

/-- A run of bytes is read as far as the lexer reads it. -/
theorem skipWhile (h : s.InText) (accept : UInt8 → Bool) (stops : accept 0 = false) :
    Reaches s (s.lexer.skip (s.lexer.rest.takeWhile accept).length) (s.skipWhile accept stops) := by
  fun_induction Scanner.skipWhile accept stops s with
  | case1 s accepted ih =>
    have inside : s.pos < s.size := by
      by_contra done
      rw [h.ch_eq_zero done, stops] at accepted
      exact absurd accepted nofun
    have read := h.readChar inside
    have left : s.lexer.rest = s.ch :: s.readChar.lexer.rest := by
      rw [read.lexer_eq, Lexer.skip, h.rest_eq inside]
      rfl
    have later := read.trans (ih read.inText)
    rw [read.lexer_eq, Lexer.skip_skip, ← read.lexer_eq, Nat.add_comm] at later
    rwa [left, List.takeWhile_cons_of_pos accepted, List.length_cons]
  | case2 s rejected =>
    have none : s.lexer.rest.takeWhile accept = [] := by
      by_cases inside : s.pos < s.size
      · rw [h.rest_eq inside, List.takeWhile_cons_of_neg rejected]
      · rw [rest_eq_nil inside, List.takeWhile_nil]
    rw [none]
    exact h.refl

end InText

/-! ## Tokens -/

/-- What the scanner does at a token, if it is what the lexer does there. -/
def ReadsToken (s : Scanner) (result : Option (Token × Scanner)) : Prop :=
  ∃ t, result = some (s.lexer.readToken.1, t) ∧ Reaches s s.lexer.readToken.2 t

/-- The lexer reads an operator of two bytes as the table has it. -/
theorem exists_read_pair {first : UInt8} {rest : List UInt8}
    (begins : first = '='.toUInt8 ∨ first = '!'.toUInt8) (second : rest.head? = some '='.toUInt8) :
    ∃ kind bytes, Lexeme.read (first :: rest) = ⟨kind, bytes⟩ ∧ bytes.length = 2 ∧
      Kind.ofPair? (Text.ofBytes bytes) = some kind ∧ kind ≠ .eof ∧ ∀ b ∈ bytes, b < 0x80 := by
  have low (byte : UInt8) (ascii : byte < 0x80) : ∀ b ∈ [byte, '='.toUInt8], b < 0x80 := by
    rw [List.forall_mem_cons, List.forall_mem_singleton]
    exact ⟨ascii, by decide⟩
  rcases begins with rfl | rfl
  · refine ⟨.eq, _, ?_, rfl, by decide, by decide, low '='.toUInt8 (by decide)⟩
    rw [Lexeme.read, if_neg (by decide), if_pos ⟨rfl, second⟩]
  · refine ⟨.notEq, _, ?_, rfl, by decide, by decide, low '!'.toUInt8 (by decide)⟩
    rw [Lexeme.read, if_neg (by decide), if_neg fun pair => absurd pair.1 (by decide),
      if_pos ⟨rfl, second⟩]

section

variable {kind : Kind} {bytes : List UInt8}

/-- A lexeme other than `eof` that the scanner has moved past. -/
theorem ReadsToken.of_read (read : Lexeme.read s.lexer.rest = ⟨kind, bytes⟩) (kept : kind ≠ .eof)
    (past : Reaches s (s.lexer.skip bytes.length) t) :
    ReadsToken s (some (⟨kind, Text.ofBytes bytes, s.spanTo (s.pos + bytes.length)⟩, t)) := by
  have token : s.lexer.readToken =
      (⟨kind, Text.ofBytes bytes, s.spanTo (s.pos + bytes.length)⟩,
        s.lexer.skip bytes.length) := by
    rw [Lexer.readToken, read]
    simp only [Lexeme.value, Lexeme.width, if_neg kept]
    rfl
  rw [ReadsToken, token]
  exact ⟨t, rfl, past⟩

/-- A lexeme of ASCII is a slice of the text. -/
theorem slice?_of_read (inside : s.pos < s.size)
    (read : Lexeme.read s.lexer.rest = ⟨kind, bytes⟩) (ascii : ∀ b ∈ bytes, b < 0x80) :
    Text.slice? s.source s.pos (s.pos + bytes.length) = some (Text.ofBytes bytes) := by
  have text := Lexeme.read_append_drop s.lexer.rest
  have nonempty : (Lexeme.read s.lexer.rest).bytes ≠ [] := by
    refine Lexeme.read_bytes_ne_nil fun none => ?_
    have past := List.drop_eq_nil_iff.mp none
    exact absurd inside (Nat.not_lt_of_le past)
  rw [read] at text nonempty
  exact Text.slice?_of_run nonempty ascii ⟨_, text⟩

end

namespace InText

/-- A run of a class of ASCII bytes is read as one token. -/
theorem readRun (h : s.InText) {accept : UInt8 → Bool} {stops : accept 0 = false}
    {kind : String → Kind} (inside : s.pos < s.size)
    (read : Lexeme.read s.lexer.rest =
      ⟨kind (Text.ofBytes (s.lexer.rest.takeWhile accept)), s.lexer.rest.takeWhile accept⟩)
    (kept : kind (Text.ofBytes (s.lexer.rest.takeWhile accept)) ≠ .eof)
    (ascii : ∀ b, accept b = true → b < 0x80) :
    ReadsToken s (s.readRun accept stops kind) := by
  have after := h.skipWhile accept stops
  have pos : (s.skipWhile accept stops).pos = s.pos + (s.lexer.rest.takeWhile accept).length :=
    after.pos
  have slice := slice?_of_read inside read fun b mem => ascii b (List.mem_takeWhile_imp mem)
  rw [Scanner.readRun, pos, slice]
  exact .of_read read kept after

/-- An operator of two bytes is read as one token. -/
theorem readPair (h : s.InText) (inside : s.pos < s.size)
    (first : s.ch = '='.toUInt8 ∨ s.ch = '!'.toUInt8) (second : s.peekChar = '='.toUInt8) :
    ReadsToken s s.readPair := by
  obtain ⟨kind, bytes, read, two, found, kept, ascii⟩ :=
    exists_read_pair first ((peekChar_eq_iff (by decide)).mp second)
  rw [← h.rest_eq inside] at read
  have step := h.readChar inside
  have pos : s.readChar.pos = s.pos + 1 := step.pos
  have later : s.readChar.pos < s.readChar.size := by
    have left := Lexeme.length_bytes_read_le s.lexer.rest
    rw [read, two, Scanner.lexer, List.length_drop] at left
    rw [step.size, Scanner.size]
    omega
  have after : Reaches s (s.lexer.skip bytes.length) s.readChar.readChar := by
    have both := step.trans (step.inText.readChar later)
    rw [two]
    rwa [step.lexer_eq, Lexer.skip_skip] at both
  have slice := slice?_of_read inside read ascii
  have stop : s.readChar.readChar.pos = s.pos + bytes.length := after.pos
  rw [two] at slice
  rw [Scanner.readPair, pos, slice]
  simp only [Option.bind_eq_bind, Option.bind_some, found, Option.getD_some, stop]
  exact .of_read read kept after

/-- A byte that is not zero and begins no operator of two bytes is read by its class. -/
theorem read_single (h : s.InText) (inside : s.pos < s.size) (more : s.ch ≠ 0)
    (single : ¬ ((s.ch = '='.toUInt8 ∨ s.ch = '!'.toUInt8) ∧ s.peekChar = '='.toUInt8)) :
    Lexeme.read s.lexer.rest =
      match Kind.ofSymbol? s.ch with
      | some kind => ⟨kind, [s.ch]⟩
      | none =>
        if isLetter s.ch then
          ⟨.ofWord (Text.ofBytes (s.lexer.rest.takeWhile isLetter)), s.lexer.rest.takeWhile isLetter⟩
        else if isDigit s.ch then ⟨.int, s.lexer.rest.takeWhile isDigit⟩
        else ⟨.illegal, [s.ch]⟩ := by
  rw [peekChar_eq_iff (by decide)] at single
  rw [h.rest_eq inside, Lexeme.read, if_neg more, if_neg fun pair => single ⟨.inl pair.1, pair.2⟩,
    if_neg fun pair => single ⟨.inr pair.1, pair.2⟩]
  cases Kind.ofSymbol? s.ch with
  | some kind => rfl
  | none =>
    by_cases letter : isLetter s.ch
    · simp only [if_pos letter, List.takeWhile_cons_of_pos letter]
    · by_cases digit : isDigit s.ch
      · simp only [if_neg letter, if_pos digit, List.takeWhile_cons_of_pos digit]
      · simp only [if_neg letter, if_neg digit]

/-- Where a byte is read by itself, the scanner reads that byte. -/
theorem readByte (h : s.InText) (inside : s.pos < s.size) {kind : Kind} {value : String}
    (read : Lexeme.read s.lexer.rest = ⟨kind, [s.ch]⟩) (kept : kind ≠ .eof)
    (spelt : value = Text.ofBytes [s.ch]) :
    ReadsToken s (some (⟨kind, value, s.spanTo (s.pos + 1)⟩, s.readChar)) :=
  spelt ▸ .of_read read kept (h.readChar inside)

/-- A zero byte is read as an `eof`. -/
theorem readZero (h : s.InText) (inside : s.pos < s.size) (zero : s.ch = 0) :
    ReadsToken s (some (s.readSymbol .eof)) := by
  have read : Lexeme.read s.lexer.rest = ⟨.eof, [0]⟩ := by
    rw [h.rest_eq inside, zero]
    rfl
  have token : s.lexer.readToken =
      (⟨.eof, "", s.spanTo s.pos⟩, s.lexer.skip 1) := by
    rw [Lexer.readToken, read]
    rfl
  rw [ReadsToken, token]
  exact ⟨s.readChar, rfl, h.readChar inside⟩

/-- At the end an `eof` is read, and the cursor stays. -/
theorem readEnd (h : s.InText) (done : ¬ s.pos < s.size) :
    ReadsToken s (some (s.readSymbol .eof)) := by
  rw [ReadsToken, Lexer.readToken_of_rest_eq_nil (rest_eq_nil done)]
  exact ⟨s, congrArg (fun t => some (_, t)) (h.readChar_of_end done), h.refl⟩

/-- **The scanner reads the token that the lexer reads.** -/
theorem readToken (h : s.InText) : ReadsToken s s.readToken := by
  by_cases zero : s.ch = 0
  · have eof : s.readToken = some (s.readSymbol .eof) := by
      rw [Scanner.readToken, zero, if_neg fun pair => absurd pair.1 (by decide)]
      rfl
    rw [eof]
    by_cases inside : s.pos < s.size
    · exact h.readZero inside zero
    · exact h.readEnd inside
  have inside : s.pos < s.size := by
    by_contra done
    exact zero (h.ch_eq_zero done)
  rw [Scanner.readToken]
  split
  next pair => exact h.readPair inside pair.1 pair.2
  next single =>
  have read := h.read_single inside zero single
  have same : Kind.ofByte? s.ch = Kind.ofSymbol? s.ch := by
    rw [Kind.ofByte?, List.lookup_cons, beq_false_of_ne zero]
    rfl
  rw [same]
  cases found : Kind.ofSymbol? s.ch with
  | some kind =>
    rw [found] at read
    have listed : ∀ entry ∈ Kind.symbols, entry.2 ≠ .eof ∧
        String.singleton (Char.ofNat entry.1.toNat) = Text.ofBytes [entry.1] := by decide
    obtain ⟨kept, spelt⟩ := listed _ (symbol_of_ofSymbol? found)
    have := h.readByte inside read kept spelt
    simpa only [Scanner.readSymbol, if_neg kept] using this
  | none =>
    rw [found] at read
    by_cases letter : isLetter s.ch
    · simp only [if_pos letter] at read ⊢
      exact h.readRun inside read (Kind.ofWord_ne_eof _) fun b => isLetter_ascii
    by_cases digit : isDigit s.ch
    · simp only [if_neg letter, if_pos digit] at read ⊢
      exact h.readRun inside read nofun fun b => isDigit_ascii
    · simp only [if_neg letter, if_neg digit] at read ⊢
      exact h.readByte inside read nofun rfl

/-- **A step of the scanner succeeds, and it is a step of the lexer.** -/
theorem next (h : s.InText) :
    ∃ t, s.next = some (s.lexer.next.1, t) ∧ Reaches s s.lexer.next.2 t := by
  have blanks := h.skipWhile isBlank (by decide)
  obtain ⟨t, read, reaches⟩ := blanks.inText.readToken
  rw [blanks.lexer_eq] at read reaches
  exact ⟨t, read, blanks.trans reaches⟩

/-- And so is every number of steps: what is still to be read are the later tokens. -/
theorem after (h : s.InText) (n : Nat) :
    ∃ t, s.after n = some t ∧ t.InText ∧ t.source = s.source ∧ t.file = s.file ∧
      ∀ m, t.lexer.nth m = s.lexer.nth (n + m) := by
  induction n with
  | zero => exact ⟨s, rfl, h, rfl, rfl, fun m => by rw [Nat.zero_add]⟩
  | succ n ih =>
    obtain ⟨t, steps, inText, source, file, tokens⟩ := ih
    obtain ⟨u, step, reaches⟩ := inText.next
    refine ⟨u, ?_, reaches.inText, reaches.source.trans source, ?_, fun m => ?_⟩
    · rw [Scanner.after, steps]
      simp only [Option.bind_eq_bind, Option.bind_some, step]
      rfl
    · exact (congrArg Lexer.file reaches.lexer_eq).trans file
    · rw [reaches.lexer_eq, Nat.add_right_comm]
      exact tokens (m + 1)

end InText

end Scanner

/-! ## Progress -/

namespace Lexer

variable {text : String} {lexer : Lexer}

/-- Where bytes are left, a step moves on. -/
theorem offset_lt_next (more : lexer.rest ≠ []) : lexer.offset < lexer.next.2.offset := by
  change lexer.offset < lexer.offset + (lexer.rest.takeWhile isBlank).length +
    (Lexeme.read lexer.skipBlanks.rest).bytes.length
  by_cases blank : lexer.rest.takeWhile isBlank = []
  · have same : lexer.skipBlanks.rest = lexer.rest := by
      rw [skipBlanks, blank]
      rfl
    have := List.length_pos_iff.mpr (Lexeme.read_bytes_ne_nil more)
    rw [same]
    omega
  · have := List.length_pos_iff.mpr blank
    omega

/-- Where none are left, it does not. -/
theorem next_of_rest_eq_nil (none : lexer.rest = []) :
    lexer.next = (.endOfInput lexer.position, lexer) := by
  cases lexer
  subst none
  rfl

/-- Every token but a stray byte is a slice of the text. -/
theorem Within.slice?_next (h : lexer.Within (Text.utf8 text))
    (legal : lexer.next.1.kind ≠ .illegal) :
    Text.slice? text lexer.next.1.start lexer.next.1.stop = some lexer.next.1.value := by
  have stands := h.skipBlanks
  cases done : lexer.atEnd with
  | true =>
    have none : lexer.skipBlanks.rest = [] := List.isEmpty_iff.mp done
    have past := stands.rest_eq ▸ none
    have finish : lexer.skipBlanks.offset = byteWidth text.toList := by
      rw [← length_utf8]
      exact Nat.le_antisymm stands.offset_le (List.drop_eq_nil_iff.mp past)
    rw [next_of_atEnd done]
    refine Text.slice?_self ?_
    change IsEdge text.toList lexer.skipBlanks.offset
    exact finish ▸ .finish _
  | false =>
    have longest := h.longest done
    rw [Lexer.next, readToken] at legal ⊢
    generalize Lexeme.read lexer.skipBlanks.rest = lexeme at legal longest ⊢
    rcases longest.isLexeme.ascii with ascii | ⟨b, -, -, illegal⟩
    · by_cases eof : lexeme.kind = .eof
      · have edges := Text.isEdge_of_run longest.isLexeme.ne_nil ascii longest.begins
        rw [Lexeme.value, Lexeme.width, if_pos eof, if_pos eof]
        exact Text.slice?_self edges.1
      · rw [Lexeme.value, Lexeme.width, if_neg eof, if_neg eof]
        exact Text.slice?_of_run longest.isLexeme.ne_nil ascii longest.begins
    · exact absurd illegal legal

end Lexer

/-- **The cursor is safe.** No call of the scanner fails, however many there were before: the slices
that there are lie between two edges of characters, and the slices of tokens are among them. Between
calls the cursor is at a byte of the text, or at its end; a call moves it on, except from the end,
where every call gives the same `eof`. The tokens are those of the lexer. -/
theorem Scanner.cursor_safe (text : String) (file : Option String) :
    let size := (Text.utf8 text).length
    (∀ start stop, (Text.slice? text start stop).isSome ↔
      start ≤ stop ∧ stop ≤ size ∧ IsEdge text.toList start ∧ IsEdge text.toList stop) ∧
    ∀ n, ∃ s token t, (ofText text file).after n = some s ∧ s.next = some (token, t) ∧
      s.source = text ∧ s.InText ∧ token = (Lexer.ofText text file).nth n ∧
      (token.kind ≠ .illegal → Text.slice? text token.start token.stop = some token.value) ∧
      (s.pos < size → s.pos < t.pos) ∧
      (s.pos = size → t = s ∧ token = .endOfInput ⟨size, file.getD Lexer.defaultFile⟩) := by
  refine ⟨Text.isSome_slice? text, fun n => ?_⟩
  have begins : (ofText text file).InText := inText_readChar _
  obtain ⟨s, steps, inText, source, name, tokens⟩ := begins.after n
  obtain ⟨t, step, reaches⟩ := inText.next
  have within := inText.within
  rw [source] at within
  have finish : s.size = (Text.utf8 text).length := by
    rw [size, source]
    rfl
  refine ⟨s, _, t, steps, step, source, inText, ?_, within.slice?_next, fun inside => ?_,
    fun done => ?_⟩
  · rw [← lexer_ofText]
    exact tokens 0
  · rw [reaches.pos]
    have more : s.lexer.rest ≠ [] := by
      rw [inText.rest_eq (finish ▸ inside)]
      exact List.cons_ne_nil _ _
    exact Lexer.offset_lt_next more
  · have none : s.lexer.rest = [] := rest_eq_nil (Nat.not_lt_of_le (finish ▸ done.ge))
    rw [Lexer.next_of_rest_eq_nil none] at reaches ⊢
    refine ⟨reaches.unique inText.refl, ?_⟩
    change Token.endOfInput ⟨s.pos, s.file⟩ = _
    rw [done, name]
    rfl

end Monkey
