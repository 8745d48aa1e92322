import Mathlib.Data.List.TakeWhile
import Monkey.Token.Lexer

/-!
# Lexemes

`IsLexeme` says which bytes make one token, and of which kind, without saying how they are found:
the two operators of two bytes, the bytes that stand for themselves, the reserved words, the other
words, the digit strings, the zero byte, and any other byte that is not blank. `Longest` picks the
one that maximal munch takes.

Results:
* `longest_read`: where no blank stands, `Lexeme.read` takes the longest lexeme.
* `read_of_isLexeme`: read by itself, a lexeme is taken as a whole, so it has one kind
  (`IsLexeme.kind_unique`).
-/

namespace Monkey

/-! ## What a lexeme is -/

/-- The bytes of one token, and the kind they have. -/
inductive IsLexeme : Kind → List UInt8 → Prop
  | zero : IsLexeme .eof [0]
  | equal : IsLexeme .eq ['='.toUInt8, '='.toUInt8]
  | notEqual : IsLexeme .notEq ['!'.toUInt8, '='.toUInt8]
  | symbol {kind : Kind} {byte : UInt8} (listed : (byte, kind) ∈ Kind.symbols) :
      IsLexeme kind [byte]
  | keyword {kind : Kind} {word : String} (listed : (word, kind) ∈ Kind.keywords) :
      IsLexeme kind (Text.utf8 word)
  | name {bytes : List UInt8} (some : bytes ≠ []) (letters : ∀ b ∈ bytes, isLetter b = true)
      (free : ∀ entry ∈ Kind.keywords, Text.utf8 entry.1 ≠ bytes) : IsLexeme .ident bytes
  | digits {bytes : List UInt8} (some : bytes ≠ []) (digits : ∀ b ∈ bytes, isDigit b = true) :
      IsLexeme .int bytes
  | other {byte : UInt8} (zero : byte ≠ 0) (blank : isBlank byte = false)
      (letter : isLetter byte = false) (digit : isDigit byte = false)
      (symbol : ∀ entry ∈ Kind.symbols, entry.1 ≠ byte) : IsLexeme .illegal [byte]

/-- Of the lexemes that `bytes` begin with, the longest. -/
structure Longest (bytes : List UInt8) (kind : Kind) (lexeme : List UInt8) : Prop where
  isLexeme : IsLexeme kind lexeme
  begins : lexeme <+: bytes
  longest : ∀ {other : Kind} {longer : List UInt8}, IsLexeme other longer → longer <+: bytes →
    longer.length ≤ lexeme.length

/-! ## Classes of bytes -/

theorem symbol_of_ofSymbol? {byte : UInt8} {kind : Kind} (h : Kind.ofSymbol? byte = some kind) :
    (byte, kind) ∈ Kind.symbols := by
  obtain ⟨before, after, split, -⟩ := List.lookup_eq_some_iff.mp h
  rw [split]
  simp

theorem not_symbol_of_ofSymbol? {byte : UInt8} (h : Kind.ofSymbol? byte = none)
    {entry : UInt8 × Kind} (listed : entry ∈ Kind.symbols) : entry.1 ≠ byte := by
  have := List.lookup_eq_none_iff.mp h entry listed
  exact fun same => by simp [same] at this

/-- What stands for itself is neither zero nor blank, nor part of a word or a number. -/
theorem symbol_byte : ∀ entry ∈ Kind.symbols, entry.1 ≠ 0 ∧ isBlank entry.1 = false ∧
    isLetter entry.1 = false ∧ isDigit entry.1 = false := by
  decide

theorem ofSymbol?_of_letter {byte : UInt8} (h : isLetter byte = true) :
    Kind.ofSymbol? byte = none := by
  cases found : Kind.ofSymbol? byte with
  | none => rfl
  | some kind =>
    obtain ⟨-, -, letter, -⟩ := symbol_byte _ (symbol_of_ofSymbol? found)
    exact absurd h (by simp [letter])

theorem ofSymbol?_of_digit {byte : UInt8} (h : isDigit byte = true) :
    Kind.ofSymbol? byte = none := by
  cases found : Kind.ofSymbol? byte with
  | none => rfl
  | some kind =>
    obtain ⟨-, -, -, digit⟩ := symbol_byte _ (symbol_of_ofSymbol? found)
    exact absurd h (by simp [digit])

theorem isLetter_ascii {byte : UInt8} (h : isLetter byte = true) : byte < 0x80 := by
  simp only [isLetter, Bool.or_eq_true, Bool.and_eq_true, decide_eq_true_eq, beq_iff_eq] at h
  rcases h with ((⟨-, h⟩ | ⟨-, h⟩) | rfl) | rfl
  · exact UInt8.lt_of_le_of_lt h (by decide)
  · exact UInt8.lt_of_le_of_lt h (by decide)
  · decide
  · decide

theorem isDigit_ascii {byte : UInt8} (h : isDigit byte = true) : byte < 0x80 := by
  simp only [isDigit, Bool.and_eq_true, decide_eq_true_eq] at h
  exact UInt8.lt_of_le_of_lt h.2 (by decide)

theorem isBlank_ascii {byte : UInt8} (h : isBlank byte = true) : byte < 0x80 := by
  simp only [isBlank, Bool.or_eq_true, beq_iff_eq] at h
  rcases h with ((rfl | rfl) | rfl) | rfl <;> decide

/-- Letters and digits are apart. -/
theorem isDigit_of_letter {byte : UInt8} (h : isLetter byte = true) : isDigit byte = false := by
  cases digit : isDigit byte with
  | false => rfl
  | true =>
    simp only [isDigit, Bool.and_eq_true, decide_eq_true_eq] at digit
    simp only [isLetter, Bool.or_eq_true, Bool.and_eq_true, decide_eq_true_eq, beq_iff_eq] at h
    rcases h with ((⟨low, -⟩ | ⟨low, -⟩) | rfl) | rfl
    · exact absurd (UInt8.le_trans low digit.2) (by decide)
    · exact absurd (UInt8.le_trans low digit.2) (by decide)
    · exact absurd digit.2 (by decide)
    · exact absurd digit.2 (by decide)

/-! ## Reading a lexeme -/

/-- A word is read as far as the letters go. -/
theorem read_letter {byte : UInt8} (letter : isLetter byte = true) (rest : List UInt8) :
    Lexeme.read (byte :: rest) =
      ⟨.ofWord (Text.ofBytes (byte :: rest.takeWhile isLetter)),
        byte :: rest.takeWhile isLetter⟩ := by
  have zero : byte ≠ 0 := fun h => by subst h; exact absurd letter (by decide)
  have equal : byte ≠ '='.toUInt8 := fun h => by subst h; exact absurd letter (by decide)
  have bang : byte ≠ '!'.toUInt8 := fun h => by subst h; exact absurd letter (by decide)
  rw [Lexeme.read, if_neg zero, if_neg fun h => equal h.1, if_neg fun h => bang h.1,
    ofSymbol?_of_letter letter]
  exact if_pos letter

/-- A number is read as far as the digits go. -/
theorem read_digit {byte : UInt8} (digit : isDigit byte = true) (rest : List UInt8) :
    Lexeme.read (byte :: rest) = ⟨.int, byte :: rest.takeWhile isDigit⟩ := by
  have zero : byte ≠ 0 := fun h => by subst h; exact absurd digit (by decide)
  have equal : byte ≠ '='.toUInt8 := fun h => by subst h; exact absurd digit (by decide)
  have bang : byte ≠ '!'.toUInt8 := fun h => by subst h; exact absurd digit (by decide)
  have letter : ¬ isLetter byte = true := fun h => by
    rw [isDigit_of_letter h] at digit
    exact absurd digit (by decide)
  rw [Lexeme.read, if_neg zero, if_neg fun h => equal h.1, if_neg fun h => bang h.1,
    ofSymbol?_of_digit digit]
  simp only [if_neg letter, if_pos digit]

/-- An ASCII byte is its own UTF-8 form. -/
theorem utf8EncodeChar_charOfByte {byte : UInt8} (ascii : byte < 0x80) :
    String.utf8EncodeChar (Text.charOfByte byte) = [byte] := by
  have all : ∀ n : Fin 128,
      String.utf8EncodeChar (Text.charOfByte (UInt8.ofNat n)) = [UInt8.ofNat n] := by decide
  simpa using all ⟨byte.toNat, ascii⟩

/-- ASCII bytes read back as the text they spell. -/
theorem utf8_ofBytes {bytes : List UInt8} (ascii : ∀ b ∈ bytes, b < 0x80) :
    Text.utf8 (Text.ofBytes bytes) = bytes := by
  induction bytes with
  | nil => rfl
  | cons b rest ih =>
    have later := ih fun c h => ascii c (List.mem_cons_of_mem b h)
    simp only [Text.utf8, Text.ofBytes, String.toList_ofList, List.map_cons, List.flatMap_cons]
      at later ⊢
    rw [utf8EncodeChar_charOfByte (ascii b List.mem_cons_self), later]
    rfl

/-- The reserved words are ASCII words. -/
theorem keyword_bytes : ∀ entry ∈ Kind.keywords, Text.ofBytes (Text.utf8 entry.1) = entry.1 ∧
    Text.utf8 entry.1 ≠ [] ∧ (Text.utf8 entry.1).all isLetter = true := by
  decide

/-- A word has the kind of the reserved word it is, or else that of a name. -/
theorem isLexeme_word {bytes : List UInt8} (some : bytes ≠ [])
    (letters : ∀ b ∈ bytes, isLetter b = true) :
    IsLexeme (.ofWord (Text.ofBytes bytes)) bytes := by
  have spelt : Text.utf8 (Text.ofBytes bytes) = bytes :=
    utf8_ofBytes fun b h => isLetter_ascii (letters b h)
  unfold Kind.ofWord
  cases found : Kind.keywords.lookup (Text.ofBytes bytes) with
  | some kind =>
    obtain ⟨before, after, split, -⟩ := List.lookup_eq_some_iff.mp found
    have listed : (Text.ofBytes bytes, kind) ∈ Kind.keywords := by rw [split]; simp
    rw [← spelt]
    exact spelt.symm ▸ IsLexeme.keyword listed
  | none =>
    refine .name some letters fun entry listed same => ?_
    have := List.lookup_eq_none_iff.mp found entry listed
    rw [← same, (keyword_bytes entry listed).1] at this
    simp at this

/-- Where no blank stands a lexeme is read. -/
theorem isLexeme_read {byte : UInt8} (nonblank : isBlank byte = false) (rest : List UInt8) :
    IsLexeme (Lexeme.read (byte :: rest)).kind (Lexeme.read (byte :: rest)).bytes := by
  rw [Lexeme.read]
  split
  · next zero => exact zero ▸ .zero
  split
  · next equal => exact equal.1 ▸ .equal
  split
  · next bang => exact bang.1 ▸ .notEqual
  split
  · next kind found => exact .symbol (symbol_of_ofSymbol? found)
  next zero _ _ _ missing =>
  split
  · next letter =>
    exact isLexeme_word (by simp) fun b h => by
      rcases List.mem_cons.mp h with rfl | h
      · exact letter
      · exact List.mem_takeWhile_imp h
  split
  · next digit =>
    exact .digits (by simp) fun b h => by
      rcases List.mem_cons.mp h with rfl | h
      · exact digit
      · exact List.mem_takeWhile_imp h
  · next letter digit =>
    exact .other zero nonblank (by simpa using letter) (by simpa using digit)
      fun entry listed => not_symbol_of_ofSymbol? missing listed

/-! ## The longest lexeme -/

/-- A run that begins some bytes is no longer than the longest such run. -/
theorem length_le_of_run {p : UInt8 → Bool} {run : List UInt8} {byte : UInt8} {rest : List UInt8}
    (all : ∀ b ∈ run, p b = true) (begins : run <+: byte :: rest) (first : p byte = true) :
    run.length ≤ (byte :: rest.takeWhile p).length := by
  obtain ⟨after, split⟩ := begins
  have := congrArg (List.takeWhile p) split
  rw [List.takeWhile_append_of_pos all, List.takeWhile_cons_of_pos first] at this
  rw [← this, List.length_append]
  omega

/-- The first byte of a run is of its class. -/
theorem first_of_run {p : UInt8 → Bool} {run : List UInt8} {byte : UInt8} {rest : List UInt8}
    (some : run ≠ []) (all : ∀ b ∈ run, p b = true) (begins : run <+: byte :: rest) :
    p byte = true := by
  obtain ⟨b, tail, rfl⟩ := List.exists_cons_of_ne_nil some
  rw [List.cons_prefix_cons] at begins
  exact begins.1 ▸ all b List.mem_cons_self

theorem length_le_read_word {word : List UInt8} {byte : UInt8} {rest : List UInt8}
    (some : word ≠ []) (letters : ∀ b ∈ word, isLetter b = true) (begins : word <+: byte :: rest) :
    word.length ≤ (Lexeme.read (byte :: rest)).bytes.length := by
  have first := first_of_run some letters begins
  rw [read_letter first]
  exact length_le_of_run letters begins first

/-- No lexeme at the start of some bytes is longer than the one that is read. -/
theorem length_le_read {kind : Kind} {lexeme : List UInt8} {byte : UInt8} {rest : List UInt8}
    (h : IsLexeme kind lexeme) (begins : lexeme <+: byte :: rest) :
    lexeme.length ≤ (Lexeme.read (byte :: rest)).bytes.length := by
  have one : 1 ≤ (Lexeme.read (byte :: rest)).bytes.length :=
    List.length_pos_iff.mpr (Lexeme.read_bytes_ne_nil (by simp))
  cases h with
  | zero => exact one
  | symbol => exact one
  | other => exact one
  | equal =>
    obtain ⟨after, split⟩ := begins
    obtain ⟨rfl, rfl⟩ := List.cons.inj split
    rfl
  | notEqual =>
    obtain ⟨after, split⟩ := begins
    obtain ⟨rfl, rfl⟩ := List.cons.inj split
    rfl
  | keyword listed =>
    obtain ⟨-, some, letters⟩ := keyword_bytes _ listed
    rw [List.all_eq_true] at letters
    exact length_le_read_word some letters begins
  | name some letters => exact length_le_read_word some letters begins
  | digits some digits =>
    have first := first_of_run some digits begins
    rw [read_digit first]
    exact length_le_of_run digits begins first

/-- **Maximal munch**: where no blank stands, the longest lexeme is read. -/
theorem longest_read {byte : UInt8} (nonblank : isBlank byte = false) (rest : List UInt8) :
    Longest (byte :: rest) (Lexeme.read (byte :: rest)).kind
      (Lexeme.read (byte :: rest)).bytes where
  isLexeme := isLexeme_read nonblank rest
  begins := ⟨_, Lexeme.read_append_drop _⟩
  longest h begins := length_le_read h begins

/-! ## One kind for each lexeme -/

/-- Read by itself, a lexeme is taken as a whole. -/
theorem read_of_isLexeme {kind : Kind} {lexeme : List UInt8} (h : IsLexeme kind lexeme) :
    Lexeme.read lexeme = ⟨kind, lexeme⟩ := by
  cases h with
  | zero => rfl
  | equal => decide
  | notEqual => decide
  | symbol listed =>
    have all : ∀ entry ∈ Kind.symbols, Lexeme.read [entry.1] = ⟨entry.2, [entry.1]⟩ := by decide
    exact all _ listed
  | keyword listed =>
    have all : ∀ entry ∈ Kind.keywords,
        Lexeme.read (Text.utf8 entry.1) = ⟨entry.2, Text.utf8 entry.1⟩ := by decide
    exact all _ listed
  | name some letters free =>
    obtain ⟨byte, rest, rfl⟩ := List.exists_cons_of_ne_nil some
    have ident : Kind.ofWord (Text.ofBytes (byte :: rest)) = .ident := by
      unfold Kind.ofWord
      cases found : Kind.keywords.lookup (Text.ofBytes (byte :: rest)) with
      | none => rfl
      | some kind =>
        obtain ⟨before, after, split, -⟩ := List.lookup_eq_some_iff.mp found
        refine absurd (utf8_ofBytes fun b h => isLetter_ascii (letters b h))
          (free (Text.ofBytes (byte :: rest), kind) ?_)
        rw [split]
        simp
    rw [read_letter (letters byte List.mem_cons_self),
      List.takeWhile_eq_self_iff.mpr fun b h => letters b (List.mem_cons_of_mem byte h), ident]
  | digits some digits =>
    obtain ⟨byte, rest, rfl⟩ := List.exists_cons_of_ne_nil some
    rw [read_digit (digits byte List.mem_cons_self),
      List.takeWhile_eq_self_iff.mpr fun b h => digits b (List.mem_cons_of_mem byte h)]
  | @other byte zero blank letter digit symbol =>
    have missing : Kind.ofSymbol? byte = none := by
      cases found : Kind.ofSymbol? byte with
      | none => rfl
      | some kind => exact absurd rfl (symbol _ (symbol_of_ofSymbol? found))
    rw [Lexeme.read, if_neg zero, if_neg fun h => absurd h.2 (by simp),
      if_neg fun h => absurd h.2 (by simp), missing]
    simp [letter, digit]

theorem IsLexeme.kind_unique {a b : Kind} {lexeme : List UInt8} (h : IsLexeme a lexeme)
    (k : IsLexeme b lexeme) : a = b := by
  have := (read_of_isLexeme h).symm.trans (read_of_isLexeme k)
  exact congrArg Lexeme.kind this

theorem IsLexeme.ne_nil {kind : Kind} {lexeme : List UInt8} (h : IsLexeme kind lexeme) :
    lexeme ≠ [] := by
  cases h with
  | keyword listed => exact (keyword_bytes _ listed).2.1
  | name some => exact some
  | digits some => exact some
  | _ => simp

/-- A lexeme is ASCII, or a single byte that belongs to no token. -/
theorem IsLexeme.ascii {kind : Kind} {lexeme : List UInt8} (h : IsLexeme kind lexeme) :
    (∀ b ∈ lexeme, b < 0x80) ∨ ∃ b, ¬ b < 0x80 ∧ lexeme = [b] ∧ kind = .illegal := by
  cases h with
  | zero => left; rw [List.forall_mem_singleton]; decide
  | equal => left; rw [List.forall_mem_cons, List.forall_mem_singleton]; decide
  | notEqual => left; rw [List.forall_mem_cons, List.forall_mem_singleton]; decide
  | symbol listed =>
    have all : ∀ entry ∈ Kind.symbols, entry.1 < 0x80 := by decide
    exact .inl (by simpa using all _ listed)
  | keyword listed =>
    exact .inl fun b h => isLetter_ascii (List.all_eq_true.mp (keyword_bytes _ listed).2.2 b h)
  | name some letters => exact .inl fun b h => isLetter_ascii (letters b h)
  | digits some digits => exact .inl fun b h => isDigit_ascii (digits b h)
  | @other byte =>
    by_cases ascii : byte < 0x80
    · exact .inl (by simpa using ascii)
    · exact .inr ⟨byte, ascii, rfl, rfl⟩

/-- A lexeme is the zero byte, or has none. -/
theorem IsLexeme.zero_iff {kind : Kind} {lexeme : List UInt8} (h : IsLexeme kind lexeme) :
    (kind = .eof ∧ lexeme = [0]) ∨ (kind ≠ .eof ∧ 0 ∉ lexeme) := by
  cases h with
  | zero => exact .inl ⟨rfl, rfl⟩
  | equal => right; decide
  | notEqual => right; decide
  | symbol listed =>
    have all : ∀ entry ∈ Kind.symbols, entry.2 ≠ .eof ∧ 0 ∉ [entry.1] := by decide
    exact .inr (all _ listed)
  | keyword listed =>
    have all : ∀ entry ∈ Kind.keywords, entry.2 ≠ .eof ∧ 0 ∉ Text.utf8 entry.1 := by decide
    exact .inr (all _ listed)
  | name some letters => exact .inr ⟨by decide, fun h => absurd (letters 0 h) (by decide)⟩
  | digits some digits => exact .inr ⟨by decide, fun h => absurd (digits 0 h) (by decide)⟩
  | other zero => exact .inr ⟨by decide, by simpa using zero.symm⟩

/-- A blank is in no class that passes none of the four. -/
theorem isBlank_of_class {p : UInt8 → Bool} {byte : UInt8} (h : p byte = true)
    (space : p 0x20 = false) (tab : p 0x09 = false) (lf : p 0x0A = false) (cr : p 0x0D = false) :
    isBlank byte = false := by
  simp only [isBlank, Bool.or_eq_false_iff, beq_eq_false_iff_ne]
  refine ⟨⟨⟨?_, ?_⟩, ?_⟩, ?_⟩ <;> rintro rfl <;> simp_all

/-- No blank is part of a lexeme. -/
theorem IsLexeme.not_blank {kind : Kind} {lexeme : List UInt8} (h : IsLexeme kind lexeme) :
    ∀ b ∈ lexeme, isBlank b = false := by
  have letter {b : UInt8} (h : isLetter b = true) : isBlank b = false :=
    isBlank_of_class h (by decide) (by decide) (by decide) (by decide)
  have digit {b : UInt8} (h : isDigit b = true) : isBlank b = false :=
    isBlank_of_class h (by decide) (by decide) (by decide) (by decide)
  cases h with
  | zero => rw [List.forall_mem_singleton]; decide
  | equal => rw [List.forall_mem_cons, List.forall_mem_singleton]; decide
  | notEqual => rw [List.forall_mem_cons, List.forall_mem_singleton]; decide
  | symbol listed => simpa using (symbol_byte _ listed).2.1
  | keyword listed => exact fun b h => letter (List.all_eq_true.mp (keyword_bytes _ listed).2.2 b h)
  | name some letters => exact fun b h => letter (letters b h)
  | digits some digits => exact fun b h => digit (digits b h)
  | other zero blank => simpa using blank

end Monkey
