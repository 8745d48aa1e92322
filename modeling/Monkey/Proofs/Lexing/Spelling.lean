import Monkey.Proofs.Lexing.Concat

/-!
# Spelling words out

A word is a kind and an ASCII lexeme of that kind. Where words are written one after another, with
blanks before them or not, they are read back as they are, provided that none of them runs into what
follows: the next byte must not make it a longer lexeme. A blank never does.

Results:
* `Apart`: a lexeme is read as far as it goes if what follows it is apart (`Apart.read`).
* `Lexer.said_tokens`: words that are spelled out are read back.
* `Lexer.isWord_of_mem`: the tokens of an ASCII text are words.
* `Lexer.said_tokenize_of_writes`: a text that writes the values of another text, with blanks
  between them, has the same kinds and values.
-/

namespace Monkey

/-- What a token says, wherever it stands. -/
def Token.said (token : Token) : Kind × String := (token.kind, token.value)

/-- An ASCII lexeme, and its kind. -/
structure IsWord (word : Kind × String) : Prop where
  isLexeme : IsLexeme word.1 (Text.utf8 word.2)
  ascii : ∀ b ∈ Text.utf8 word.2, b < 0x80
  not_eof : word.1 ≠ .eof

/-- The next byte makes a lexeme no longer. -/
def Apart (lexeme rest : List UInt8) : Prop :=
  ∀ b ∈ rest.head?, ∀ kind, ¬ IsLexeme kind (lexeme ++ [b])

/-! ## Lexemes of more than one byte -/

/-- A lexeme of two bytes or more is a word, a number or one of two operators. -/
theorem IsLexeme.of_long {kind : Kind} {lexeme : List UInt8} (h : IsLexeme kind lexeme)
    (long : 1 < lexeme.length) :
    (∀ b ∈ lexeme, isLetter b = true) ∨ (∀ b ∈ lexeme, isDigit b = true) ∨
      lexeme = ['='.toUInt8, '='.toUInt8] ∨ lexeme = ['!'.toUInt8, '='.toUInt8] := by
  cases h with
  | zero => exact absurd long (Nat.lt_irrefl 1)
  | symbol => exact absurd long (Nat.lt_irrefl 1)
  | other => exact absurd long (Nat.lt_irrefl 1)
  | equal => exact .inr (.inr (.inl rfl))
  | notEqual => exact .inr (.inr (.inr rfl))
  | keyword listed => exact .inl (List.all_eq_true.mp (keyword_bytes _ listed).2.2)
  | name _ letters => exact .inl letters
  | digits _ digits => exact .inr (.inl digits)

/-- What a lexeme begins with is a lexeme. -/
theorem IsLexeme.of_prefix {kind : Kind} {lexeme first : List UInt8} (h : IsLexeme kind lexeme)
    (begins : first <+: lexeme) (some : first ≠ []) : ∃ kind', IsLexeme kind' first := by
  have pos := List.length_pos_iff.mpr some
  by_cases long : 1 < lexeme.length
  · have operator {byte : UInt8} (eq : lexeme = [byte, '='.toUInt8])
        (alone : ∃ kind', IsLexeme kind' [byte]) : ∃ kind', IsLexeme kind' first := by
      subst eq
      obtain ⟨b, rest, rfl⟩ := List.exists_cons_of_ne_nil some
      obtain ⟨rfl, others⟩ := List.cons_prefix_cons.mp begins
      rcases List.prefix_cons_iff.mp others with rfl | ⟨_, rfl, none⟩
      · exact alone
      · exact ⟨kind, List.prefix_nil.mp none ▸ h⟩
    rcases h.of_long long with letters | digits | equal | notEqual
    · exact ⟨_, isLexeme_word some fun b hb => letters b (begins.subset hb)⟩
    · exact ⟨_, .digits some fun b hb => digits b (begins.subset hb)⟩
    · exact operator equal ⟨.assign, .symbol (by decide)⟩
    · exact operator notEqual ⟨.bang, .symbol (by decide)⟩
  · have whole : first = lexeme :=
      begins.eq_of_length_le (Nat.le_trans (Nat.le_of_not_lt long) pos)
    exact ⟨kind, whole ▸ h⟩

/-- A byte that goes on with a lexeme is of its class, or the end of an operator. -/
theorem IsLexeme.joined {kind : Kind} {lexeme : List UInt8} {b : UInt8}
    (h : IsLexeme kind (lexeme ++ [b])) (some : lexeme ≠ []) :
    (isLetter b = true ∧ ∀ c ∈ lexeme, isLetter c = true) ∨
      (isDigit b = true ∧ ∀ c ∈ lexeme, isDigit c = true) ∨
      b = '='.toUInt8 ∧ (lexeme = ['='.toUInt8] ∨ lexeme = ['!'.toUInt8]) := by
  have long : 1 < (lexeme ++ [b]).length := by
    have := List.length_pos_iff.mpr some
    simp only [List.length_append, List.length_singleton]
    omega
  rcases h.of_long long with letters | digits | equal | notEqual
  · exact .inl ⟨letters b (by simp), fun c hc => letters c (List.mem_append_left _ hc)⟩
  · exact .inr (.inl ⟨digits b (by simp), fun c hc => digits c (List.mem_append_left _ hc)⟩)
  · have equal : lexeme ++ [b] = ['='.toUInt8] ++ ['='.toUInt8] := equal
    obtain ⟨first, last⟩ := List.append_inj' equal rfl
    exact .inr (.inr ⟨List.singleton_inj.mp last, .inl first⟩)
  · have notEqual : lexeme ++ [b] = ['!'.toUInt8] ++ ['='.toUInt8] := notEqual
    obtain ⟨first, last⟩ := List.append_inj' notEqual rfl
    exact .inr (.inr ⟨List.singleton_inj.mp last, .inr first⟩)

/-! ## What keeps lexemes apart -/

/-- Bytes that go on with no lexeme. -/
def Separates (rest : List UInt8) : Prop :=
  ∀ b ∈ rest.head?, isLetter b = false ∧ isDigit b = false ∧ b ≠ '='.toUInt8

namespace Apart

variable {kind : Kind} {lexeme rest : List UInt8}

/-- A blank is part of no lexeme. -/
theorem of_blank (blank : ∀ b ∈ rest.head?, isBlank b = true) : Apart lexeme rest := by
  intro b hb kind h
  have := h.not_blank b (by simp)
  rw [blank b hb] at this
  cases this

theorem of_separates (separates : Separates rest) (some : lexeme ≠ []) : Apart lexeme rest := by
  intro b hb kind h
  obtain ⟨letter, digit, equal⟩ := separates b hb
  rcases h.joined some with ⟨h, -⟩ | ⟨h, -⟩ | ⟨h, -⟩
  · exact absurd h (by simp [letter])
  · exact absurd h (by simp [digit])
  · exact equal h

/-- A byte that is in no class goes on only to an operator. -/
theorem of_symbol {byte : UInt8} (letter : isLetter byte = false) (digit : isDigit byte = false)
    (equal : byte = '='.toUInt8 ∨ byte = '!'.toUInt8 → ∀ b ∈ rest.head?, b ≠ '='.toUInt8) :
    Apart [byte] rest := by
  intro b hb kind h
  rcases h.joined (List.cons_ne_nil _ _) with ⟨-, letters⟩ | ⟨-, digits⟩ | ⟨last, first⟩
  · exact absurd (letters byte List.mem_cons_self) (by simp [letter])
  · exact absurd (digits byte List.mem_cons_self) (by simp [digit])
  · exact equal (first.imp List.singleton_inj.mp List.singleton_inj.mp) b hb last

/-- **A lexeme is read as far as it goes**, if what follows is apart. -/
theorem read (apart : Apart lexeme rest) (h : IsLexeme kind lexeme) :
    Lexeme.read (lexeme ++ rest) = ⟨kind, lexeme⟩ := by
  have longest : Longest (lexeme ++ rest) kind lexeme := by
    refine ⟨h, List.prefix_append _ _, fun {other longer} h' begins => ?_⟩
    refine Nat.le_of_not_lt fun more => ?_
    obtain ⟨b, after, rfl⟩ : ∃ b after, rest = b :: after := by
      refine List.exists_cons_of_ne_nil ?_
      rintro rfl
      rw [List.append_nil] at begins
      exact absurd begins.length_le (Nat.not_le_of_lt more)
    have goes_on : lexeme ++ [b] <+: longer := by
      refine List.prefix_of_prefix_length_le ?_ begins ?_
      · exact ⟨after, by simp⟩
      · simpa using Nat.succ_le_of_lt more
    obtain ⟨kind', joined⟩ := h'.of_prefix goes_on (by simp)
    exact apart b rfl kind' joined
  obtain ⟨byte, tail, rfl⟩ := List.exists_cons_of_ne_nil h.ne_nil
  obtain ⟨kind', text⟩ :=
    (longest_read (h.not_blank byte List.mem_cons_self) (tail ++ rest)).unique longest
  rw [List.cons_append]
  exact congrArg₂ Lexeme.mk kind' text

end Apart

/-! ## Kinds with one lexeme -/

/-- The lexeme of a kind that has no other. -/
def Kind.spelling? : Kind → Option String
  | .illegal | .eof | .ident | .int => none
  | .kwFn => some "fn"
  | .kwLet => some "let"
  | .kwTrue => some "true"
  | .kwFalse => some "false"
  | .kwIf => some "if"
  | .kwElse => some "else"
  | .kwReturn => some "return"
  | kind => some kind.name

theorem IsLexeme.eq_spelling {kind : Kind} {lexeme : List UInt8} {text : String}
    (h : IsLexeme kind lexeme) (only : kind.spelling? = some text) : lexeme = Text.utf8 text := by
  cases h with
  | zero => cases only
  | name => cases only
  | digits => cases only
  | other => cases only
  | equal => cases only; decide
  | notEqual => cases only; decide
  | symbol listed =>
    have all : ∀ entry ∈ Kind.symbols, entry.2.spelling?.map Text.utf8 = some [entry.1] := by
      decide
    have := all _ listed
    rw [only] at this
    exact (Option.some.inj this).symm
  | keyword listed =>
    have all : ∀ entry ∈ Kind.keywords, entry.2.spelling? = some entry.1 := by decide
    exact congrArg Text.utf8 (Option.some.inj ((all _ listed).symm.trans only))

theorem isWord_spelling {kind : Kind} {text : String} (only : kind.spelling? = some text) :
    IsWord (kind, text) := by
  have read : Lexeme.read (Text.utf8 text) = ⟨kind, Text.utf8 text⟩ ∧
      (Text.utf8 text).all (fun b => b < 0x80 && !isBlank b) = true ∧ Text.utf8 text ≠ [] := by
    cases kind <;> cases only <;> decide
  obtain ⟨read, bytes, some⟩ := read
  simp only [List.all_eq_true, Bool.and_eq_true, decide_eq_true_eq, Bool.not_eq_true'] at bytes
  refine ⟨?_, fun b hb => (bytes b hb).1, ?_⟩
  · obtain ⟨byte, rest, eq⟩ := List.exists_cons_of_ne_nil some
    have lexeme := isLexeme_read (bytes byte (by simp [eq])).2 rest
    rwa [← eq, read] at lexeme
  · rintro rfl
    cases only

/-! ## Words that are spelled out -/

/-- Bytes that write words in order, each of them apart from what follows, with any blanks before
them and at the end. -/
inductive Spelled : List (Kind × String) → List UInt8 → Prop
  | nil {gap : List UInt8} (blank : ∀ b ∈ gap, isBlank b = true) : Spelled [] gap
  | cons {word : Kind × String} {words : List (Kind × String)} {gap rest : List UInt8}
      (blank : ∀ b ∈ gap, isBlank b = true) (isWord : IsWord word)
      (apart : Apart (Text.utf8 word.2) rest) (more : Spelled words rest) :
      Spelled (word :: words) (gap ++ (Text.utf8 word.2 ++ rest))

theorem Spelled.isWord {words : List (Kind × String)} {bytes : List UInt8}
    (h : Spelled words bytes) : ∀ word ∈ words, IsWord word := by
  induction h with
  | nil => simp
  | cons _ isWord _ _ ih => exact List.forall_mem_cons.mpr ⟨isWord, ih⟩

/-- A blank before the words changes nothing. -/
theorem Spelled.blank {words : List (Kind × String)} {bytes : List UInt8} {b : UInt8}
    (h : Spelled words bytes) (blank : isBlank b = true) : Spelled words (b :: bytes) := by
  cases h with
  | nil blanks => exact .nil (List.forall_mem_cons.mpr ⟨blank, blanks⟩)
  | cons blanks isWord apart more =>
    exact .cons (List.forall_mem_cons.mpr ⟨blank, blanks⟩) isWord apart more

/-- A word without blanks before it. -/
theorem Spelled.word {word : Kind × String} {words : List (Kind × String)} {rest : List UInt8}
    (isWord : IsWord word) (apart : Apart (Text.utf8 word.2) rest) (more : Spelled words rest) :
    Spelled (word :: words) (Text.utf8 word.2 ++ rest) :=
  List.nil_append _ ▸ .cons (List.forall_mem_nil _) isWord apart more

/-- An ASCII text is read back from its bytes. -/
theorem ofBytes_utf8 {text : String} (ascii : ∀ b ∈ Text.utf8 text, b < 0x80) :
    Text.ofBytes (Text.utf8 text) = text :=
  Text.utf8_injective (utf8_ofBytes ascii)

namespace Lexer

/-- **Words that are spelled out are read back.** -/
theorem said_tokens {words : List (Kind × String)} {bytes : List UInt8} (h : Spelled words bytes)
    (lexer : Lexer) (rest : lexer.rest = bytes) : lexer.tokens.map Token.said = words := by
  induction h generalizing lexer with
  | @nil gap blank =>
    have used : lexer.atEnd = true := by
      rw [atEnd, rest_skipBlanks, rest, List.dropWhile_eq_nil_iff.mpr blank]
      rfl
    rw [tokens_of_atEnd used]
    rfl
  | @cons word words gap after blank isWord apart _ ih =>
    have left : lexer.skipBlanks.rest = Text.utf8 word.2 ++ after := by
      obtain ⟨byte, tail, eq⟩ := List.exists_cons_of_ne_nil isWord.isLexeme.ne_nil
      have nonblank := isWord.isLexeme.not_blank byte (by simp [eq])
      rw [rest_skipBlanks, rest, List.dropWhile_append_of_pos blank, eq, List.cons_append,
        List.dropWhile_cons_of_neg (by simp [nonblank])]
    have read : Lexeme.read lexer.skipBlanks.rest = ⟨word.1, Text.utf8 word.2⟩ := by
      rw [left, apart.read isWord.isLexeme]
    have unread : lexer.atEnd = false := by
      have some := isWord.isLexeme.ne_nil
      simp [atEnd, left, some]
    have onward : lexer.next.2.rest = after := by
      simp only [next, readToken, read]
      change lexer.skipBlanks.rest.drop _ = after
      rw [left, List.drop_left]
    have said : lexer.next.1.said = word := by
      simp only [Token.said, next, readToken, read, Lexeme.value, if_neg isWord.not_eof,
        ofBytes_utf8 isWord.ascii]
    rw [tokens_of_not_atEnd unread, List.map_cons, said, ih _ onward]

/-- So a listing is these words and the end of input. -/
theorem said_tokenize {words : List (Kind × String)} {text : String}
    (h : Spelled words (Text.utf8 text)) (file : Option String) :
    (tokenize text file).map Token.said = words ++ [(.eof, "")] := by
  have said := said_tokens h (ofText text file) rfl
  have not_eof : ∀ t ∈ (ofText text file).tokens, t.kind ≠ .eof := fun t ht =>
    (h.isWord t.said (said ▸ List.mem_map_of_mem ht)).not_eof
  rw [tokenize_of_not_eof not_eof, List.map_append, said]
  rfl

/-- The tokens of an ASCII text are words. -/
theorem isWord_of_mem {text : String} {file : Option String}
    (ascii : ∀ b ∈ Text.utf8 text, b < 0x80) {t : Token} (ht : t ∈ (ofText text file).tokens)
    (not_eof : t.kind ≠ .eof) : IsWord t.said := by
  have munch := (within_ofText text file).maximalMunch_tokens
  have longest := munch.longest t ht not_eof
  have inside : ∀ b ∈ t.slice (Text.utf8 text), b < 0x80 := fun b hb =>
    ascii b (List.mem_of_mem_drop (List.mem_of_mem_take hb))
  have value : Text.utf8 t.value = t.slice (Text.utf8 text) := munch.value t ht not_eof inside
  exact ⟨value ▸ longest.isLexeme, value ▸ inside, not_eof⟩

end Lexer

/-! ## Other blanks -/

/-- A text of blanks. -/
def Blank (text : String) : Prop := ∀ b ∈ Text.utf8 text, isBlank b = true

instance (text : String) : Decidable (Blank text) :=
  decidable_of_iff ((Text.utf8 text).all isBlank = true) List.all_eq_true

/-- Values and, after each of them, a text. -/
def laidOut : List (String × String) → String
  | [] => ""
  | (value, gap) :: rest => value ++ (gap ++ laidOut rest)

/-- A text that writes values in order, with blanks between any two of them and perhaps before the
first and after the last. -/
def Writes (values : List String) (text : String) : Prop :=
  ∃ (lead : String) (words : List (String × String)), text = lead ++ laidOut words ∧
    words.map Prod.fst = values ∧ Blank lead ∧ (∀ word ∈ words, Blank word.2) ∧
    ∀ word ∈ words.dropLast, word.2 ≠ ""

theorem utf8_eq_nil {text : String} (h : Text.utf8 text = []) : text = "" :=
  Text.utf8_injective h

/-- Words with blanks between them are spelled out. -/
theorem spelled_of_blanks {words : List (Kind × String)} (isWord : ∀ word ∈ words, IsWord word)
    {lead : String} {gaps : List (String × String)}
    (values : gaps.map Prod.fst = words.map Prod.snd) (blank : Blank lead)
    (blanks : ∀ word ∈ gaps, Blank word.2)
    (some : ∀ word ∈ gaps.dropLast, word.2 ≠ "") :
    Spelled words (Text.utf8 (lead ++ laidOut gaps)) := by
  induction words generalizing lead gaps with
  | nil =>
    obtain rfl : gaps = [] := List.map_eq_nil_iff.mp values
    exact .nil (by rwa [laidOut, String.append_empty])
  | cons word words ih =>
    obtain _ | ⟨⟨value, gap⟩, gaps⟩ := gaps
    · cases values
    obtain ⟨rfl, others⟩ := List.cons.inj values
    have blank' : Blank gap := blanks _ List.mem_cons_self
    have later : ∀ word ∈ gaps, Blank word.2 := fun w hw => blanks w (List.mem_cons_of_mem _ hw)
    have more := ih (fun w hw => isWord w (List.mem_cons_of_mem _ hw)) others blank' later
      fun w hw => some w (by cases gaps <;> simp_all)
    rw [laidOut, Text.utf8_append, Text.utf8_append]
    refine .cons blank (isWord word List.mem_cons_self) (.of_blank fun b hb => ?_) more
    rw [Text.utf8_append] at hb
    by_cases last : gaps = []
    · subst last
      exact blank' b (List.mem_of_mem_head? (by simpa [laidOut, Text.utf8] using hb))
    · have filled : Text.utf8 gap ≠ [] := fun nil =>
        some (word.2, gap) (by simp [List.dropLast_cons_of_ne_nil last]) (utf8_eq_nil nil)
      rw [List.head?_append, Option.or_of_isSome (by simpa using filled)] at hb
      exact blank' b (List.mem_of_mem_head? hb)

/-- **Blanks do not matter**: a text that writes the values of another has its kinds and values. -/
theorem said_tokenize_of_writes {source text : String} {file : Option String}
    (ascii : ∀ b ∈ Text.utf8 source, b < 0x80) (zero_free : 0 ∉ Text.utf8 source)
    (writes : Writes ((tokenize source file).dropLast.map (·.value)) text) (file' : Option String) :
    (tokenize text file').map Token.said = (tokenize source file).map Token.said := by
  obtain ⟨lead, gaps, rfl, values, blank, blanks, some⟩ := writes
  rw [Lexer.dropLast_tokenize zero_free] at values
  have isWord : ∀ word ∈ (Lexer.ofText source file).tokens.map Token.said, IsWord word := by
    rw [List.forall_mem_map]
    exact fun t ht => Lexer.isWord_of_mem ascii ht (Lexer.kind_ne_eof zero_free file ht)
  have said : gaps.map Prod.fst =
      ((Lexer.ofText source file).tokens.map Token.said).map Prod.snd := by
    rw [values, List.map_map]
    rfl
  rw [Lexer.said_tokenize (spelled_of_blanks isWord said blank blanks some),
    Lexer.tokenize_eq zero_free, List.map_append]
  rfl

end Monkey
