import Monkey.Proofs.Lexing.Lexeme
import Monkey.Token.Stream

/-!
# Maximal munch

`MaximalMunch` says what it is for a list of tokens to be those of a text: their spans are in order,
nothing but blanks and zero bytes lies outside of them, and each is the longest lexeme at its start.

Results:
* `Lexer.maximalMunch_tokens`: the tokens of a lexer are those of its text.
* `MaximalMunch.eq_tokens`: no other tokens are.
* `Lexer.nth_eq`: call by call, the lexer gives these tokens and then the end of input for ever.
* `MaximalMunch.firstEof_eq`: the first `eof` stands at the first zero byte, else at the end.
* `Lexer.maximal_munch_exact`: all of it together.
-/

namespace Monkey

/-- The offset of the first byte of a token. -/
def Token.start (token : Token) : Nat := token.span.start.offset

/-- The offset of the byte after the last one of a token. -/
def Token.stop (token : Token) : Nat := token.span.stop.offset

/-- The bytes that the span of a token holds. -/
def Token.slice (bytes : List UInt8) (token : Token) : List UInt8 :=
  (bytes.drop token.start).take (token.stop - token.start)

/-- What a byte outside ASCII is read as. -/
def Token.stray (offset : Nat) (file : String) : Token :=
  ⟨.illegal, "\uFFFD", ⟨⟨offset, file⟩, ⟨offset + 1, file⟩⟩⟩

/-- `tokens` are those of `bytes`, a text of the name `file`, from the byte at `first` on. -/
structure MaximalMunch (bytes : List UInt8) (file : String) (first : Nat) (tokens : List Token) :
    Prop where
  /-- Spans lie in the text. -/
  spans : ∀ t ∈ tokens, first ≤ t.start ∧ t.start ≤ t.stop ∧ t.stop ≤ bytes.length ∧
    t.span.start.file = file ∧ t.span.stop.file = file
  /-- Spans are in order and disjoint. -/
  ordered : tokens.Pairwise fun t u => t.stop ≤ u.start ∧ t.start < u.start
  /-- A byte outside of the spans is a blank, or a zero byte with an `eof`. -/
  gaps : ∀ i (h : i < bytes.length), first ≤ i → isBlank bytes[i] = true ∨
    (∃ t ∈ tokens, t.start ≤ i ∧ i < t.stop) ∨
      bytes[i] = 0 ∧ ∃ t ∈ tokens, t.kind = .eof ∧ t.start = i
  /-- A token is the longest lexeme at its start, and of the kind of that lexeme. -/
  longest : ∀ t ∈ tokens, t.kind ≠ .eof → Longest (bytes.drop t.start) t.kind (t.slice bytes)
  /-- An `eof` is empty and stands at a zero byte. -/
  zero : ∀ t ∈ tokens, t.kind = .eof → bytes[t.start]? = some 0 ∧ t.value = "" ∧ t.stop = t.start
  /-- A token of ASCII bytes says what they say. -/
  value : ∀ t ∈ tokens, t.kind ≠ .eof → (∀ b ∈ t.slice bytes, b < 0x80) →
    Text.utf8 t.value = t.slice bytes
  /-- Any other byte is a token by itself. -/
  strays : ∀ i (h : i < bytes.length), first ≤ i → ¬ bytes[i] < 0x80 → Token.stray i file ∈ tokens

/-! ## A lexeme in a text -/

namespace Longest

variable {bytes : List UInt8} {kind : Kind} {lexeme : List UInt8} {offset : Nat}

theorem length_pos (h : Longest bytes kind lexeme) : 0 < lexeme.length :=
  List.length_pos_iff.mpr h.isLexeme.ne_nil

theorem end_le (h : Longest (bytes.drop offset) kind lexeme) :
    offset + lexeme.length ≤ bytes.length := by
  have le := h.begins.length_le
  have pos := h.length_pos
  rw [List.length_drop] at le
  omega

theorem take_eq (h : Longest (bytes.drop offset) kind lexeme) :
    (bytes.drop offset).take lexeme.length = lexeme :=
  (List.prefix_iff_eq_take.mp h.begins).symm

/-- A byte of the text that lies in the lexeme. -/
theorem getElem_mem (h : Longest (bytes.drop offset) kind lexeme) {i : Nat} (ge : offset ≤ i)
    (lt : i < offset + lexeme.length) (bound : i < bytes.length) : bytes[i] ∈ lexeme := by
  have : bytes[i] ∈ (bytes.drop offset).take lexeme.length := by
    refine List.mem_take_iff_getElem.mpr ⟨i - offset, ?_, ?_⟩
    · rw [List.length_drop]
      omega
    · rw [List.getElem_drop]
      congr 1
      omega
  rwa [h.take_eq] at this

/-- The first byte of the lexeme in the text. -/
theorem first_mem (h : Longest (bytes.drop offset) kind lexeme) :
    ∃ bound : offset < bytes.length, bytes[offset] ∈ lexeme := by
  have le := h.end_le
  have pos := h.length_pos
  exact ⟨by omega, h.getElem_mem (Nat.le_refl _) (by omega) (by omega)⟩

/-- There is one longest lexeme. -/
theorem unique {other : Kind} {longer : List UInt8} (h : Longest bytes kind lexeme)
    (k : Longest bytes other longer) : kind = other ∧ lexeme = longer := by
  have same : lexeme.length = longer.length :=
    Nat.le_antisymm (k.longest h.isLexeme h.begins) (h.longest k.isLexeme k.begins)
  have eq : lexeme = longer := by
    rw [List.prefix_iff_eq_take.mp h.begins, same, ← List.prefix_iff_eq_take.mp k.begins]
  subst eq
  exact ⟨h.isLexeme.kind_unique k.isLexeme, rfl⟩

end Longest

/-! ## One token after another -/

/-- The token of a lexeme that begins at an offset. -/
def Lexeme.tokenAt (lexeme : Lexeme) (offset : Nat) (file : String) : Token :=
  ⟨lexeme.kind, lexeme.value, ⟨⟨offset, file⟩, ⟨offset + lexeme.width, file⟩⟩⟩

namespace MaximalMunch

variable {bytes : List UInt8} {file : String} {first start : Nat} {tokens : List Token}
  {lexeme : Lexeme}

/-- Where only blanks are left there are no tokens. -/
theorem nil (blank : ∀ i (h : i < bytes.length), first ≤ i → isBlank bytes[i] = true) :
    MaximalMunch bytes file first [] where
  spans := by simp
  ordered := .nil
  gaps i h le := .inl (blank i h le)
  longest := by simp
  zero := by simp
  value := by simp
  strays i h le high := absurd (isBlank_ascii (blank i h le)) high

theorem stop_tokenAt (h : lexeme.kind ≠ .eof) :
    (lexeme.tokenAt start file).stop = start + lexeme.bytes.length := by
  simp [Token.stop, Lexeme.tokenAt, Lexeme.width, h]

theorem stop_tokenAt_eof (h : lexeme.kind = .eof) :
    (lexeme.tokenAt start file).stop = start := by
  simp [Token.stop, Lexeme.tokenAt, Lexeme.width, h]

theorem stop_tokenAt_le (lexeme : Lexeme) (start : Nat) (file : String) :
    start ≤ (lexeme.tokenAt start file).stop ∧
    (lexeme.tokenAt start file).stop ≤ start + lexeme.bytes.length := by
  by_cases h : lexeme.kind = .eof
  · rw [stop_tokenAt_eof h]
    omega
  · rw [stop_tokenAt h]
    omega

theorem slice_tokenAt (file : String)
    (longest : Longest (bytes.drop start) lexeme.kind lexeme.bytes)
    (h : lexeme.kind ≠ .eof) : (lexeme.tokenAt start file).slice bytes = lexeme.bytes := by
  unfold Token.slice
  rw [stop_tokenAt h]
  change (bytes.drop start).take (start + lexeme.bytes.length - start) = _
  rw [Nat.add_sub_cancel_left, longest.take_eq]

/-- A lexeme outside ASCII is one byte, and its token says so. -/
theorem tokenAt_eq_stray {b : UInt8} (high : ¬ b < 0x80) (bytes : lexeme.bytes = [b])
    (kind : lexeme.kind = .illegal) : lexeme.tokenAt start file = Token.stray start file := by
  simp [Lexeme.tokenAt, Lexeme.value, Lexeme.width, Token.stray, kind, bytes, Text.ofBytes,
    Text.charOfByte, high]

/-- The bytes of a lexeme are covered by its token, or are the zero byte of an `eof`. -/
theorem covered_tokenAt (file : String)
    (longest : Longest (bytes.drop start) lexeme.kind lexeme.bytes) {i : Nat}
    (ge : start ≤ i) (lt : i < start + lexeme.bytes.length) (bound : i < bytes.length) :
    i < (lexeme.tokenAt start file).stop ∨ bytes[i] = 0 ∧ lexeme.kind = .eof ∧ start = i := by
  rcases longest.isLexeme.zero_iff with ⟨kind, eq⟩ | ⟨kind, -⟩
  · have mem := longest.getElem_mem ge lt bound
    rw [eq, List.mem_singleton] at mem
    rw [eq, List.length_singleton] at lt
    exact .inr ⟨mem, kind, by omega⟩
  · rw [stop_tokenAt kind]
    exact .inl lt

/-- A lexeme after some blanks, and the tokens after it. -/
theorem cons (le : first ≤ start)
    (blank : ∀ i (h : i < bytes.length), first ≤ i → i < start → isBlank bytes[i] = true)
    (longest : Longest (bytes.drop start) lexeme.kind lexeme.bytes)
    (later : MaximalMunch bytes file (start + lexeme.bytes.length) tokens) :
    MaximalMunch bytes file first (lexeme.tokenAt start file :: tokens) where
  spans t ht := by
    have bound := longest.end_le
    rcases List.mem_cons.mp ht with rfl | ht
    · obtain ⟨ge, stop⟩ := stop_tokenAt_le lexeme start file
      exact ⟨le, ge, by omega, rfl, rfl⟩
    · obtain ⟨ge, rest⟩ := later.spans t ht
      exact ⟨by omega, rest⟩
  ordered := by
    refine .cons (fun t ht => ?_) later.ordered
    have pos := longest.length_pos
    obtain ⟨ge, -⟩ := later.spans t ht
    obtain ⟨-, stop⟩ := stop_tokenAt_le lexeme start file
    exact ⟨by omega, show start < t.start by omega⟩
  gaps i hi ge := by
    by_cases before : i < start
    · exact .inl (blank i hi ge before)
    by_cases past : start + lexeme.bytes.length ≤ i
    · rcases later.gaps i hi past with h | ⟨t, ht, h⟩ | ⟨h, t, ht, k⟩
      · exact .inl h
      · exact .inr (.inl ⟨t, List.mem_cons_of_mem _ ht, h⟩)
      · exact .inr (.inr ⟨h, t, List.mem_cons_of_mem _ ht, k⟩)
    rcases covered_tokenAt file longest (by omega) (by omega) hi with h | ⟨zero, eof⟩
    · exact .inr (.inl ⟨_, List.mem_cons_self, Nat.le_of_not_lt before, h⟩)
    · exact .inr (.inr ⟨zero, _, List.mem_cons_self, eof⟩)
  longest t ht kind := by
    rcases List.mem_cons.mp ht with rfl | ht
    · exact slice_tokenAt file longest kind ▸ longest
    · exact later.longest t ht kind
  zero t ht kind := by
    rcases List.mem_cons.mp ht with rfl | ht
    · have kind : lexeme.kind = .eof := kind
      obtain ⟨bound, mem⟩ := longest.first_mem
      rcases longest.isLexeme.zero_iff with ⟨-, eq⟩ | ⟨kind', -⟩
      · rw [eq, List.mem_singleton] at mem
        refine ⟨List.getElem?_eq_some_iff.mpr ⟨bound, mem⟩, ?_, stop_tokenAt_eof kind⟩
        simp [Lexeme.tokenAt, Lexeme.value, kind]
      · exact absurd kind kind'
    · exact later.zero t ht kind
  value t ht kind ascii := by
    rcases List.mem_cons.mp ht with rfl | ht
    · rw [slice_tokenAt file longest kind] at ascii ⊢
      have kind : lexeme.kind ≠ .eof := kind
      simp only [Lexeme.tokenAt, Lexeme.value, if_neg kind]
      exact utf8_ofBytes ascii
    · exact later.value t ht kind ascii
  strays i hi ge high := by
    by_cases before : i < start
    · exact absurd (isBlank_ascii (blank i hi ge before)) high
    by_cases past : start + lexeme.bytes.length ≤ i
    · exact List.mem_cons_of_mem _ (later.strays i hi past high)
    have mem := longest.getElem_mem (i := i) (by omega) (by omega) hi
    rcases longest.isLexeme.ascii with low | ⟨b, stray, eq, kind⟩
    · exact absurd (low _ mem) high
    · have one : lexeme.bytes.length = 1 := by rw [eq]; rfl
      obtain rfl : i = start := by omega
      rw [tokenAt_eq_stray stray eq kind]
      exact List.mem_cons_self

end MaximalMunch

/-! ## The tokens of a lexer -/

namespace Lexer

/-- The lexer stands in the text `bytes`. -/
structure Within (bytes : List UInt8) (lexer : Lexer) : Prop where
  rest_eq : lexer.rest = bytes.drop lexer.offset
  offset_le : lexer.offset ≤ bytes.length

variable {bytes : List UInt8} {lexer : Lexer}

theorem Within.skip (h : lexer.Within bytes) {count : Nat} (le : count ≤ lexer.rest.length) :
    (lexer.skip count).Within bytes where
  rest_eq := by
    change lexer.rest.drop count = bytes.drop (lexer.offset + count)
    rw [h.rest_eq, List.drop_drop]
  offset_le := by
    have := h.offset_le
    rw [h.rest_eq, List.length_drop] at le
    change lexer.offset + count ≤ bytes.length
    omega

theorem Within.skipBlanks (h : lexer.Within bytes) : lexer.skipBlanks.Within bytes :=
  h.skip (List.takeWhile_prefix isBlank).length_le

theorem Within.next (h : lexer.Within bytes) : lexer.next.2.Within bytes :=
  h.skipBlanks.skip (Lexeme.length_bytes_read_le _)

/-- Blanks are skipped. -/
theorem Within.blank_skipped (h : lexer.Within bytes) (i : Nat) (bound : i < bytes.length)
    (ge : lexer.offset ≤ i) (lt : i < lexer.skipBlanks.offset) : isBlank bytes[i] = true := by
  refine List.mem_takeWhile_imp (l := lexer.rest) ?_
  rw [List.prefix_iff_eq_take.mp (List.takeWhile_prefix isBlank (l := lexer.rest)), h.rest_eq]
  refine List.mem_take_iff_getElem.mpr ⟨i - lexer.offset, ?_, ?_⟩
  · change i < lexer.offset + (lexer.rest.takeWhile isBlank).length at lt
    rw [h.rest_eq] at lt
    rw [List.length_drop]
    omega
  · rw [List.getElem_drop]
    congr 1
    omega

theorem offset_le_skipBlanks : lexer.offset ≤ lexer.skipBlanks.offset :=
  Nat.le_add_right _ _

/-- Where the lexer is not at the end it stands before the longest lexeme, once blanks are skipped. -/
theorem Within.longest (h : lexer.Within bytes) (unread : lexer.atEnd = false) :
    Longest (bytes.drop lexer.skipBlanks.offset) (Lexeme.read lexer.skipBlanks.rest).kind
      (Lexeme.read lexer.skipBlanks.rest).bytes := by
  rw [← h.skipBlanks.rest_eq]
  cases eq : lexer.skipBlanks.rest with
  | nil => simp [atEnd, eq] at unread
  | cons byte rest =>
    refine longest_read ?_ rest
    rw [rest_skipBlanks] at eq
    have := List.head_dropWhile_not isBlank (l := lexer.rest) (by simp [eq])
    simpa [eq] using this

theorem Within.blank_of_atEnd (h : lexer.Within bytes) (done : lexer.atEnd = true) (i : Nat)
    (bound : i < bytes.length) (ge : lexer.offset ≤ i) : isBlank bytes[i] = true := by
  have used : lexer.skipBlanks.rest = [] := List.isEmpty_iff.mp done
  rw [h.skipBlanks.rest_eq, List.drop_eq_nil_iff] at used
  exact h.blank_skipped i bound ge (by omega)

/-- **The tokens of a lexer are those of its text.** -/
theorem Within.maximalMunch_tokens (h : lexer.Within bytes) :
    MaximalMunch bytes lexer.file lexer.offset lexer.tokens := by
  fun_induction tokens lexer with
  | case1 lexer done => exact .nil fun i bound ge => h.blank_of_atEnd done i bound ge
  | case2 lexer unread ih =>
    exact .cons offset_le_skipBlanks (fun i bound ge lt => h.blank_skipped i bound ge lt)
      (h.longest (by simpa using unread)) (ih h.next)

end Lexer

/-! ## No other tokens -/

namespace Text

theorem utf8_injective {a b : String} (h : utf8 a = utf8 b) : a = b := by
  have same : a.toList.utf8Encode = b.toList.utf8Encode := congrArg List.toByteArray h
  rw [String.utf8Encode_toList, String.utf8Encode_toList] at same
  exact String.toByteArray_inj.mp same

end Text

namespace MaximalMunch

variable {bytes : List UInt8} {file : String} {first : Nat} {tokens : List Token}

theorem eq_of_start_eq (h : MaximalMunch bytes file first tokens) {t u : Token} (ht : t ∈ tokens)
    (hu : u ∈ tokens) (same : t.start = u.start) : t = u := by
  obtain ⟨i, hi, rfl⟩ := List.getElem_of_mem ht
  obtain ⟨j, hj, rfl⟩ := List.getElem_of_mem hu
  have later := List.pairwise_iff_getElem.mp h.ordered
  rcases Nat.lt_trichotomy i j with lt | rfl | lt
  · exact absurd same (Nat.ne_of_lt (later i j hi hj lt).2)
  · rfl
  · exact absurd same.symm (Nat.ne_of_lt (later j i hj hi lt).2)

/-- Each token is that of the longest lexeme at its start. -/
theorem eq_tokenAt (h : MaximalMunch bytes file first tokens) {t : Token} (ht : t ∈ tokens) :
    ∃ lexeme : Lexeme, Longest (bytes.drop t.start) lexeme.kind lexeme.bytes ∧
      t = lexeme.tokenAt t.start file := by
  obtain ⟨-, le, bound, startFile, stopFile⟩ := h.spans t ht
  have parts {lexeme : Lexeme} (kind : t.kind = lexeme.kind) (value : t.value = lexeme.value)
      (stop : t.stop = t.start + lexeme.width) : t = lexeme.tokenAt t.start file := by
    obtain ⟨_, _, ⟨⟨_, _⟩, ⟨_, _⟩⟩⟩ := t
    simp only [Token.start, Token.stop] at *
    subst kind value startFile stopFile stop
    rfl
  by_cases kind : t.kind = .eof
  · obtain ⟨zero, value, stop⟩ := h.zero t ht kind
    obtain ⟨inside, zero⟩ := List.getElem?_eq_some_iff.mp zero
    have longest := longest_read (by decide : isBlank 0 = false) (bytes.drop (t.start + 1))
    rw [← zero, ← List.drop_eq_getElem_cons inside, List.drop_eq_getElem_cons inside, zero]
      at longest
    refine ⟨⟨.eof, [0]⟩, ?_, parts kind value stop⟩
    rw [List.drop_eq_getElem_cons inside, zero]
    exact longest
  · have longest := h.longest t ht kind
    have length : (t.slice bytes).length = t.stop - t.start := by
      rw [Token.slice, List.length_take, List.length_drop]
      omega
    have stop : t.stop = t.start + (t.slice bytes).length := by omega
    refine ⟨⟨t.kind, t.slice bytes⟩, longest, ?_⟩
    rcases longest.isLexeme.ascii with ascii | ⟨b, high, eq, illegal⟩
    · refine parts rfl ?_ (by simp [Lexeme.width, kind, stop])
      rw [Lexeme.value, if_neg kind]
      refine Text.utf8_injective ?_
      rw [utf8_ofBytes ascii]
      exact h.value t ht kind ascii
    · obtain ⟨inside, mem⟩ := longest.first_mem
      rw [eq, List.mem_singleton] at mem
      have stray := h.strays t.start inside (h.spans t ht).1 (mem ▸ high)
      rw [MaximalMunch.tokenAt_eq_stray high eq illegal]
      exact h.eq_of_start_eq ht stray rfl

/-- No token begins with a blank. -/
theorem not_blank (h : MaximalMunch bytes file first tokens) {t : Token} (ht : t ∈ tokens) :
    ∃ bound : t.start < bytes.length, isBlank bytes[t.start] = false := by
  obtain ⟨lexeme, longest, -⟩ := h.eq_tokenAt ht
  obtain ⟨bound, mem⟩ := longest.first_mem
  exact ⟨bound, longest.isLexeme.not_blank _ mem⟩

/-- The tokens after the first one are those of the bytes after its lexeme. -/
theorem tail {t : Token} (h : MaximalMunch bytes file first (t :: tokens)) {lexeme : Lexeme}
    (longest : Longest (bytes.drop t.start) lexeme.kind lexeme.bytes)
    (eq : t = lexeme.tokenAt t.start file) :
    MaximalMunch bytes file (t.start + lexeme.bytes.length) tokens := by
  have inside : ∀ u ∈ tokens, u ∈ t :: tokens := fun u hu => List.mem_cons_of_mem t hu
  have ge := (h.spans t List.mem_cons_self).1
  obtain ⟨-, stop⟩ := stop_tokenAt_le lexeme t.start file
  rw [← eq] at stop
  have pos := longest.length_pos
  constructor
  case spans =>
    intro u hu
    obtain ⟨-, rest⟩ := h.spans u (inside u hu)
    refine ⟨?_, rest⟩
    obtain ⟨apart, lt⟩ := (List.pairwise_cons.mp h.ordered).1 u hu
    by_cases kind : lexeme.kind = .eof
    · rcases longest.isLexeme.zero_iff with ⟨-, one⟩ | ⟨kind', -⟩
      · rw [one, List.length_singleton]
        exact lt
      · exact absurd kind kind'
    · rwa [eq, stop_tokenAt kind] at apart
  case ordered => exact (List.pairwise_cons.mp h.ordered).2
  case gaps =>
    intro i hi past
    rcases h.gaps i hi (by omega) with blank | ⟨u, hu, cover⟩ | ⟨zero, u, hu, kind, start⟩
    · exact .inl blank
    · rcases List.mem_cons.mp hu with rfl | hu
      · omega
      · exact .inr (.inl ⟨u, hu, cover⟩)
    · rcases List.mem_cons.mp hu with rfl | hu
      · omega
      · exact .inr (.inr ⟨zero, u, hu, kind, start⟩)
  case longest => exact fun u hu => h.longest u (inside u hu)
  case zero => exact fun u hu => h.zero u (inside u hu)
  case value => exact fun u hu => h.value u (inside u hu)
  case strays =>
    intro i hi past high
    rcases List.mem_cons.mp (h.strays i hi (by omega) high) with same | hu
    · have : t.start = i := by rw [← same]; rfl
      omega
    · exact hu

/-- **No other tokens are those of the text.** -/
theorem eq_tokens {lexer : Lexer} (within : lexer.Within bytes)
    (h : MaximalMunch bytes lexer.file lexer.offset tokens) : tokens = lexer.tokens := by
  fun_induction Lexer.tokens lexer generalizing tokens with
  | case1 lexer done =>
    cases tokens with
    | nil => rfl
    | cons t tokens =>
      obtain ⟨bound, nonblank⟩ := h.not_blank (t := t) List.mem_cons_self
      have ge := (h.spans t List.mem_cons_self).1
      rw [within.blank_of_atEnd done _ bound ge] at nonblank
      exact absurd nonblank (by decide)
  | case2 lexer unread ih =>
    have unread : lexer.atEnd = false := by simpa using unread
    have longest := within.longest unread
    obtain ⟨bound, mem⟩ := longest.first_mem
    have nonblank := longest.isLexeme.not_blank _ mem
    -- the first byte that is not blank belongs to some token, which has to be the first
    obtain ⟨u, hu, le⟩ : ∃ u ∈ tokens, u.start ≤ lexer.skipBlanks.offset := by
      rcases h.gaps _ bound Lexer.offset_le_skipBlanks with blank | ⟨u, hu, le, -⟩ | ⟨-, u, hu, -, eq⟩
      · rw [blank] at nonblank
        exact absurd nonblank (by decide)
      · exact ⟨u, hu, le⟩
      · exact ⟨u, hu, Nat.le_of_eq eq⟩
    cases tokens with
    | nil => exact absurd hu (by simp)
    | cons t tokens =>
      have first_le : t.start ≤ u.start := by
        rcases List.mem_cons.mp hu with rfl | hu
        · exact Nat.le_refl _
        · exact Nat.le_of_lt ((List.pairwise_cons.mp h.ordered).1 u hu).2
      have start : t.start = lexer.skipBlanks.offset := by
        obtain ⟨inside, nonblank'⟩ := h.not_blank (t := t) List.mem_cons_self
        refine Nat.le_antisymm (Nat.le_trans first_le le) (Nat.le_of_not_lt fun lt => ?_)
        have ge := (h.spans t List.mem_cons_self).1
        rw [within.blank_skipped _ inside ge lt] at nonblank'
        exact absurd nonblank' (by decide)
      obtain ⟨lexeme, longest', eq⟩ := h.eq_tokenAt (t := t) List.mem_cons_self
      have later := h.tail longest' eq
      rw [start] at longest' eq later
      obtain ⟨kind, text⟩ := longest'.unique longest
      obtain rfl : lexeme = Lexeme.read lexer.skipBlanks.rest := by
        cases lexeme
        simp_all
      rw [ih within.next later]
      exact congrArg (· :: _) eq

end MaximalMunch

/-! ## Where the listing ends -/

namespace MaximalMunch

variable {bytes : List UInt8} {file : String} {tokens : List Token}

/-- A zero byte has an `eof`. -/
theorem eof_at_zero (h : MaximalMunch bytes file 0 tokens) {i : Nat} (bound : i < bytes.length)
    (zero : bytes[i] = 0) : ∃ t ∈ tokens, t.kind = .eof ∧ t.start = i := by
  rcases h.gaps i bound (Nat.zero_le i) with blank | ⟨t, ht, ge, lt⟩ | ⟨-, eof⟩
  · rw [zero] at blank
    exact absurd blank (by decide)
  · -- no lexeme but the zero byte has a zero byte in it
    by_cases kind : t.kind = .eof
    · have := (h.zero t ht kind).2.2
      omega
    have longest := h.longest t ht kind
    rcases longest.isLexeme.zero_iff with ⟨kind', -⟩ | ⟨-, none⟩
    · exact absurd kind' kind
    · have within : t.start + (t.slice bytes).length = t.stop := by
        have := (h.spans t ht).2.2.1
        rw [Token.slice, List.length_take, List.length_drop]
        omega
      exact absurd (zero ▸ longest.getElem_mem ge (by omega) bound) none
  · exact eof

/-- The first `eof` stands at the first zero byte, or at the end of the text. -/
theorem firstEof_eq (h : MaximalMunch bytes file 0 tokens) :
    TokenStream.firstEof ⟨tokens, ⟨bytes.length, file⟩⟩ =
      .endOfInput ⟨bytes.idxOf 0, file⟩ := by
  unfold TokenStream.firstEof
  cases found : tokens.find? (·.kind = .eof) with
  | none =>
    have none : 0 ∉ bytes := fun mem => by
      obtain ⟨i, bound, zero⟩ := List.getElem_of_mem mem
      obtain ⟨t, ht, kind, -⟩ := h.eof_at_zero bound zero
      exact absurd kind (by simpa using List.find?_eq_none.mp found t ht)
    rw [List.idxOf_eq_length none]
    rfl
  | some t =>
    obtain ⟨kind, before, after, rfl, other⟩ := List.find?_eq_some_iff_append.mp found
    have kind : t.kind = .eof := by simpa using kind
    have mem : t ∈ before ++ t :: after := by simp
    obtain ⟨zero, value, stop⟩ := h.zero t mem kind
    obtain ⟨bound, zero⟩ := List.getElem?_eq_some_iff.mp zero
    obtain ⟨-, -, -, startFile, stopFile⟩ := h.spans t mem
    have le : bytes.idxOf 0 ≤ t.start := Nat.le_of_not_lt fun lt => by
      have := List.not_of_lt_findIdx lt
      simp [zero] at this
    have ge : t.start ≤ bytes.idxOf 0 := by
      have inside : bytes.idxOf 0 < bytes.length := by omega
      obtain ⟨u, hu, eof, start⟩ := h.eof_at_zero inside (List.getElem_idxOf inside)
      rcases List.mem_append.mp hu with hu | hu
      · exact absurd eof (by simpa using other u hu)
      rcases List.mem_cons.mp hu with rfl | hu
      · omega
      · have := (List.pairwise_append.mp h.ordered).2.1
        have := ((List.pairwise_cons.mp this).1 u hu).2
        omega
    have same : bytes.idxOf 0 = t.start := Nat.le_antisymm le ge
    obtain ⟨_, _, ⟨⟨_, _⟩, ⟨_, _⟩⟩⟩ := t
    simp only [Token.start, Token.stop] at *
    subst kind value startFile stopFile stop
    rw [same]
    rfl

end MaximalMunch

/-! ## Exactness -/

namespace Lexer

/-- The token that call `n` of a lexer gives, counted from 0. -/
def nth (lexer : Lexer) : Nat → Token
  | 0 => lexer.next.1
  | n + 1 => lexer.next.2.nth n

/-- Call by call, the lexer gives its tokens, and then the end of input for ever. -/
theorem nth_eq (lexer : Lexer) (n : Nat) :
    lexer.nth n = lexer.tokens.getD n (.endOfInput lexer.finish) := by
  induction n generalizing lexer with
  | zero =>
    rw [nth, ← TokenStream.head_ofLexer, TokenStream.head, TokenStream.ofLexer]
    cases lexer.tokens <;> rfl
  | succ n ih =>
    have pending := congrArg TokenStream.pending (TokenStream.tail_ofLexer lexer)
    have finish := congrArg TokenStream.finish (TokenStream.tail_ofLexer lexer)
    simp only [TokenStream.tail, TokenStream.ofLexer] at pending finish
    rw [nth, ih, ← pending, ← finish]
    cases lexer.tokens <;> simp

theorem within_ofText (text : String) (file : Option String) :
    (ofText text file).Within (Text.utf8 text) :=
  ⟨rfl, Nat.zero_le _⟩

theorem finish_ofText (text : String) (file : Option String) :
    (ofText text file).finish = ⟨(Text.utf8 text).length, file.getD defaultFile⟩ := by
  simp [finish, ofText]

/-- **The lexer is the maximal-munch tokenizer.** Its calls give the tokens of the text and then the
end of input; these are the tokens in the sense of `MaximalMunch`, and the only ones; a listing has
them up to the first `eof`, which stands at the first zero byte or at the end of the text. -/
theorem maximal_munch_exact (text : String) (file : Option String) :
    let bytes := Text.utf8 text
    let name := file.getD defaultFile
    let tokens := (ofText text file).tokens
    (∀ n, (ofText text file).nth n = tokens.getD n (.endOfInput ⟨bytes.length, name⟩)) ∧
      (∀ other, MaximalMunch bytes name 0 other ↔ other = tokens) ∧
      tokenize text file =
        tokens.takeWhile (·.kind ≠ .eof) ++ [.endOfInput ⟨bytes.idxOf 0, name⟩] := by
  have within := within_ofText text file
  have munch : MaximalMunch (Text.utf8 text) (file.getD defaultFile) 0 (ofText text file).tokens :=
    within.maximalMunch_tokens
  refine ⟨fun n => ?_, fun other => ⟨fun h => h.eq_tokens within, ?_⟩, ?_⟩
  · rw [nth_eq, finish_ofText]
  · rintro rfl
    exact munch
  · rw [← munch.firstEof_eq, ← finish_ofText]
    rfl

end Lexer

end Monkey
