import Mathlib.Tactic.SplitIfs
import Monkey.Proofs.Diagnostic.Order

/-!
# Edges of characters

Offsets count bytes, and some of them fall inside a character. `IsEdge text offset` says that this
one does not: some characters of the text are that many bytes.

A character outside ASCII is read byte by byte, so there are tokens that start inside of it. `Aligned`
says that these are the only ones: only after a stray byte a token may start elsewhere than at an
edge.

Results:
* `isEdge_of_ascii`: a byte of ASCII is a character of its own, between two edges.
* `Aligned.edge_current`, `edge_peek`: a parser that stands at no stray byte is between two edges.
* `Lexer.aligned_ofText`: the tokens of a text are aligned with its characters.
-/

namespace Monkey

/-- No character of the text extends over the offset. -/
def IsEdge (text : List Char) (offset : Nat) : Prop :=
  ∃ before after, text = before ++ after ∧ byteWidth before = offset

/-- A character with a byte of ASCII has no other. -/
theorem utf8Size_of_ascii {c : Char} {b : UInt8} (mem : b ∈ String.utf8EncodeChar c)
    (ascii : b < 0x80) : c.utf8Size = 1 := by
  have high (n : Nat) (ge : 128 ≤ n) (lt : n < 256) (low : UInt8.ofNat n < 0x80) : False := by
    rw [UInt8.lt_iff_toNat_lt, UInt8.toNat_ofNat'] at low
    change n % 256 < 128 at low
    omega
  rw [← String.length_utf8EncodeChar]
  rw [String.utf8EncodeChar] at mem ⊢
  split_ifs at mem ⊢
  · rfl
  all_goals
    simp only [List.mem_cons, List.not_mem_nil, or_false] at mem
    exfalso
  · rcases mem with rfl | rfl <;> exact high _ (by omega) (by omega) ascii
  · rcases mem with rfl | rfl | rfl <;> exact high _ (by omega) (by omega) ascii
  · rcases mem with rfl | rfl | rfl | rfl <;> exact high _ (by omega) (by omega) ascii

namespace IsEdge

variable {text : List Char} {offset : Nat}

theorem zero (text : List Char) : IsEdge text 0 := ⟨[], text, rfl, rfl⟩

theorem finish (text : List Char) : IsEdge text (byteWidth text) :=
  ⟨text, [], (List.append_nil text).symm, rfl⟩

theorem cons (c : Char) (h : IsEdge text offset) : IsEdge (c :: text) (c.utf8Size + offset) := by
  obtain ⟨before, after, rfl, rfl⟩ := h
  exact ⟨c :: before, after, rfl, rfl⟩

end IsEdge

/-- A byte of ASCII is a character of its own. -/
theorem isEdge_of_ascii {text : List Char} {offset : Nat} {b : UInt8}
    (here : (text.flatMap String.utf8EncodeChar)[offset]? = some b) (ascii : b < 0x80) :
    IsEdge text offset ∧ IsEdge text (offset + 1) := by
  induction text generalizing offset with
  | nil => simp at here
  | cons c rest ih =>
    have width := String.length_utf8EncodeChar c
    rw [List.flatMap_cons] at here
    by_cases inside : offset < c.utf8Size
    · rw [List.getElem?_append_left (by omega)] at here
      have one := utf8Size_of_ascii (List.mem_of_getElem? here) ascii
      obtain rfl : offset = 0 := by omega
      refine ⟨.zero _, ?_⟩
      rw [Nat.zero_add, ← one]
      exact (IsEdge.zero rest).cons c
    · rw [List.getElem?_append_right (by omega), width] at here
      obtain ⟨left, right⟩ := ih here
      have eq : offset = c.utf8Size + (offset - c.utf8Size) := by omega
      rw [eq, Nat.add_assoc]
      exact ⟨left.cons c, right.cons c⟩

/-! ## Tokens -/

/-- The tokens of a text start at an edge between two of its characters, except that a character
outside ASCII is read as several tokens. -/
structure Aligned (finish : Position) (stream : List Token) (edge : Nat → Prop) : Prop
    extends Ascending finish stream where
  edge_first : edge (startOf finish stream)
  edge_finish : edge finish.offset
  edge_start : ∀ t ∈ stream, t.kind ≠ .illegal → edge t.start
  edge_next : ∀ t rest, t :: rest <:+ stream → t.kind ≠ .illegal → edge (startOf finish rest)

namespace Aligned

variable {finish : Position} {stream tokens rest : List Token} {edge : Nat → Prop} {p : Parser}

theorem startOf_le (h : Aligned finish stream edge) (within : tokens <:+ stream)
    (suffix : rest <:+ tokens) : startOf finish tokens ≤ startOf finish rest :=
  (h.toAscending.suffix within).startOf_le suffix

/-- A token that is not a stray byte starts at an edge. -/
theorem edge_current (h : Aligned finish stream edge) (within : tokens <:+ stream)
    (stands : p.At finish tokens) (legal : p.current.kind ≠ .illegal) :
    edge (startOf finish tokens) := by
  cases tokens with
  | nil => exact h.edge_finish
  | cons token rest =>
    rw [stands.current] at legal
    exact h.edge_start token (within.subset List.mem_cons_self) legal

/-- And it ends at one. -/
theorem edge_peek (h : Aligned finish stream edge) (within : tokens <:+ stream)
    (stands : p.At finish tokens) (legal : p.current.kind ≠ .illegal) :
    edge (startOf finish tokens.tail) := by
  cases tokens with
  | nil => exact h.edge_finish
  | cons token rest =>
    rw [stands.current] at legal
    exact h.edge_next token rest within legal

end Aligned

/-! ## Texts -/

/-- A token that is not a stray byte lies in ASCII. -/
theorem MaximalMunch.ascii_of_mem {bytes : List UInt8} {file : String} {first : Nat}
    {tokens : List Token} (munch : MaximalMunch bytes file first tokens) {t : Token}
    (ht : t ∈ tokens) (legal : t.kind ≠ .illegal) {i : Nat} (bound : i < bytes.length)
    (ge : t.start ≤ i) (lt : i < t.stop ∨ i = t.start) : bytes[i] < 0x80 := by
  by_cases eof : t.kind = .eof
  · obtain ⟨zero, -, stop⟩ := munch.zero t ht eof
    obtain rfl : i = t.start := by omega
    rw [List.getElem?_eq_getElem bound] at zero
    rw [Option.some.inj zero]
    decide
  · have longest := munch.longest t ht eof
    obtain ⟨-, le, end_le, -, -⟩ := munch.spans t ht
    have length : (t.slice bytes).length = t.stop - t.start := by
      rw [Token.slice, List.length_take, List.length_drop]
      omega
    have pos := longest.length_pos
    have mem := longest.getElem_mem ge (by omega) bound
    rcases longest.isLexeme.ascii with ascii | ⟨_, _, _, stray⟩
    · exact ascii _ mem
    · exact absurd stray legal

/-- Tokens start at an edge if the token before them is not a stray byte. -/
theorem Lexer.isEdge_startOf (text : String) (file : Option String) (before rest : List Token)
    (eq : (ofText text file).tokens = before ++ rest)
    (legal : ∀ t ∈ before.getLast?, t.kind ≠ .illegal) :
    IsEdge text.toList (startOf (ofText text file).finish rest) := by
  have munch := (within_ofText text file).maximalMunch_tokens
  have ascending : Ascending (ofText text file).finish (before ++ rest) := eq ▸ .ofText text file
  have le := (ascending.suffix (List.suffix_append before rest)).startOf_le (List.nil_suffix)
  cases place : startOf (ofText text file).finish rest with
  | zero => exact .zero _
  | succ i =>
    rw [place, finish_ofText] at le
    have bound : i < (Text.utf8 text).length := le
    -- The byte before the tokens is a blank, a zero byte, or one of the token before them.
    refine (isEdge_of_ascii (List.getElem?_eq_getElem bound) ?_).2
    rcases munch.gaps i bound (Nat.zero_le i) with blank | ⟨v, mem, ge, lt⟩ | ⟨zero, -⟩
    · exact isBlank_ascii blank
    · have last : before.getLast? = some v := by
        rw [eq] at mem
        rcases List.mem_append.mp mem with mem | mem
        · obtain ⟨earlier, later, rfl⟩ := List.append_of_mem mem
          cases later with
          | nil => simp
          | cons u later =>
            have ordered := munch.ordered
            rw [eq, List.append_assoc] at ordered
            have stop_le := (List.pairwise_cons.mp (List.pairwise_append.mp ordered).2.1).1 u
              List.mem_cons_self
            have suffix : u :: later ++ rest <:+ earlier ++ v :: u :: later ++ rest :=
              ⟨earlier ++ [v], by simp⟩
            have lt_place := (ascending.suffix suffix).lt_startOf (List.suffix_append later rest)
            omega
        · have := (ascending.suffix (List.suffix_append before rest)).startOf_le_start mem
          omega
      exact munch.ascii_of_mem mem (legal v last) bound ge (.inl lt)
    · rw [zero]
      decide

theorem Lexer.aligned_ofText (text : String) (file : Option String) :
    Aligned (ofText text file).finish (ofText text file).tokens (IsEdge text.toList) where
  toAscending := .ofText text file
  edge_first := isEdge_startOf text file [] _ rfl (by simp)
  edge_finish := by
    rw [finish_ofText, length_utf8]
    exact .finish _
  edge_start t ht legal := by
    have munch := (within_ofText text file).maximalMunch_tokens
    have bound := (munch.not_blank ht).1
    have ascii := munch.ascii_of_mem ht legal bound (Nat.le_refl _) (.inr rfl)
    exact (isEdge_of_ascii (List.getElem?_eq_getElem bound) ascii).1
  edge_next t rest suffix legal := by
    obtain ⟨before, eq⟩ := suffix
    refine isEdge_startOf text file (before ++ [t]) rest ?_ (by simpa using legal)
    rw [← eq, List.append_assoc]
    rfl

end Monkey
