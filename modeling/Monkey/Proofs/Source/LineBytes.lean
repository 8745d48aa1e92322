import Monkey.Proofs.Source.Lines

/-!
# The line of an offset, by bytes

A line feed is one byte, and no other character has that byte in its UTF-8 form. So the line of an
offset can be told from the bytes of the text, also where the offset falls inside a character:
`LineAt.Tells` says which line it is, by counting line feeds and looking for the nearest ones.

Results:
* `count_feed`: a text has as many line feeds as bytes of that value.
* `OnLine.take_eq`, `OnLine.drop_eq`: the bytes of a text before an offset and from it on.
* `OnLine.feeds`: where the line feeds next to the offset are.
* `line_exact`: `lineAt?` gives the line that the bytes tell, and none beyond the end.
-/

namespace Monkey

/-- The byte of a line feed. -/
def lineFeed : UInt8 := 0x0A

/-! ## Which line it is -/

/-- The line of an offset starts after the last line feed before the offset, or with the text. -/
structure LineStart (bytes : List UInt8) (offset start : Nat) : Prop where
  le : start ≤ offset
  begins : start = 0 ∨ bytes[start - 1]? = some lineFeed
  free : lineFeed ∉ (bytes.take offset).drop start

/-- The bytes up to the first line feed and with it, or all of them if there is none. -/
def throughFeed (bytes : List UInt8) : List UInt8 :=
  bytes.takeWhile (· ≠ lineFeed) ++ (bytes.dropWhile (· ≠ lineFeed)).take 1

/-- What the bytes of a text tell of the line of an offset: its number is one more than the line feeds
before the offset, it starts after the last of these, and it runs through the next one. -/
structure LineAt.Tells (bytes : List UInt8) (offset start : Nat) (line : LineAt) : Prop where
  inside : offset ≤ bytes.length
  number : line.number = 1 + (bytes.take offset).count lineFeed
  starts : LineStart bytes offset start
  offset_eq : line.offset = offset - start
  text : Text.utf8 line.text = (bytes.take offset).drop start ++ throughFeed (bytes.drop offset)

theorem LineStart.unique {bytes : List UInt8} {offset start other : Nat}
    (h : LineStart bytes offset start) (k : LineStart bytes offset other) : start = other := by
  -- the line feed before the later of two starts would come after the earlier one
  have later {a b : Nat} (h : LineStart bytes offset a) (k : LineStart bytes offset b) : b ≤ a := by
    refine Nat.le_of_not_lt fun lt => ?_
    rcases k.begins with rfl | feed
    · exact Nat.not_lt_zero a lt
    · have le := k.le
      refine h.free (List.mem_of_getElem? (i := b - 1 - a) ?_)
      rw [List.getElem?_drop, List.getElem?_take_of_lt (by omega), ← feed]
      congr 1
      omega
  exact Nat.le_antisymm (later k h) (later h k)

/-- They tell of one line only. -/
theorem LineAt.Tells.unique {bytes : List UInt8} {offset start start' : Nat} {line other : LineAt}
    (h : line.Tells bytes offset start) (k : other.Tells bytes offset start') : line = other := by
  obtain rfl := h.starts.unique k.starts
  have number : line.number = other.number := h.number.trans k.number.symm
  have offset : line.offset = other.offset := h.offset_eq.trans k.offset_eq.symm
  have text : line.text = other.text := Text.utf8_injective (h.text.trans k.text.symm)
  cases line
  cases other
  cases number
  cases offset
  cases text
  rfl

/-! ## Line feeds and their bytes -/

/-- No other character has the byte of a line feed. -/
theorem feed_not_mem_encode {c : Char} (h : c ≠ '\n') : lineFeed ∉ String.utf8EncodeChar c := by
  intro mem
  have one := utf8Size_of_ascii mem (by decide)
  rw [String.utf8EncodeChar_eq_singleton one, List.mem_singleton] at mem
  rw [Char.utf8Size_eq_one_iff, UInt32.le_iff_toNat_le] at one
  have code := congrArg UInt8.toNat mem
  rw [UInt32.toNat_toUInt8] at code
  change 10 = c.val.toNat % 256 at code
  change c.val.toNat ≤ 127 at one
  refine h (Char.ext (UInt32.toNat_inj.mp ?_))
  change c.val.toNat = 10
  omega

theorem count_feed (text : List Char) :
    (Text.utf8 (String.ofList text)).count lineFeed = text.count '\n' := by
  rw [Text.utf8, String.toList_ofList]
  induction text with
  | nil => rfl
  | cons c rest ih =>
    rw [List.flatMap_cons, List.count_append, ih]
    by_cases feed : c = '\n'
    · subst feed
      rw [List.count_cons_self, Nat.add_comm]
      rfl
    · rw [List.count_eq_zero_of_not_mem (feed_not_mem_encode feed), List.count_cons_of_ne feed,
        Nat.zero_add]

theorem feed_not_mem_utf8 {text : List Char} (free : '\n' ∉ text) :
    lineFeed ∉ Text.utf8 (String.ofList text) := by
  rw [← List.count_eq_zero, count_feed, List.count_eq_zero]
  exact free

/-! ## The bytes of a line -/

theorem throughFeed_of_free {bytes : List UInt8} (free : lineFeed ∉ bytes) :
    throughFeed bytes = bytes := by
  have all : ∀ b ∈ bytes, decide (b ≠ lineFeed) = true := fun b hb =>
    decide_eq_true fun feed => free (feed ▸ hb)
  rw [throughFeed, List.takeWhile_eq_self_iff.mpr all, List.dropWhile_eq_nil_iff.mpr all]
  exact List.append_nil bytes

theorem throughFeed_append {bytes : List UInt8} (free : lineFeed ∉ bytes) (after : List UInt8) :
    throughFeed (bytes ++ lineFeed :: after) = bytes ++ [lineFeed] := by
  have all : ∀ b ∈ bytes, decide (b ≠ lineFeed) = true := fun b hb =>
    decide_eq_true fun feed => free (feed ▸ hb)
  rw [throughFeed, List.takeWhile_append_of_pos all, List.dropWhile_append_of_pos all]
  simp

section

variable {source : String} {offset : Nat} {before line after : List Char}

theorem length_utf8_ofList (text : List Char) :
    (Text.utf8 (String.ofList text)).length = byteWidth text := by
  rw [length_utf8, String.toList_ofList]

/-- The bytes of a text are those before the line, of the line and after it. -/
theorem OnLine.utf8_eq (h : OnLine source.toList offset before line after) :
    Text.utf8 source = Text.utf8 (String.ofList before) ++
      (Text.utf8 (String.ofList line) ++ Text.utf8 (String.ofList after)) := by
  rw [← Text.utf8_append, ← Text.utf8_append, ← String.ofList_append, ← String.ofList_append,
    ← h.text_eq, String.ofList_toList]

/-- Before the offset are the bytes before the line and some of the line. -/
theorem OnLine.take_eq (h : OnLine source.toList offset before line after) :
    (Text.utf8 source).take offset = Text.utf8 (String.ofList before) ++
      (Text.utf8 (String.ofList line)).take (offset - byteWidth before) := by
  have le := h.le_stop
  rw [h.utf8_eq, List.take_append, List.take_of_length_le, List.take_append_of_le_length,
    length_utf8_ofList]
  · rw [length_utf8_ofList, length_utf8_ofList]
    omega
  · rw [length_utf8_ofList]
    exact h.start_le

/-- From the offset on are the others of the line and those after it. -/
theorem OnLine.drop_eq (h : OnLine source.toList offset before line after) :
    (Text.utf8 source).drop offset =
      (Text.utf8 (String.ofList line)).drop (offset - byteWidth before) ++
        Text.utf8 (String.ofList after) := by
  have le := h.le_stop
  rw [h.utf8_eq, List.drop_append, List.drop_of_length_le, List.nil_append,
    List.drop_append_of_le_length, length_utf8_ofList]
  · rw [length_utf8_ofList, length_utf8_ofList]
    omega
  · rw [length_utf8_ofList]
    exact h.start_le

/-- None of the bytes of a line before the offset is a line feed, and the line ends with the next
one. -/
theorem OnLine.feeds (h : OnLine source.toList offset before line after) :
    lineFeed ∉ (Text.utf8 (String.ofList line)).take (offset - byteWidth before) ∧
      throughFeed ((Text.utf8 source).drop offset) =
        (Text.utf8 (String.ofList line)).drop (offset - byteWidth before) := by
  rw [h.drop_eq]
  rcases h.ends with ⟨free, rfl⟩ | ⟨start, rfl, free⟩
  · have free := feed_not_mem_utf8 free
    refine ⟨fun mem => free (List.mem_of_mem_take mem), ?_⟩
    rw [String.ofList_nil]
    change throughFeed (_ ++ []) = _
    rw [List.append_nil, throughFeed_of_free fun mem => free (List.mem_of_mem_drop mem)]
  · -- the offset is not after the line feed, where the next line would begin
    have free := feed_not_mem_utf8 free
    have feed : Text.utf8 (String.ofList (start ++ ['\n'])) =
        Text.utf8 (String.ofList start) ++ [lineFeed] := by
      rw [String.ofList_append, Text.utf8_append]
      rfl
    have le : offset - byteWidth before ≤ (Text.utf8 (String.ofList start)).length := by
      have stop := h.le_stop
      have last : offset ≠ byteWidth before + byteWidth (start ++ ['\n']) := fun same =>
        (h.last same).1 (by simp)
      rw [length_utf8_ofList]
      rw [byteWidth_append] at stop last
      change offset ≤ byteWidth before + (byteWidth start + 1) at stop
      change offset ≠ byteWidth before + (byteWidth start + 1) at last
      omega
    rw [feed, List.take_append_of_le_length le, List.drop_append_of_le_length le]
    refine ⟨fun mem => free (List.mem_of_mem_take mem), ?_⟩
    rw [List.append_assoc]
    exact throughFeed_append (fun mem => free (List.mem_of_mem_drop mem)) _

/-- A line is the one that the bytes tell. -/
theorem OnLine.tells (h : OnLine source.toList offset before line after) :
    LineAt.Tells (Text.utf8 source) offset (byteWidth before)
      ⟨before.count '\n' + 1, String.ofList line, offset - byteWidth before⟩ := by
  obtain ⟨free, through⟩ := h.feeds
  have taken : ((Text.utf8 source).take offset).drop (byteWidth before) =
      (Text.utf8 (String.ofList line)).take (offset - byteWidth before) := by
    rw [h.take_eq, ← length_utf8_ofList, List.drop_left]
  constructor
  case inside =>
    have stop := h.le_stop
    rw [h.utf8_eq, List.length_append, List.length_append, length_utf8_ofList, length_utf8_ofList]
    omega
  case number =>
    rw [h.take_eq, List.count_append, count_feed, List.count_eq_zero_of_not_mem free]
    exact Nat.add_comm _ _
  case starts =>
    refine ⟨h.start_le, ?_, taken ▸ free⟩
    rcases h.begins with rfl | ⟨earlier, rfl⟩
    · exact .inl rfl
    · right
      rw [h.utf8_eq, String.ofList_append, Text.utf8_append, byteWidth_append, List.append_assoc,
        List.getElem?_append_right, length_utf8_ofList]
      · change (lineFeed :: _)[byteWidth earlier + 1 - 1 - byteWidth earlier]? = _
        rw [Nat.add_sub_cancel, Nat.sub_self]
        rfl
      · rw [length_utf8_ofList]
        exact Nat.le_refl _
  case offset_eq => rfl
  case text =>
    rw [taken, through]
    exact (List.take_append_drop _ _).symm

end

/-- **`lineAt?` is exact at every offset**, inside of characters and at the end of the text as well:
it gives nothing beyond the end, and up to there the line that the bytes tell. -/
theorem line_exact (source : String) (offset : Nat) :
    let bytes := Text.utf8 source
    (lineAt? source offset = none ↔ bytes.length < offset) ∧
      ∀ line, lineAt? source offset = some line ↔ ∃ start, line.Tells bytes offset start := by
  intro bytes
  have beyond : lineAt? source offset = none ↔ bytes.length < offset := by
    rw [length_utf8]
    exact lineAt?_eq_none_iff source offset
  refine ⟨beyond, fun line => ?_⟩
  by_cases inside : offset ≤ bytes.length
  · obtain ⟨before, text, after, onLine, found⟩ := exists_onLine (length_utf8 source ▸ inside)
    rw [found, Option.some_inj]
    constructor
    · rintro rfl
      exact ⟨_, onLine.tells⟩
    · rintro ⟨start, tells⟩
      exact onLine.tells.unique tells
  · rw [beyond.mpr (Nat.lt_of_not_le inside)]
    refine iff_of_false (by simp) ?_
    rintro ⟨start, tells⟩
    exact inside tells.inside

/-- Inside of a character, and at the end of a text that ends with a line feed. -/
example : lineAt? "é\n\n" 1 = some ⟨1, "é\n", 1⟩ ∧ lineAt? "é\n\n" 4 = some ⟨3, "", 0⟩ := by
  decide

end Monkey
