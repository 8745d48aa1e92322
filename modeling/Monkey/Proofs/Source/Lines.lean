import Monkey.Proofs.Source.Edge

/-!
# The line of an offset

`OnLine text offset before line after` says that the offset belongs to `line`, which stands between
`before` and `after`. A line ends with its line feed, and an offset belongs to the line of the byte
that follows it; only the end of the text belongs to a line that ends there, the last one.

Results:
* `lines_induction`: a text is its last line, or a line with its line feed and then a text.
* `exists_onLine`: every offset up to the end is on a line, and `lineAt?` finds that line.
* `OnLine.mem_splitLines`, `OnLine.getLast?_splitLines`: it is one of the lines of the text.
* `OnLine.cut`: at an edge of characters the line is cut in two.
-/

namespace Monkey

/-! ## Lines of a text -/

section

variable {line rest : List Char}

/-- What holds of a text without line feeds, and with a first line if of what follows it, holds of
every text. -/
theorem lines_induction {motive : List Char → Prop} (last : ∀ line, '\n' ∉ line → motive line)
    (next : ∀ line rest, '\n' ∉ line → motive rest → motive (line ++ '\n' :: rest))
    (text : List Char) : motive text := by
  by_cases feed : '\n' ∈ text
  · obtain ⟨line, rest, eq, free⟩ := List.eq_append_cons_of_mem feed
    have shorter : rest.length < text.length := by
      rw [eq, List.length_append, List.length_cons]
      omega
    exact eq ▸ next line rest free (lines_induction last next rest)
  · exact last text feed
termination_by text.length

theorem splitLines_cons {c : Char} (h : c ≠ '\n') (text : List Char) :
    ∃ first others, splitLines text = first :: others ∧
      splitLines (c :: text) = (c :: first) :: others := by
  obtain ⟨first, others, eq⟩ := List.exists_cons_of_ne_nil (splitLines_ne_nil text)
  refine ⟨first, others, eq, ?_⟩
  rw [splitLines]
  · simp [eq]
  · exact h

theorem splitLines_of_free (free : '\n' ∉ line) : splitLines line = [line] := by
  induction line with
  | nil => rfl
  | cons c line ih =>
    obtain ⟨first, others, eq, eq'⟩ := splitLines_cons (List.ne_of_not_mem_cons free).symm line
    rw [ih (List.not_mem_of_not_mem_cons free)] at eq
    cases eq
    exact eq'

theorem splitLines_feed (free : '\n' ∉ line) (rest : List Char) :
    splitLines (line ++ '\n' :: rest) = (line ++ ['\n']) :: splitLines rest := by
  induction line with
  | nil => rfl
  | cons c line ih =>
    have ne := (List.ne_of_not_mem_cons free).symm
    obtain ⟨first, others, eq, eq'⟩ := splitLines_cons ne (line ++ '\n' :: rest)
    rw [ih (List.not_mem_of_not_mem_cons free)] at eq
    cases eq
    exact eq'

end

/-- What stands on a line before its line feed. -/
theorem takeWhile_feed {line : List Char} (free : '\n' ∉ line) :
    (line ++ ['\n']).takeWhile (· != '\n') = line := by
  rw [List.takeWhile_append_of_pos]
  · exact List.append_nil line
  · intro c hc
    have other : c ≠ '\n' := fun eq => free (eq ▸ hc)
    simpa using other

/-! ## Offsets and lines -/

/-- The offset belongs to `line`, which stands between `before` and `after`. -/
structure OnLine (text : List Char) (offset : Nat) (before line after : List Char) : Prop where
  text_eq : text = before ++ (line ++ after)
  begins : before = [] ∨ ∃ earlier, before = earlier ++ ['\n']
  ends : '\n' ∉ line ∧ after = [] ∨ ∃ start, line = start ++ ['\n'] ∧ '\n' ∉ start
  start_le : byteWidth before ≤ offset
  le_stop : offset ≤ byteWidth before + byteWidth line
  last : offset = byteWidth before + byteWidth line → '\n' ∉ line ∧ after = []

namespace OnLine

variable {text before line after : List Char} {offset : Nat}

/-- A line without a line feed has all offsets up to its end. -/
theorem of_free (free : '\n' ∉ line) (le : offset ≤ byteWidth line) :
    OnLine line offset [] line [] where
  text_eq := (List.append_nil line).symm
  begins := .inl rfl
  ends := .inl ⟨free, rfl⟩
  start_le := Nat.zero_le offset
  le_stop := by rwa [byteWidth, Nat.zero_add]
  last _ := ⟨free, rfl⟩

/-- A line with a line feed has the offsets before its end. -/
theorem of_feed (free : '\n' ∉ line) (after : List Char) (lt : offset < byteWidth (line ++ ['\n'])) :
    OnLine (line ++ '\n' :: after) offset [] (line ++ ['\n']) after where
  text_eq := by simp
  begins := .inl rfl
  ends := .inr ⟨line, rfl, free⟩
  start_le := Nat.zero_le offset
  le_stop := by
    rw [byteWidth, Nat.zero_add]
    exact lt.le
  last same := by
    rw [byteWidth, Nat.zero_add] at same
    exact absurd lt (Nat.not_lt_of_le same.ge)

/-- Other lines may stand before. -/
theorem past {first : List Char} (h : OnLine text offset before line after) :
    OnLine (first ++ '\n' :: text) (byteWidth (first ++ ['\n']) + offset)
      (first ++ '\n' :: before) line after where
  text_eq := by simp [h.text_eq]
  begins := by
    rcases h.begins with rfl | ⟨earlier, rfl⟩
    · exact .inr ⟨first, rfl⟩
    · exact .inr ⟨first ++ '\n' :: earlier, by simp⟩
  ends := h.ends
  start_le := by
    have := h.start_le
    simp only [byteWidth_append, byteWidth]
    omega
  le_stop := by
    have := h.le_stop
    simp only [byteWidth_append, byteWidth]
    omega
  last same := by
    simp only [byteWidth_append, byteWidth] at same
    exact h.last (by omega)

end OnLine

theorem findLine?_cons (number : Nat) (line : List Char) {lines : List (List Char)}
    (more : lines ≠ []) (offset : Nat) :
    findLine? number (line :: lines) offset =
      if offset < byteWidth line then some ⟨number, String.ofList line, offset⟩
      else findLine? (number + 1) lines (offset - byteWidth line) := by
  obtain ⟨next, others, rfl⟩ := List.exists_cons_of_ne_nil more
  rw [findLine?]

/-- Every offset up to the end of a text is on one of its lines, and that line is found. -/
theorem exists_findLine? {text : List Char} {offset : Nat} (le : offset ≤ byteWidth text)
    (number : Nat) :
    ∃ before line after, OnLine text offset before line after ∧
      findLine? number (splitLines text) offset =
        some ⟨number + before.count '\n', String.ofList line, offset - byteWidth before⟩ := by
  induction text using lines_induction generalizing offset number with
  | last line free =>
    refine ⟨[], line, [], .of_free free le, ?_⟩
    rw [splitLines_of_free free, findLine?, if_pos le]
    rfl
  | next first rest free ih =>
    rw [splitLines_feed free, findLine?_cons _ _ (splitLines_ne_nil rest)]
    split_ifs with lt
    · exact ⟨[], _, rest, .of_feed free rest lt, rfl⟩
    · have width : byteWidth (first ++ '\n' :: rest) =
          byteWidth (first ++ ['\n']) + byteWidth rest := by
        rw [← byteWidth_append, List.append_assoc]
        rfl
      have inside : offset - byteWidth (first ++ ['\n']) ≤ byteWidth rest := by omega
      obtain ⟨before, line, after, onLine, found⟩ := ih inside (number + 1)
      have eq : byteWidth (first ++ ['\n']) + (offset - byteWidth (first ++ ['\n'])) = offset := by
        omega
      refine ⟨first ++ '\n' :: before, line, after, eq ▸ onLine.past, ?_⟩
      have count : (first ++ '\n' :: before).count '\n' = before.count '\n' + 1 := by
        rw [List.count_append, List.count_eq_zero_of_not_mem free, List.count_cons_self,
          Nat.zero_add]
      have start : byteWidth (first ++ '\n' :: before) =
          byteWidth (first ++ ['\n']) + byteWidth before := by
        rw [← byteWidth_append, List.append_assoc]
        rfl
      rw [found, count, start, Nat.sub_sub]
      congr 2
      omega

/-- **Every offset up to the end is on a line, and `lineAt?` finds it**, with the number of line
feeds before the line and how far into the line the offset is. -/
theorem exists_onLine {source : String} {offset : Nat} (le : offset ≤ byteWidth source.toList) :
    ∃ before line after, OnLine source.toList offset before line after ∧
      lineAt? source offset =
        some ⟨before.count '\n' + 1, String.ofList line, offset - byteWidth before⟩ := by
  obtain ⟨before, line, after, onLine, found⟩ := exists_findLine? le 1
  exact ⟨before, line, after, onLine, Nat.add_comm _ _ ▸ found⟩

/-- After a line feed the lines are those of what follows it. -/
theorem exists_splitLines_append {before : List Char}
    (begins : before = [] ∨ ∃ earlier, before = earlier ++ ['\n']) (rest : List Char) :
    ∃ earlier, splitLines (before ++ rest) = earlier ++ splitLines rest := by
  induction before using lines_induction with
  | last line free =>
    rcases begins with rfl | ⟨earlier, rfl⟩
    · exact ⟨[], rfl⟩
    · simp at free
  | next line more free ih =>
    have begins : more = [] ∨ ∃ earlier, more = earlier ++ ['\n'] := by
      rcases List.eq_nil_or_concat more with rfl | ⟨earlier, c, rfl⟩
      · exact .inl rfl
      · rcases begins with none | ⟨all, eq⟩
        · simp at none
        · have eq : (line ++ '\n' :: earlier) ++ [c] = all ++ ['\n'] := by simpa using eq
          rw [List.concat_eq_append, (List.append_inj' eq rfl).2]
          exact .inr ⟨earlier, rfl⟩
    obtain ⟨earlier, eq⟩ := ih begins
    refine ⟨(line ++ ['\n']) :: earlier, ?_⟩
    rw [List.append_assoc, List.cons_append, splitLines_feed free, eq, List.cons_append]

namespace OnLine

variable {text before line after : List Char} {offset : Nat}

theorem mem_splitLines (h : OnLine text offset before line after) : line ∈ splitLines text := by
  obtain ⟨earlier, eq⟩ := exists_splitLines_append h.begins (line ++ after)
  rw [h.text_eq, eq]
  refine List.mem_append_right _ ?_
  rcases h.ends with ⟨free, rfl⟩ | ⟨start, rfl, free⟩
  · rw [List.append_nil, splitLines_of_free free]
    exact List.mem_singleton_self _
  · rw [List.append_assoc, List.singleton_append, splitLines_feed free]
    exact List.mem_cons_self

/-- A line without a line feed is the last one. -/
theorem getLast?_splitLines (h : OnLine text offset before line after) (free : '\n' ∉ line) :
    (splitLines text).getLast? = some line := by
  obtain ⟨earlier, eq⟩ := exists_splitLines_append h.begins (line ++ after)
  rcases h.ends with ⟨-, rfl⟩ | ⟨start, rfl, -⟩
  · rw [h.text_eq, eq, List.append_nil, splitLines_of_free free, List.getLast?_append,
      List.getLast?_singleton, Option.some_or]
  · simp at free

end OnLine

/-! ## Edges on a line -/

/-- Of two beginnings of a text the narrower one is a beginning of the other. -/
theorem prefix_of_byteWidth_le {a b c d : List Char} (same : a ++ b = c ++ d)
    (le : byteWidth a ≤ byteWidth c) : ∃ middle, c = a ++ middle ∧ b = middle ++ d := by
  rcases List.append_eq_append_iff.mp same with ⟨middle, rfl, rfl⟩ | ⟨middle, rfl, rfl⟩
  · exact ⟨middle, rfl, rfl⟩
  · cases middle with
    | nil => exact ⟨[], by simp⟩
    | cons x middle =>
      have := x.utf8Size_pos
      simp only [byteWidth_append, byteWidth] at le
      omega

/-- **An edge cuts its line in two.** -/
theorem OnLine.cut {text before line after : List Char} {offset : Nat}
    (h : OnLine text offset before line after) (edge : IsEdge text offset) :
    ∃ left right, line = left ++ right ∧ offset = byteWidth before + byteWidth left := by
  obtain ⟨first, second, eq, rfl⟩ := edge
  obtain ⟨left, rfl, rest⟩ := prefix_of_byteWidth_le (h.text_eq.symm.trans eq) h.start_le
  rw [byteWidth_append] at h ⊢
  obtain ⟨right, rfl, -⟩ :=
    prefix_of_byteWidth_le rest.symm (Nat.le_of_add_le_add_left h.le_stop)
  exact ⟨left, right, rfl, rfl⟩

end Monkey
