import Monkey.Diagnostic.Report
import Monkey.Proofs.Parser.Bookkeeping
import Monkey.Proofs.Source.Lines

/-!
# Where a report points

A `Spot` says where an offset lies: on which line, after its indentation and some characters
`between`, at the first of the characters `rest`. A diagnostic has such a spot, since a parser points
neither into a character nor into the indentation of a line.

The report shows the line without the indentation, and below it a rule of dashes from where the line
begins. There is a dash for each byte of `between`. So the pointer is under the character in question
if those before it are ASCII, and to the right of it if they are not.

With the pointer this row is as wide as a row can be if there are 65534 dashes. Where there are more
bytes between, there is no report. They are fewer if the lines of the text fit: if none is longer than
a row, and the last one, where the end of input has its spot, is shorter.

Results:
* `exists_spot`: an edge that is not before an indentation has a spot, on the line that is found.
* `Spot.excerpt?_eq`: the excerpt of a spot.
* `LinesFit.between_lt`: where lines fit, a row of dashes fits.
* `report_points`: what the report of a diagnostic shows.
-/

namespace Monkey

/-! ## Widths -/

theorem length_le_byteWidth (text : List Char) : text.length ≤ byteWidth text := by
  induction text with
  | nil => exact Nat.le_refl _
  | cons c rest ih =>
    have := c.utf8Size_pos
    rw [List.length_cons, byteWidth]
    omega

/-- A text is as wide as it has characters if they are ASCII. -/
theorem byteWidth_eq_length_iff (text : List Char) :
    byteWidth text = text.length ↔ ∀ c ∈ text, c.toNat < 0x80 := by
  induction text with
  | nil => simp [byteWidth]
  | cons c rest ih =>
    have pos := c.utf8Size_pos
    have le := length_le_byteWidth rest
    have one : c.utf8Size = 1 ↔ c.toNat < 0x80 := by
      rw [Char.utf8Size_eq_one_iff, UInt32.le_iff_toNat_le]
      exact Nat.lt_succ_iff.symm
    rw [List.forall_mem_cons, ← ih, ← one, byteWidth, List.length_cons]
    omega

theorem byteWidth_of_indent {indent : List Char} (indented : ∀ c ∈ indent, isIndent c = true) :
    byteWidth indent = indent.length := by
  refine (byteWidth_eq_length_iff indent).mpr fun c hc => ?_
  have := indented c hc
  simp only [isIndent, Bool.or_eq_true, beq_iff_eq] at this
  rcases this with rfl | rfl <;> decide

/-- A row of dashes and a caret. -/
theorem pointer?_succ (dashes : Nat) :
    pointer? (dashes + 1) =
      if dashes < maxWidth then some (String.ofList (List.replicate dashes '-') ++ "^") else none := by
  rw [pointer?, Nat.add_sub_cancel]
  rfl

/-! ## Spots -/

/-- Where an offset lies: on a line, after its indentation and the characters `between`, at the first
of the characters `rest`, or at the end of the line if there are none. -/
structure Spot (text : List Char) (offset : Nat) where
  before : List Char
  indent : List Char
  between : List Char
  rest : List Char
  after : List Char
  onLine : OnLine text offset before (indent ++ (between ++ rest)) after
  place : offset = byteWidth before + byteWidth (indent ++ between)
  indented : ∀ c ∈ indent, isIndent c = true
  flush : ∀ c ∈ (between ++ rest).head?, isIndent c = false

namespace Spot

variable {text : List Char} {offset : Nat}

/-- The number of the line, counted from 1. -/
def number (spot : Spot text offset) : Nat := spot.before.count '\n' + 1

/-- The line, and how far into it the spot is. -/
def lineAt (spot : Spot text offset) : LineAt :=
  ⟨spot.number, String.ofList (spot.indent ++ (spot.between ++ spot.rest)),
    byteWidth (spot.indent ++ spot.between)⟩

/-- The line without its indentation, and below it the pointer after some dashes. -/
def excerpt (spot : Spot text offset) (dashes : Nat) : String :=
  gutter spot.number ++ "\n" ++ Text.decimal spot.number ++ " | " ++
    String.ofList (Text.trimEnd (spot.between ++ spot.rest)) ++ "\n" ++
    gutter spot.number ++ " " ++ (String.ofList (List.replicate dashes '-') ++ "^") ++ "\n"

/-- **The excerpt of a spot** has a dash for each byte between, if these are less than a row. -/
theorem excerpt?_eq (spot : Spot text offset) :
    spot.lineAt.excerpt? =
      if byteWidth spot.between < maxWidth then some (spot.excerpt (byteWidth spot.between))
      else none := by
  have none : (spot.between ++ spot.rest).takeWhile isIndent = [] := by
    have flush := spot.flush
    cases eq : spot.between ++ spot.rest with
    | nil => rfl
    | cons c more =>
      rw [eq] at flush
      exact List.takeWhile_cons_of_neg (by simp [flush c rfl])
  have indent : (spot.indent ++ (spot.between ++ spot.rest)).takeWhile isIndent = spot.indent := by
    rw [List.takeWhile_append_of_pos spot.indented, none, List.append_nil]
  unfold LineAt.excerpt? lineAt
  simp only [String.toList_ofList, indent, List.drop_left, byteWidth_append,
    byteWidth_of_indent spot.indented, Nat.add_sub_cancel_left]
  rw [pointer?_succ, apply_ite (Option.map _)]
  rfl

/-- The spot is at the first of the characters `rest`. -/
theorem exists_split (spot : Spot text offset) {c : Char} (head : c ∈ spot.rest.head?) :
    ∃ first second, text = first ++ c :: second ∧ byteWidth first = offset := by
  obtain ⟨more, eq⟩ := List.head?_eq_some_iff.mp head
  refine ⟨spot.before ++ (spot.indent ++ spot.between), more ++ spot.after, ?_, ?_⟩
  · conv => lhs; rw [spot.onLine.text_eq, eq]
    simp
  · rw [byteWidth_append, ← spot.place]

end Spot

/-! ## Rows that fit -/

/-- No line of the text has more than `bound` bytes, its line feed not counted. -/
def LinesWithin (bound : Nat) (text : String) : Prop :=
  ∀ line ∈ splitLines text.toList, byteWidth (line.takeWhile (· != '\n')) ≤ bound

/-- No line of the text is longer than a row, and what follows the last line feed is shorter. -/
structure LinesFit (text : String) : Prop where
  within : LinesWithin maxWidth text
  last : ∀ line ∈ (splitLines text.toList).getLast?, byteWidth line < maxWidth

instance (bound : Nat) (text : String) : Decidable (LinesWithin bound text) :=
  inferInstanceAs (Decidable (∀ line ∈ splitLines text.toList, _))

instance (text : String) : Decidable (LinesFit text) :=
  decidable_of_iff (LinesWithin maxWidth text ∧
      ∀ line ∈ (splitLines text.toList).getLast?, byteWidth line < maxWidth)
    ⟨fun h => ⟨h.1, h.2⟩, fun h => ⟨h.within, h.last⟩⟩

/-- A spot on a line with a line feed, but not at it, has a character and the line feed behind it. -/
theorem Spot.two_le_rest {text : List Char} {offset : Nat} (spot : Spot text offset)
    {start : List Char} (line : spot.indent ++ (spot.between ++ spot.rest) = start ++ ['\n'])
    (here : ∀ c ∈ spot.rest.head?, c ≠ '\n') : 2 ≤ byteWidth spot.rest := by
  match rest : spot.rest with
  | [] =>
    have stop : offset = byteWidth spot.before +
        byteWidth (spot.indent ++ (spot.between ++ spot.rest)) := by
      rw [rest, List.append_nil]
      exact spot.place
    have free := (spot.onLine.last stop).1
    simp [line] at free
  | [c] =>
    rw [rest, ← List.append_assoc] at line
    have last := (List.append_inj' line rfl).2
    exact absurd (List.singleton_inj.mp last) (here c (rest ▸ rfl))
  | c :: d :: more =>
    have := c.utf8Size_pos
    have := d.utf8Size_pos
    simp only [byteWidth]
    omega

/-- **Where lines fit, a row of dashes fits**, if the spot is not at a line feed. -/
theorem LinesFit.between_lt {text : String} {offset : Nat} (fit : LinesFit text)
    (spot : Spot text.toList offset) (here : ∀ c ∈ spot.rest.head?, c ≠ '\n') :
    byteWidth spot.between < maxWidth := by
  have width : byteWidth (spot.indent ++ (spot.between ++ spot.rest)) =
      byteWidth spot.indent + (byteWidth spot.between + byteWidth spot.rest) := by
    rw [byteWidth_append, byteWidth_append]
  rcases spot.onLine.ends with ⟨free, -⟩ | ⟨start, line, free⟩
  · have last := fit.last _ (spot.onLine.getLast?_splitLines free)
    omega
  · have within := fit.within _ spot.onLine.mem_splitLines
    have rest := spot.two_le_rest line here
    rw [line, takeWhile_feed free] at within
    rw [line, byteWidth_append, show byteWidth ['\n'] = 1 from rfl] at width
    omega

/-- An edge has a spot unless it is before an indentation, and its line is the one that is found. -/
theorem exists_spot {source : String} {offset : Nat} (edge : IsEdge source.toList offset)
    (flush : ∀ first c second, source.toList = first ++ c :: second → byteWidth first = offset →
      isIndent c = false) :
    ∃ spot : Spot source.toList offset, lineAt? source offset = some spot.lineAt := by
  have le : offset ≤ byteWidth source.toList := by
    obtain ⟨first, second, eq, rfl⟩ := edge
    rw [eq, byteWidth_append]
    exact Nat.le_add_right _ _
  obtain ⟨before, line, after, onLine, found⟩ := exists_onLine le
  obtain ⟨left, right, rfl, place⟩ := onLine.cut edge
  -- The indentation of the line ends before the offset.
  have split := List.takeWhile_append_dropWhile (p := isIndent) (l := left)
  have head : ∀ c ∈ (left.dropWhile isIndent ++ right).head?, isIndent c = false := by
    intro c hc
    cases between : left.dropWhile isIndent with
    | nil =>
      rw [between, List.nil_append] at hc
      obtain ⟨second, rfl⟩ := List.head?_eq_some_iff.mp hc
      refine flush (before ++ left) c (second ++ after) ?_ ?_
      · rw [onLine.text_eq]
        simp
      · rw [byteWidth_append, place]
    | cons x more =>
      have stops := List.head_dropWhile_not isIndent (l := left) (by simp [between])
      rw [between] at hc
      simp only [between, List.head_cons] at stops
      exact Option.some.inj hc ▸ stops
  refine ⟨⟨before, left.takeWhile isIndent, left.dropWhile isIndent, right, after, ?_, ?_, ?_,
    head⟩, ?_⟩
  · rwa [← List.append_assoc, split]
  · rw [split, place]
  · exact fun c hc => List.mem_takeWhile_imp hc
  · rw [found, Spot.lineAt, Spot.number]
    simp only [split, ← List.append_assoc, place, Nat.add_sub_cancel_left]

/-! ## Diagnostics -/

/-- A diagnostic is about a token of the text or the end of the text, which starts at an edge. -/
theorem exists_token_of_diagnostic {text : String} {file : Option String} {d : Diagnostic}
    (hd : d ∈ (parse text file).diagnostics) :
    IsEdge text.toList d.position.offset ∧
      ∃ t ∈ (Lexer.ofText text file).tokens ++ [.endOfInput (Lexer.ofText text file).finish],
        t.span.start = d.position := by
  obtain ⟨skips, place, diagnostics, -, -, sound, -⟩ := ledger_parse text file
  rw [diagnostics] at hd
  obtain ⟨skip, hs, rfl⟩ := List.mem_map.mp hd
  exact ⟨(sound skip hs).edge, (sound skip hs).token⟩

/-- The first byte of a character stands where the characters before it end. -/
theorem getElem?_utf8 {text : String} {first second : List Char} {c : Char}
    (eq : text.toList = first ++ c :: second) :
    (Text.utf8 text)[byteWidth first]? = (String.utf8EncodeChar c)[0]? := by
  have length : (first.flatMap String.utf8EncodeChar).length = byteWidth first := by
    have := length_utf8 (String.ofList first)
    rwa [Text.utf8, String.toList_ofList] at this
  have pos : 0 < (String.utf8EncodeChar c).length := by
    rw [String.length_utf8EncodeChar]
    exact c.utf8Size_pos
  rw [Text.utf8, eq, List.flatMap_append, List.flatMap_cons,
    List.getElem?_append_right (by omega), length, Nat.sub_self, List.getElem?_append_left pos]

/-- No token starts with a blank. -/
theorem not_blank_of_token {text : String} {file : Option String} {t : Token}
    (ht : t ∈ (Lexer.ofText text file).tokens ++ [.endOfInput (Lexer.ofText text file).finish])
    {first second : List Char} {c : Char} (eq : text.toList = first ++ c :: second)
    (start : byteWidth first = t.start) : c ∉ [' ', '\t', '\n', '\r'] := by
  rcases List.mem_append.mp ht with ht | ht
  · have munch := (Lexer.within_ofText text file).maximalMunch_tokens
    obtain ⟨bound, blank⟩ := munch.not_blank ht
    have here := getElem?_utf8 eq
    rw [start, List.getElem?_eq_getElem bound] at here
    intro blanks
    simp only [List.mem_cons, List.not_mem_nil, or_false] at blanks
    rcases blanks with rfl | rfl | rfl | rfl
    all_goals
      rw [Option.some.inj here] at blank
      cases blank
  · rw [List.mem_singleton.mp ht] at start
    have finish : byteWidth first = byteWidth text.toList := by
      rw [start, ← length_utf8]
      exact congrArg Position.offset (Lexer.finish_ofText text file)
    rw [eq, byteWidth_append, byteWidth] at finish
    have := c.utf8Size_pos
    omega

/-- A diagnostic has a spot, which is not at a line feed, and it is shown with the excerpt of this. -/
theorem exists_spot_of_diagnostic {text : String} {file : Option String} {d : Diagnostic}
    (hd : d ∈ (parse text file).diagnostics) :
    ∃ spot : Spot text.toList d.position.offset,
      excerptAt? text d.position.offset =
        (if byteWidth spot.between < maxWidth then some (spot.excerpt (byteWidth spot.between))
          else none) ∧
      ∀ c ∈ spot.rest.head?, c ≠ '\n' := by
  obtain ⟨edge, t, ht, start⟩ := exists_token_of_diagnostic hd
  have blank {first second : List Char} {c : Char} (eq : text.toList = first ++ c :: second)
      (width : byteWidth first = d.position.offset) : c ∉ [' ', '\t', '\n', '\r'] :=
    not_blank_of_token ht eq (width.trans (congrArg Position.offset start).symm)
  obtain ⟨spot, found⟩ := exists_spot edge fun first c second eq width => by
    have := blank eq width
    simp_all [isIndent]
  refine ⟨spot, ?_, fun c head feed => ?_⟩
  · rw [excerptAt?, found]
    exact spot.excerpt?_eq
  · obtain ⟨first, second, eq, width⟩ := spot.exists_split head
    have := blank eq width
    simp [feed] at this

/-- **A report shows where a diagnostic is.** Each diagnostic has a spot. Its report shows the line of
the spot, without the indentation and the blanks at the end, and a rule of dashes that begins in the
same column, with a dash for each byte between the indentation and the spot. So there are as many as
characters if these are all ASCII, and more if they are not. But if there are 65535 bytes between, or
more, there is no report. Where the lines of the text fit there always is one. -/
theorem report_points (text : String) (file : Option String) :
    ∀ d ∈ (parse text file).diagnostics, ∃ spot : Spot text.toList d.position.offset,
      let dashes := byteWidth spot.between
      d.report? text =
        (if dashes < 65535 then
          some (d.headline ++ "-> " ++ d.position.file ++ "\n" ++
            (gutter spot.number ++ "\n" ++ Text.decimal spot.number ++ " | " ++
              String.ofList (Text.trimEnd (spot.between ++ spot.rest)) ++ "\n" ++
              gutter spot.number ++ " " ++ (String.ofList (List.replicate dashes '-') ++ "^") ++ "\n"))
        else none) ∧
      (gutter spot.number ++ " ").length = (Text.decimal spot.number ++ " | ").length ∧
      spot.between.length ≤ dashes ∧
      (dashes = spot.between.length ↔ ∀ c ∈ spot.between, c.toNat < 0x80) ∧
      (LinesFit text → dashes < 65535) := by
  intro d hd
  obtain ⟨spot, shown, here⟩ := exists_spot_of_diagnostic hd
  refine ⟨spot, ?_, ?_, length_le_byteWidth _, byteWidth_eq_length_iff _, (·.between_lt spot here)⟩
  · rw [Diagnostic.report?, shown]
    exact apply_ite (Option.map _) _ _ _
  · simp only [gutter, String.length_append, String.length_ofList, List.length_replicate]
    rfl

/-- On an indented line, with a line before it. -/
theorem report_points_indented :
    let text := "a;\n\t let x 5;"
    ∃ d ∈ (parse text none).diagnostics,
      d.report? text = some (d.headline ++ "-> shell\n  |\n2 | let x 5;\n  | ------^\n") ∧
      LinesFit text ∧
      ∃ spot : Spot text.toList d.position.offset, spot.between.length ≤ byteWidth spot.between ∧
        byteWidth spot.between < 65535 ∧
        (byteWidth spot.between = spot.between.length ↔ ∀ c ∈ spot.between, c.toNat < 0x80) := by
  intro text
  have found : ∃ d ∈ (parse text none).diagnostics,
      d.report? text = some (d.headline ++ "-> shell\n  |\n2 | let x 5;\n  | ------^\n") := by
    decide +kernel
  have fit : LinesFit text := by decide +kernel
  obtain ⟨d, mem, shown⟩ := found
  obtain ⟨spot, -, -, le, ascii, fits⟩ := report_points text none d mem
  exact ⟨d, mem, shown, fit, spot, le, fits fit, ascii⟩

/-- Where characters outside ASCII come before the spot there are too many dashes: four for `é; `. -/
theorem report_points_too_far :
    let text := "é; )"
    let before := "é; "
    ∃ d ∈ (parse text none).diagnostics, text = before ++ ")" ∧
      d.position.offset = byteWidth before.toList ∧ before.length = 3 ∧
      d.report? text = some (d.headline ++ "-> shell\n" ++ "  |\n1 | é; )\n  | ----^\n") := by
  decide +kernel

end Monkey
