import Monkey.Proofs.Source.Lines
import Monkey.Token.Scanner

/-!
# Slices

A slice of a text is checked: there is none unless both its offsets are edges of characters. Bytes of
ASCII are characters of their own, so a run of them can always be cut out.

Results:
* `Text.slice?_eq_some_iff`: a slice is the characters between two others of the right width.
* `Text.isSome_slice?`: there is a slice exactly between two edges in order.
* `Text.slice?_of_run`: a run of bytes of ASCII is a slice.
-/

namespace Monkey.Text

variable {text : String} {start stop : Nat}

/-! ## Cuts -/

theorem byteWidth_eq_zero {chars : List Char} (h : byteWidth chars = 0) : chars = [] := by
  cases chars with
  | nil => rfl
  | cons c rest =>
    have := c.utf8Size_pos
    rw [byteWidth] at h
    omega

/-- A cut leaves all characters in place, and those before it have the width that was asked for. -/
theorem cut?_eq_some_iff {chars before after : List Char} {offset : Nat} :
    cut? chars offset = some (before, after) ↔
      chars = before ++ after ∧ byteWidth before = offset := by
  fun_induction cut? chars offset generalizing before after with
  | case1 chars =>
    constructor
    · intro h
      cases h
      exact ⟨rfl, rfl⟩
    · rintro ⟨rfl, none⟩
      rw [byteWidth_eq_zero none]
      rfl
  | case2 offset =>
    refine ⟨nofun, ?_⟩
    rintro ⟨eq, width⟩
    rw [(List.append_eq_nil_iff.mp eq.symm).1] at width
    exact absurd width.symm (Nat.succ_ne_zero offset)
  | case3 c rest offset inside =>
    refine ⟨nofun, ?_⟩
    rintro ⟨eq, width⟩
    cases before with
    | nil => exact absurd width.symm (Nat.succ_ne_zero offset)
    | cons d before =>
      obtain ⟨rfl, -⟩ := List.cons.inj eq
      rw [byteWidth] at width
      omega
  | case4 c rest offset fits ih =>
    constructor
    · intro h
      obtain ⟨⟨before', after'⟩, cut, pair⟩ := Option.map_eq_some_iff.mp h
      obtain ⟨rfl, rfl⟩ := Prod.mk.inj pair
      obtain ⟨rfl, width⟩ := ih.mp cut
      refine ⟨rfl, ?_⟩
      rw [byteWidth]
      omega
    · rintro ⟨eq, width⟩
      cases before with
      | nil => exact absurd width.symm (Nat.succ_ne_zero offset)
      | cons d before =>
        obtain ⟨rfl, rfl⟩ := List.cons.inj eq
        rw [byteWidth] at width
        rw [ih.mpr ⟨rfl, by omega⟩]
        rfl

/-! ## Slices -/

/-- A slice stands between characters of the right width. -/
theorem slice?_eq_some_iff {piece : String} :
    slice? text start stop = some piece ↔
      ∃ before after, text.toList = before ++ (piece.toList ++ after) ∧
        byteWidth before = start ∧ start + byteWidth piece.toList = stop := by
  unfold slice?
  constructor
  · intro h
    split at h
    next le =>
      obtain ⟨⟨before, rest⟩, first, h⟩ := Option.bind_eq_some_iff.mp h
      obtain ⟨⟨middle, after⟩, second, h⟩ := Option.bind_eq_some_iff.mp h
      obtain rfl := Option.some.inj h
      obtain ⟨eq, width⟩ := cut?_eq_some_iff.mp first
      obtain ⟨rfl, length⟩ := cut?_eq_some_iff.mp second
      refine ⟨before, after, ?_, width, ?_⟩
      · rw [eq, String.toList_ofList]
      · rw [String.toList_ofList]
        omega
    next => exact absurd h nofun
  · rintro ⟨before, after, eq, rfl, rfl⟩
    rw [if_pos (Nat.le_add_right _ _), cut?_eq_some_iff.mpr ⟨eq, rfl⟩, Nat.add_sub_cancel_left]
    simp only [Option.bind_eq_bind, Option.bind_some, cut?_eq_some_iff.mpr ⟨rfl, rfl⟩,
      String.ofList_toList]
    rfl

/-- Between two edges in order there is a slice. -/
theorem exists_slice? (le : start ≤ stop) (left : IsEdge text.toList start)
    (right : IsEdge text.toList stop) : ∃ piece, slice? text start stop = some piece := by
  obtain ⟨before, rest, eq, rfl⟩ := left
  obtain ⟨upTo, after, eq', rfl⟩ := right
  obtain ⟨middle, rfl, rfl⟩ := prefix_of_byteWidth_le (eq.symm.trans eq') le
  refine ⟨String.ofList middle, slice?_eq_some_iff.mpr ⟨before, after, ?_, rfl, ?_⟩⟩
  · rw [eq, String.toList_ofList]
  · rw [String.toList_ofList, byteWidth_append]

/-- At an edge there is the empty slice. -/
theorem slice?_self (edge : IsEdge text.toList start) : slice? text start start = some "" := by
  obtain ⟨before, after, eq, width⟩ := edge
  exact slice?_eq_some_iff.mpr ⟨before, after, eq, width, rfl⟩

/-- **There is a slice exactly between two edges in order.** -/
theorem isSome_slice? (text : String) (start stop : Nat) :
    (slice? text start stop).isSome ↔
      start ≤ stop ∧ stop ≤ (utf8 text).length ∧ IsEdge text.toList start ∧
        IsEdge text.toList stop := by
  constructor
  · intro h
    obtain ⟨piece, found⟩ := Option.isSome_iff_exists.mp h
    obtain ⟨before, after, eq, rfl, rfl⟩ := slice?_eq_some_iff.mp found
    refine ⟨Nat.le_add_right _ _, ?_, ⟨before, _, eq, rfl⟩, before ++ piece.toList, after, ?_, ?_⟩
    · rw [length_utf8, eq, byteWidth_append, byteWidth_append]
      omega
    · rw [eq, List.append_assoc]
    · rw [byteWidth_append]
  · rintro ⟨le, -, left, right⟩
    exact Option.isSome_iff_exists.mpr (exists_slice? le left right)

/-- A character of two bytes is not cut in two. -/
example : slice? "aé" 1 3 = some "é" ∧ slice? "aé" 0 2 = none ∧ slice? "aé" 2 3 = none := by
  decide

/-- The bytes of a slice are those between its offsets. -/
theorem utf8_of_slice? {piece : String} (h : slice? text start stop = some piece) :
    utf8 piece = ((utf8 text).drop start).take (stop - start) := by
  obtain ⟨before, after, eq, rfl, rfl⟩ := slice?_eq_some_iff.mp h
  have width (chars : List Char) :
      (chars.flatMap String.utf8EncodeChar).length = byteWidth chars := by
    simpa [utf8] using length_utf8 (String.ofList chars)
  rw [Nat.add_sub_cancel_left, utf8, utf8, eq, List.flatMap_append, List.flatMap_append,
    ← width before, ← width piece.toList, List.drop_left, List.take_left]

/-! ## Runs of ASCII -/

variable {run : List UInt8}

/-- A run of bytes of ASCII lies between two edges. -/
theorem isEdge_of_run (nonempty : run ≠ []) (ascii : ∀ b ∈ run, b < 0x80)
    (begins : run <+: (utf8 text).drop start) :
    IsEdge text.toList start ∧ IsEdge text.toList (start + run.length) := by
  have here {i : Nat} (bound : i < run.length) :
      IsEdge text.toList (start + i) ∧ IsEdge text.toList (start + i + 1) := by
    refine isEdge_of_ascii ?_ (ascii run[i] (List.getElem_mem bound))
    obtain ⟨rest, split⟩ := begins
    rw [← utf8, ← List.getElem?_drop, ← split, List.getElem?_append_left bound]
    exact List.getElem?_eq_getElem bound
  have pos := List.length_pos_iff.mpr nonempty
  have last := (here (i := run.length - 1) (by omega)).2
  rw [Nat.add_assoc, Nat.sub_add_cancel pos] at last
  exact ⟨(here pos).1, last⟩

/-- **A run of bytes of ASCII is a slice.** -/
theorem slice?_of_run (nonempty : run ≠ []) (ascii : ∀ b ∈ run, b < 0x80)
    (begins : run <+: (utf8 text).drop start) :
    slice? text start (start + run.length) = some (ofBytes run) := by
  obtain ⟨left, right⟩ := isEdge_of_run nonempty ascii begins
  obtain ⟨piece, found⟩ := exists_slice? (Nat.le_add_right _ _) left right
  rw [found]
  refine congrArg some (utf8_injective ?_)
  rw [utf8_of_slice? found, utf8_ofBytes ascii, Nat.add_sub_cancel_left]
  exact (List.prefix_iff_eq_take.mp begins).symm

end Monkey.Text
