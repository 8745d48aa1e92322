import Monkey.Proofs.Parser.Simulation
import Monkey.Proofs.Parser.Standing

/-!
# Parses of replaced tokens

The parser decides by the kinds and the values of tokens alone. So where every token is replaced by
one of the same kind and value, the parse is the same with the tokens replaced in its tree, and the
positions of its diagnostics replaced in the same way.

Results:
* `Replacement.simulation`: the parse of replaced tokens simulates that of the tokens.
-/

namespace Monkey

/-- Other tokens that say the same, and the positions where they start. -/
structure Replacement where
  token : Token → Token
  position : Position → Position
  kind_token : ∀ t, (token t).kind = t.kind
  value_token : ∀ t, (token t).value = t.value
  start_token : ∀ t, (token t).span.start = position t.span.start

/-- The diagnostic about the token in the place of another. -/
def Replacement.diagnostic (r : Replacement) (d : Diagnostic) : Diagnostic :=
  ⟨d.cause, r.position d.position⟩

/-- The parser `q` has the tokens of `p` before it, replaced, and its diagnostics are `before` and
those of `p`, replaced. -/
structure Replaced (r : Replacement) (finish finish' : Position) (before : List Diagnostic)
    (p q : Parser) : Prop where
  stands : ∃ tokens, p.At finish tokens ∧ q.At finish' (tokens.map r.token)
  openBlocks : q.openBlocks = p.openBlocks
  diagnostics : q.diagnostics.toList = before ++ p.diagnostics.toList.map r.diagnostic

namespace Replaced

variable {r : Replacement} {finish finish' : Position} {before : List Diagnostic} {p q : Parser}

theorem advance (h : Replaced r finish finish' before p q) :
    Replaced r finish finish' before p.advance q.advance where
  stands := by
    obtain ⟨tokens, left, right⟩ := h.stands
    refine ⟨tokens.tail, left.advance, ?_⟩
    rw [List.map_tail]
    exact right.advance
  openBlocks := h.openBlocks
  diagnostics := h.diagnostics

theorem record (h : Replaced r finish finish' before p q) (d : Diagnostic) :
    Replaced r finish finish' before (p.record d) (q.record (r.diagnostic d)) where
  stands := h.stands
  openBlocks := h.openBlocks
  diagnostics := by
    change (q.diagnostics.push _).toList = before ++ (p.diagnostics.push d).toList.map _
    rw [Array.toList_push, Array.toList_push, h.diagnostics, List.map_append, List.append_assoc]
    rfl

section

variable (eof : r.token (.endOfInput finish) = .endOfInput finish')
include eof

theorem current (h : Replaced r finish finish' before p q) : q.current = r.token p.current := by
  obtain ⟨tokens, left, right⟩ := h.stands
  cases tokens with
  | nil => rw [left.current_nil, right.current_nil, eof]
  | cons token rest => rw [left.current, right.current]

theorem kind (h : Replaced r finish finish' before p q) : q.current.kind = p.current.kind := by
  rw [h.current eof, r.kind_token]

theorem position (h : Replaced r finish finish' before p q) :
    q.position = r.position p.position := by
  rw [Parser.position, h.current eof, r.start_token]
  rfl

theorem endsBody (h : Replaced r finish finish' before p q) : q.endsBody = p.endsBody := by
  unfold Parser.endsBody
  rw [h.kind eof, h.openBlocks]

theorem recover (h : Replaced r finish finish' before p q) (d : Diagnostic) :
    Replaced r finish finish' before (p.recover d) (q.recover (r.diagnostic d)) := by
  have skipped : Replaced r finish finish' before ((p.record d).skipStatement 0)
      ((q.record (r.diagnostic d)).skipStatement 0) :=
    Parser.related_skipStatement (fun _ => Replaced r finish finish' before)
      (Replaced r finish finish' before) (fun h => h.kind eof) (fun h => h.endsBody eof)
      (fun h _ _ _ => h.advance.kind eof) (fun h _ _ _ => h.advance) (fun h _ => h.advance)
      (fun h _ => h) (h.record d)
  exact ⟨skipped.stands, skipped.openBlocks, skipped.diagnostics⟩

end

end Replaced

/-- **Replaced tokens are parsed as the tokens are.** -/
def Replacement.simulation (r : Replacement) (finish finish' : Position)
    (before : List Diagnostic) (eof : r.token (.endOfInput finish) = .endOfInput finish') :
    Simulation where
  token := r.token
  fresh := Replaced r finish finish' before
  held := Replaced r finish finish' before
  ended := Replaced r finish finish' before
  between := Replaced r finish finish' before
  stuck d e p q := e = r.diagnostic d ∧ Replaced r finish finish' before p q
  scope _ := True
  floor := 0
  kind_token := r.kind_token
  value_token := r.value_token
  scope_succ _ _ := trivial
  floor_le _ := Nat.zero_le _
  current h := h.current eof
  openBlocks h := h.openBlocks
  peek h := h.advance.kind eof
  hold h _ := h
  advance h := h.advance
  enter h := ⟨h.stands, h.openBlocks, h.diagnostics⟩
  leave h := ⟨h.stands, h.openBlocks, h.diagnostics⟩
  leave_stuck h := ⟨h.1, h.2.stands, h.2.openBlocks, h.2.diagnostics⟩
  blame h _ := ⟨congrArg (Diagnostic.mk _) (h.position eof), h⟩
  unexpected h _ := ⟨congrArg (Diagnostic.mk _) (h.advance.position eof), h⟩
  openBlock h _ := ⟨h.advance.stands, congrArg (· + 1) h.openBlocks, h.diagnostics⟩
  endsBody h := h.endsBody eof
  start h _ := h
  closeBlock h _ _ := ⟨h.stands, congrArg (· - 1) h.openBlocks, h.diagnostics⟩
  settle h _ := h
  semicolon h _ := h.advance
  next h _ := h.advance
  recover := by
    rintro d _ p q ⟨rfl, h⟩ _
    exact h.recover eof d

end Monkey
