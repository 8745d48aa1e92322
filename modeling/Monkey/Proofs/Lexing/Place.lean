import Monkey.Proofs.Lexing.MaximalMunch

/-!
# Tokens in another place

What a lexer reads depends on the bytes before it alone. Where it stands shows in the positions of the
tokens only: before the same bytes in another place, further on or in another file, it gives the same
tokens there.

Results:
* `Lexer.Placed.tokens`: lexers before the same bytes give the same tokens, each in its own place.
* `Lexer.tokens_narrow`: in a text of fewer than 2^32 bytes, positions of 32 bits are the positions.
-/

namespace Monkey

/-- The token with other positions. -/
def Token.place (f : Position → Position) (token : Token) : Token :=
  ⟨token.kind, token.value, ⟨f token.span.start, f token.span.stop⟩⟩

namespace Lexer

/-- Two lexers before the same bytes, where `f` leads from the positions of one to those of the
other. -/
structure Placed (f : Position → Position) (a b : Lexer) : Prop where
  rest : b.rest = a.rest
  position : ∀ count, (b.skip count).position = f (a.skip count).position

namespace Placed

variable {f : Position → Position} {a b : Lexer}

theorem skip (h : Placed f a b) (count : Nat) : Placed f (a.skip count) (b.skip count) where
  rest := congrArg (List.drop count) h.rest
  position further := by
    have add (lexer : Lexer) : ((lexer.skip count).skip further).position =
        (lexer.skip (count + further)).position := by
      simp only [Lexer.skip, Lexer.position, Nat.add_assoc]
    rw [add, add, h.position]

theorem skipBlanks (h : Placed f a b) : Placed f a.skipBlanks b.skipBlanks := by
  rw [Lexer.skipBlanks, Lexer.skipBlanks, h.rest]
  exact h.skip _

theorem atEnd (h : Placed f a b) : b.atEnd = a.atEnd :=
  congrArg List.isEmpty h.skipBlanks.rest

theorem readToken (h : Placed f a b) :
    b.readToken.1 = a.readToken.1.place f ∧ Placed f a.readToken.2 b.readToken.2 := by
  rw [Lexer.readToken, Lexer.readToken, h.rest]
  refine ⟨?_, h.skip _⟩
  have start : b.position = f a.position := h.position 0
  rw [Token.place, start, h.position]

theorem next (h : Placed f a b) : b.next.1 = a.next.1.place f ∧ Placed f a.next.2 b.next.2 :=
  h.skipBlanks.readToken

/-- **The same bytes give the same tokens**, each in its own place. -/
theorem tokens (h : Placed f a b) : b.tokens = a.tokens.map (·.place f) := by
  fun_induction Lexer.tokens a generalizing b with
  | case1 a done =>
    rw [tokens_of_atEnd (h.atEnd.trans done)]
    rfl
  | case2 a unread ih =>
    rw [tokens_of_not_atEnd (h.atEnd.trans (Bool.eq_false_iff.mpr unread)), h.next.1, ih h.next.2]
    rfl

theorem finish (h : Placed f a b) : b.finish = f a.finish := by
  have last := h.position a.rest.length
  rw [Lexer.finish, h.rest]
  exact last

end Placed

end Lexer

/-! ## Positions of 32 bits -/

theorem Position.narrow_of_lt {position : Position} (lt : position.offset < UInt32.size) :
    position.narrow = position := by
  rw [narrow, Nat.toUInt32_eq, UInt32.toNat_ofNat_of_lt' lt]

/-- **32 bits are enough for a text of fewer than 2^32 bytes**: its tokens, and the place where it
ends, are what they are with the positions of 32 bits. -/
theorem Lexer.tokens_narrow {text : String} (small : (Text.utf8 text).length < UInt32.size)
    (file : Option String) :
    (ofText text file).tokens.map (.place .narrow) = (ofText text file).tokens ∧
      (ofText text file).finish.narrow = (ofText text file).finish := by
  refine ⟨?_, Position.narrow_of_lt (finish_ofText text file ▸ small)⟩
  have spans := (within_ofText text file).maximalMunch_tokens.spans
  refine (List.map_congr_left fun t ht => ?_).trans (List.map_id _)
  obtain ⟨-, start_le, stop_le, -, -⟩ := spans t ht
  have start : t.span.start.narrow = t.span.start :=
    Position.narrow_of_lt (Nat.lt_of_le_of_lt (start_le.trans stop_le) small)
  have stop : t.span.stop.narrow = t.span.stop :=
    Position.narrow_of_lt (Nat.lt_of_le_of_lt stop_le small)
  rw [Token.place, start, stop]
  rfl

end Monkey
