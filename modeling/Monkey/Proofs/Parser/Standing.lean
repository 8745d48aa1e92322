import Monkey.Parser.Recovery
import Monkey.Parser.Rule

/-!
# Where a parser stands

A cursor shows two tokens and hides the others in its stream. `Parser.At finish tokens` says that the
tokens from the current one on are `tokens`, and after these the end of input at `finish`; moving on
drops the first. `depthAfter` counts the braces that tokens open and close, as recovery does.

Results:
* `Parser.At.advance`, `At.kind`, `At.kind_peek`: what the cursor shows of the tokens.
* `Parser.At.of_expect`, `At.of_skipOptional`: the tokens after one that the grammar fixes.
* `Parser.Before` is the same for tokens without an `eof`, and `Past` says what is left after the
  current token.
* `depthAfter_cons`, `exists_depthAfter_cons`: counting with one token less, and with one more.
-/

namespace Monkey

/-- The kind of the first token, and the end of input if there is none. -/
def lookahead : List Token → Kind
  | [] => .eof
  | token :: _ => token.kind

namespace Parser

/-- The tokens from the current one on are `tokens`, and then the input ends. -/
def At (finish : Position) (tokens : List Token) (p : Parser) : Prop :=
  p.cursor = .ofStream ⟨tokens, finish⟩

instance (finish : Position) (tokens : List Token) (p : Parser) : Decidable (p.At finish tokens) :=
  inferInstanceAs (Decidable (p.cursor = _))

namespace At

variable {finish : Position} {token : Token} {tokens : List Token} {p : Parser}

theorem ofStream (tokens : List Token) (finish : Position) :
    (Parser.ofStream ⟨tokens, finish⟩).At finish tokens := rfl

/-- Moving on drops the first token. -/
theorem advance (h : p.At finish tokens) : p.advance.At finish tokens.tail := by
  change p.cursor.advance = _
  rw [h]
  rfl

/-- Moving on by a number of tokens drops as many. -/
theorem move {q : Parser} {count : Nat} (h : p.At finish tokens)
    (moved : q.cursor = p.cursor.move count) : q.At finish (tokens.drop count) := by
  refine moved.trans ?_
  have move (stream : TokenStream) (count : Nat) : (Cursor.ofStream stream).move count =
      .ofStream ⟨stream.pending.drop count, stream.finish⟩ := by
    induction count generalizing stream with
    | zero => rfl
    | succ count ih =>
      refine (ih stream.tail).trans ?_
      rw [TokenStream.tail, List.drop_tail]
  rw [h, move]

/-- What is ahead has fewer of the same tokens before it. -/
theorem ahead {q : Parser} (h : p.At finish tokens) (ahead : p.Ahead q) :
    ∃ count, q.At finish (tokens.drop count) := by
  obtain ⟨count, moved⟩ := ahead.moved
  exact ⟨count, h.move moved⟩

theorem current (h : p.At finish (token :: tokens)) : p.current = token := by
  rw [Parser.current, h]
  rfl

theorem current_nil (h : p.At finish []) : p.current = .endOfInput finish := by
  rw [Parser.current, h]
  rfl

theorem kind (h : p.At finish tokens) : p.current.kind = lookahead tokens := by
  cases tokens with
  | nil => rw [h.current_nil]; rfl
  | cons => rw [h.current]; rfl

theorem kind_peek (h : p.At finish tokens) : p.peek.kind = lookahead tokens.tail :=
  h.advance.kind

/-- A kind other than `eof` is that of a first token. -/
theorem exists_cons (h : p.At finish tokens) (some : p.current.kind ≠ .eof) :
    ∃ rest, tokens = p.current :: rest := by
  cases tokens with
  | nil => exact absurd (by rw [h.current_nil]; rfl) some
  | cons token rest => exact ⟨rest, by rw [h.current]⟩

/-- A token that is expected is the next one. -/
theorem of_expect {kind : Kind} {a : Unit} {q : Parser} (some : kind ≠ .eof)
    (past : p.advance.At finish tokens) (run : (Rule.expect kind).run p = (.ok a, q)) :
    ∃ rest, tokens = q.current :: rest ∧ q.current.kind = kind ∧ q.At finish tokens := by
  obtain ⟨same, rfl⟩ := Rule.of_expect_ok run
  obtain ⟨rest, eq⟩ := past.exists_cons (by rw [current_advance, same]; exact some)
  exact ⟨rest, eq, same, past⟩

/-- A token that may be left out is the next one or none. -/
theorem of_skipOptional {kind : Kind} {a : Unit} {q : Parser} (past : p.advance.At finish tokens)
    (run : (Rule.skipOptional kind).run p = (.ok a, q)) :
    ∃ rest, q.advance.At finish rest ∧ rest <:+ tokens := by
  rw [Rule.run_skipOptional] at run
  split at run
  · cases run
    exact ⟨_, past.advance, List.tail_suffix tokens⟩
  · cases run
    exact ⟨tokens, past, List.suffix_rfl⟩

/-- Without an `eof` among them, the cursor shows which tokens they are. -/
theorem unique {others : List Token} (h : p.At finish tokens) (k : p.At finish others)
    (not_eof : ∀ t ∈ tokens, t.kind ≠ .eof) (not_eof' : ∀ t ∈ others, t.kind ≠ .eof) :
    tokens = others := by
  induction tokens generalizing others p with
  | nil =>
    cases others with
    | nil => rfl
    | cons other rest =>
      have eof : other.kind = .eof := by rw [← k.current, h.current_nil]; rfl
      exact absurd eof (not_eof' other List.mem_cons_self)
  | cons token rest ih =>
    cases others with
    | nil =>
      have eof : token.kind = .eof := by rw [← h.current, k.current_nil]; rfl
      exact absurd eof (not_eof token List.mem_cons_self)
    | cons other others =>
      rw [ih h.advance k.advance (fun t ht => not_eof t (List.mem_cons_of_mem _ ht))
        (fun t ht => not_eof' t (List.mem_cons_of_mem _ ht)), ← h.current, ← k.current]
      rfl

end At

/-- The parser stands at `tokens`, none of which is an `eof`. -/
structure Before (finish : Position) (tokens : List Token) (p : Parser) : Prop where
  stands : p.At finish tokens
  not_eof : ∀ t ∈ tokens, t.kind ≠ .eof

/-- The parser stands at the token before `rest`, or at the end of input with nothing left. -/
def Past (finish : Position) (rest : List Token) (p : Parser) : Prop :=
  p.advance.Before finish rest

namespace Before

variable {finish : Position} {token : Token} {tokens : List Token} {p : Parser}

theorem kind (h : p.Before finish tokens) : p.current.kind = lookahead tokens := h.stands.kind

/-- What stands at a token is past what stood before it. -/
theorem past (h : p.Before finish tokens) : p.Past finish tokens.tail :=
  ⟨h.stands.advance, fun t ht => h.not_eof t (List.mem_of_mem_tail ht)⟩

theorem exists_cons (h : p.Before finish tokens) (some : p.current.kind ≠ .eof) :
    ∃ rest, tokens = p.current :: rest :=
  h.stands.exists_cons some

/-- Statements end at the end of input and before a closing brace. -/
theorem nil_or_rbrace (h : p.Before finish tokens) (ends : p.endsBody = true) :
    tokens = [] ∨ p.current.kind = .rbrace ∧ 0 < p.openBlocks := by
  cases tokens with
  | nil => exact .inl rfl
  | cons token rest =>
    have eof : p.current.kind ≠ .eof := by
      rw [h.kind]
      exact h.not_eof token List.mem_cons_self
    exact .inr (by simpa [Parser.endsBody, eof] using ends)

end Before

theorem Past.kind_peek {finish : Position} {rest : List Token} {p : Parser}
    (h : p.Past finish rest) : p.peek.kind = lookahead rest :=
  Before.kind h

end Parser

/-! ## Braces -/

/-- How many braces are open after some tokens if `depth` are open before them, and nothing if the
tokens close more than that. -/
def depthAfter (depth : Nat) : List Token → Option Nat
  | [] => some depth
  | token :: rest =>
    if token.kind = .rbrace ∧ depth = 0 then none
    else depthAfter (token.kind.bracesAfter depth) rest

section

variable {token : Token} {tokens : List Token} {depth after : Nat}

theorem depthAfter_cons (h : depthAfter depth (token :: tokens) = some after) :
    depthAfter (token.kind.bracesAfter depth) tokens = some after := by
  rw [depthAfter] at h
  split at h
  · cases h
  · exact h

/-- A token that opens no brace can be put before the others. -/
theorem exists_depthAfter_cons (h : depthAfter depth tokens = some after)
    (lbrace : token.kind ≠ .lbrace) :
    ∃ before, depth ≤ before ∧ depthAfter before (token :: tokens) = some after := by
  by_cases rbrace : token.kind = .rbrace
  · refine ⟨depth + 1, Nat.le_succ depth, ?_⟩
    rw [depthAfter, if_neg fun h => Nat.succ_ne_zero depth h.2, rbrace]
    exact h
  · refine ⟨depth, Nat.le_refl depth, ?_⟩
    rw [depthAfter, if_neg fun h => rbrace h.1]
    rwa [Kind.bracesAfter_other lbrace rbrace]

end

end Monkey
