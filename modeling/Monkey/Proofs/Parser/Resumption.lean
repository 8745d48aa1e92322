import Monkey.Proofs.Parser.Standing

/-!
# Where recovery goes on

After a failure the parser is to go on past the next semicolon, before the next token that begins a
statement, or, in a block, before the brace that closes it; braces opened on the way count as a whole.
`resume` is that rule as a function of the tokens, and `Resumes` says it of the tokens that are passed
over and those that are left. Recovery follows the rule, but it does not look at the kind of the
token that it starts on: a keyword there is passed over.

Results:
* `resumes_resume`: the rule does what it says.
* `Parser.Before.skipStatement`, `Parser.Before.exists_resumes`: recovery follows the rule, from the
  current token on or, if that begins a statement, from the token after it.
-/

namespace Monkey

/-- How many braces are open after some tokens, of those opened while skipping. -/
def openAfter (braces : Nat) (tokens : List Token) : Nat :=
  tokens.foldl (fun depth token => token.kind.bracesAfter depth) braces

/-- Where the rule says to go on, inside a number of braces. -/
def resume (inBlock : Bool) (braces : Nat) : List Token → List Token
  | [] => []
  | token :: rest =>
    if braces = 0 ∧ (token.kind.beginsStatement ∨ inBlock ∧ token.kind = .rbrace) then token :: rest
    else if braces = 0 ∧ token.kind = .semicolon then rest
    else resume inBlock (token.kind.bracesAfter braces) rest

/-- **The rule of recovery.** Outside of the braces opened on the way no token that is passed over
begins a statement or closes the block, and only the last is a semicolon. What is left is nothing, or
follows such a semicolon, or begins with a token that begins a statement or closes the block. -/
structure Resumes (inBlock : Bool) (braces : Nat) (skipped rest : List Token) : Prop where
  outside : ∀ before token after, skipped = before ++ token :: after → openAfter braces before = 0 →
    token.kind.beginsStatement = false ∧ (inBlock = true → token.kind ≠ .rbrace) ∧
      (token.kind = .semicolon → after = [])
  stops : rest = [] ∨
    (∃ before semicolon, skipped = before ++ [semicolon] ∧ openAfter braces before = 0 ∧
      semicolon.kind = .semicolon) ∨
    openAfter braces skipped = 0 ∧
      ((lookahead rest).beginsStatement = true ∨ inBlock = true ∧ lookahead rest = .rbrace)

variable {inBlock : Bool} {braces : Nat} {token : Token} {skipped rest tokens : List Token}

namespace Resumes

/-- Nothing is passed over at a token that stops. -/
theorem here (stop : rest = [] ∨ braces = 0 ∧
    ((lookahead rest).beginsStatement = true ∨ inBlock = true ∧ lookahead rest = .rbrace)) :
    Resumes inBlock braces [] rest where
  outside before token after eq := by simp at eq
  stops := stop.imp_right .inr

/-- A semicolon is passed over and stops. -/
theorem semicolon (kind : token.kind = .semicolon) : Resumes inBlock 0 [token] rest where
  outside before other after eq _ := by
    obtain ⟨rfl, eq⟩ | ⟨_, rfl, eq⟩ := List.append_eq_cons_iff.mp eq.symm
    · obtain ⟨rfl, rfl⟩ := List.cons.inj eq
      rw [kind]
      exact ⟨rfl, fun _ => by decide, fun _ => rfl⟩
    · simp at eq
  stops := .inr (.inl ⟨[], token, rfl, rfl, kind⟩)

/-- Any other token is passed over and counted. -/
theorem cons (goes_on : braces = 0 → token.kind.beginsStatement = false ∧
      (inBlock = true → token.kind ≠ .rbrace) ∧ token.kind ≠ .semicolon)
    (h : Resumes inBlock (token.kind.bracesAfter braces) skipped rest) :
    Resumes inBlock braces (token :: skipped) rest where
  outside before other after eq depth := by
    obtain ⟨rfl, eq⟩ | ⟨before, rfl, rfl⟩ := List.append_eq_cons_iff.mp eq.symm
    · obtain ⟨rfl, rfl⟩ := List.cons.inj eq
      obtain ⟨keyword, brace, semicolon⟩ := goes_on depth
      exact ⟨keyword, brace, fun same => absurd same semicolon⟩
    · exact h.outside before other after rfl depth
  stops := by
    obtain nil | ⟨before, last, rfl, depth, kind⟩ | stop := h.stops
    · exact .inl nil
    · exact .inr (.inl ⟨token :: before, last, rfl, depth, kind⟩)
    · exact .inr (.inr stop)

end Resumes

/-- **What the rule passes over**, and where it stops. -/
theorem resumes_resume (inBlock : Bool) (braces : Nat) (tokens : List Token) :
    ∃ skipped, tokens = skipped ++ resume inBlock braces tokens ∧
      Resumes inBlock braces skipped (resume inBlock braces tokens) := by
  induction tokens generalizing braces with
  | nil => exact ⟨[], rfl, .here (.inl rfl)⟩
  | cons token rest ih =>
    rw [resume]
    split
    · next stop => exact ⟨[], rfl, .here (.inr (by simpa [lookahead] using stop))⟩
    · next goes_on =>
      split
      · next semicolon =>
        obtain ⟨rfl, kind⟩ := semicolon
        exact ⟨[token], rfl, .semicolon kind⟩
      · next other =>
        obtain ⟨skipped, eq, resumes⟩ := ih (token.kind.bracesAfter braces)
        refine ⟨token :: skipped, congrArg (token :: ·) eq, .cons (fun zero => ?_) resumes⟩
        simp only [zero, true_and, not_or, not_and, Bool.not_eq_true] at goes_on other
        exact ⟨goes_on.1, goes_on.2, other⟩

theorem resume_of_beginsStatement (h : (lookahead tokens).beginsStatement = true) :
    resume inBlock 0 tokens = tokens := by
  cases tokens with
  | nil => rfl
  | cons token rest => exact if_pos ⟨rfl, .inl h⟩

/-! ## Recovery -/

/-- A kind that begins a statement is neither the end of input nor a brace nor a semicolon. -/
theorem Kind.other_of_beginsStatement {kind : Kind} (h : kind.beginsStatement = true) :
    kind ≠ .eof ∧ kind ≠ .rbrace ∧ kind ≠ .lbrace ∧ kind ≠ .semicolon := by
  refine ⟨?_, ?_, ?_, ?_⟩ <;> rintro rfl <;> cases h

namespace Parser

variable {finish : Position} {p : Parser}

/-- Where recovery goes on: as the rule says of the tokens from the current one on, but if the
current one begins a statement, of those after it. -/
def resumeFrom (p : Parser) (braces : Nat) (tokens : List Token) : List Token :=
  if braces = 0 ∧ p.current.kind.beginsStatement = true then
    resume (0 < p.openBlocks) braces tokens.tail
  else resume (0 < p.openBlocks) braces tokens

/-- Where statements end recovery stays. -/
theorem Before.resumeFrom_of_stops {braces : Nat} (h : p.Before finish tokens)
    (stops : p.current.kind = .eof ∨ braces = 0 ∧ p.endsBody = true) :
    p.resumeFrom braces tokens = tokens := by
  have kept : ¬ (braces = 0 ∧ p.current.kind.beginsStatement = true) := by
    rintro ⟨zero, keyword⟩
    obtain ⟨eof, rbrace, -⟩ := Kind.other_of_beginsStatement keyword
    simp [zero, Parser.endsBody, eof, rbrace] at stops
  rw [resumeFrom, if_neg kept]
  cases tokens with
  | nil => rfl
  | cons token rest =>
    have eof : p.current.kind ≠ .eof := h.kind ▸ h.not_eof token List.mem_cons_self
    obtain ⟨zero, ends⟩ := stops.resolve_left eof
    obtain nil | ⟨rbrace, blocks⟩ := h.nil_or_rbrace ends
    · cases nil
    · rw [h.kind] at rbrace
      exact if_pos ⟨zero, .inr ⟨decide_eq_true blocks, rbrace⟩⟩

/-- Elsewhere it passes over the current token, if that is no semicolon. -/
theorem Before.resumeFrom_of_passed {braces : Nat} (h : p.Before finish tokens)
    (goes_on : ¬ (p.current.kind = .eof ∨ braces = 0 ∧ p.endsBody = true))
    (inside : ¬ (braces = 0 ∧ p.current.kind = .semicolon)) :
    p.resumeFrom braces tokens =
      resume (0 < p.openBlocks) (p.current.kind.bracesAfter braces) tokens.tail := by
  rw [resumeFrom]
  split
  · next keyword =>
    obtain ⟨-, rbrace, lbrace, -⟩ := Kind.other_of_beginsStatement keyword.2
    rw [Kind.bracesAfter_other lbrace rbrace]
  · next other =>
    obtain ⟨rest, rfl⟩ := h.exists_cons fun eof => goes_on (.inl eof)
    have stop : ¬ (braces = 0 ∧ (p.current.kind.beginsStatement = true ∨
        decide (0 < p.openBlocks) = true ∧ p.current.kind = .rbrace)) := by
      rintro ⟨zero, keyword | ⟨blocks, rbrace⟩⟩
      · exact other ⟨zero, keyword⟩
      · exact goes_on (.inr ⟨zero, by simpa [endsBody, rbrace] using blocks⟩)
    rw [resume, if_neg stop, if_neg inside]
    rfl

/-- **Recovery follows the rule**, but for a token that begins a statement and that it starts on. -/
theorem Before.skipStatement (braces : Nat) (h : p.Before finish tokens) :
    (p.skipStatement braces).Before finish (p.resumeFrom braces tokens) := by
  fun_induction Parser.skipStatement braces p generalizing tokens with
  | case1 braces p stops => rwa [h.resumeFrom_of_stops stops]
  | case2 braces p goes_on ends =>
    obtain ⟨rfl, semicolon⟩ := ends
    obtain ⟨rest, rfl⟩ := h.exists_cons fun eof => goes_on (.inl eof)
    have passed : p.resumeFrom 0 (p.current :: rest) = rest := by
      simp [resumeFrom, resume, semicolon, Kind.beginsStatement, Grammar.standard]
    rw [passed]
    exact h.past
  | case3 braces p goes_on inside left =>
    rename_i stop
    dsimp only [left] at stop
    rw [h.resumeFrom_of_passed goes_on inside, stop.1,
      resume_of_beginsStatement (h.past.kind ▸ stop.2)]
    exact h.past
  | case4 braces p goes_on inside left further =>
    rename_i ih
    rw [h.resumeFrom_of_passed goes_on inside]
    have next : p.advance.resumeFrom left tokens.tail = resume (0 < p.openBlocks) left tokens.tail :=
      if_neg further
    exact next ▸ ih h.past

/-- What recovery passes over, and where it goes on. -/
theorem Before.exists_resumes (h : p.Before finish tokens) :
    ∃ passed skipped rest, tokens = passed ++ (skipped ++ rest) ∧
      (p.skipStatement 0).At finish rest ∧ Resumes (0 < p.openBlocks) 0 skipped rest ∧
      (passed = [] ∨ passed = [p.current] ∧ p.current.kind.beginsStatement = true) := by
  have resumed := (h.skipStatement 0).stands
  by_cases keyword : p.current.kind.beginsStatement = true
  · obtain ⟨after, rfl⟩ := h.exists_cons (Kind.other_of_beginsStatement keyword).1
    obtain ⟨skipped, eq, resumes⟩ := resumes_resume (0 < p.openBlocks) 0 after
    rw [resumeFrom, if_pos ⟨rfl, keyword⟩] at resumed
    exact ⟨[p.current], skipped, _, congrArg (p.current :: ·) eq, resumed, resumes,
      .inr ⟨rfl, keyword⟩⟩
  · obtain ⟨skipped, eq, resumes⟩ := resumes_resume (0 < p.openBlocks) 0 tokens
    rw [resumeFrom, if_neg fun both => keyword both.2] at resumed
    exact ⟨[], skipped, _, eq, resumed, resumes, .inl rfl⟩

end Parser

end Monkey
