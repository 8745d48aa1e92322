import Monkey.Parser.Basic

/-!
# Rules

A rule reads part of a program: from a state of the parser it gives a result, or the diagnostic that
stopped it, and the state it stopped in. What it read and recorded stays read and recorded when it
fails. A rule carries the proof that it leads ahead, so the loops of the grammar end whatever rules
they repeat.

Results:
* `Rule` is a lawful monad, and a rule is determined by what it does (`Rule.ext`).
* `Rule.repeatWhile` repeats a rule as long as the lookahead is of the right kind.
-/

namespace Monkey

/-- What reads part of a program. -/
structure Rule (α : Type) where
  run : Parser → Except Diagnostic α × Parser
  ahead : ∀ p : Parser, p.Ahead (run p).2

namespace Rule

variable {α β : Type}

@[ext] theorem ext {r s : Rule α} (h : ∀ p, r.run p = s.run p) : r = s := by
  obtain ⟨run, _⟩ := r
  obtain ⟨run', _⟩ := s
  have : run = run' := funext h
  subst this
  rfl

instance : Monad Rule where
  pure a := ⟨fun p => (.ok a, p), .refl⟩
  bind r f :=
    { run p := match r.run p with
        | (.ok a, q) => (f a).run q
        | (.error d, q) => (.error d, q)
      ahead p := by
        have first := r.ahead p
        split
        · next a q eq =>
          rw [eq] at first
          exact first.trans ((f a).ahead q)
        · next d q eq =>
          rw [eq] at first
          exact first }

@[simp] theorem run_pure (a : α) (p : Parser) : (pure a : Rule α).run p = (.ok a, p) := rfl

theorem run_bind (r : Rule α) (f : α → Rule β) (p : Parser) :
    (r >>= f).run p = match r.run p with
      | (.ok a, q) => (f a).run q
      | (.error d, q) => (.error d, q) := rfl

theorem run_bind_ok {r : Rule α} {f : α → Rule β} {p q : Parser} {a : α}
    (h : r.run p = (.ok a, q)) : (r >>= f).run p = (f a).run q := by
  rw [run_bind, h]

theorem run_bind_error {r : Rule α} {f : α → Rule β} {p q : Parser} {d : Diagnostic}
    (h : r.run p = (.error d, q)) : (r >>= f).run p = (.error d, q) := by
  rw [run_bind, h]

theorem of_bind_ok {r : Rule α} {f : α → Rule β} {p q : Parser} {b : β}
    (h : (r >>= f).run p = (.ok b, q)) :
    ∃ a m, r.run p = (.ok a, m) ∧ (f a).run m = (.ok b, q) := by
  rw [run_bind] at h
  split at h
  · exact ⟨_, _, ‹_›, h⟩
  · cases h

instance : LawfulMonad Rule := LawfulMonad.mk' Rule
  (fun r => ext fun p => by
    change (r >>= fun a => pure a).run p = r.run p
    rw [run_bind]
    rcases r.run p with ⟨_ | _, q⟩ <;> rfl)
  (fun _ _ => rfl)
  (fun r f g => ext fun p => by
    rw [run_bind, run_bind, run_bind]
    rcases r.run p with ⟨_ | _, q⟩ <;> rfl)

/-! ## Looking and moving -/

/-- The current token. -/
def current : Rule Token := ⟨fun p => (.ok p.current, p), .refl⟩

/-- The token after the current one. -/
def peek : Rule Token := ⟨fun p => (.ok p.peek, p), .refl⟩

/-- Moves on by one token. -/
def advance : Rule Unit := ⟨fun p => (.ok (), p.advance), .advance⟩

/-- Stops at a position. -/
def fail (cause : Cause) (position : Position) : Rule α :=
  ⟨fun p => (.error ⟨cause, position⟩, p), .refl⟩

/-- Moves on to a token of the given kind. If the next token is of another kind, that token is
wrong, and the rule stops before it. -/
def expect (kind : Kind) : Rule Unit := do
  let next ← peek
  if next.kind = kind then advance
  else fail (.unexpected kind next.kind) next.span.start

@[simp] theorem run_current (p : Parser) : current.run p = (.ok p.current, p) := rfl

@[simp] theorem run_peek (p : Parser) : peek.run p = (.ok p.peek, p) := rfl

@[simp] theorem run_advance (p : Parser) : advance.run p = (.ok (), p.advance) := rfl

@[simp] theorem run_fail (cause : Cause) (position : Position) (p : Parser) :
    (fail cause position : Rule α).run p = (.error ⟨cause, position⟩, p) := rfl

theorem run_expect (kind : Kind) (p : Parser) :
    (expect kind).run p = if p.peek.kind = kind then (.ok (), p.advance)
      else (.error ⟨.unexpected kind p.peek.kind, p.peek.span.start⟩, p) := by
  rw [expect, run_bind, run_peek]
  dsimp only
  split <;> rfl

theorem of_expect_ok {kind : Kind} {p q : Parser} {a : Unit}
    (h : (expect kind).run p = (.ok a, q)) : p.peek.kind = kind ∧ q = p.advance := by
  rw [run_expect] at h
  split at h
  · cases h
    exact ⟨‹_›, rfl⟩
  · cases h

/-- Moves on if the next token is of the given kind. -/
def skipOptional (kind : Kind) : Rule Unit := do
  if (← peek).kind = kind then advance

theorem run_skipOptional (kind : Kind) (p : Parser) :
    (skipOptional kind).run p = (.ok (), if p.peek.kind = kind then p.advance else p) := by
  rw [skipOptional, run_bind, run_peek]
  dsimp only
  split <;> rfl

/-- Counts one level of nesting while a rule runs. -/
def nested (r : Rule α) : Rule α where
  run p := ((r.run p.enter).1, (r.run p.enter).2.leave)
  ahead p := by
    obtain ⟨blocks, moved, less, kind, diagnostics, events⟩ := r.ahead p.enter
    exact ⟨blocks, moved, less, kind, diagnostics, events⟩

theorem run_nested (r : Rule α) (p : Parser) :
    (nested r).run p = ((r.run p.enter).1, (r.run p.enter).2.leave) := rfl

theorem of_nested_ok {r : Rule α} {p q : Parser} {a : α}
    (h : (nested r).run p = (.ok a, q)) : ∃ m, r.run p.enter = (.ok a, m) ∧ q = m.leave := by
  rw [run_nested] at h
  obtain ⟨result, state⟩ := Prod.mk.inj h
  exact ⟨_, Prod.ext result rfl, state.symm⟩

/-! ## Repetition -/

/-- As long as the next token is of a kind that passes the test, moves on to it and takes a step. -/
def repeatFrom (test : Kind → Bool) (not_eof : test .eof = false) (step : α → Rule α) (a : α)
    (p : Parser) : Except Diagnostic α × Parser :=
  if _more : test p.peek.kind then
    match _taken : (step a).run p.advance with
    | (.ok b, q) => repeatFrom test not_eof step b q
    | (.error d, q) => (.error d, q)
  else (.ok a, p)
termination_by p.cursor.remaining
decreasing_by
  have less : p.advance.cursor.remaining < p.cursor.remaining :=
    Parser.remaining_advance_lt (.inr fun eof => by simp [eof, not_eof] at _more)
  have le := ((step a).ahead p.advance).remaining_le
  rw [_taken] at le
  exact Nat.lt_of_le_of_lt le less

theorem ahead_repeatFrom (test : Kind → Bool) (not_eof : test .eof = false) (step : α → Rule α)
    (a : α) (p : Parser) : p.Ahead (repeatFrom test not_eof step a p).2 := by
  fun_induction repeatFrom test not_eof step a p with
  | case1 a p more b q taken ih =>
    have first := (step a).ahead p.advance
    rw [taken] at first
    exact ((Parser.Ahead.advance p).trans first).trans ih
  | case2 a p more d q taken =>
    have first := (step a).ahead p.advance
    rw [taken] at first
    exact (Parser.Ahead.advance p).trans first
  | case3 => exact .refl _

section

variable {test : Kind → Bool} (not_eof : test .eof = false) {step : α → Rule α} {a b : α}
  {p q : Parser}

theorem repeatFrom_of_ok (more : test p.peek.kind = true)
    (taken : (step a).run p.advance = (.ok b, q)) :
    repeatFrom test not_eof step a p = repeatFrom test not_eof step b q := by
  rw [repeatFrom, dif_pos more]
  split
  · next eq =>
    rw [taken] at eq
    cases eq
    rfl
  · next eq =>
    rw [taken] at eq
    cases eq

theorem repeatFrom_of_error {d : Diagnostic} (more : test p.peek.kind = true)
    (taken : (step a).run p.advance = (.error d, q)) :
    repeatFrom test not_eof step a p = (.error d, q) := by
  rw [repeatFrom, dif_pos more]
  split
  · next eq =>
    rw [taken] at eq
    cases eq
  · next eq =>
    rw [taken] at eq
    cases eq
    rfl

theorem repeatFrom_of_not (done : ¬ test p.peek.kind = true) :
    repeatFrom test not_eof step a p = (.ok a, p) := by
  rw [repeatFrom, dif_neg done]

end

/-- A rule that steps from one value to the next, once for each token on which it moves on. -/
def repeatWhile (test : Kind → Bool) (not_eof : test .eof = false) (step : α → Rule α) (a : α) :
    Rule α :=
  ⟨repeatFrom test not_eof step a, ahead_repeatFrom test not_eof step a⟩

end Rule

end Monkey
