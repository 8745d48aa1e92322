import Monkey.Parser.Recovery
import Monkey.Parser.Rule

/-!
# Two runs of a rule

`Rule.Related before r s results after stuck` says that the rules `r` and `s`, run from states that
`before` relates, end alike: both succeed, with results and states that `results` and `after` relate,
or both fail, with diagnostics and states that `stuck` relates. With one rule on both sides this
compares two runs of it, and with one state too it says what a single run keeps.

Results:
* `Rule.Related.bind`: rules that are related one after another are related together.
* `Rule.Related.repeatWhile`: so are repetitions of related steps.
* `Parser.related_skipStatement`: two parsers that see the same kinds of token skip alike.
-/

namespace Monkey

/-- The outcomes of two rules are alike. -/
inductive Alike {α β : Type} (results : α → β → Prop) (after : Parser → Parser → Prop)
    (stuck : Diagnostic → Diagnostic → Parser → Parser → Prop) :
    Except Diagnostic α × Parser → Except Diagnostic β × Parser → Prop
  | ok {a : α} {b : β} {p q : Parser} (result : results a b) (state : after p q) :
      Alike results after stuck (.ok a, p) (.ok b, q)
  | error {d e : Diagnostic} {p q : Parser} (state : stuck d e p q) :
      Alike results after stuck (.error d, p) (.error e, q)

namespace Rule

variable {α β γ δ : Type} {before middle after : Parser → Parser → Prop}
  {stuck : Diagnostic → Diagnostic → Parser → Parser → Prop}

/-- From states that `before` relates the rules end alike. -/
def Related (before : Parser → Parser → Prop) (r : Rule α) (s : Rule β) (results : α → β → Prop)
    (after : Parser → Parser → Prop) (stuck : Diagnostic → Diagnostic → Parser → Parser → Prop) :
    Prop :=
  ∀ p q, before p q → Alike results after stuck (r.run p) (s.run q)

namespace Related

variable {r : Rule α} {s : Rule β} {results : α → β → Prop}

theorem pure {a : α} {b : β} (result : results a b) :
    Related after (Pure.pure a) (Pure.pure b) results after stuck :=
  fun _ _ h => .ok result h

theorem bind {f : α → Rule γ} {g : β → Rule δ} {results' : γ → δ → Prop}
    (first : Related before r s results middle stuck)
    (next : ∀ a b, results a b → Related middle (f a) (g b) results' after stuck) :
    Related before (r >>= f) (s >>= g) results' after stuck := by
  intro p q h
  have first := first p q h
  rw [run_bind, run_bind]
  generalize r.run p = x at first
  generalize s.run q = y at first
  cases first with
  | ok result state => exact next _ _ result _ _ state
  | error state => exact .error state

/-- Rules that are related from more states are related from fewer. -/
theorem weaken (h : Related before r s results after stuck)
    (fewer : ∀ p q, middle p q → before p q) : Related middle r s results after stuck :=
  fun p q k => h p q (fewer p q k)

/-- Rules that end in fewer states end in more. -/
theorem relax (h : Related before r s results middle stuck)
    (more : ∀ p q, middle p q → after p q) : Related before r s results after stuck := by
  intro p q k
  have both := h p q k
  generalize r.run p = x at both
  generalize s.run q = y at both
  cases both with
  | ok result state => exact .ok result (more _ _ state)
  | error state => exact .error state

/-- Steps that are related wherever the repetition goes on make related repetitions. -/
theorem repeatFrom {test : Kind → Bool} (not_eof : test .eof = false) {step : α → Rule α}
    {step' : β → Rule β} (peek : ∀ p q, after p q → q.peek.kind = p.peek.kind)
    (next : ∀ a b, results a b →
      Related (fun p q => ∃ p' q', after p' q' ∧ test p'.peek.kind = true ∧ p = p'.advance ∧
        q = q'.advance) (step a) (step' b) results after stuck)
    {a : α} {b : β} (result : results a b) {p q : Parser} (h : after p q) :
    Alike results after stuck (repeatFrom test not_eof step a p)
      (repeatFrom test not_eof step' b q) := by
  fun_induction Rule.repeatFrom test not_eof step a p generalizing b q with
  | case1 a p more c p' taken ih =>
    have more' : test q.peek.kind = true := by rwa [peek p q h]
    have one := next a b result p.advance q.advance ⟨p, q, h, more, rfl, rfl⟩
    rw [taken] at one
    generalize eq : (step' b).run q.advance = y at one
    cases one with
    | ok result' state =>
      rw [Rule.repeatFrom_of_ok not_eof more' eq]
      exact ih result' state
  | case2 a p more d p' taken =>
    have more' : test q.peek.kind = true := by rwa [peek p q h]
    have one := next a b result p.advance q.advance ⟨p, q, h, more, rfl, rfl⟩
    rw [taken] at one
    generalize eq : (step' b).run q.advance = y at one
    cases one with
    | error state =>
      rw [Rule.repeatFrom_of_error not_eof more' eq]
      exact .error state
  | case3 a p done =>
    rw [Rule.repeatFrom_of_not not_eof (by rwa [peek p q h])]
    exact .ok result h

theorem repeatWhile (results : α → β → Prop) {test : Kind → Bool} (not_eof : test .eof = false)
    {step : α → Rule α} {step' : β → Rule β} (peek : ∀ p q, after p q → q.peek.kind = p.peek.kind)
    (next : ∀ a b, results a b →
      Related (fun p q => ∃ p' q', after p' q' ∧ test p'.peek.kind = true ∧ p = p'.advance ∧
        q = q'.advance) (step a) (step' b) results after stuck)
    {a : α} {b : β} (result : results a b) :
    Related after (Rule.repeatWhile test not_eof step a) (Rule.repeatWhile test not_eof step' b)
      results after stuck :=
  fun _ _ h => repeatFrom not_eof peek next result h

end Related

end Rule

namespace Parser

/-- Two parsers skip alike if they see the same kinds of token on the way. `within` relates them
inside a number of braces, `past` where they stop. -/
theorem related_skipStatement (within : Nat → Parser → Parser → Prop)
    (past : Parser → Parser → Prop)
    (kind : ∀ {braces p q}, within braces p q → q.current.kind = p.current.kind)
    (endsBody : ∀ {braces p q}, within braces p q → q.endsBody = p.endsBody)
    (peek : ∀ {braces p q}, within braces p q → p.current.kind ≠ .eof →
      ¬ (braces = 0 ∧ p.endsBody = true) → ¬ (braces = 0 ∧ p.current.kind = .semicolon) →
      q.peek.kind = p.peek.kind)
    (skip : ∀ {braces p q}, within braces p q → p.current.kind ≠ .eof →
      ¬ (braces = 0 ∧ p.endsBody = true) → ¬ (braces = 0 ∧ p.current.kind = .semicolon) →
      within (p.current.kind.bracesAfter braces) p.advance q.advance)
    (semicolon : ∀ {p q}, within 0 p q → p.current.kind = .semicolon → past p.advance q.advance)
    (stop : ∀ {braces p q}, within braces p q → braces = 0 ∨ p.current.kind = .eof → past p q)
    {braces : Nat} {p q : Parser} (h : within braces p q) :
    past (p.skipStatement braces) (q.skipStatement braces) := by
  induction braces, p using skipStatement.induct generalizing q with
  | case1 braces p stops =>
    rw [skipStatement, skipStatement.eq_def braces q, kind h, endsBody h, if_pos stops,
      if_pos stops]
    exact stop h (stops.elim .inr fun k => .inl k.1)
  | case2 braces p goes_on ends =>
    rw [skipStatement, skipStatement.eq_def braces q, kind h, endsBody h, if_neg goes_on,
      if_neg goes_on, if_pos ends, if_pos ends]
    rw [ends.1] at h
    exact semicolon h ends.2
  | case3 braces p goes_on inside left =>
    rename_i begins
    have eof : p.current.kind ≠ .eof := fun k => goes_on (.inl k)
    have body : ¬ (braces = 0 ∧ p.endsBody = true) := fun k => goes_on (.inr k)
    rw [skipStatement, skipStatement.eq_def braces q, kind h, endsBody h, if_neg goes_on,
      if_neg goes_on, if_neg inside, if_neg inside]
    dsimp only
    rw [peek h eof body inside, if_pos begins, if_pos begins]
    exact stop (skip h eof body inside) (.inl begins.1)
  | case4 braces p goes_on inside left further =>
    rename_i ih
    have eof : p.current.kind ≠ .eof := fun k => goes_on (.inl k)
    have body : ¬ (braces = 0 ∧ p.endsBody = true) := fun k => goes_on (.inr k)
    rw [skipStatement, skipStatement.eq_def braces q, kind h, endsBody h, if_neg goes_on,
      if_neg goes_on, if_neg inside, if_neg inside]
    dsimp only
    rw [peek h eof body inside, if_neg further, if_neg further]
    exact ih (skip h eof body inside)

end Parser

end Monkey
