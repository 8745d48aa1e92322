import Monkey.Parser.Rule

/-!
# What a rule ensures

`Rule.Ensures before r after stuck` says what one run of a rule leads to: from a state with `before`
it succeeds with a result and a state that have `after`, or it fails with a diagnostic and a state
that have `stuck`. `Rule.Related` compares two runs; this is about one, and about its result.

Results:
* `Ensures.bind`, `Ensures.current`, `Ensures.peek`: one rule after another.
* `Ensures.advance`, `Ensures.expect`, `Ensures.skipOptional`: the rules that move.
* `Ensures.repeatWhile`: a repetition ensures what each of its steps preserves.
-/

namespace Monkey

namespace Rule

variable {α β : Type} {before before' : Parser → Prop} {middle after after' : α → Parser → Prop}
  {stuck stuck' : Diagnostic → Parser → Prop}

/-- An outcome is a result and a state with `after`, or a diagnostic and a state with `stuck`. -/
def Leads (after : α → Parser → Prop) (stuck : Diagnostic → Parser → Prop) :
    Except Diagnostic α × Parser → Prop
  | (.ok a, q) => after a q
  | (.error d, q) => stuck d q

/-- What a rule leads to, from the states with `before`. -/
def Ensures (before : Parser → Prop) (r : Rule α) (after : α → Parser → Prop)
    (stuck : Diagnostic → Parser → Prop) : Prop :=
  ∀ p, before p → Leads after stuck (r.run p)

namespace Ensures

variable {r : Rule α}

theorem of_ok {p q : Parser} {a : α} (h : Ensures before r after stuck) (start : before p)
    (run : r.run p = (.ok a, q)) : after a q := by
  have := h p start
  rwa [run] at this

theorem of_error {p q : Parser} {d : Diagnostic} (h : Ensures before r after stuck)
    (start : before p) (run : r.run p = (.error d, q)) : stuck d q := by
  have := h p start
  rwa [run] at this

theorem pure {a : α} (h : ∀ p, before p → after a p) :
    Ensures before (Pure.pure a) after stuck := h

theorem fail {cause : Cause} {position : Position}
    (h : ∀ p, before p → stuck ⟨cause, position⟩ p) :
    Ensures before (Rule.fail cause position : Rule α) after stuck := h

/-- A rule ensures less from fewer states. -/
theorem imp (h : Ensures before r after stuck) (fewer : ∀ p, before' p → before p)
    (less : ∀ a p, after a p → after' a p) (blocked : ∀ d p, stuck d p → stuck' d p) :
    Ensures before' r after' stuck' := by
  intro p start
  have once := h p (fewer p start)
  generalize r.run p = outcome at once ⊢
  rcases outcome with ⟨d | a, q⟩
  · exact blocked d q once
  · exact less a q once

theorem weaken (h : Ensures before r after stuck) (fewer : ∀ p, before' p → before p) :
    Ensures before' r after stuck :=
  fun p start => h p (fewer p start)

theorem relax (h : Ensures before r after stuck) (less : ∀ a p, after a p → after' a p) :
    Ensures before r after' stuck :=
  h.imp (fun _ start => start) less fun _ _ blocked => blocked

/-! ## One after another -/

theorem bind {f : α → Rule β} {done : β → Parser → Prop} (first : Ensures before r middle stuck)
    (next : ∀ a, Ensures (middle a) (f a) done stuck) : Ensures before (r >>= f) done stuck := by
  intro p start
  have once := first p start
  rw [run_bind]
  generalize r.run p = outcome at once ⊢
  rcases outcome with ⟨d | a, q⟩
  · exact once
  · exact next a q once

/-- What looks at the current token goes on from the same state. -/
theorem current {f : Token → Rule α}
    (next : ∀ token, Ensures (fun p => before p ∧ p.current = token) (f token) after stuck) :
    Ensures before (Rule.current >>= f) after stuck :=
  fun p start => next p.current p ⟨start, rfl⟩

theorem current_eq {f : Token → Rule α} {token : Token} (here : ∀ p, before p → p.current = token)
    (next : Ensures before (f token) after stuck) :
    Ensures before (Rule.current >>= f) after stuck := by
  refine current fun found p start => ?_
  rw [← start.2, here p start.1]
  exact next p start.1

/-- What looks at the next token does so too. -/
theorem peek {f : Token → Rule α}
    (next : ∀ token, Ensures (fun p => before p ∧ p.peek = token) (f token) after stuck) :
    Ensures before (Rule.peek >>= f) after stuck :=
  fun p start => next p.peek p ⟨start, rfl⟩

theorem advance {after : Unit → Parser → Prop} (h : ∀ p, before p → after () p.advance) :
    Ensures before Rule.advance after stuck := h

theorem expect {kind : Kind} {after : Unit → Parser → Prop}
    (same : ∀ p, before p → p.peek.kind = kind → after () p.advance)
    (other : ∀ p, before p → p.peek.kind ≠ kind →
      stuck ⟨.unexpected kind p.peek.kind, p.peek.span.start⟩ p) :
    Ensures before (Rule.expect kind) after stuck := by
  intro p start
  rw [run_expect]
  split
  · exact same p start ‹_›
  · exact other p start ‹_›

theorem skipOptional {kind : Kind} {after : Unit → Parser → Prop}
    (same : ∀ p, before p → p.peek.kind = kind → after () p.advance)
    (other : ∀ p, before p → after () p) :
    Ensures before (Rule.skipOptional kind) after stuck := by
  intro p start
  rw [run_skipOptional]
  split
  · exact same p start ‹_›
  · exact other p start

/-- A rule that reads from inside a level is left with what it ensures there. -/
theorem nested (h : Ensures before' r after' stuck') (enter : ∀ p, before p → before' p.enter)
    (leave : ∀ a p, after' a p → after a p.leave)
    (leave_stuck : ∀ d p, stuck' d p → stuck d p.leave) :
    Ensures before (Rule.nested r) after stuck := by
  intro p start
  have once := h p.enter (enter p start)
  rw [run_nested]
  generalize r.run p.enter = outcome at once ⊢
  rcases outcome with ⟨d | a, q⟩
  · exact leave_stuck d q once
  · exact leave a q once

/-! ## Repetition -/

/-- A repetition ensures what its steps preserve. -/
theorem repeatWhile (test : Kind → Bool) (not_eof : test .eof = false) {step : α → Rule α}
    (keeps : ∀ a, Ensures (fun q => ∃ p, after a p ∧ test p.peek.kind = true ∧ q = p.advance)
      (step a) after stuck) (a : α) :
    Ensures (after a) (Rule.repeatWhile test not_eof step a) after stuck := by
  intro p start
  change Leads after stuck (repeatFrom test not_eof step a p)
  fun_induction Rule.repeatFrom test not_eof step a p with
  | case1 a p more b q taken ih => exact ih ((keeps a).of_ok ⟨p, start, more, rfl⟩ taken)
  | case2 a p more d q taken => exact (keeps a).of_error ⟨p, start, more, rfl⟩ taken
  | case3 a p done => exact start

end Ensures

end Rule

end Monkey
