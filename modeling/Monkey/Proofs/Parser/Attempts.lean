import Monkey.Proofs.Parser.Agreement
import Monkey.Proofs.Parser.Standing

/-!
# Attempts at statements

Reading statements is one attempt after another, and an attempt may read blocks, in which there are
more of them. `Level.marked` is the grammar with a mark on the log wherever an attempt starts, at any
depth of nesting. The marks change nothing but the log, so they show what the parser itself does.

What they show is that attempts move on. Between attempts, those so far and the tokens from the
current one on are, in this order, tokens of the text. Where an attempt starts, this takes the current
token from the one side to the other. Recovery skips no token only where statements end, and there no
attempt starts; so if it stands still, the attempt that has failed had moved on before.

Results:
* `Parser.statementsBy_statement`: the loop that is marked is the loop of the parser.
* `Marking.level`: the marked grammar reads what the grammar reads, and its attempts move on.
-/

namespace Monkey

/-! ## Marks -/

/-- The mark that an event is. -/
def Event.mark? : Event → Option String
  | .started name => some name
  | _ => none

namespace Parser

/-- The marks on the log. -/
def marks (p : Parser) : List String :=
  p.events.toList.filterMap Event.mark?

/-- The log without the marks. -/
def unmarked (p : Parser) : List Event :=
  p.events.toList.filter (·.mark?.isNone)

theorem marks_note (p : Parser) (event : Event) :
    (p.note event).marks = p.marks ++ event.mark?.toList := by
  rw [marks, note, Array.toList_push, List.filterMap_append]
  cases h : event.mark? <;> simp [marks, h]

theorem unmarked_note (p : Parser) (event : Event) :
    (p.note event).unmarked = p.unmarked ++ if event.mark?.isNone then [event] else [] := by
  rw [unmarked, note, Array.toList_push, List.filter_append]
  cases h : event.mark?.isNone <;> simp [unmarked, h]

end Parser

/-! ## The marked grammar -/

/-- A rule that marks the current token, under a name, before it starts. -/
def Rule.attempted {α : Type} (name : Token → String) (r : Rule α) : Rule α where
  run p := r.run (p.note (.started (name p.current)))
  ahead p := (Parser.Ahead.note p _).trans (r.ahead _)

namespace Parser

/-- Reads statements until they end, each of them by the given rule. -/
def statementsBy (rule : Rule Stmt) (p : Parser) : List Stmt × Parser :=
  if _ends : p.endsBody then ([], p)
  else
    match _tried : rule.run p with
    | (.ok statement, q) =>
      let (rest, r) := statementsBy rule q.advance
      (statement :: rest, r)
    | (.error diagnostic, q) => statementsBy rule (q.recover diagnostic)
termination_by p.cursor.remaining
decreasing_by
  all_goals
    have ahead := rule.ahead p
    rw [_tried] at ahead
  · exact ahead.remaining_advance_lt (by simpa using _ends)
  · exact ahead.remaining_recover_lt (by simpa using _ends) diagnostic

section

variable {rule : Rule Stmt} {p q : Parser}

theorem statementsBy_of_endsBody (ends : p.endsBody = true) : p.statementsBy rule = ([], p) := by
  rw [statementsBy, dif_pos ends]

theorem statementsBy_of_ok {statement : Stmt} (ends : p.endsBody = false)
    (tried : rule.run p = (.ok statement, q)) :
    p.statementsBy rule =
      (statement :: (q.advance.statementsBy rule).1, (q.advance.statementsBy rule).2) := by
  rw [statementsBy, dif_neg (by simp [ends])]
  split
  · next eq =>
    rw [tried] at eq
    cases eq
    rfl
  · next eq =>
    rw [tried] at eq
    cases eq

theorem statementsBy_of_error {diagnostic : Diagnostic} (ends : p.endsBody = false)
    (tried : rule.run p = (.error diagnostic, q)) :
    p.statementsBy rule = (q.recover diagnostic).statementsBy rule := by
  rw [statementsBy, dif_neg (by simp [ends])]
  split
  · next eq =>
    rw [tried] at eq
    cases eq
  · next eq =>
    rw [tried] at eq
    cases eq
    rfl

/-- With the rule of the grammar this is how the parser reads statements. -/
theorem statementsBy_statement (level : Level) (p : Parser) :
    p.statementsBy (.statement level) = p.statements level := by
  fun_induction statements level p with
  | case1 p ends => exact statementsBy_of_endsBody ends
  | case2 p ends statement q tried rest r eq ih =>
    rw [statementsBy_of_ok (Bool.eq_false_iff.mpr ends) tried, ih, eq]
  | case3 p ends d q tried ih =>
    rw [statementsBy_of_error (Bool.eq_false_iff.mpr ends) tried, ih]

theorem ahead_statementsBy (rule : Rule Stmt) (p : Parser) : p.Ahead (p.statementsBy rule).2 := by
  fun_induction statementsBy rule p with
  | case1 => exact .refl _
  | case2 p _ statement q tried rest r eq ih =>
    have ahead := rule.ahead p
    rw [tried] at ahead
    rw [eq] at ih
    exact (ahead.trans (.advance q)).trans ih
  | case3 p _ diagnostic q tried ih =>
    have ahead := rule.ahead p
    rw [tried] at ahead
    exact (ahead.trans (ahead_recover q diagnostic)).trans ih

end

end Parser

/-- Statements in braces, each of them read by the given rule. -/
def Rule.blockBy (rule : Rule Stmt) : Rule Block where
  run p :=
    let (body, q) := p.advance.openBlock.statementsBy rule
    (.ok (.mk p.current body), q.closeBlock)
  ahead p := by
    obtain ⟨blocks, moved, less, kind, diagnostics, events⟩ :=
      Parser.ahead_statementsBy rule p.advance.openBlock
    refine (Parser.Ahead.advance p).trans ⟨?_, moved, less, kind, diagnostics, events⟩
    change (p.advance.openBlock.statementsBy rule).2.openBlocks - 1 = p.advance.openBlocks
    rw [blocks]
    rfl

/-- The level at which expressions and blocks nest up to the given depth, where every attempt at a
statement marks the token at which it starts. -/
def Level.marked (name : Token → String) : Nat → Level
  | 0 => .lowest
  | depth + 1 =>
    let below := marked name depth
    ⟨fun power => .nested (.expression below power),
      .nested (.blockBy (.attempted name (.statement below)))⟩

/-- Reads a program and marks the attempts at statements. -/
def Parser.markedProgram (name : Token → String) (p : Parser) : Program × Parser :=
  let level := Level.marked name (maxDepth - p.depth)
  let (statements, q) :=
    (p.note (.started p.position.file)).statementsBy (.attempted name (.statement level))
  (⟨statements⟩, q.note (.finished statements.length q.diagnostics.size))

/-! ## The marks change the log only -/

/-- The states differ in the log only, and the second log has marks that the first one has not. -/
structure Marked (marks : List String) (p q : Parser) : Prop where
  state : ∃ log, q = { p with events := log }
  marks_eq : q.marks = marks
  unmarked_eq : q.unmarked = p.unmarked

namespace Marked

variable {marks : List String} {p q : Parser}

theorem current (h : Marked marks p q) : q.current = p.current := by
  obtain ⟨⟨log, rfl⟩, -, -⟩ := h
  rfl

theorem diagnostics (h : Marked marks p q) : q.diagnostics = p.diagnostics := by
  obtain ⟨⟨log, rfl⟩, -, -⟩ := h
  rfl

theorem endsBody (h : Marked marks p q) : q.endsBody = p.endsBody := by
  obtain ⟨⟨log, rfl⟩, -, -⟩ := h
  rfl

/-- An event that is no mark is noted by both. -/
theorem note (h : Marked marks p q) {event : Event} (plain : event.mark? = none) :
    Marked marks (p.note event) (q.note event) where
  state := by
    obtain ⟨⟨log, rfl⟩, -, -⟩ := h
    exact ⟨log.push event, rfl⟩
  marks_eq := by rw [Parser.marks_note, plain, h.marks_eq, Option.toList_none, List.append_nil]
  unmarked_eq := by rw [Parser.unmarked_note, Parser.unmarked_note, h.unmarked_eq]

/-- A mark is noted by the second alone. -/
theorem mark (h : Marked marks p q) (name : String) :
    Marked (marks ++ [name]) p (q.note (.started name)) where
  state := by
    obtain ⟨⟨log, rfl⟩, -, -⟩ := h
    exact ⟨log.push (.started name), rfl⟩
  marks_eq := by rw [Parser.marks_note, h.marks_eq]; rfl
  unmarked_eq := by rw [Parser.unmarked_note, h.unmarked_eq]; exact List.append_nil _

/-- What is done to the states and not to their logs keeps them. -/
theorem update (h : Marked marks p q) (f : Parser → Parser)
    (apart : ∀ p log, f { p with events := log } = { f p with events := log })
    (kept : ∀ p, (f p).events = p.events) : Marked marks (f p) (f q) where
  state := by
    obtain ⟨⟨log, rfl⟩, -, -⟩ := h
    exact ⟨log, apart p log⟩
  marks_eq := by rw [Parser.marks, kept]; exact h.marks_eq
  unmarked_eq := by rw [Parser.unmarked, Parser.unmarked, kept, kept]; exact h.unmarked_eq

theorem enter (h : Marked marks p q) : Marked marks p.enter q.enter :=
  h.update Parser.enter (fun _ _ => rfl) fun _ => rfl

theorem leave (h : Marked marks p q) : Marked marks p.leave q.leave :=
  h.update Parser.leave (fun _ _ => rfl) fun _ => rfl

theorem openBlock (h : Marked marks p q) : Marked marks p.openBlock q.openBlock :=
  h.update Parser.openBlock (fun _ _ => rfl) fun _ => rfl

theorem closeBlock (h : Marked marks p q) : Marked marks p.closeBlock q.closeBlock :=
  h.update Parser.closeBlock (fun _ _ => rfl) fun _ => rfl

theorem advance (h : Marked marks p q) : Marked marks p.advance q.advance := by
  have moved := h.update (fun p => { p with cursor := p.cursor.advance }) (fun _ _ => rfl)
    fun _ => rfl
  have same : q.cursor = p.cursor := by
    obtain ⟨⟨log, rfl⟩, -, -⟩ := h
    rfl
  rw [same] at moved
  rw [Parser.advance, Parser.advance, same]
  exact moved.note rfl

theorem record (h : Marked marks p q) (d : Diagnostic) :
    Marked marks (p.record d) (q.record d) :=
  (h.update (fun p => { p with diagnostics := p.diagnostics.push d }) (fun _ _ => rfl)
    fun _ => rfl).note rfl

theorem skipStatement (h : Marked marks p q) (braces : Nat) :
    Marked marks (p.skipStatement braces) (q.skipStatement braces) :=
  Parser.related_skipStatement (fun _ => Marked marks) (Marked marks)
    (fun h => congrArg Token.kind h.current) endsBody
    (fun h _ _ _ => congrArg Token.kind h.advance.current) (fun h _ _ _ => h.advance)
    (fun h _ => h.advance) (fun h _ => h) h

theorem recover (h : Marked marks p q) (d : Diagnostic) :
    Marked marks (p.recover d) (q.recover d) := by
  have skipped := (h.record d).skipStatement 0
  rw [Parser.recover, Parser.recover, Parser.position, Parser.position, Parser.position,
    Parser.position, h.current, skipped.current]
  exact skipped.note rfl

end Marked

/-! ## Attempts move on -/

/-- The tokens of a text, and the names that marks are to give them. -/
structure Marking where
  name : Token → String
  file : String
  finish : Position
  stream : List Token

namespace Marking

/-- The marks of the second state are those of `attempts`, and from the current token on `tokens` are
to come. -/
structure Stands (m : Marking) (attempts tokens : List Token) (p q : Parser) : Prop where
  marked : Marked (m.file :: attempts.map m.name) p q
  stands : p.At m.finish tokens

/-- The attempts so far and the tokens to come are tokens of the text, one after another. -/
def Between (m : Marking) (p q : Parser) : Prop :=
  ∃ attempts tokens, m.Stands attempts tokens p q ∧ (attempts ++ tokens).Sublist m.stream

/-- The same, or an attempt has started at the current token, where no statements end, and it has not
moved on. -/
def Within (m : Marking) (p q : Parser) : Prop :=
  m.Between p q ∨ ∃ attempts tokens, m.Stands attempts tokens p q ∧ p.endsBody = false ∧
    (attempts ++ tokens.tail).Sublist m.stream

variable {m : Marking} {attempts tokens : List Token} {p q : Parser}

theorem Stands.advance (h : m.Stands attempts tokens p q) :
    m.Stands attempts tokens.tail p.advance q.advance :=
  ⟨h.marked.advance, h.stands.advance⟩

/-- Recovery drops tokens, and at least one of them where statements do not end. -/
theorem Stands.recover (h : m.Stands attempts tokens p q) (d : Diagnostic) :
    ∃ count, m.Stands attempts (tokens.drop count) (p.recover d) (q.recover d) ∧
      (p.endsBody = false → 0 < count) := by
  obtain ⟨count, moved⟩ := (Parser.ahead_recover p d).moved
  refine ⟨count, ⟨h.marked.recover d, h.stands.move moved⟩, fun goes_on => ?_⟩
  rw [Nat.pos_iff_ne_zero]
  rintro rfl
  have less := Parser.remaining_recover_lt goes_on d
  rw [moved] at less
  exact Nat.lt_irrefl _ less

namespace Between

theorem advance (h : m.Between p q) : m.Between p.advance q.advance := by
  obtain ⟨attempts, tokens, stands, within⟩ := h
  exact ⟨attempts, tokens.tail, stands.advance,
    ((List.tail_sublist tokens).append_left attempts).trans within⟩

theorem openBlock (h : m.Between p q) : m.Between p.openBlock q.openBlock := by
  obtain ⟨attempts, tokens, stands, within⟩ := h
  exact ⟨attempts, tokens, ⟨stands.marked.openBlock, stands.stands⟩, within⟩

theorem closeBlock (h : m.Between p q) : m.Between p.closeBlock q.closeBlock := by
  obtain ⟨attempts, tokens, stands, within⟩ := h
  exact ⟨attempts, tokens, ⟨stands.marked.closeBlock, stands.stands⟩, within⟩

/-- An attempt takes the current token, which is not the end of input. -/
theorem attempt (h : m.Between p q) (goes_on : p.endsBody = false) :
    m.Within p (q.note (.started (m.name q.current))) := by
  obtain ⟨attempts, tokens, stands, within⟩ := h
  obtain ⟨rest, rfl⟩ := stands.stands.exists_cons (Parser.current_kind_ne_eof goes_on)
  refine .inr ⟨attempts ++ [p.current], p.current :: rest, ⟨?_, stands.stands⟩, goes_on, ?_⟩
  · have marked := stands.marked.mark (m.name q.current)
    rw [stands.marked.current] at marked ⊢
    rwa [List.map_append]
  · rwa [List.append_assoc]

end Between

namespace Within

theorem advance (h : m.Within p q) : m.Between p.advance q.advance := by
  rcases h with h | ⟨attempts, tokens, stands, -, within⟩
  · exact h.advance
  · exact ⟨attempts, tokens.tail, stands.advance, within⟩

theorem current (h : m.Within p q) : q.current = p.current := by
  rcases h with ⟨_, _, stands, -⟩ | ⟨_, _, stands, -⟩ <;> exact stands.marked.current

theorem enter (h : m.Within p q) : m.Within p.enter q.enter := by
  rcases h with ⟨attempts, tokens, stands, within⟩ | ⟨attempts, tokens, stands, goes_on, within⟩
  · exact .inl ⟨attempts, tokens, ⟨stands.marked.enter, stands.stands⟩, within⟩
  · exact .inr ⟨attempts, tokens, ⟨stands.marked.enter, stands.stands⟩, goes_on, within⟩

theorem leave (h : m.Within p q) : m.Within p.leave q.leave := by
  rcases h with ⟨attempts, tokens, stands, within⟩ | ⟨attempts, tokens, stands, goes_on, within⟩
  · exact .inl ⟨attempts, tokens, ⟨stands.marked.leave, stands.stands⟩, within⟩
  · exact .inr ⟨attempts, tokens, ⟨stands.marked.leave, stands.stands⟩, goes_on, within⟩

/-- After recovery an attempt is over, whether it had moved on or not. -/
theorem recover (h : m.Within p q) (d : Diagnostic) : m.Between (p.recover d) (q.recover d) := by
  rcases h with ⟨attempts, tokens, stands, within⟩ | ⟨attempts, tokens, stands, goes_on, within⟩
  · obtain ⟨count, stands, -⟩ := stands.recover d
    exact ⟨attempts, tokens.drop count, stands,
      ((List.drop_sublist count tokens).append_left attempts).trans within⟩
  · obtain ⟨count, stands, moves⟩ := stands.recover d
    obtain ⟨less, rfl⟩ := Nat.exists_eq_succ_of_ne_zero (Nat.ne_of_gt (moves goes_on))
    rw [← List.drop_tail] at stands
    exact ⟨attempts, tokens.tail.drop less, stands,
      ((List.drop_sublist less tokens.tail).append_left attempts).trans within⟩

theorem seen : Seen m.Within := ⟨current, fun h => .inl h.advance⟩

end Within

/-! ## The marked grammar reads what the grammar reads -/

/-- Statements and the attempts at them. -/
theorem statements {level level' : Level} (h : level.Agree m.Within level') (k : m.Between p q) :
    (q.statementsBy (.attempted m.name (.statement level'))).1 = (p.statements level).1 ∧
      m.Between (p.statements level).2
        (q.statementsBy (.attempted m.name (.statement level'))).2 := by
  let rule := Rule.attempted m.name (Rule.statement level')
  have once {p q : Parser} (k : m.Between p q) (goes_on : p.endsBody = false) :
      q.endsBody = false ∧ (rule.run q).1 = ((Rule.statement level).run p).1 ∧
        m.Within ((Rule.statement level).run p).2 (rule.run q).2 := by
    obtain ⟨_, _, stands, -⟩ := id k
    exact ⟨stands.marked.endsBody.trans goes_on,
      (agree_statement Within.seen h).outcome (k.attempt goes_on)⟩
  fun_induction Parser.statements level p generalizing q with
  | case1 p ends =>
    obtain ⟨_, _, stands, -⟩ := id k
    rw [Parser.statementsBy_of_endsBody (stands.marked.endsBody.trans ends)]
    exact ⟨rfl, k⟩
  | case2 p ends statement p' tried rest r eq ih =>
    obtain ⟨goes_on, same, within⟩ := once k (Bool.eq_false_iff.mpr ends)
    rw [tried] at same within
    obtain ⟨all, final⟩ := ih within.advance
    rw [eq] at all final
    have read : rule.run q = (.ok statement, (rule.run q).2) := Prod.ext same rfl
    rw [Parser.statementsBy_of_ok goes_on read]
    exact ⟨congrArg (statement :: ·) all, final⟩
  | case3 p ends d p' tried ih =>
    obtain ⟨goes_on, same, within⟩ := once k (Bool.eq_false_iff.mpr ends)
    rw [tried] at same within
    have failed : rule.run q = (.error d, (rule.run q).2) := Prod.ext same rfl
    rw [Parser.statementsBy_of_error goes_on failed]
    exact ih (within.recover d)

/-- Blocks and the attempts inside them. -/
theorem block {level level' : Level} (h : level.Agree m.Within level') :
    Rule.Agree m.Within (.block level) (.blockBy (.attempted m.name (.statement level'))) := by
  intro p q k
  obtain ⟨same, between⟩ := statements h k.advance.openBlock
  refine .ok ?_ (.inl between.closeBlock)
  rw [k.current, same]

/-- **The marked grammar reads what the grammar reads, and its attempts move on.** -/
theorem level (m : Marking) (depth : Nat) :
    (Level.of depth).Agree m.Within (.marked m.name depth) := by
  induction depth with
  | zero => exact ⟨fun _ => agree_tooDeep Within.seen, agree_tooDeep Within.seen⟩
  | succ depth ih =>
    constructor
    case expr =>
      intro power
      exact agree_nested Within.enter Within.leave (agree_expression Within.seen ih power)
    case block => exact agree_nested Within.enter Within.leave (block ih)

end Marking

end Monkey
