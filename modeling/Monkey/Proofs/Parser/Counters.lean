import Monkey.Proofs.Parser.Agreement
import Monkey.Proofs.Program.Nodes

/-!
# The counters of a parser

A parser counts the blocks it has open and the levels it has entered. `Level.of` puts the bound on
nesting into the rules themselves; `Level.watched` reads the counters instead. It refuses to go deeper
where the count says so, and it raises an alarm, which may be any diagnostic, where a counter that is
zero would be decreased or the counters are out of balance. On states in balance the two are the same
parser, whatever the alarm: none is raised, and the count is what the bound in the rules says.

A task ends with the counters that it began with. So tasks one after another leave nothing behind but
what they have recorded, and the next one does what a new parser would do.

Results:
* `Counting.level`: every rule leaves the counters as they were.
* `Level.agree_watchedTo`: a watched level agrees with the level left to a parser in balance.
* `Task.counters`, `Task.run_watched`: so tasks keep the counters, and in balance on the way.
* `counters_balanced`: and they do not depend on the tasks before them.
-/

namespace Monkey

variable {α : Type}

/-! ## Programs -/

/-- Reads a program, between the records of its start and its end. -/
def Rule.program (level : Level) : Rule Program where
  run p :=
    let (statements, q) := (p.note (.started p.position.file)).statements level
    (.ok ⟨statements⟩, q.note (.finished statements.length q.diagnostics.size))
  ahead p := ((Parser.Ahead.note p _).trans (Parser.ahead_statements level _)).trans (.note _ _)

theorem Parser.run_program (p : Parser) :
    (Rule.program p.level).run p = (.ok p.program.1, p.program.2) := rfl

/-! ## Watching the counters -/

/-- No more blocks are open than levels entered, and these are within the bound. -/
structure Parser.Balanced (p : Parser) : Prop where
  blocks_le : p.openBlocks ≤ p.depth
  depth_le : p.depth ≤ maxDepth

instance (p : Parser) : Decidable p.Balanced :=
  decidable_of_iff (p.openBlocks ≤ p.depth ∧ p.depth ≤ maxDepth)
    ⟨fun h => ⟨h.1, h.2⟩, fun h => ⟨h.blocks_le, h.depth_le⟩⟩

namespace Rule

/-- A rule that raises an alarm from states that do not pass a check. -/
def guarded (alarm : Diagnostic) (check : Parser → Prop) [DecidablePred check] (r : Rule α) :
    Rule α where
  run p := if check p then r.run p else (.error alarm, (r.run p).2)
  ahead p := by
    split
    · exact r.ahead p
    · exact r.ahead p

/-- The counters stay in balance where a level is entered and left, and there is one to leave. -/
def levelChecks (r : Rule α) (p : Parser) : Prop :=
  p.enter.Balanced ∧ 0 < (r.run p.enter).2.depth ∧ (r.run p.enter).2.leave.Balanced

instance (r : Rule α) : DecidablePred (levelChecks r) :=
  fun p => inferInstanceAs (Decidable (p.enter.Balanced ∧ _))

/-- The counters stay in balance where a block is opened and closed, and there is one to close. -/
def blockChecks (level : Level) (p : Parser) : Prop :=
  p.advance.openBlock.Balanced ∧ 0 < (p.advance.openBlock.statements level).2.openBlocks ∧
    (p.advance.openBlock.statements level).2.closeBlock.Balanced

instance (level : Level) : DecidablePred (blockChecks level) :=
  fun p => inferInstanceAs (Decidable (p.advance.openBlock.Balanced ∧ _))

/-- Enters a level if the count is below the bound. -/
def counted (alarm : Diagnostic) (r : Rule α) : Rule α where
  run p :=
    if maxDepth ≤ p.depth then tooDeep.run p
    else (guarded alarm (levelChecks r) (nested r)).run p
  ahead p := by
    split
    · exact tooDeep.ahead p
    · exact (guarded alarm (levelChecks r) (nested r)).ahead p

end Rule

/-- Expressions and blocks that watch the counters, down to a number of levels. -/
def Level.watchedTo (alarm : Diagnostic) : Nat → Level
  | 0 => ⟨fun _ => .fail alarm.cause alarm.position, .fail alarm.cause alarm.position⟩
  | count + 1 =>
    let below := watchedTo alarm count
    ⟨fun power => .counted alarm (.expression below power),
      .counted alarm (.guarded alarm (Rule.blockChecks below) (.block below))⟩

/-- Expressions and blocks that watch the counters. Where these are in balance there are no more
levels than that, and running out of them raises the alarm as well. -/
def Level.watched (alarm : Diagnostic) : Level :=
  .watchedTo alarm (maxDepth + 1)

/-! ## The watched parser is the parser -/

/-- Both states are one state with the given counters. -/
def Counting (blocks depth : Nat) (p q : Parser) : Prop :=
  p = q ∧ p.openBlocks = blocks ∧ p.depth = depth

namespace Counting

variable {blocks depth : Nat} {p q : Parser}

theorem seen : Seen (Counting blocks depth) where
  current h := h.1 ▸ rfl
  advance := by
    rintro p _ ⟨rfl, counters⟩
    exact ⟨rfl, counters⟩

theorem balanced (h : Counting blocks depth p q) (le : blocks ≤ depth) (bound : depth ≤ maxDepth) :
    q.Balanced := by
  obtain ⟨rfl, rfl, rfl⟩ := h
  exact ⟨le, bound⟩

theorem enter (h : Counting blocks depth p q) : Counting blocks (depth + 1) p.enter q.enter :=
  ⟨congrArg _ h.1, h.2.1, congrArg (· + 1) h.2.2⟩

theorem leave (h : Counting blocks (depth + 1) p q) : Counting blocks depth p.leave q.leave :=
  ⟨congrArg _ h.1, h.2.1, congrArg (· - 1) h.2.2⟩

theorem openBlock (h : Counting blocks depth p q) :
    Counting (blocks + 1) depth p.openBlock q.openBlock :=
  ⟨congrArg _ h.1, congrArg (· + 1) h.2.1, h.2.2⟩

theorem closeBlock (h : Counting (blocks + 1) depth p q) :
    Counting blocks depth p.closeBlock q.closeBlock :=
  ⟨congrArg _ h.1, congrArg (· - 1) h.2.1, h.2.2⟩

end Counting

theorem Parser.depth_skipStatement (braces : Nat) (p : Parser) :
    (p.skipStatement braces).depth = p.depth := by
  fun_induction skipStatement braces p with
  | case1 => rfl
  | case2 => rfl
  | case3 => rfl
  | case4 _ _ _ _ _ _ ih => exact ih

theorem Counting.recover {blocks depth : Nat} {p q : Parser} (h : Counting blocks depth p q)
    (d : Diagnostic) : Counting blocks depth (p.recover d) (q.recover d) := by
  obtain ⟨rfl, rfl, rfl⟩ := h
  exact ⟨rfl, (Parser.ahead_recover p d).openBlocks_eq, Parser.depth_skipStatement 0 (p.record d)⟩

theorem Counting.statements {blocks depth : Nat} {level level' : Level}
    (h : level.Agree (Counting blocks depth) level') {p q : Parser}
    (k : Counting blocks depth p q) :
    (q.statements level').1 = (p.statements level).1 ∧
      Counting blocks depth (p.statements level).2 (q.statements level').2 :=
  agree_statements Counting.seen h (fun h => h.1 ▸ rfl) (fun _ _ _ h => h.recover _) k

/-- **Every rule leaves the counters as they were**, at every level. -/
theorem Counting.level (count blocks depth : Nat) :
    (Level.of count).Agree (Counting blocks depth) (.of count) := by
  induction count generalizing blocks depth with
  | zero => exact ⟨fun _ => agree_tooDeep seen, agree_tooDeep seen⟩
  | succ count ih =>
    exact ⟨fun power => agree_nested enter leave (agree_expression seen (ih _ _) power),
      agree_nested enter leave (agree_block seen.current (fun h => (seen.advance h).openBlock)
        closeBlock (statements (ih _ _)))⟩

/-- A program is read by statements at the same counters. -/
theorem Counting.program {blocks depth : Nat} {level level' : Level}
    (h : level.Agree (Counting blocks depth) level') :
    Rule.Agree (Counting blocks depth) (.program level) (.program level') := by
  refine .of_outcome fun p _ k => ?_
  obtain ⟨rfl, counters⟩ := k
  obtain ⟨same, state⟩ := Counting.statements h
    (p := p.note (.started p.position.file)) ⟨rfl, counters⟩
  refine ⟨congrArg (fun statements => Except.ok (Program.mk statements)) same, ?_, state.2⟩
  change Parser.note _ _ = Parser.note _ _
  rw [same, state.1]

/-- A rule one level down, if it agrees there with the watched one. -/
theorem agree_counted {blocks depth : Nat} (le : blocks ≤ depth) (bound : depth < maxDepth)
    {r r' : Rule α} (h : Rule.Agree (Counting blocks (depth + 1)) r r') (alarm : Diagnostic) :
    Rule.Agree (Counting blocks depth) (.nested r) (.counted alarm r') := by
  refine .of_outcome fun p q k => ?_
  obtain ⟨same, state⟩ := h.outcome k.enter
  have shallow : ¬ maxDepth ≤ q.depth := by
    obtain ⟨rfl, -, rfl⟩ := k
    exact Nat.not_le.mpr bound
  have checks : Rule.levelChecks r' q := by
    refine ⟨k.enter.balanced (Nat.le_succ_of_le le) bound, ?_, state.leave.balanced le bound.le⟩
    rw [← state.1, state.2.2]
    exact Nat.succ_pos depth
  have run : (Rule.counted alarm r').run q = (Rule.nested r').run q :=
    (if_neg shallow).trans (if_pos checks)
  rw [run]
  exact ⟨same, state.leave⟩

theorem agree_guarded_block {blocks depth : Nat} (le : blocks < depth) (bound : depth ≤ maxDepth)
    {level level' : Level} (h : level.Agree (Counting (blocks + 1) depth) level')
    (alarm : Diagnostic) :
    Rule.Agree (Counting blocks depth) (.block level)
      (.guarded alarm (Rule.blockChecks level') (.block level')) := by
  refine .of_outcome fun p q k => ?_
  have opened := (Counting.seen.advance k).openBlock
  obtain ⟨-, state⟩ := Counting.statements h opened
  have checks : Rule.blockChecks level' q := by
    refine ⟨opened.balanced le bound, ?_, state.closeBlock.balanced le.le bound⟩
    rw [← state.1, state.2.1]
    exact Nat.succ_pos blocks
  have run : (Rule.guarded alarm (Rule.blockChecks level') (.block level')).run q =
      (Rule.block level').run q := if_pos checks
  rw [run]
  exact (agree_block Counting.seen.current (fun h => (Counting.seen.advance h).openBlock)
    Counting.closeBlock (Counting.statements h)).outcome k

/-- **A watched level agrees with the level that is left to a parser in balance.** -/
theorem Level.agree_watchedTo (alarm : Diagnostic) (count : Nat) {blocks depth : Nat}
    (le : blocks ≤ depth) (bound : depth ≤ maxDepth) (enough : maxDepth < depth + count) :
    (Level.of (maxDepth - depth)).Agree (Counting blocks depth) (.watchedTo alarm count) := by
  induction count generalizing blocks depth with
  | zero => omega
  | succ count ih =>
    rcases bound.eq_or_lt with rfl | lt
    · have refuse {α : Type} (r : Rule α) :
          Rule.Agree (Counting blocks maxDepth) .tooDeep (.counted alarm r) := by
        refine .of_outcome fun p q k => ?_
        have run : (Rule.counted alarm r).run q = Rule.tooDeep.run q :=
          if_pos (Nat.le_of_eq (k.1 ▸ k.2.2.symm))
        rw [run]
        exact (agree_tooDeep Counting.seen).outcome k
      rw [Nat.sub_self]
      exact ⟨fun _ => refuse _, refuse _⟩
    · obtain ⟨left, eq⟩ : ∃ left, maxDepth - depth = left + 1 := ⟨maxDepth - depth - 1, by omega⟩
      obtain rfl : left = maxDepth - (depth + 1) := by omega
      have inner := ih (Nat.le_succ_of_le le) lt (by omega)
      have body := ih (Nat.succ_le_succ le) lt (by omega)
      rw [eq]
      exact ⟨fun power => agree_counted le lt (agree_expression Counting.seen inner power) alarm,
        agree_counted le lt (agree_guarded_block (Nat.lt_succ_of_le le) lt body alarm) alarm⟩

/-! ## Tasks -/

/-- What a parser can be asked to read, whatever its current token. -/
inductive Task where
  | program | statement | binding | returning | block
  | expr (power : BindingPower)
  | binary (left : Expr) (power : BindingPower)
  | unary | group | cond | func | primary

namespace Task

/-- The rule that does a task, with the roots of what it reads. -/
def rule (level : Level) : Task → Rule (List Node)
  | program => return (← Rule.program level).statements.map .statement
  | statement => return [.statement (← Rule.statement level)]
  | binding => return [.statement (← Rule.binding level)]
  | returning => return [.statement (← Rule.returning level)]
  | block => return [.block (← level.block)]
  | expr power => return [.expr (← level.expr power)]
  | binary left power => return [.expr (← Rule.binary level left power)]
  | unary => return [.expr (← Rule.unary level)]
  | group => return [.expr (← Rule.group level)]
  | cond => return [.expr (← Rule.cond level)]
  | func => return [.expr (← Rule.func level)]
  | primary => return [.expr (← Rule.primary)]

/-- Does a task at the level that is left to a parser. -/
def run (task : Task) (p : Parser) : Except Diagnostic (List Node) × Parser :=
  (Rule.atDepth task.rule).run p

/-- The state after some tasks, done one after another whether they fail or not. -/
def after (p : Parser) (tasks : List Task) : Parser :=
  tasks.foldl (fun p task => (task.run p).2) p

variable {S : Parser → Parser → Prop} {level level' : Level}

/-- Tasks agree if levels do, and programs. -/
theorem agree_of_level (seen : Seen S) (h : level.Agree S level')
    (program : Rule.Agree S (.program level) (.program level')) (task : Task) :
    Rule.Agree S (task.rule level) (task.rule level') := by
  cases task with
  | program => exact program.bind fun _ => .pure _
  | statement => exact (agree_statement seen h).bind fun _ => .pure _
  | binding => exact (agree_binding seen h).bind fun _ => .pure _
  | returning => exact (agree_returning seen h).bind fun _ => .pure _
  | block => exact h.block.bind fun _ => .pure _
  | expr power => exact (h.expr power).bind fun _ => .pure _
  | binary left power => exact (agree_binary seen h left power).bind fun _ => .pure _
  | unary => exact (agree_unary seen h).bind fun _ => .pure _
  | group => exact (agree_group seen h).bind fun _ => .pure _
  | cond => exact (agree_cond seen h).bind fun _ => .pure _
  | func => exact (agree_func seen h).bind fun _ => .pure _
  | primary => exact (agree_primary seen).bind fun _ => .pure _

/-- A task leaves the counters as they were. -/
theorem counters (task : Task) (p : Parser) :
    (task.run p).2.openBlocks = p.openBlocks ∧ (task.run p).2.depth = p.depth := by
  have level := Counting.level (maxDepth - p.depth) p.openBlocks p.depth
  have agree := task.agree_of_level Counting.seen level (Counting.program level)
  exact (agree.outcome ⟨rfl, rfl, rfl⟩).2.2

/-- A task of a parser in balance is the same task watched. -/
theorem run_watched (task : Task) {p : Parser} (h : p.Balanced) (alarm : Diagnostic) :
    (task.rule (.watched alarm)).run p = task.run p := by
  have level : p.level.Agree (Counting p.openBlocks p.depth) (.watched alarm) :=
    Level.agree_watchedTo alarm (maxDepth + 1) h.blocks_le h.depth_le (by omega)
  obtain ⟨same, state⟩ := (task.agree_of_level Counting.seen level (Counting.program level)).outcome
    ⟨rfl, rfl, rfl⟩
  exact Prod.ext same state.1.symm

/-- After tasks one after another no counter has changed. -/
theorem counters_after (tasks : List Task) (p : Parser) :
    (after p tasks).openBlocks = p.openBlocks ∧ (after p tasks).depth = p.depth := by
  induction tasks generalizing p with
  | nil => exact ⟨rfl, rfl⟩
  | cons task rest ih =>
    obtain ⟨blocks, depth⟩ := task.counters p
    obtain ⟨blocks', depth'⟩ := ih (task.run p).2
    exact ⟨blocks'.trans blocks, depth'.trans depth⟩

end Task

/-! ## Earlier records -/

/-- A parser that has nothing recorded and nothing open, with a view of some tokens. -/
def Parser.ofCursor (cursor : Cursor) : Parser :=
  ⟨cursor, #[], #[], 0, 0⟩

/-- The second parser sees the same tokens at the same depth, and has some more diagnostics, from
before. -/
structure Later (earlier : List Diagnostic) (p q : Parser) : Prop where
  cursor : q.cursor = p.cursor
  openBlocks : q.openBlocks = p.openBlocks
  depth : q.depth = p.depth
  diagnostics : q.diagnostics.toList = earlier ++ p.diagnostics.toList

namespace Later

variable {earlier : List Diagnostic} {p q : Parser}

theorem current (h : Later earlier p q) : q.current = p.current :=
  congrArg Cursor.current h.cursor

theorem advance (h : Later earlier p q) : Later earlier p.advance q.advance :=
  ⟨congrArg Cursor.advance h.cursor, h.openBlocks, h.depth, h.diagnostics⟩

theorem endsBody (h : Later earlier p q) : q.endsBody = p.endsBody := by
  unfold Parser.endsBody
  rw [h.current, h.openBlocks]

theorem record (h : Later earlier p q) (d : Diagnostic) :
    Later earlier (p.record d) (q.record d) where
  cursor := h.cursor
  openBlocks := h.openBlocks
  depth := h.depth
  diagnostics := by
    change (q.diagnostics.push d).toList = earlier ++ (p.diagnostics.push d).toList
    rw [Array.toList_push, Array.toList_push, h.diagnostics, List.append_assoc]

theorem recover (h : Later earlier p q) (d : Diagnostic) :
    Later earlier (p.recover d) (q.recover d) := by
  have skipped : Later earlier ((p.record d).skipStatement 0) ((q.record d).skipStatement 0) :=
    Parser.related_skipStatement (fun _ => Later earlier) (Later earlier)
      (fun h => congrArg Token.kind h.current) (fun h => h.endsBody)
      (fun h _ _ _ => congrArg Token.kind h.advance.current) (fun h _ _ _ => h.advance)
      (fun h _ => h.advance) (fun h _ => h) (h.record d)
  exact ⟨skipped.cursor, skipped.openBlocks, skipped.depth, skipped.diagnostics⟩

/-- Nothing that a parser does depends on what was recorded before. -/
theorem kept (earlier : List Diagnostic) : Kept (Later earlier) where
  current h := h.current
  advance h := h.advance
  enter h := ⟨h.cursor, h.openBlocks, congrArg (· + 1) h.depth, h.diagnostics⟩
  leave h := ⟨h.cursor, h.openBlocks, congrArg (· - 1) h.depth, h.diagnostics⟩
  openBlock h := ⟨h.cursor, congrArg (· + 1) h.openBlocks, h.depth, h.diagnostics⟩
  closeBlock h := ⟨h.cursor, congrArg (· - 1) h.openBlocks, h.depth, h.diagnostics⟩
  endsBody h := h.endsBody
  recover _ _ _ h := h.recover _

theorem program (earlier : List Diagnostic) (depth : Nat) :
    Rule.Agree (Later earlier) (.program (.of depth)) (.program (.of depth)) := by
  refine .of_outcome fun p q h => ?_
  have started : Later earlier (p.note (.started p.position.file))
      (q.note (.started q.position.file)) := ⟨h.cursor, h.openBlocks, h.depth, h.diagnostics⟩
  obtain ⟨same, state⟩ := (kept earlier).statements ((kept earlier).level depth) started
  exact ⟨congrArg (fun statements => Except.ok (Program.mk statements)) same,
    state.cursor, state.openBlocks, state.depth, state.diagnostics⟩

/-- A task does the same whatever was recorded before. -/
theorem task (h : Later earlier p q) (task : Task) :
    (task.run q).1 = (task.run p).1 ∧ Later earlier (task.run p).2 (task.run q).2 := by
  have same : q.level = p.level := by
    rw [Parser.level, h.depth]
    rfl
  have agree := task.agree_of_level (kept earlier).toSeen ((kept earlier).level _)
    (program earlier (maxDepth - p.depth))
  change ((task.rule q.level).run q).1 = ((task.rule p.level).run p).1 ∧
    Later earlier ((task.rule p.level).run p).2 ((task.rule q.level).run q).2
  rw [same]
  exact agree.outcome h

end Later

/-! ## All tasks -/

/-- **Counters are balanced on every exit.** Whatever a parser is asked to read, and whether that
fails or not, in the end as many blocks are open and levels entered as before, and what was recorded
is still there. If the counters are in balance then no alarm is raised on the way: they stay so, and
none is decreased at zero. So after any tasks of a new parser both counters are zero, and the next
task does what it would do with nothing before it. -/
theorem counters_balanced :
    (∀ (task : Task) (p : Parser),
      (task.run p).2.openBlocks = p.openBlocks ∧ (task.run p).2.depth = p.depth ∧
        p.diagnostics.toList <+: (task.run p).2.diagnostics.toList ∧
        (p.Balanced → ∀ alarm, (task.rule (.watched alarm)).run p = task.run p)) ∧
    ∀ (text : String) (file : Option String) (tasks : List Task),
      let p := Task.after (.ofText text file) tasks
      p.openBlocks = 0 ∧ p.depth = 0 ∧ ∀ task : Task,
        let alone := task.run (.ofCursor p.cursor)
        (task.run p).1 = alone.1 ∧ (task.run p).2.cursor = alone.2.cursor ∧
          (task.run p).2.diagnostics.toList =
            p.diagnostics.toList ++ alone.2.diagnostics.toList := by
  constructor
  · intro task p
    obtain ⟨blocks, depth⟩ := task.counters p
    exact ⟨blocks, depth, ((task.rule p.level).ahead p).diagnostics_kept, task.run_watched⟩
  · intro text file tasks p
    obtain ⟨blocks, depth⟩ := Task.counters_after tasks (.ofText text file)
    refine ⟨blocks, depth, fun task => ?_⟩
    have later : Later p.diagnostics.toList (.ofCursor p.cursor) p :=
      ⟨rfl, blocks, depth, (List.append_nil _).symm⟩
    obtain ⟨same, state⟩ := later.task task
    exact ⟨same, state.cursor, state.diagnostics⟩

/-- A block at the last level but one, inside another block: the statement in it is too deep. -/
theorem counters_balanced_deepest_block :
    let p : Parser := { Parser.ofText "\x7b x \x7d y" none with openBlocks := 1, depth := 127 }
    let q := (Task.block.run p).2
    p.Balanced ∧ q.current.kind = .rbrace ∧
      q.diagnostics.toList.map (·.cause) = [.tooDeep maxDepth] ∧ q.openBlocks = 1 ∧
      q.depth = 127 ∧ ∀ alarm, (Task.block.rule (.watched alarm)).run p = Task.block.run p := by
  intro p q
  have balanced : p.Balanced := by decide +kernel
  obtain ⟨blocks, depth, -, watched⟩ := counters_balanced.1 .block p
  exact ⟨balanced, by decide +kernel, by decide +kernel, blocks, depth, watched balanced⟩

end Monkey
