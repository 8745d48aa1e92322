import Monkey.Proofs.Grammar.Soundness
import Monkey.Proofs.Parser.Attempts
import Monkey.Proofs.Parser.Ensures
import Monkey.Proofs.Program.Nodes

/-!
# Progress

An attempt at a statement leads to one statement or to one diagnostic, so the marks of attempts cover
both. `Rule.Pays held r count` is the account of a rule: `held` statements have been read before it and
are covered, and so are those of its result. If it fails those statements are lost, but not the marks.

Attempts start at tokens of the text, each at a later one than those before it. So there are no more
statements and diagnostics than tokens, whatever recovery does.

Results:
* `Level.Pays.marked`: the marks of a parse cover its statements and its diagnostics.
* `statement_loop_progress`: attempts move on, the parse ends with the text, and tokens bound what it
  gives.
-/

namespace Monkey

/-! ## Counting statements -/

/-- Whether a node is a statement. -/
def Node.isStatement : Node → Bool
  | .statement _ => true
  | _ => false

/-- How many of some nodes are statements. -/
def statementCount (nodes : List Node) : Nat :=
  nodes.countP Node.isStatement

@[simp] theorem statementCount_append (a b : List Node) :
    statementCount (a ++ b) = statementCount a + statementCount b :=
  List.countP_append

@[simp] theorem statementCount_ident (name : Ident) (nodes : List Node) :
    statementCount (.ident name :: nodes) = statementCount nodes := rfl

@[simp] theorem statementCount_expr (e : Expr) (nodes : List Node) :
    statementCount (.expr e :: nodes) = statementCount nodes := rfl

@[simp] theorem statementCount_block (b : Block) (nodes : List Node) :
    statementCount (.block b :: nodes) = statementCount nodes := rfl

@[simp] theorem statementCount_statement (s : Stmt) (nodes : List Node) :
    statementCount (.statement s :: nodes) = statementCount nodes + 1 :=
  List.countP_cons_of_pos rfl

@[simp] theorem statementCount_idents (names : List Ident) :
    statementCount (names.map .ident) = 0 := by
  induction names with
  | nil => rfl
  | cons name rest ih => exact ih

/-! ## Marks cover statements and diagnostics -/

/-- Apart from the first mark, which is that of the program, there is one for each diagnostic and for
each of `count` statements. -/
def Parser.Covers (p : Parser) (count : Nat) : Prop :=
  count + p.diagnostics.size < p.marks.length

namespace Parser.Covers

variable {p : Parser} {count less : Nat}

theorem mono (h : p.Covers count) (le : less ≤ count) : p.Covers less :=
  Nat.lt_of_le_of_lt (Nat.add_le_add_right le _) h

/-- An event that is no mark changes nothing. -/
theorem note (h : p.Covers count) {event : Event} (plain : event.mark? = none) :
    (p.note event).Covers count := by
  rw [Covers, marks_note, plain, Option.toList_none, List.append_nil]
  exact h

theorem advance (h : p.Covers count) : p.advance.Covers count :=
  note (p := { p with cursor := p.cursor.advance }) h rfl

/-- A mark covers one more. -/
theorem mark (h : p.Covers count) (name : String) :
    (p.note (.started name)).Covers (count + 1) := by
  rw [Covers, marks_note, List.length_append]
  change count + 1 + p.diagnostics.size < p.marks.length + 1
  rw [Covers] at h
  omega

theorem skipStatement (h : p.Covers count) (braces : Nat) :
    (p.skipStatement braces).Covers count := by
  fun_induction Parser.skipStatement braces p with
  | case1 => exact h
  | case2 => exact h.advance
  | case3 => exact h.advance
  | case4 _ _ _ _ _ _ ih => exact ih h.advance

/-- A diagnostic takes the place of one of the statements. -/
theorem recover (h : p.Covers (count + 1)) (d : Diagnostic) : (p.recover d).Covers count := by
  have recorded : (p.record d).Covers count := by
    refine note (p := { p with diagnostics := p.diagnostics.push d }) ?_ rfl
    rw [Covers] at h ⊢
    rw [Array.size_push]
    change count + (p.diagnostics.size + 1) < p.marks.length
    omega
  exact (recorded.skipStatement 0).note rfl

end Parser.Covers

namespace Rule

variable {α β : Type}

/-- With the marks for `held` statements, those of the result are covered too. -/
def Pays (held : Nat) (r : Rule α) (count : α → Nat) : Prop :=
  ∀ n, Ensures (·.Covers (n + held)) r (fun a p => p.Covers (n + count a)) fun _ p => p.Covers n

namespace Pays

variable {r : Rule α} {f : α → Rule β} {held : Nat} {count : α → Nat} {result : β → Nat}

theorem pure {a : α} (le : count a ≤ held) : Pays held (Pure.pure a) count :=
  fun n _ h => h.mono (Nat.add_le_add_left le n)

theorem fail (cause : Cause) (position : Position) :
    Pays held (Rule.fail cause position : Rule α) count :=
  fun n _ h => h.mono (Nat.le_add_right n held)

theorem bind (first : Pays held r count) (next : ∀ a, Pays (count a) (f a) result) :
    Pays held (r >>= f) result :=
  fun n => (first n).bind fun a => next a n

/-- What has been read before stays covered. -/
theorem above (h : Pays 0 r count) (held : Nat) : Pays held r fun a => held + count a := by
  intro n
  refine (h (n + held)).imp (fun _ start => start) (fun a p covers => ?_) fun _ p covers => ?_
  · exact Nat.add_assoc n held (count a) ▸ covers
  · exact covers.mono (Nat.le_add_right n held)

/-- A rule that only looks and moves comes before others for free. -/
theorem after (keeps : ∀ {S : Parser → Parser → Prop}, Seen S → Agree S r r)
    (next : ∀ a, Pays held (f a) result) : Pays held (r >>= f) result := by
  have free : Pays held r fun _ => held := by
    intro n p start
    have seen : Seen fun p q : Parser => p = q ∧ p.Covers (n + held) :=
      ⟨fun h => h.1 ▸ rfl, fun h => ⟨congrArg _ h.1, h.2.advance⟩⟩
    have covers := ((keeps seen).outcome ⟨rfl, start⟩).2.2
    generalize r.run p = outcome at covers ⊢
    rcases outcome with ⟨d | a, q⟩
    · exact covers.mono (Nat.le_add_right n held)
    · exact covers
  exact free.bind next

theorem nested (h : Pays held r count) : Pays held (Rule.nested r) count :=
  fun n => (h n).nested (fun _ h => h) (fun _ _ h => h) fun _ _ h => h

/-- A repetition of steps that pay for themselves. -/
theorem repeatWhile (test : Kind → Bool) (not_eof : test .eof = false) {step : α → Rule α}
    (pays : ∀ a, Pays (count a) (step a) count) (a : α) :
    Pays (count a) (Rule.repeatWhile test not_eof step a) count := by
  intro n
  refine Ensures.repeatWhile test not_eof (fun a => (pays a n).weaken ?_) a
  rintro _ ⟨p, covers, -, rfl⟩
  exact covers.advance

end Pays

end Rule

open Rule (Pays)

/-- What a level gives is covered by the marks that it has made. -/
structure Level.Pays (level : Level) : Prop where
  expr : ∀ power, Rule.Pays 0 (level.expr power) fun e => statementCount e.nodes
  block : Rule.Pays 0 level.block fun b => statementCount b.nodes

namespace Level.Pays

variable {level : Level}

/-! ## Expressions -/

theorem primary : Rule.Pays 0 .primary fun e => statementCount e.nodes := by
  refine .after agree_current fun token => ?_
  dsimp only
  split
  · split
    · exact .pure (Nat.le_refl 0)
    · exact .fail _ _
  · exact .pure (Nat.le_refl 0)
  · exact .pure (Nat.le_refl 0)
  · exact .pure (Nat.le_refl 0)
  · exact .fail _ _

theorem unary (h : level.Pays) : Rule.Pays 0 (.unary level) fun e => statementCount e.nodes := by
  refine .after agree_current fun token => .after agree_advance fun _ => ?_
  exact (h.expr .unary).bind fun operand => .pure (by simp [Expr.nodes])

theorem binary (h : level.Pays) (left : Expr) (power : BindingPower) :
    Rule.Pays (statementCount left.nodes) (.binary level left power)
      fun e => statementCount e.nodes := by
  refine .after agree_current fun token => .after agree_advance fun _ => ?_
  exact ((h.expr power).above _).bind fun right => .pure (by simp [Expr.nodes])

theorem group (h : level.Pays) : Rule.Pays 0 (.group level) fun e => statementCount e.nodes :=
  .after agree_advance fun _ => (h.expr .lowest).bind fun _ =>
    .after (agree_expect · .rparen) fun _ => .pure (Nat.le_refl _)

theorem nextBlock (h : level.Pays) (held : Nat) :
    Rule.Pays held (.nextBlock level) fun b => held + statementCount b.nodes :=
  .after (agree_expect · .lbrace) fun _ => h.block.above held

theorem cond (h : level.Pays) : Rule.Pays 0 (.cond level) fun e => statementCount e.nodes := by
  refine .after agree_current fun token => .after (agree_expect · .lparen) fun _ => ?_
  refine .after agree_advance fun _ => (h.expr .lowest).bind fun condition => ?_
  refine .after (agree_expect · .rparen) fun _ => (h.nextBlock _).bind fun consequence => ?_
  refine .after agree_peek fun next => ?_
  split
  · refine .after agree_advance fun _ => (h.nextBlock _).bind fun alternative => .pure ?_
    simp [Expr.nodes, Nat.add_assoc]
  · refine .pure ?_
    simp [Expr.nodes]

theorem func (h : level.Pays) : Rule.Pays 0 (.func level) fun e => statementCount e.nodes := by
  refine .after agree_current fun token => .after (agree_expect · .lparen) fun _ => ?_
  refine .after agree_params fun names => (h.nextBlock 0).bind fun body => .pure ?_
  simp [Expr.nodes]

theorem operand (h : level.Pays) :
    Rule.Pays 0 (.operand level) fun e => statementCount e.nodes := by
  refine .after agree_current fun token => ?_
  cases Grammar.standard.operand token.kind with
  | none => exact .fail _ _
  | some form =>
    cases form with
    | primary => exact primary
    | unary => exact h.unary
    | group => exact h.group
    | cond => exact h.cond
    | func => exact h.func

theorem expression (h : level.Pays) (power : BindingPower) :
    Rule.Pays 0 (.expression level power) fun e => statementCount e.nodes := by
  refine h.operand.bind fun left => ?_
  exact .repeatWhile (Rule.continues power) _
    (fun left => .after agree_current fun operator => h.binary left _) left

/-! ## Statements -/

theorem binding (h : level.Pays) :
    Rule.Pays 0 (.binding level) fun s => statementCount s.nodes - 1 := by
  refine .after agree_current fun token => .after (agree_expect · .ident) fun _ => ?_
  refine .after agree_current fun name => .after (agree_expect · .assign) fun _ => ?_
  refine .after agree_advance fun _ => (h.expr .lowest).bind fun value => ?_
  exact .after (agree_skipOptional · .semicolon) fun _ => .pure (by simp [Stmt.nodes])

theorem returning (h : level.Pays) :
    Rule.Pays 0 (.returning level) fun s => statementCount s.nodes - 1 := by
  refine .after agree_current fun token => .after agree_advance fun _ => ?_
  refine (h.expr .lowest).bind fun value => ?_
  exact .after (agree_skipOptional · .semicolon) fun _ => .pure (by simp [Stmt.nodes])

theorem expressionStatement (h : level.Pays) :
    Rule.Pays 0 (.expressionStatement level) fun s => statementCount s.nodes - 1 := by
  refine .after agree_current fun token => (h.expr .lowest).bind fun expression => ?_
  exact .after (agree_skipOptional · .semicolon) fun _ => .pure (by simp [Stmt.nodes])

/-- A statement does not pay for itself, only for those inside of it. -/
theorem statement (h : level.Pays) :
    Rule.Pays 0 (.statement level) fun s => statementCount s.nodes - 1 := by
  refine .after agree_current fun token => ?_
  cases Grammar.standard.statement token.kind with
  | none => exact h.expressionStatement
  | some form =>
    cases form with
    | bind => exact h.binding
    | ret => exact h.returning

/-- The mark of an attempt pays for its statement, or for its diagnostic. -/
theorem statements (h : level.Pays) (name : Token → String) {p : Parser} {n : Nat}
    (start : p.Covers n) :
    (p.statementsBy (.attempted name (.statement level))).2.Covers
      (n + statementCount (nodesOf (p.statementsBy (.attempted name (.statement level))).1)) := by
  fun_induction Parser.statementsBy (.attempted name (.statement level)) p generalizing n with
  | case1 p ends => exact start
  | case2 p ends s q tried rest r eq ih =>
    have covers : q.Covers (n + 1 + (statementCount s.nodes - 1)) :=
      (h.statement (n + 1)).of_ok (start.mark _) tried
    have later := ih covers.advance
    rw [eq] at later
    have self : 0 < statementCount s.nodes := by cases s <;> simp [Stmt.nodes]
    refine later.mono ?_
    simp only [nodesOf, statementCount_append]
    omega
  | case3 p ends d q tried ih =>
    have covers : q.Covers (n + 1) := (h.statement (n + 1)).of_error (start.mark _) tried
    exact ih (covers.recover d)

theorem blockBy (h : level.Pays) (name : Token → String) :
    Rule.Pays 0 (.blockBy (.attempted name (.statement level))) fun b => statementCount b.nodes :=
  fun n p start => h.statements name (p := p.advance.openBlock) (n := n) start.advance

/-- **The marks of attempts pay for what is read at every level.** -/
theorem marked (name : Token → String) (depth : Nat) : (Level.marked name depth).Pays := by
  induction depth with
  | zero => exact ⟨fun _ => .after agree_current fun _ => .fail _ _,
      .after agree_current fun _ => .fail _ _⟩
  | succ depth ih => exact ⟨fun power => (ih.expression power).nested, (ih.blockBy name).nested⟩

end Level.Pays

/-! ## Programs -/

namespace Parser

variable (name : Token → String) (text : String) (file : Option String)

/-- The marks of a program show the attempts of the parser, each at a later token of the text. -/
theorem exists_attempts :
    let start := ofText text file
    ∃ attempts : List Token, attempts.Sublist (Lexer.ofText text file).tokens ∧
      (start.markedProgram name).1 = start.program.1 ∧
      Marked (start.position.file :: attempts.map name) start.program.2
        (start.markedProgram name).2 := by
  intro start
  let m : Marking :=
    ⟨name, start.position.file, (Lexer.ofText text file).finish, (Lexer.ofText text file).tokens⟩
  let begun := start.note (.started start.position.file)
  have between : m.Between begun begun :=
    ⟨[], m.stream, ⟨⟨⟨begun.events, rfl⟩, rfl, rfl⟩, rfl⟩, List.Sublist.refl _⟩
  let plain := begun.statements (.of maxDepth)
  let marked := begun.statementsBy (.attempted name (.statement (.marked name maxDepth)))
  obtain ⟨same, attempts, tokens, stands, within⟩ := Marking.statements (m.level maxDepth) between
  refine ⟨attempts, (List.sublist_append_left attempts tokens).trans within,
    congrArg Program.mk same, ?_⟩
  have event : Event.finished marked.1.length marked.2.diagnostics.size =
      .finished plain.1.length plain.2.diagnostics.size :=
    congrArg₂ Event.finished (congrArg List.length same)
      (congrArg Array.size stands.marked.diagnostics)
  change Marked _ (plain.2.note _)
    (marked.2.note (.finished marked.1.length marked.2.diagnostics.size))
  rw [event]
  exact stands.marked.note rfl

/-- The marks of a program are more than its statements and diagnostics. -/
theorem covers_markedProgram :
    ((ofText text file).markedProgram name).2.Covers
      (statementCount ((ofText text file).markedProgram name).1.nodes) := by
  let start := ofText text file
  have begun : (start.note (.started start.position.file)).Covers 0 := Nat.one_pos
  have covers := (Level.Pays.marked name maxDepth).statements name begun
  rw [Nat.zero_add] at covers
  exact covers.note rfl

/-- A program has been read up to the end of input. -/
theorem kind_program_eof : (ofText text file).program.2.current.kind = .eof := by
  let start := ofText text file
  have ends := start.endsBody_program
  have blocks : start.program.2.openBlocks = 0 :=
    (ahead_statements start.level (start.note (.started start.position.file))).openBlocks_eq
  simpa [endsBody, blocks] using ends

end Parser

/-- **Attempts at statements move on.** In a text without zero bytes every attempt at a statement, in
the program or in a block at any depth, starts at a token of the text that comes after those at which
the attempts before it have started; so the parse ends, at the end of input, and it gives no more
statements and diagnostics than the text has tokens. The attempts are those that the marked parse
shows, which under any names for the tokens differs from the parse in its marks only. -/
theorem statement_loop_progress (text : String) (file : Option String)
    (zero_free : 0 ∉ Text.utf8 text) :
    let tokens := (tokenize text file).filter (·.kind ≠ .eof)
    let start := Parser.ofText text file
    (∀ name, ∃ attempts : List Token,
      attempts.Sublist tokens ∧ attempts.Pairwise (fun t u => t.start < u.start) ∧
      (start.markedProgram name).1 = start.program.1 ∧
      Marked (start.position.file :: attempts.map name) start.program.2
        (start.markedProgram name).2) ∧
    start.program.2.current.kind = .eof ∧
    statementCount (parse text file).program.nodes + (parse text file).diagnostics.length ≤
      tokens.length := by
  intro tokens start
  have tokens_eq : tokens = (Lexer.ofText text file).tokens := by
    have others : (Lexer.ofText text file).tokens.filter (·.kind ≠ .eof) =
        (Lexer.ofText text file).tokens :=
      List.filter_eq_self.mpr fun t ht => by simpa using Lexer.kind_ne_eof zero_free file ht
    change (tokenize text file).filter _ = _
    rw [Lexer.tokenize_eq zero_free, List.filter_append, others]
    exact List.append_nil _
  have ordered : tokens.Pairwise fun t u => t.start < u.start := by
    rw [tokens_eq]
    exact (Lexer.within_ofText text file).maximalMunch_tokens.ordered.imp And.right
  refine ⟨fun name => ?_, Parser.kind_program_eof text file, ?_⟩
  · obtain ⟨attempts, sublist, same, marked⟩ := Parser.exists_attempts name text file
    rw [← tokens_eq] at sublist
    exact ⟨attempts, sublist, ordered.sublist sublist, same, marked⟩
  · obtain ⟨attempts, sublist, same, marked⟩ :=
      Parser.exists_attempts Token.value text file
    have covers := Parser.covers_markedProgram Token.value text file
    have fewer := sublist.length_le
    rw [Parser.Covers, same, marked.marks_eq, marked.diagnostics, List.length_cons,
      List.length_map] at covers
    rw [tokens_eq]
    change statementCount (Parser.ofText text file).program.1.nodes +
      (Parser.ofText text file).program.2.diagnostics.size ≤ _
    omega

/-- The attempt at 7 fails after a block inside of it, and recovery stands still at the brace at 14.
The attempts at 7, 18 and 21 lead to diagnostics, the others to statements. -/
theorem statement_loop_progress_stalled :
    let text := "fn() \x7b (fn() \x7b\x7d x \x7d; let y 2; return fn() \x7b 3 \x7d"
    let start := Parser.ofText text none
    let tokens := (tokenize text none).filter (·.kind ≠ .eof)
    0 ∉ Text.utf8 text ∧
      (start.markedProgram fun token => Text.decimal token.start).2.marks =
        ["shell", "0", "7", "16", "18", "21", "30", "44"] ∧
      statementCount (parse text none).program.nodes = 4 ∧
      (parse text none).diagnostics.length = 3 ∧ tokens.length = 24 ∧
      start.program.2.current.kind = .eof ∧
      ∃ attempts : List Token,
        attempts.Sublist tokens ∧ attempts.Pairwise (fun t u => t.start < u.start) ∧
        Marked (start.position.file :: attempts.map fun token => Text.decimal token.start)
          start.program.2 (start.markedProgram fun token => Text.decimal token.start).2 := by
  intro text start tokens
  have progress := statement_loop_progress text none (by decide)
  obtain ⟨attempts, sublist, ordered, -, marked⟩ := progress.1 fun token => Text.decimal token.start
  exact ⟨by decide, by decide +kernel, by decide +kernel, by decide +kernel, by decide +kernel,
    progress.2.1, attempts, sublist, ordered, marked⟩

end Monkey
