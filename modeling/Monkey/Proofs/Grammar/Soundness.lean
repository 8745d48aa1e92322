import Monkey.Proofs.Grammar.Powers
import Monkey.Proofs.Lexing.Concat

/-!
# What is read is derived

Every rule that succeeds has read a phrase of the grammar, with the tree it gives, and stops past it.
Between statements the parser may skip tokens; a `Reading` says what is known of these, in runs that
end well.

Results:
* `Reading.sound`: at every level of nesting, expressions and blocks that are read are derived.
* `Reading.statements`: so are lists of statements, with what is skipped between them.
-/

namespace Monkey

/-- The scope of the statements that a parser reads. -/
def Parser.scope (p : Parser) : Scope :=
  if p.openBlocks = 0 then .program else .block

/-- A text that is read, and what is known of the tokens that recovery skips in it. A run ends well
if `good` holds of its last state; then it held of every earlier one. -/
structure Reading where
  finish : Position
  skipped : Scope → List Token → List Token → Prop
  good : Parser → Prop
  earlier : ∀ {p q : Parser}, p.diagnostics.toList <+: q.diagnostics.toList →
    p.events.toList <+: q.events.toList → good q → good p
  gap : ∀ {depth : Nat} {p q : Parser} {d : Diagnostic} {tokens : List Token},
    p.Before finish tokens → p.endsBody = false →
    (Rule.statement (.of depth)).run p = (.error d, q) → good (q.recover d) →
    ∃ middle, (q.recover d).Before finish middle ∧ skipped p.scope tokens middle

namespace Reading

variable (s : Reading)

/-- A rule that succeeds at a token that passes a test has read a phrase. -/
def Reads (depth : Nat) (test : Kind → Prop) {α : Type} (r : Rule α) (phrase : α → Phrase) : Prop :=
  ∀ {p q : Parser} {a : α} {tokens : List Token}, p.Before s.finish tokens →
    test p.current.kind → r.run p = (.ok a, q) → s.good q →
    ∃ rest, q.Past s.finish rest ∧ Derives s.skipped depth (phrase a) tokens rest

/-- Expressions and blocks that are read at a level are derived, with less nesting. -/
structure Sound (depth : Nat) : Prop where
  expr : ∀ {power : BindingPower} {p q : Parser} {e : Expr} {tokens : List Token},
    p.Before s.finish tokens → ((Level.of depth).expr power).run p = (.ok e, q) → s.good q →
    ∃ below rest, depth = below + 1 ∧ q.Past s.finish rest ∧
      Derives s.skipped below (.expr power.tier e) tokens rest
  block : ∀ {p q : Parser} {b : Block} {tokens : List Token}, p.Before s.finish tokens →
    p.current.kind = .lbrace → (Level.of depth).block.run p = (.ok b, q) → s.good q →
    ∃ below rest, depth = below + 1 ∧ q.Past s.finish rest ∧
      Derives s.skipped below (.block b) tokens rest

variable {s} {p q : Parser} {tokens : List Token} {depth : Nat}

/-- The counters of a parser do not matter. -/
theorem good_of_eq (h : s.good q) (diagnostics : p.diagnostics = q.diagnostics)
    (events : p.events = q.events) : s.good p := by
  refine s.earlier ?_ ?_ h
  · exact diagnostics ▸ List.prefix_rfl
  · exact events ▸ List.prefix_rfl

theorem good_before {α : Type} {r : Rule α} {result : Except Diagnostic α}
    (run : r.run p = (result, q)) (h : s.good q) : s.good p := by
  have ahead := r.ahead p
  rw [run] at ahead
  exact s.earlier ahead.diagnostics_kept ahead.events_kept h

/-! ## Expressions -/

/-- A token that is expected is the next one. -/
theorem of_expect {kind : Kind} {a : Unit} (some : kind ≠ .eof) (past : p.Past s.finish tokens)
    (run : (Rule.expect kind).run p = (.ok a, q)) :
    ∃ rest, tokens = q.current :: rest ∧ q.current.kind = kind ∧ q.Before s.finish tokens := by
  obtain ⟨rest, eq, same, stands⟩ := past.stands.of_expect some run
  exact ⟨rest, eq, same, stands, past.not_eof⟩

theorem reads_primary : s.Reads depth (fun _ => True) .primary (.expr .operand) := by
  intro p q e tokens before _ run _
  unfold Rule.primary at run
  rw [Rule.run_bind, Rule.run_current] at run
  dsimp only at run
  split at run
  case h_1 kind =>
    obtain ⟨rest, rfl⟩ := before.exists_cons (by simp [kind])
    split at run
    · cases run
      exact ⟨rest, before.past, .int kind ‹_›⟩
    · cases run
  case h_2 kind =>
    obtain ⟨rest, rfl⟩ := before.exists_cons (by simp [kind])
    cases run
    exact ⟨rest, before.past, .ident kind⟩
  case h_3 kind =>
    obtain ⟨rest, rfl⟩ := before.exists_cons (by simp [kind])
    cases run
    exact ⟨rest, before.past, .truth kind⟩
  case h_4 kind =>
    obtain ⟨rest, rfl⟩ := before.exists_cons (by simp [kind])
    cases run
    exact ⟨rest, before.past, .falsity kind⟩
  case h_5 => cases run

theorem reads_unary (h : s.Sound depth) :
    s.Reads depth (fun kind => Grammar.standard.operand kind = some .unary)
      (.unary (.of depth)) (.expr .operand) := by
  intro p q e tokens before form run good
  have kind : p.current.kind = .bang ∨ p.current.kind = .minus := by
    generalize p.current.kind = kind at form
    cases kind <;> cases form <;> decide
  obtain ⟨rest, rfl⟩ := before.exists_cons fun eof => by rw [eof] at form; cases form
  obtain ⟨token, _, current, run⟩ := Rule.of_bind_ok run
  cases current
  obtain ⟨_, _, advance, run⟩ := Rule.of_bind_ok run
  cases advance
  obtain ⟨operand, _, read, run⟩ := Rule.of_bind_ok run
  cases run
  obtain ⟨below, rest, rfl, past, inner⟩ := h.expr before.past read good
  exact ⟨rest, past, .unary kind inner⟩

theorem reads_group (h : s.Sound depth) :
    s.Reads depth (· = .lparen) (.group (.of depth)) (.expr .operand) := by
  intro p q e tokens before opens run good
  obtain ⟨rest, rfl⟩ := before.exists_cons (by simp [opens])
  obtain ⟨_, _, advance, run⟩ := Rule.of_bind_ok run
  cases advance
  obtain ⟨inner, m, read, run⟩ := Rule.of_bind_ok run
  obtain ⟨_, _, close, last⟩ := Rule.of_bind_ok run
  cases last
  obtain ⟨below, rest, rfl, past, inner⟩ := h.expr before.past read (good_before close good)
  obtain ⟨rest, rfl, closes, before⟩ := of_expect (by decide) past close
  exact ⟨rest, before.past, .group opens inner closes⟩

theorem reads_nextBlock (h : s.Sound depth) {b : Block} (past : p.Past s.finish tokens)
    (run : (Rule.nextBlock (.of depth)).run p = (.ok b, q)) (good : s.good q) :
    ∃ below rest, depth = below + 1 ∧ q.Past s.finish rest ∧
      Derives s.skipped below (.block b) tokens rest := by
  obtain ⟨_, _, opening, run⟩ := Rule.of_bind_ok run
  obtain ⟨rest, -, opens, before⟩ := of_expect (by decide) past opening
  exact h.block before opens run good

theorem reads_cond (h : s.Sound depth) :
    s.Reads depth (· = .kwIf) (.cond (.of depth)) (.expr .operand) := by
  intro p q e tokens before kind run good
  obtain ⟨rest, rfl⟩ := before.exists_cons (by simp [kind])
  obtain ⟨token, _, current, run⟩ := Rule.of_bind_ok run
  cases current
  obtain ⟨_, _, opening, run⟩ := Rule.of_bind_ok run
  obtain ⟨rest, rfl, opens, before⟩ := of_expect (by decide) before.past opening
  obtain ⟨_, _, advance, run⟩ := Rule.of_bind_ok run
  cases advance
  obtain ⟨condition, _, test, run⟩ := Rule.of_bind_ok run
  obtain ⟨below, rest, rfl, past, test⟩ := h.expr before.past test (good_before run good)
  obtain ⟨_, _, closing, run⟩ := Rule.of_bind_ok run
  obtain ⟨rest, rfl, closes, before⟩ := of_expect (by decide) past closing
  obtain ⟨consequence, _, block, run⟩ := Rule.of_bind_ok run
  obtain ⟨_, rest, same, past, body⟩ := reads_nextBlock h before.past block (good_before run good)
  cases same
  obtain ⟨next, _, peek, run⟩ := Rule.of_bind_ok run
  cases peek
  split at run
  · next word =>
    obtain ⟨_, _, advance, run⟩ := Rule.of_bind_ok run
    cases advance
    obtain ⟨alternative, _, other, run⟩ := Rule.of_bind_ok run
    cases run
    obtain ⟨rest, rfl⟩ := Parser.Before.exists_cons past
      (by simp [Parser.current_advance, word])
    obtain ⟨_, rest, same, past, other⟩ :=
      reads_nextBlock h (Parser.Before.past past) other good
    cases same
    exact ⟨rest, past, .condElse kind opens test closes body word other⟩
  · cases run
    exact ⟨rest, past, .cond kind opens test closes body⟩

/-! ## Functions -/

theorem of_nextParam {name : Ident} (past : p.Past s.finish tokens)
    (run : Rule.nextParam.run p = (.ok name, q)) :
    ∃ rest, tokens = q.current :: rest ∧ q.current.kind = .ident ∧ name = .ofToken q.current ∧
      q.Past s.finish rest := by
  obtain ⟨_, _, ident, run⟩ := Rule.of_bind_ok run
  cases run
  obtain ⟨rest, rfl, kind, before⟩ := of_expect (by decide) past ident
  exact ⟨rest, rfl, kind, rfl, before.past⟩

/-- The loop over the parameters after the first one. -/
theorem of_moreParams {names all : List Ident} (past : p.Past s.finish tokens)
    (run : (Rule.repeatWhile (· == .comma) rfl
      (fun names => return names ++ [← Rule.nextParam]) names).run p = (.ok all, q)) :
    ∃ more rest, all = names ++ more ∧ q.Past s.finish rest ∧ MoreParams more tokens rest := by
  change Rule.repeatFrom (· == .comma) rfl _ names p = _ at run
  fun_induction Rule.repeatFrom (· == .comma) rfl (fun names => return names ++ [← Rule.nextParam])
    names p generalizing tokens with
  | case1 names p comma names' m taken ih =>
    obtain ⟨name, _, param, last⟩ := Rule.of_bind_ok taken
    cases last
    have separator : p.advance.current.kind = .comma := eq_of_beq comma
    obtain ⟨rest, rfl⟩ := Parser.Before.exists_cons past (by simp [separator])
    obtain ⟨rest, rfl, kind, rfl, past⟩ := of_nextParam (Parser.Before.past past) param
    obtain ⟨more, rest, rfl, past, params⟩ := ih past run
    refine ⟨_ :: more, rest, ?_, past, .cons separator kind params⟩
    rw [List.append_assoc]
    rfl
  | case2 => cases run
  | case3 names p done =>
    cases run
    exact ⟨[], tokens, (List.append_nil _).symm, past, .nil⟩

theorem of_params {names : List Ident} (past : p.Past s.finish tokens)
    (run : Rule.params.run p = (.ok names, q)) :
    ∃ rest, q.Past s.finish rest ∧ Params names tokens rest := by
  obtain ⟨next, _, peek, run⟩ := Rule.of_bind_ok run
  cases peek
  split at run
  · next close =>
    obtain ⟨_, _, advance, run⟩ := Rule.of_bind_ok run
    cases advance
    cases run
    obtain ⟨rest, rfl⟩ := Parser.Before.exists_cons past
      (by simp [Parser.current_advance, close])
    exact ⟨rest, Parser.Before.past past, .none close⟩
  · obtain ⟨first, _, param, run⟩ := Rule.of_bind_ok run
    obtain ⟨rest, rfl, kind, rfl, past⟩ := of_nextParam past param
    obtain ⟨all, _, loop, run⟩ := Rule.of_bind_ok run
    obtain ⟨more, rest, rfl, past, params⟩ := of_moreParams past loop
    obtain ⟨_, _, close, run⟩ := Rule.of_bind_ok run
    cases run
    obtain ⟨rest, rfl, closes, before⟩ := of_expect (by decide) past close
    exact ⟨rest, before.past, .some kind params closes⟩

theorem reads_func (h : s.Sound depth) :
    s.Reads depth (· = .kwFn) (.func (.of depth)) (.expr .operand) := by
  intro p q e tokens before kind run good
  obtain ⟨rest, rfl⟩ := before.exists_cons (by simp [kind])
  obtain ⟨token, _, current, run⟩ := Rule.of_bind_ok run
  cases current
  obtain ⟨_, _, opening, run⟩ := Rule.of_bind_ok run
  obtain ⟨rest, rfl, opens, before⟩ := of_expect (by decide) before.past opening
  obtain ⟨names, _, params, run⟩ := Rule.of_bind_ok run
  obtain ⟨rest, past, params⟩ := of_params before.past params
  obtain ⟨body, _, block, run⟩ := Rule.of_bind_ok run
  cases run
  obtain ⟨below, rest, rfl, past, body⟩ := reads_nextBlock h past block good
  exact ⟨rest, past, .func kind opens params body⟩

/-! ## Operators -/

theorem reads_operand (h : s.Sound depth) :
    s.Reads depth (fun _ => True) (.operand (.of depth)) (.expr .operand) := by
  intro p q e tokens before _ run good
  obtain ⟨token, _, current, run⟩ := Rule.of_bind_ok run
  cases current
  cases form : Grammar.standard.operand p.current.kind with
  | none =>
    rw [form] at run
    cases run
  | some form' =>
    rw [form] at run
    have begins := OperandForm.begins_of_operand form
    cases form' with
    | primary => exact reads_primary before trivial run good
    | unary => exact reads_unary h before form run good
    | group => exact reads_group h before begins run good
    | cond => exact reads_cond h before begins run good
    | func => exact reads_func h before begins run good

/-- The loop over the operators of a level, after an expression that none of a tighter level
follows. -/
theorem of_operators (h : s.Sound depth) {power : BindingPower} {left tree : Expr}
    (past : p.Past s.finish tokens)
    (tighter : Rule.continues power.next (lookahead tokens) = false)
    (run : (Rule.operators (.of depth) power left).run p = (.ok tree, q)) (good : s.good q) :
    ∃ rest, q.Past s.finish rest ∧
      Derives s.skipped depth (.chain power.tier left tree) tokens rest := by
  rw [Rule.run_operators] at run
  fun_induction Rule.repeatFrom (Rule.continues power) (Rule.continues_eof power)
    (fun left => do Rule.binary (.of depth) left (Grammar.standard.power (← Rule.current).kind))
    left p generalizing tokens with
  | case1 left p more left' m taken ih =>
    rw [past.kind_peek] at more
    have operator : power.tier.operators (lookahead tokens) = true := by
      rw [Rule.continues_eq, tighter, Bool.or_false] at more
      exact more
    obtain ⟨rest, rfl⟩ := Parser.Before.exists_cons past (by
      rw [Parser.current_advance, past.kind_peek]
      intro eof
      rw [eof, Rule.continues_eof] at more
      cases more)
    have operator : power.tier.operators p.advance.current.kind = true := operator
    obtain ⟨_, _, current, taken⟩ := Rule.of_bind_ok taken
    cases current
    rw [BindingPower.power_of_operator operator] at taken
    obtain ⟨_, _, current, taken⟩ := Rule.of_bind_ok taken
    cases current
    obtain ⟨_, _, advance, taken⟩ := Rule.of_bind_ok taken
    cases advance
    obtain ⟨right, _, read, last⟩ := Rule.of_bind_ok taken
    cases last
    have good' : s.good m := by
      have ahead := Rule.ahead_repeatFrom (Rule.continues power) (Rule.continues_eof power)
        (fun left => do Rule.binary (.of depth) left (Grammar.standard.power (← Rule.current).kind))
        (.binary p.advance.current left p.advance.current.value right) m
      rw [run] at ahead
      exact s.earlier ahead.diagnostics_kept ahead.events_kept good
    obtain ⟨below, middle, rfl, past', right⟩ := h.expr (Parser.Before.past past) read good'
    obtain ⟨rest, past', more⟩ := ih past' right.not_continues run
    rw [BindingPower.tier_next] at right
    exact ⟨rest, past', .step operator right more⟩
  | case2 => cases run
  | case3 left p done =>
    cases run
    refine ⟨tokens, past, .stop ?_⟩
    rw [past.kind_peek, Rule.continues_eq, tighter, Bool.or_false] at done
    exact Bool.eq_false_iff.mpr done

/-- An expression that is read is derived, if every expression of the next level is. -/
theorem reads_level (h : s.Sound depth) {power : BindingPower} (binary : power.tier ≠ .operand)
    (inner : s.Reads depth (fun _ => True) (.expression (.of depth) power.next)
      (.expr power.next.tier)) :
    s.Reads depth (fun _ => True) (.expression (.of depth) power) (.expr power.tier) := by
  intro p q e tokens before _ run good
  rw [Rule.expression_eq_bind] at run
  obtain ⟨left, m, read, run⟩ := Rule.of_bind_ok run
  obtain ⟨middle, past, first⟩ := inner before trivial read (good_before run good)
  obtain ⟨rest, past, more⟩ := of_operators h past first.not_continues run good
  rw [BindingPower.tier_next] at first
  exact ⟨rest, past, .tier binary first more⟩

theorem reads_expression (h : s.Sound depth) (power : BindingPower) :
    s.Reads depth (fun _ => True) (.expression (.of depth) power) (.expr power.tier) := by
  refine BindingPower.tier_induction
    (motive := fun power => s.Reads depth (fun _ => True) (.expression (.of depth) power)
      (.expr power.tier))
    (fun power tier => ?_) (fun power binary inner => ?_) power
  · rw [Rule.expression_operand _ tier, tier]
    exact reads_operand h
  · exact reads_level h binary inner

/-! ## Statements -/

theorem of_skipOptional {a : Unit} (past : p.Past s.finish tokens)
    (run : (Rule.skipOptional .semicolon).run p = (.ok a, q)) :
    ∃ rest, q.Past s.finish rest ∧ Terminator tokens rest := by
  rw [Rule.run_skipOptional] at run
  split at run
  · next semicolon =>
    cases run
    obtain ⟨rest, rfl⟩ := Parser.Before.exists_cons past
      (by simp [Parser.current_advance, semicolon])
    exact ⟨rest, Parser.Before.past past, .present semicolon⟩
  · next other =>
    cases run
    rw [past.kind_peek] at other
    exact ⟨tokens, past, .absent other⟩

theorem reads_binding (h : s.Sound depth) :
    s.Reads depth (· = .kwLet) (.binding (.of depth)) .statement := by
  intro p q e tokens before kind run good
  obtain ⟨rest, rfl⟩ := before.exists_cons (by simp [kind])
  obtain ⟨token, _, current, run⟩ := Rule.of_bind_ok run
  cases current
  obtain ⟨_, _, ident, run⟩ := Rule.of_bind_ok run
  obtain ⟨rest, rfl, named, before⟩ := of_expect (by decide) before.past ident
  obtain ⟨name, _, current, run⟩ := Rule.of_bind_ok run
  cases current
  obtain ⟨_, _, assign, run⟩ := Rule.of_bind_ok run
  obtain ⟨rest, rfl, assigned, before⟩ := of_expect (by decide) before.past assign
  obtain ⟨_, _, advance, run⟩ := Rule.of_bind_ok run
  cases advance
  obtain ⟨value, _, read, run⟩ := Rule.of_bind_ok run
  obtain ⟨_, _, skip, last⟩ := Rule.of_bind_ok run
  cases last
  obtain ⟨below, middle, rfl, past, inner⟩ := h.expr before.past read (good_before skip good)
  obtain ⟨rest, past, terminator⟩ := of_skipOptional past skip
  exact ⟨rest, past, .bind kind named assigned inner terminator⟩

theorem reads_returning (h : s.Sound depth) :
    s.Reads depth (· = .kwReturn) (.returning (.of depth)) .statement := by
  intro p q e tokens before kind run good
  obtain ⟨rest, rfl⟩ := before.exists_cons (by simp [kind])
  obtain ⟨token, _, current, run⟩ := Rule.of_bind_ok run
  cases current
  obtain ⟨_, _, advance, run⟩ := Rule.of_bind_ok run
  cases advance
  obtain ⟨value, _, read, run⟩ := Rule.of_bind_ok run
  obtain ⟨_, _, skip, last⟩ := Rule.of_bind_ok run
  cases last
  obtain ⟨below, middle, rfl, past, inner⟩ := h.expr before.past read (good_before skip good)
  obtain ⟨rest, past, terminator⟩ := of_skipOptional past skip
  exact ⟨rest, past, .ret kind inner terminator⟩

theorem reads_expressionStatement (h : s.Sound depth) :
    s.Reads depth (· ≠ .eof) (.expressionStatement (.of depth)) .statement := by
  intro p q e tokens before some run good
  obtain ⟨rest, rfl⟩ := before.exists_cons some
  obtain ⟨token, _, current, run⟩ := Rule.of_bind_ok run
  cases current
  obtain ⟨value, _, read, run⟩ := Rule.of_bind_ok run
  obtain ⟨_, _, skip, last⟩ := Rule.of_bind_ok run
  cases last
  obtain ⟨below, middle, rfl, past, inner⟩ := h.expr before read (good_before skip good)
  obtain ⟨rest, past, terminator⟩ := of_skipOptional past skip
  exact ⟨rest, past, .expr inner terminator⟩

theorem reads_statement (h : s.Sound depth) :
    s.Reads depth (· ≠ .eof) (.statement (.of depth)) .statement := by
  intro p q e tokens before some run good
  obtain ⟨token, _, current, run⟩ := Rule.of_bind_ok run
  cases current
  cases form : Grammar.standard.statement p.current.kind with
  | none =>
    rw [form] at run
    exact reads_expressionStatement h before some run good
  | some form' =>
    rw [form] at run
    have begins := StatementForm.begins_of_statement form
    cases form' with
    | bind => exact reads_binding h before begins run good
    | ret => exact reads_returning h before begins run good

/-! ## Lists of statements and blocks -/

/-- Statements that are read one after another are derived, with what is skipped between them. -/
theorem statements (h : s.Sound depth) (before : p.Before s.finish tokens)
    (good : s.good (p.statements (.of depth)).2) :
    ∃ rest, (p.statements (.of depth)).2.Before s.finish rest ∧
      Derives s.skipped depth (.statements p.scope (p.statements (.of depth)).1) tokens rest := by
  fun_induction Parser.statements (.of depth) p generalizing tokens with
  | case1 p ends => exact ⟨tokens, before, .nil⟩
  | case2 p ends statement q tried rest r eq ih =>
    have ends : p.endsBody = false := Bool.eq_false_iff.mpr ends
    have blocks := ((Rule.statement (.of depth)).ahead p).openBlocks_eq
    have later := Parser.ahead_statements (.of depth) q.advance
    rw [tried] at blocks
    rw [eq] at ih later
    have good' : s.good q :=
      s.earlier ((Parser.Ahead.advance q).trans later).diagnostics_kept
        ((Parser.Ahead.advance q).trans later).events_kept good
    obtain ⟨middle, past, first⟩ :=
      reads_statement h before (Parser.current_kind_ne_eof ends) tried good'
    obtain ⟨rest, before, more⟩ := ih past good
    refine ⟨rest, before, .cons first ?_⟩
    have scope : q.advance.scope = p.scope := by
      change q.scope = p.scope
      unfold Parser.scope
      rw [blocks]
    rwa [← scope]
  | case3 p ends d q tried ih =>
    have ends : p.endsBody = false := Bool.eq_false_iff.mpr ends
    have blocks := ((Rule.statement (.of depth)).ahead p).openBlocks_eq
    have later := Parser.ahead_statements (.of depth) (q.recover d)
    rw [tried] at blocks
    have good' : s.good (q.recover d) :=
      s.earlier later.diagnostics_kept later.events_kept good
    obtain ⟨middle, before', gap⟩ := s.gap before ends tried good'
    obtain ⟨rest, before, more⟩ := ih before' good
    refine ⟨rest, before, .skip gap ?_⟩
    have scope : (q.recover d).scope = p.scope := by
      unfold Parser.scope
      rw [(Parser.ahead_recover q d).openBlocks_eq, blocks]
    rwa [← scope]

/-- A block that is read is derived. -/
theorem reads_block (h : s.Sound depth) :
    s.Reads depth (· = .lbrace) (.block (.of depth)) .block := by
  intro p q b tokens before opens run good
  obtain ⟨rest, rfl⟩ := before.exists_cons (by simp [opens])
  have inside : p.advance.openBlock.Before s.finish rest := ⟨before.past.stands, before.past.not_eof⟩
  have ends := Parser.endsBody_statements (.of depth) p.advance.openBlock
  have derived := statements h inside
  obtain ⟨tree, state⟩ := Prod.mk.inj run
  cases Except.ok.inj tree
  rw [← state] at good ⊢
  obtain ⟨rest', after, inner⟩ := derived (good_of_eq good rfl rfl)
  have scope : p.advance.openBlock.scope = .block := if_neg (Nat.succ_ne_zero _)
  rw [scope] at inner
  rcases after.nil_or_rbrace ends with rfl | ⟨closes, -⟩
  · exact ⟨[], ⟨after.past.stands, after.past.not_eof⟩, .unclosed opens inner⟩
  · obtain ⟨rest', rfl⟩ := after.exists_cons (by simp [closes])
    exact ⟨rest', ⟨after.past.stands, after.past.not_eof⟩, .closed opens inner closes⟩

/-! ## Levels -/

/-- **What is read is derived**, at every level of nesting. -/
theorem sound (s : Reading) (depth : Nat) : s.Sound depth := by
  induction depth with
  | zero =>
    constructor
    case expr =>
      intro power p q e tokens before run
      cases run
    case block =>
      intro p q b tokens before opens run
      cases run
  | succ depth ih =>
    constructor
    case expr =>
      intro power p q e tokens before run good
      obtain ⟨m, read, rfl⟩ := Rule.of_nested_ok run
      have entered : p.enter.Before s.finish tokens := ⟨before.stands, before.not_eof⟩
      have good : s.good m := good_of_eq good rfl rfl
      obtain ⟨rest, past, derived⟩ := reads_expression ih power entered trivial read good
      exact ⟨depth, rest, rfl, ⟨past.stands, past.not_eof⟩, derived⟩
    case block =>
      intro p q b tokens before opens run good
      obtain ⟨m, read, rfl⟩ := Rule.of_nested_ok run
      have entered : p.enter.Before s.finish tokens := ⟨before.stands, before.not_eof⟩
      have good : s.good m := good_of_eq good rfl rfl
      obtain ⟨rest, past, derived⟩ := reads_block ih entered opens read good
      exact ⟨depth, rest, rfl, ⟨past.stands, past.not_eof⟩, derived⟩

end Reading

/-! ## Texts -/

/-- The tokens of a text without zero bytes are before a parser that starts on it. -/
theorem Parser.before_ofText {text : String} (zero_free : 0 ∉ Text.utf8 text)
    (file : Option String) (event : Event) :
    ((Parser.ofText text file).note event).Before (Lexer.ofText text file).finish
      (tokenize text file).dropLast := by
  rw [Lexer.dropLast_tokenize zero_free]
  exact ⟨rfl, fun t => Lexer.kind_ne_eof zero_free file⟩

end Monkey
