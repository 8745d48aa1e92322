import Monkey.Parser.Program
import Monkey.Proofs.Parser.Standing
import Monkey.Proofs.Program.Nodes

/-!
# Where the tokens of a tree come from

Whatever is wrong with a text, the tokens of its program are tokens of the text, in the same order,
and each node says what its token does. Statements that are given up leave no tokens in the tree,
and recovery only moves on, so this is a matter of what each rule reads when it succeeds: `Drawn`
says that some nodes have their tokens, in order, among those that were read.

Results:
* `Drawn.append`: nodes that are drawn from tokens one after another are drawn from all of them.
* `draws_statements`: statements are drawn from the tokens that are read for them.
* `draws`: so are the expressions and blocks of every level of nesting.
* `tree_drawn_from_text`: the tree of a parse is drawn from the tokens of the text.
-/

namespace Monkey

/-! ## Nodes and the tokens they are read from -/

/-- The token of an expression statement is the first token of its expression, or one of the
parentheses before that. -/
def Node.LedIn (stream : List Token) : Node → Prop
  | .statement (.expr token e) => ∃ opening first, (∀ t ∈ opening, t.kind = .lparen) ∧
      (tokensOf e.nodes).head? = some first ∧ Grammar.standard.operand first.kind ≠ none ∧
      opening ++ [first] <:+: stream ∧ (opening ++ [first]).head? = some token
  | _ => True

theorem Node.ledIn_of_ownsToken (stream : List Token) {node : Node}
    (owns : node.ownsToken = true) : node.LedIn stream := by
  unfold LedIn
  split
  · cases owns
  · trivial

/-- Nodes whose tokens are, in order, among the tokens before `rest`, each of them as its token
says. -/
structure Drawn (stream : List Token) (nodes : List Node) (tokens rest : List Token) : Prop where
  order : ∃ taken, tokens = taken ++ rest ∧ (tokensOf nodes).Sublist taken
  agrees : ∀ node ∈ nodes, node.Agrees
  led : ∀ node ∈ nodes, node.LedIn stream

/-- Only parentheses stand before the first token of an expression, which begins an operand. -/
def Expr.Opens (e : Expr) (tokens : List Token) : Prop :=
  ∃ opening first later, tokens = opening ++ first :: later ∧ (∀ t ∈ opening, t.kind = .lparen) ∧
    (tokensOf e.nodes).head? = some first ∧ Grammar.standard.operand first.kind ≠ none

/-- An expression that is read from the start of some tokens. -/
structure Expr.DrawnFrom (stream : List Token) (e : Expr) (tokens rest : List Token) : Prop where
  drawn : Drawn stream e.nodes tokens rest
  opens : e.Opens tokens

namespace Drawn

variable {stream tokens middle rest : List Token} {nodes more : List Node}

theorem suffix (h : Drawn stream nodes tokens rest) : rest <:+ tokens := by
  obtain ⟨taken, eq, -⟩ := h.order
  exact ⟨taken, eq.symm⟩

/-- Tokens that are passed over. -/
theorem nil (suffix : rest <:+ tokens) : Drawn stream [] tokens rest where
  order := by
    obtain ⟨taken, eq⟩ := suffix
    exact ⟨taken, eq.symm, List.nil_sublist _⟩
  agrees := by simp
  led := by simp

theorem append (h : Drawn stream nodes tokens middle) (k : Drawn stream more middle rest) :
    Drawn stream (nodes ++ more) tokens rest where
  order := by
    obtain ⟨taken, rfl, sub⟩ := h.order
    obtain ⟨taken', rfl, sub'⟩ := k.order
    refine ⟨taken ++ taken', (List.append_assoc _ _ _).symm, ?_⟩
    rw [tokensOf_append]
    exact sub.append sub'
  agrees n hn := (List.mem_append.mp hn).elim (h.agrees n) (k.agrees n)
  led n hn := (List.mem_append.mp hn).elim (h.led n) (k.led n)

/-- Tokens that are passed over before what is drawn, and after it. -/
theorem after (suffix : middle <:+ tokens) (h : Drawn stream nodes middle rest) :
    Drawn stream nodes tokens rest :=
  (nil suffix).append h

theorem before (h : Drawn stream nodes tokens middle) (suffix : rest <:+ middle) :
    Drawn stream nodes tokens rest := by
  have := h.append (nil suffix)
  rwa [List.append_nil] at this

/-- A node and the token it is read from. -/
theorem cons (node : Node) (owns : node.ownsToken = true) (agrees : node.Agrees)
    (h : Drawn stream nodes tokens rest) :
    Drawn stream (node :: nodes) (node.token :: tokens) rest where
  order := by
    obtain ⟨taken, rfl, sub⟩ := h.order
    refine ⟨node.token :: taken, rfl, ?_⟩
    rw [tokensOf_cons owns]
    exact sub.cons_cons _
  agrees := List.forall_mem_cons.mpr ⟨agrees, h.agrees⟩
  led := List.forall_mem_cons.mpr ⟨node.ledIn_of_ownsToken stream owns, h.led⟩

theorem single (node : Node) (owns : node.ownsToken = true) (agrees : node.Agrees) :
    Drawn stream [node] (node.token :: rest) rest :=
  .cons node owns agrees (.nil List.suffix_rfl)

end Drawn

namespace Expr

variable {stream tokens rest later : List Token} {e : Expr} {token : Token}

/-- A node that is read from its first token. -/
theorem DrawnFrom.of_first (node : Node) {nodes : List Node} (first : e.nodes = node :: nodes)
    (owns : node.ownsToken = true) (agrees : node.Agrees)
    (begins : Grammar.standard.operand node.token.kind ≠ none) (h : Drawn stream nodes later rest) :
    e.DrawnFrom stream (node.token :: later) rest where
  drawn := by
    rw [first]
    exact h.cons node owns agrees
  opens := ⟨[], node.token, later, rfl, by simp, by rw [first, tokensOf_cons owns]; rfl, begins⟩

/-- An expression in parentheses. -/
theorem DrawnFrom.group {closing : Token} (opens : token.kind = .lparen)
    (h : e.DrawnFrom stream tokens (closing :: rest)) :
    e.DrawnFrom stream (token :: tokens) rest where
  drawn := (h.drawn.after (List.suffix_cons _ _)).before (List.suffix_cons _ _)
  opens := by
    obtain ⟨opening, first, later, rfl, parens, head⟩ := h.opens
    exact ⟨token :: opening, first, later, rfl, List.forall_mem_cons.mpr ⟨opens, parens⟩, head⟩

/-- An operator and its right operand after a left one. -/
theorem DrawnFrom.binary {left right : Expr} (h : left.DrawnFrom stream tokens (token :: later))
    (agrees : (Node.expr (.binary token left token.value right)).Agrees)
    (k : Drawn stream right.nodes later rest) :
    (Expr.binary token left token.value right).DrawnFrom stream tokens rest where
  drawn := h.drawn.append (k.cons (.expr _) rfl agrees)
  opens := by
    obtain ⟨opening, first, later, eq, parens, head, begins⟩ := h.opens
    refine ⟨opening, first, later, eq, parens, ?_, begins⟩
    rw [nodes, tokensOf_append, List.head?_append, head]
    rfl

end Expr

/-! ## Rules -/

section

variable (stream : List Token) (finish : Position)

/-- A rule that succeeds at a token that passes a test has read a result from the tokens there. -/
def Draws {α : Type} (test : Kind → Prop) (r : Rule α)
    (drawn : α → List Token → List Token → Prop) : Prop :=
  ∀ {p q : Parser} {a : α} {tokens : List Token}, p.At finish tokens → tokens <:+ stream →
    test p.current.kind → r.run p = (.ok a, q) →
    ∃ rest, q.advance.At finish rest ∧ drawn a tokens rest

/-- The expressions and blocks of a level are read from the tokens where they stand. -/
structure Level.Draws (level : Level) : Prop where
  expr : ∀ power, Monkey.Draws stream finish (fun _ => True) (level.expr power)
    (Expr.DrawnFrom stream)
  block : Monkey.Draws stream finish (· = .lbrace) level.block fun b => Drawn stream b.nodes

end

variable {stream : List Token} {finish : Position} {level : Level} {p q : Parser}
  {tokens rest : List Token}

theorem draws_group (h : level.Draws stream finish) :
    Draws stream finish (· = .lparen) (.group level) (Expr.DrawnFrom stream) := by
  intro p q e tokens stands within opens run
  obtain ⟨rest, rfl⟩ := stands.exists_cons (by simp [opens])
  obtain ⟨_, _, advance, run⟩ := Rule.of_bind_ok run
  cases advance
  obtain ⟨inner, _, read, run⟩ := Rule.of_bind_ok run
  obtain ⟨_, _, close, run⟩ := Rule.of_bind_ok run
  cases run
  obtain ⟨middle, past, drawn⟩ :=
    h.expr .lowest stands.advance ((List.suffix_cons _ _).trans within) trivial read
  obtain ⟨rest, rfl, -, stands⟩ := past.of_expect (by decide) close
  exact ⟨rest, stands.advance, drawn.group opens⟩

theorem draws_nextBlock (h : level.Draws stream finish) {b : Block}
    (past : p.advance.At finish tokens) (within : tokens <:+ stream)
    (run : (Rule.nextBlock level).run p = (.ok b, q)) :
    ∃ rest, q.advance.At finish rest ∧ Drawn stream b.nodes tokens rest := by
  obtain ⟨_, _, opening, run⟩ := Rule.of_bind_ok run
  obtain ⟨rest, rfl, opens, stands⟩ := past.of_expect (by decide) opening
  exact h.block stands within opens run

/-- What continues an expression is an operator. -/
theorem operator_ne_none {power : BindingPower} {kind : Kind}
    (h : Rule.continues power kind = true) : Grammar.standard.operator kind ≠ none := by
  intro none
  simp [Rule.continues, Grammar.power, none, BindingPower.not_lt_lowest] at h

/-- The token of an expression statement is the one at which its expression begins. -/
theorem draws_expressionStatement (h : level.Draws stream finish) :
    Draws stream finish (fun _ => True) (.expressionStatement level)
      fun s => Drawn stream s.nodes := by
  intro p q s tokens stands within _ run
  obtain ⟨token, _, current, run⟩ := Rule.of_bind_ok run
  cases current
  obtain ⟨value, _, read, run⟩ := Rule.of_bind_ok run
  obtain ⟨_, _, skip, last⟩ := Rule.of_bind_ok run
  cases last
  obtain ⟨middle, past, drawn, opens⟩ := h.expr .lowest stands within trivial read
  obtain ⟨rest', past, suffix⟩ := past.of_skipOptional skip
  obtain ⟨order, agrees, led⟩ := drawn.before suffix
  refine ⟨rest', past, order, List.forall_mem_cons.mpr ⟨trivial, agrees⟩,
    List.forall_mem_cons.mpr ⟨?_, led⟩⟩
  obtain ⟨opening, first, later, rfl, parens, head, begins⟩ := opens
  refine ⟨opening, first, parens, head, begins, ?_, ?_⟩
  · refine List.IsInfix.trans ?_ within.isInfix
    exact ⟨[], later, by simp⟩
  · cases opening with
    | nil => rw [stands.current]; rfl
    | cons => rw [stands.current]; rfl

section

variable (genuine : ∀ t ∈ stream, t.Genuine)
include genuine

theorem draws_primary :
    Draws stream finish (fun _ => True) .primary (Expr.DrawnFrom stream) := by
  intro p q e tokens stands within _ run
  unfold Rule.primary at run
  rw [Rule.run_bind, Rule.run_current] at run
  dsimp only at run
  -- the node of the current token is all there is
  have single {node : Node} {kind : Kind} (same : p.current.kind = kind)
      (begins : Grammar.standard.operand kind ≠ none) (first : e.nodes = [node])
      (token : node.token = p.current) (owns : node.ownsToken = true)
      (agrees : p.current.Genuine → node.Agrees) :
      ∃ rest, p.advance.At finish rest ∧ e.DrawnFrom stream tokens rest := by
    subst same
    obtain ⟨rest, rfl⟩ := stands.exists_cons fun eof => begins (by rw [eof]; rfl)
    refine ⟨rest, stands.advance, ?_⟩
    rw [← token] at begins ⊢
    exact .of_first node first owns (agrees (genuine _ (within.subset List.mem_cons_self))) begins
      (.nil List.suffix_rfl)
  split at run
  case h_1 kind =>
    split at run
    · next small =>
      cases run
      exact single kind (by decide) rfl rfl rfl (Node.agrees_int · kind small)
    · cases run
  case h_2 kind =>
    cases run
    exact single kind (by decide) rfl rfl rfl (Ident.agrees_ofToken · kind)
  case h_3 kind =>
    cases run
    exact single kind (by decide) rfl rfl rfl fun said => said.said kind rfl
  case h_4 kind =>
    cases run
    exact single kind (by decide) rfl rfl rfl fun said => said.said kind rfl
  case h_5 => cases run

theorem draws_unary (h : level.Draws stream finish) :
    Draws stream finish (fun kind => Grammar.standard.operand kind = some .unary) (.unary level)
      (Expr.DrawnFrom stream) := by
  intro p q e tokens stands within form run
  obtain ⟨rest, rfl⟩ := stands.exists_cons fun eof => by
    rw [eof] at form
    cases form
  have said := genuine _ (within.subset List.mem_cons_self)
  have begins : Grammar.standard.operand p.current.kind ≠ none := by
    rw [form]
    decide
  obtain ⟨token, _, current, run⟩ := Rule.of_bind_ok run
  cases current
  obtain ⟨_, _, advance, run⟩ := Rule.of_bind_ok run
  cases advance
  obtain ⟨operand, _, read, run⟩ := Rule.of_bind_ok run
  cases run
  obtain ⟨rest', past, drawn⟩ :=
    h.expr .unary stands.advance ((List.suffix_cons _ _).trans within) trivial read
  exact ⟨rest', past, .of_first (.expr (.unary _ _ _)) rfl rfl
    (Node.agrees_unary said operand form) begins drawn.drawn⟩

theorem draws_cond (h : level.Draws stream finish) :
    Draws stream finish (· = .kwIf) (.cond level) (Expr.DrawnFrom stream) := by
  intro p q e tokens stands within kind run
  obtain ⟨rest, rfl⟩ := stands.exists_cons (by simp [kind])
  have said := (genuine _ (within.subset List.mem_cons_self)).said kind rfl
  have begins : Grammar.standard.operand p.current.kind ≠ none := by
    rw [kind]
    decide
  obtain ⟨token, _, current, run⟩ := Rule.of_bind_ok run
  cases current
  obtain ⟨_, _, opening, run⟩ := Rule.of_bind_ok run
  obtain ⟨_, _, advance, run⟩ := Rule.of_bind_ok run
  cases advance
  obtain ⟨condition, _, test, run⟩ := Rule.of_bind_ok run
  obtain ⟨_, _, closing, run⟩ := Rule.of_bind_ok run
  obtain ⟨consequence, _, body, run⟩ := Rule.of_bind_ok run
  obtain ⟨next, _, peek, run⟩ := Rule.of_bind_ok run
  cases peek
  have within := (List.suffix_cons _ _).trans within
  obtain ⟨rest, rfl, -, stands⟩ := stands.advance.of_expect (by decide) opening
  have within := (List.suffix_cons _ _).trans within
  obtain ⟨middle, past, drawn⟩ := h.expr .lowest stands.advance within trivial test
  have within := drawn.drawn.suffix.trans within
  obtain ⟨rest', rfl, -, stands⟩ := past.of_expect (by decide) closing
  have within := (List.suffix_cons _ _).trans within
  obtain ⟨later, past, drawn'⟩ := draws_nextBlock h stands.advance within body
  have both := (drawn.drawn.after (List.tail_suffix _)).append (drawn'.after (List.tail_suffix _))
  split at run
  · obtain ⟨_, _, advance, run⟩ := Rule.of_bind_ok run
    cases advance
    obtain ⟨alternative, _, other, run⟩ := Rule.of_bind_ok run
    cases run
    have within := drawn'.suffix.trans within
    obtain ⟨rest'', past, drawn''⟩ :=
      draws_nextBlock h past.advance ((List.tail_suffix _).trans within) other
    have all := both.append (drawn''.after (List.tail_suffix _))
    rw [List.append_assoc] at all
    exact ⟨rest'', past, .of_first (.expr (.cond _ _ _ _)) rfl rfl said begins all⟩
  · cases run
    exact ⟨later, past, .of_first (.expr (.cond _ _ _ _)) rfl rfl said begins both⟩

theorem draws_nextParam {name : Ident} (past : p.advance.At finish tokens)
    (within : tokens <:+ stream) (run : Rule.nextParam.run p = (.ok name, q)) :
    ∃ rest, q.advance.At finish rest ∧ Drawn stream [.ident name] tokens rest := by
  obtain ⟨_, _, ident, run⟩ := Rule.of_bind_ok run
  obtain ⟨token, _, current, run⟩ := Rule.of_bind_ok run
  cases current
  cases run
  obtain ⟨rest, rfl, kind, stands⟩ := past.of_expect (by decide) ident
  have said := genuine _ (within.subset List.mem_cons_self)
  exact ⟨rest, stands.advance, .single (.ident _) rfl (Ident.agrees_ofToken said kind)⟩

theorem draws_moreParams (names : List Ident) {all : List Ident} {middle : List Token}
    (past : p.advance.At finish middle) (within : tokens <:+ stream)
    (drawn : Drawn stream (names.map .ident) tokens middle)
    (run : (Rule.repeatWhile (· == .comma) rfl
      (fun names => return names ++ [← Rule.nextParam]) names).run p = (.ok all, q)) :
    ∃ rest, q.advance.At finish rest ∧ Drawn stream (all.map .ident) tokens rest := by
  change Rule.repeatFrom _ _ _ _ _ = _ at run
  fun_induction Rule.repeatFrom (· == .comma) rfl
    (fun names => return names ++ [← Rule.nextParam]) names p generalizing middle with
  | case1 names p more names' m taken ih =>
    obtain ⟨name, _, param, last⟩ := Rule.of_bind_ok taken
    cases last
    obtain ⟨rest, past, one⟩ := draws_nextParam genuine past.advance
      ((List.tail_suffix _).trans (drawn.suffix.trans within)) param
    refine ih past ?_ run
    rw [List.map_append]
    exact drawn.append (one.after (List.tail_suffix _))
  | case2 => cases run
  | case3 names p done =>
    cases run
    exact ⟨middle, past, drawn⟩

theorem draws_params {names : List Ident} (past : p.advance.At finish tokens)
    (within : tokens <:+ stream) (run : Rule.params.run p = (.ok names, q)) :
    ∃ rest, q.advance.At finish rest ∧ Drawn stream (names.map .ident) tokens rest := by
  obtain ⟨next, _, peek, run⟩ := Rule.of_bind_ok run
  cases peek
  split at run
  · obtain ⟨_, _, advance, run⟩ := Rule.of_bind_ok run
    cases advance
    cases run
    exact ⟨_, past.advance, .nil (List.tail_suffix _)⟩
  · obtain ⟨first, _, param, run⟩ := Rule.of_bind_ok run
    obtain ⟨all, _, loop, run⟩ := Rule.of_bind_ok run
    obtain ⟨_, _, close, run⟩ := Rule.of_bind_ok run
    cases run
    obtain ⟨middle, past, one⟩ := draws_nextParam genuine past within param
    obtain ⟨later, past, drawn⟩ := draws_moreParams genuine [first] past within one loop
    obtain ⟨rest, rfl, -, stands⟩ := past.of_expect (by decide) close
    exact ⟨rest, stands.advance, drawn.before (List.suffix_cons _ _)⟩

theorem draws_func (h : level.Draws stream finish) :
    Draws stream finish (· = .kwFn) (.func level) (Expr.DrawnFrom stream) := by
  intro p q e tokens stands within kind run
  obtain ⟨rest, rfl⟩ := stands.exists_cons (by simp [kind])
  have said := (genuine _ (within.subset List.mem_cons_self)).said kind rfl
  have begins : Grammar.standard.operand p.current.kind ≠ none := by
    rw [kind]
    decide
  obtain ⟨token, _, current, run⟩ := Rule.of_bind_ok run
  cases current
  obtain ⟨_, _, opening, run⟩ := Rule.of_bind_ok run
  obtain ⟨names, _, params, run⟩ := Rule.of_bind_ok run
  obtain ⟨body, _, block, run⟩ := Rule.of_bind_ok run
  cases run
  have within := (List.suffix_cons _ _).trans within
  obtain ⟨rest, rfl, -, stands⟩ := stands.advance.of_expect (by decide) opening
  have within := (List.suffix_cons _ _).trans within
  obtain ⟨middle, past, drawn⟩ := draws_params genuine stands.advance within params
  obtain ⟨rest', past, drawn'⟩ := draws_nextBlock h past (drawn.suffix.trans within) block
  exact ⟨rest', past, .of_first (.expr (.func _ _ _)) rfl rfl said begins
    ((drawn.append drawn').after (List.suffix_cons _ _))⟩

theorem draws_operand (h : level.Draws stream finish) :
    Draws stream finish (fun _ => True) (.operand level) (Expr.DrawnFrom stream) := by
  intro p q e tokens stands within _ run
  obtain ⟨token, _, current, run⟩ := Rule.of_bind_ok run
  cases current
  cases form : Grammar.standard.operand p.current.kind with
  | none =>
    rw [form] at run
    cases run
  | some form' =>
    rw [form] at run
    have begins := OperandForm.begins_of_operand form
    cases form' with
    | primary => exact draws_primary genuine stands within trivial run
    | unary => exact draws_unary genuine h stands within form run
    | group => exact draws_group h stands within begins run
    | cond => exact draws_cond genuine h stands within begins run
    | func => exact draws_func genuine h stands within begins run

theorem draws_operators (h : level.Draws stream finish) {power : BindingPower} {left e : Expr}
    (past : p.advance.At finish rest) (within : tokens <:+ stream)
    (drawn : left.DrawnFrom stream tokens rest)
    (run : (Rule.operators level power left).run p = (.ok e, q)) :
    ∃ rest, q.advance.At finish rest ∧ e.DrawnFrom stream tokens rest := by
  change Rule.repeatFrom _ _ _ _ _ = _ at run
  fun_induction Rule.repeatFrom (Rule.continues power) (Rule.continues_eof power)
    (fun left => do Rule.binary level left (Grammar.standard.power (← Rule.current).kind))
    left p generalizing rest with
  | case1 left p more tree m taken ih =>
    obtain ⟨later, rfl⟩ := past.exists_cons fun eof => by
      rw [← Parser.current_advance, eof, Rule.continues_eof] at more
      cases more
    have within' := drawn.drawn.suffix.trans within
    have said := genuine _ (within'.subset List.mem_cons_self)
    obtain ⟨_, _, current, taken⟩ := Rule.of_bind_ok taken
    cases current
    obtain ⟨_, _, current, taken⟩ := Rule.of_bind_ok taken
    cases current
    obtain ⟨_, _, advance, taken⟩ := Rule.of_bind_ok taken
    cases advance
    obtain ⟨right, _, read, last⟩ := Rule.of_bind_ok taken
    cases last
    obtain ⟨middle, past', drawn'⟩ :=
      h.expr _ past.advance ((List.suffix_cons _ _).trans within') trivial read
    have agrees := Node.agrees_binary said left right (operator_ne_none more)
    exact ih past' (drawn.binary agrees drawn'.drawn) run
  | case2 => cases run
  | case3 left p done =>
    cases run
    exact ⟨rest, past, drawn⟩

theorem draws_expression (h : level.Draws stream finish) (power : BindingPower) :
    Draws stream finish (fun _ => True) (.expression level power) (Expr.DrawnFrom stream) := by
  intro p q e tokens stands within _ run
  obtain ⟨left, _, read, run⟩ := Rule.of_bind_ok run
  obtain ⟨rest, past, drawn⟩ := draws_operand genuine h stands within trivial read
  exact draws_operators genuine h past within drawn run

/-! ## Statements -/

theorem draws_binding (h : level.Draws stream finish) :
    Draws stream finish (· = .kwLet) (.binding level) fun s => Drawn stream s.nodes := by
  intro p q s tokens stands within kind run
  obtain ⟨rest, rfl⟩ := stands.exists_cons (by simp [kind])
  have said := (genuine _ (within.subset List.mem_cons_self)).said kind rfl
  obtain ⟨token, _, current, run⟩ := Rule.of_bind_ok run
  cases current
  obtain ⟨_, _, ident, run⟩ := Rule.of_bind_ok run
  obtain ⟨name, _, current, run⟩ := Rule.of_bind_ok run
  cases current
  obtain ⟨_, _, assign, run⟩ := Rule.of_bind_ok run
  obtain ⟨_, _, advance, run⟩ := Rule.of_bind_ok run
  cases advance
  obtain ⟨value, _, read, run⟩ := Rule.of_bind_ok run
  obtain ⟨_, _, skip, last⟩ := Rule.of_bind_ok run
  cases last
  have within := (List.suffix_cons _ _).trans within
  obtain ⟨rest, rfl, named, stands⟩ := stands.advance.of_expect (by decide) ident
  have named := Ident.agrees_ofToken (genuine _ (within.subset List.mem_cons_self)) named
  have within := (List.suffix_cons _ _).trans within
  obtain ⟨rest, rfl, -, stands⟩ := stands.advance.of_expect (by decide) assign
  have within := (List.suffix_cons _ _).trans within
  obtain ⟨middle, past, drawn⟩ := h.expr .lowest stands.advance within trivial read
  obtain ⟨rest', past, suffix⟩ := past.of_skipOptional skip
  have after := (drawn.drawn.after (List.tail_suffix _)).before suffix
  exact ⟨rest', past, .cons (.statement (.bind _ _ _)) rfl said
    (.cons (.ident (.ofToken _)) rfl named after)⟩

theorem draws_returning (h : level.Draws stream finish) :
    Draws stream finish (· = .kwReturn) (.returning level) fun s => Drawn stream s.nodes := by
  intro p q s tokens stands within kind run
  obtain ⟨rest, rfl⟩ := stands.exists_cons (by simp [kind])
  have said := (genuine _ (within.subset List.mem_cons_self)).said kind rfl
  obtain ⟨token, _, current, run⟩ := Rule.of_bind_ok run
  cases current
  obtain ⟨_, _, advance, run⟩ := Rule.of_bind_ok run
  cases advance
  obtain ⟨value, _, read, run⟩ := Rule.of_bind_ok run
  obtain ⟨_, _, skip, last⟩ := Rule.of_bind_ok run
  cases last
  obtain ⟨middle, past, drawn⟩ :=
    h.expr .lowest stands.advance ((List.suffix_cons _ _).trans within) trivial read
  obtain ⟨rest', past, suffix⟩ := past.of_skipOptional skip
  exact ⟨rest', past, .cons (.statement (.ret _ _)) rfl said (drawn.drawn.before suffix)⟩

theorem draws_statement (h : level.Draws stream finish) :
    Draws stream finish (fun _ => True) (.statement level) fun s => Drawn stream s.nodes := by
  intro p q s tokens stands within _ run
  obtain ⟨token, _, current, run⟩ := Rule.of_bind_ok run
  cases current
  cases form : Grammar.standard.statement p.current.kind with
  | none =>
    rw [form] at run
    exact draws_expressionStatement h stands within trivial run
  | some form' =>
    rw [form] at run
    have begins := StatementForm.begins_of_statement form
    cases form' with
    | bind => exact draws_binding genuine h stands within begins run
    | ret => exact draws_returning genuine h stands within begins run

/-- Statements are drawn one after another, with what recovery passes over between them. -/
theorem draws_statements (h : level.Draws stream finish) (stands : p.At finish tokens)
    (within : tokens <:+ stream) :
    ∃ rest, (p.statements level).2.At finish rest ∧
      Drawn stream (nodesOf (p.statements level).1) tokens rest := by
  fun_induction Parser.statements level p generalizing tokens with
  | case1 p ends => exact ⟨tokens, stands, .nil List.suffix_rfl⟩
  | case2 p ends statement q tried rest r eq ih =>
    rw [eq] at ih
    obtain ⟨middle, past, first⟩ := draws_statement genuine h stands within trivial tried
    obtain ⟨rest, stands, more⟩ := ih past (first.suffix.trans within)
    exact ⟨rest, stands, first.append more⟩
  | case3 p ends d q tried ih =>
    have ahead := (Rule.statement level).ahead p
    rw [tried] at ahead
    obtain ⟨count, stands⟩ := stands.ahead (ahead.trans (Parser.ahead_recover q d))
    have suffix := List.drop_suffix count tokens
    obtain ⟨rest, stands, drawn⟩ := ih stands (suffix.trans within)
    exact ⟨rest, stands, drawn.after suffix⟩

theorem draws_block (h : level.Draws stream finish) :
    Draws stream finish (· = .lbrace) (.block level) fun b => Drawn stream b.nodes := by
  intro p q b tokens stands within opens run
  obtain ⟨rest, rfl⟩ := stands.exists_cons (by simp [opens])
  have said := (genuine _ (within.subset List.mem_cons_self)).said opens rfl
  have inside : p.advance.openBlock.At finish rest := stands.advance
  obtain ⟨rest', after, drawn⟩ :=
    draws_statements genuine h inside ((List.suffix_cons _ _).trans within)
  obtain ⟨tree, state⟩ := Prod.mk.inj run
  cases Except.ok.inj tree
  rw [← state]
  exact ⟨rest'.tail, after.advance,
    .cons (.block (.mk _ _)) rfl said (drawn.before (List.tail_suffix _))⟩

/-- **What is read is drawn from the tokens**, at every level of nesting. -/
theorem draws (depth : Nat) : (Level.of depth).Draws stream finish := by
  induction depth with
  | zero =>
    constructor
    case expr =>
      intro power p q e tokens _ _ _ run
      cases run
    case block =>
      intro p q b tokens _ _ _ run
      cases run
  | succ depth ih =>
    constructor
    case expr =>
      intro power p q e tokens stands within _ run
      obtain ⟨m, read, rfl⟩ := Rule.of_nested_ok run
      have entered : p.enter.At finish tokens := stands
      obtain ⟨rest, past, drawn⟩ := draws_expression genuine ih power entered within trivial read
      exact ⟨rest, past, drawn⟩
    case block =>
      intro p q b tokens stands within opens run
      obtain ⟨m, read, rfl⟩ := Rule.of_nested_ok run
      have entered : p.enter.At finish tokens := stands
      obtain ⟨rest, past, drawn⟩ := draws_block genuine ih entered within opens read
      exact ⟨rest, past, drawn⟩

end

/-! ## Texts -/

namespace Lexer

variable {text : String} {file : Option String} {t : Token}

/-- A token of a text of a kind other than `illegal` says the bytes of its span. -/
theorem value_of_mem (ht : t ∈ (ofText text file).tokens) (eof : t.kind ≠ .eof)
    (illegal : t.kind ≠ .illegal) : Text.utf8 t.value = t.slice (Text.utf8 text) := by
  have munch := (within_ofText text file).maximalMunch_tokens
  refine munch.value t ht eof ?_
  rcases (munch.longest t ht eof).isLexeme.ascii with ascii | ⟨_, _, _, stray⟩
  · exact ascii
  · exact absurd stray illegal

theorem genuine_of_mem (ht : t ∈ (ofText text file).tokens) : t.Genuine := fun eof illegal =>
  value_of_mem ht eof illegal ▸
    ((within_ofText text file).maximalMunch_tokens.longest t ht eof).isLexeme

end Lexer

/-- The token of an expression statement begins an operand. -/
theorem Node.LedIn.begins {stream : List Token} {token : Token} {e : Expr}
    (h : (Node.statement (.expr token e)).LedIn stream) :
    token ∈ stream ∧ Grammar.standard.operand token.kind ≠ none := by
  obtain ⟨opening, first, parens, -, begins, within, head⟩ := h
  refine ⟨within.subset (List.mem_of_mem_head? head), ?_⟩
  cases opening with
  | nil =>
    cases head
    exact begins
  | cons paren opening =>
    cases head
    rw [parens token List.mem_cons_self]
    decide

/-- Every node has a token of the text, of a kind that has lexemes in ASCII. -/
theorem Drawn.token_mem {stream tokens rest : List Token} {nodes : List Node} {node : Node}
    (h : Drawn stream nodes tokens rest) (within : tokens <:+ stream) (mem : node ∈ nodes) :
    node.token ∈ stream ∧ node.token.kind ≠ .eof ∧ node.token.kind ≠ .illegal := by
  cases owns : node.ownsToken with
  | true =>
    obtain ⟨taken, rfl, sub⟩ := h.order
    have own : node.token ∈ tokensOf nodes :=
      List.mem_map_of_mem (List.mem_filter.mpr ⟨mem, owns⟩)
    have inside := within.subset (List.mem_append_left rest (sub.subset own))
    exact ⟨inside, Node.Agrees.plain (h.agrees node mem) owns⟩
  | false =>
    obtain ⟨token, e, rfl⟩ : ∃ token e, node = .statement (.expr token e) := by
      unfold Node.ownsToken at owns
      split at owns
      · exact ⟨_, _, rfl⟩
      · cases owns
    obtain ⟨mem, begins⟩ := (h.led _ mem).begins
    exact ⟨mem, fun eof => begins (congrArg Grammar.standard.operand eof),
      fun stray => begins (congrArg Grammar.standard.operand stray)⟩

/-- The nodes of a parse are drawn from the tokens of the text. -/
theorem drawn_parse (text : String) (file : Option String) :
    ∃ rest, Drawn (Lexer.ofText text file).tokens (parse text file).program.nodes
      (Lexer.ofText text file).tokens rest := by
  let start := (Parser.ofText text file).note (.started (Parser.ofText text file).position.file)
  have stands : start.At (Lexer.ofText text file).finish (Lexer.ofText text file).tokens := rfl
  have genuine : ∀ t ∈ (Lexer.ofText text file).tokens, t.Genuine :=
    fun _ => Lexer.genuine_of_mem
  obtain ⟨rest, -, drawn⟩ :=
    draws_statements genuine (draws genuine maxDepth) stands List.suffix_rfl
  exact ⟨rest, drawn⟩

/-- **The tree of a parse is drawn from the tokens of the text**, whatever is wrong with it. Its
tokens are tokens of the text, in the same order, and each of its nodes is what its token says. -/
theorem tree_drawn_from_text (text : String) (file : Option String) :
    let stream := (Lexer.ofText text file).tokens
    let program := (parse text file).program
    program.tokens.Sublist stream ∧
      program.tokens.Pairwise (fun t u => t.start < u.start) ∧
      ∀ node ∈ program.nodes, node.token ∈ stream ∧
        Text.utf8 node.token.value = node.token.slice (Text.utf8 text) ∧ node.Agrees ∧
        node.LedIn stream := by
  intro stream program
  obtain ⟨rest, drawn⟩ := drawn_parse text file
  have sub : program.tokens.Sublist stream := by
    obtain ⟨taken, eq, sub⟩ := drawn.order
    exact sub.trans (List.IsPrefix.sublist ⟨rest, eq.symm⟩)
  have ordered : stream.Pairwise fun t u => t.start < u.start :=
    (Lexer.within_ofText text file).maximalMunch_tokens.ordered.imp And.right
  refine ⟨sub, ordered.sublist sub, fun node mem => ?_⟩
  obtain ⟨inside, eof, illegal⟩ := drawn.token_mem List.suffix_rfl mem
  exact ⟨inside, Lexer.value_of_mem inside eof illegal, drawn.agrees node mem, drawn.led node mem⟩

end Monkey
