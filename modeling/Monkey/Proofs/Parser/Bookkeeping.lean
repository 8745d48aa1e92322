import Monkey.Proofs.Parser.Ledger

/-!
# Rules keep the ledger

What a rule stores begins with the token that it starts on: an expression statement keeps that token
even where the expression does not, as with a parenthesis. So `Gathers` counts it in, and says of each
rule of the grammar what it ensures, for all that was stored before.

Results:
* `gathers_primary`, `gathers_unary`, ..., `gathers_block`: one lemma for each rule.
* `fresh_statements`: statements and the recovery between them.
* `gathers`: every rule keeps a ledger, at every level of nesting.
* `recovery_accounted`: log and diagnostics of a parse are the entries of one ledger, in order, and
  no token of the program starts where something was skipped.
-/

namespace Monkey

/-! ## Tokens that are stored -/

/-- The tokens of some nodes. -/
def tokensIn (nodes : List Node) : List Token := nodes.map Node.token

@[simp] theorem tokensIn_nil : tokensIn [] = [] := rfl

@[simp] theorem tokensIn_cons (node : Node) (nodes : List Node) :
    tokensIn (node :: nodes) = node.token :: tokensIn nodes := rfl

@[simp] theorem tokensIn_append (nodes others : List Node) :
    tokensIn (nodes ++ others) = tokensIn nodes ++ tokensIn others :=
  List.map_append

@[simp] theorem tokensIn_idents (names : List Ident) :
    tokensIn (names.map .ident) = names.map Ident.token :=
  List.map_map

section

variable (finish : Position) (stream : List Token) (edge : Nat → Prop)

/-- A rule that starts on a token of some kinds keeps a ledger. If it succeeds it has stored that
token and those of its result. -/
def Gathers {α : Type} (test : Kind → Prop) (r : Rule α) (taken : α → List Token) : Prop :=
  ∀ base kept token, Rule.Ensures
    (fun p => Fresh finish stream edge (base ++ kept) p ∧ p.current = token ∧ test token.kind) r
    (fun a => Held finish stream edge base (kept ++ token :: taken a))
    (Stuck finish stream edge base)

/-- The rules of a level keep a ledger. -/
structure Level.Gathers (level : Level) : Prop where
  expr : ∀ power, Monkey.Gathers finish stream edge (fun _ => True) (level.expr power)
    fun e => tokensIn e.nodes
  block : Monkey.Gathers finish stream edge (· = .lbrace) level.block fun b => tokensIn b.nodes

end

variable {finish : Position} {stream : List Token} {edge : Nat → Prop} {α : Type}
  {base kept : List Token} {token : Token} {level : Level}

namespace Gathers

variable {test : Kind → Prop} {r : Rule α} {taken : α → List Token}

/-- The token that a rule starts on may be any. -/
theorem anywhere (h : Gathers finish stream edge test r taken) (base kept : List Token) :
    Rule.Ensures (fun p => Fresh finish stream edge (base ++ kept) p ∧ test p.current.kind) r
      (fun a => Held finish stream edge base (kept ++ taken a)) (Stuck finish stream edge base) := by
  intro p ⟨fresh, passes⟩
  refine (h base kept p.current).imp (fun _ h => h) (fun a q held => held.subset ?_)
    (fun _ _ h => h) p ⟨fresh, rfl, passes⟩
  exact List.append_subset.mpr ⟨List.subset_append_left _ _,
    List.Subset.trans (List.subset_cons_self _ _) (List.subset_append_right _ _)⟩

/-- A token of the right kind is enough to start on. -/
theorem of_kind (h : Gathers finish stream edge test r taken) (passes : test token.kind)
    (base kept : List Token) :
    Rule.Ensures (fun p => Fresh finish stream edge (base ++ kept) p ∧ p.current = token ∧ True) r
      (fun a => Held finish stream edge base (kept ++ token :: taken a))
      (Stuck finish stream edge base) :=
  (h base kept token).weaken fun _ start => ⟨start.1, start.2.1, passes⟩

end Gathers

theorem Level.Gathers.expression (h : level.Gathers finish stream edge) (power : BindingPower)
    (base kept : List Token) :
    Rule.Ensures (Fresh finish stream edge (base ++ kept)) (level.expr power)
      (fun e => Held finish stream edge base (kept ++ tokensIn e.nodes))
      (Stuck finish stream edge base) :=
  ((h.expr power).anywhere base kept).weaken fun _ fresh => ⟨fresh, trivial⟩

/-- A rule may refuse the token that it starts on. -/
theorem ensures_refusal {after : α → Parser → Prop} (test : Kind → Prop) (cause : Cause) :
    Rule.Ensures
      (fun p => Fresh finish stream edge (base ++ kept) p ∧ p.current = token ∧ test token.kind)
      (Rule.fail cause token.span.start) after (Stuck finish stream edge base) := by
  refine .fail ?_
  rintro p ⟨fresh, rfl, -⟩
  exact fresh.stop cause

section

variable (aligned : Aligned finish stream edge)
include aligned

/-! ## Moving -/

theorem ensures_advance (base kept : List Token) :
    Rule.Ensures (Held finish stream edge base kept) .advance
      (fun _ => Fresh finish stream edge (base ++ kept)) (Stuck finish stream edge base) :=
  .advance fun _ held => held.advance aligned

/-- The token that a rule starts on is stored. -/
theorem held_of_start {test : Kind → Prop} (legible : ∀ kind, test kind → kind.legible = true)
    (p : Parser)
    (h : Fresh finish stream edge (base ++ kept) p ∧ p.current = token ∧ test token.kind) :
    Held finish stream edge base (kept ++ [token]) p := by
  obtain ⟨fresh, rfl, passes⟩ := h
  exact fresh.take aligned (legible _ passes)

theorem ensures_expect (kind : Kind) (base kept : List Token) :
    Rule.Ensures (Held finish stream edge base kept) (.expect kind)
      (fun _ p => Fresh finish stream edge (base ++ kept) p ∧ p.current.kind = kind)
      (Stuck finish stream edge base) :=
  .expect (fun _ held same => ⟨held.advance aligned, same⟩) fun _ held _ => held.unexpected _

/-- A token that is expected and not stored. -/
theorem ensures_pass {kind : Kind} (legal : kind ≠ .illegal) (base kept : List Token) :
    Rule.Ensures (Held finish stream edge base kept) (.expect kind)
      (fun _ => Held finish stream edge base kept) (Stuck finish stream edge base) :=
  (ensures_expect aligned kind base kept).relax fun _ _ ⟨fresh, same⟩ =>
    fresh.pass aligned (same ▸ legal)

/-- A token that is seen to be next and not stored. -/
theorem ensures_skip {next : Token} (legal : next.kind ≠ .illegal) (base kept : List Token) :
    Rule.Ensures (fun p => Held finish stream edge base kept p ∧ p.peek = next) .advance
      (fun _ => Held finish stream edge base kept) (Stuck finish stream edge base) := by
  refine .advance ?_
  rintro p ⟨held, rfl⟩
  exact (held.advance aligned).pass aligned legal

theorem ensures_skipOptional {kind : Kind} (legal : kind ≠ .illegal) (base kept : List Token) :
    Rule.Ensures (Held finish stream edge base kept) (.skipOptional kind)
      (fun _ => Held finish stream edge base kept) (Stuck finish stream edge base) :=
  .skipOptional (fun _ held same => (held.advance aligned).pass aligned (same ▸ legal))
    fun _ held => held

/-! ## Expressions -/

theorem gathers_primary :
    Gathers finish stream edge (fun _ => True) .primary fun e => tokensIn e.nodes := by
  intro base kept token
  have stored (e : Expr) (own : tokensIn e.nodes = [token]) (legible : token.kind.legible = true) :
      Rule.Ensures
        (fun p => Fresh finish stream edge (base ++ kept) p ∧ p.current = token ∧ True)
        (pure e : Rule Expr)
        (fun e => Held finish stream edge base (kept ++ token :: tokensIn e.nodes))
        (Stuck finish stream edge base) := by
    refine .pure ?_
    rintro p ⟨fresh, rfl, -⟩
    refine (fresh.take aligned legible).subset ?_
    simp [own]
  refine .current_eq (fun p h => h.2.1) ?_
  dsimp only
  split
  · next kind =>
    split
    · exact stored _ rfl (by rw [kind]; rfl)
    · exact ensures_refusal (fun _ => True) _
  · next kind => exact stored _ rfl (by rw [kind]; rfl)
  · next kind => exact stored _ rfl (by rw [kind]; rfl)
  · next kind => exact stored _ rfl (by rw [kind]; rfl)
  · exact ensures_refusal (fun _ => True) _

theorem gathers_unary (h : level.Gathers finish stream edge) :
    Gathers finish stream edge (·.legible = true) (.unary level) fun e => tokensIn e.nodes := by
  intro base kept token
  refine .current_eq (fun p h => h.2.1) ?_
  refine ((ensures_advance aligned base _).weaken (held_of_start aligned fun _ => id)).bind
    fun _ => ?_
  refine ((h.expression .unary base _).bind) fun operand => .pure fun p held => held.subset ?_
  simp [Expr.nodes, Node.token, Expr.token]

/-- An operator stores itself between its operands. -/
theorem ensures_binary (h : level.Gathers finish stream edge) (left : Expr) (power : BindingPower)
    (base kept : List Token) :
    Rule.Ensures (fun p => Fresh finish stream edge (base ++ (kept ++ tokensIn left.nodes)) p ∧
        p.current.kind.legible = true) (.binary level left power)
      (fun e => Held finish stream edge base (kept ++ tokensIn e.nodes))
      (Stuck finish stream edge base) := by
  refine .current fun operator => ?_
  have started (p : Parser) (h : (Fresh finish stream edge (base ++ (kept ++ tokensIn left.nodes)) p ∧
      p.current.kind.legible = true) ∧ p.current = operator) :
      Held finish stream edge base (kept ++ tokensIn left.nodes ++ [operator]) p := by
    obtain ⟨⟨fresh, legible⟩, rfl⟩ := h
    exact fresh.take aligned legible
  refine ((ensures_advance aligned base _).weaken started).bind fun _ => ?_
  refine (h.expression power base _).bind fun right => .pure fun p held => held.subset ?_
  simp [Expr.nodes, Node.token, Expr.token]

theorem gathers_group (h : level.Gathers finish stream edge) :
    Gathers finish stream edge (·.legible = true) (.group level) fun e => tokensIn e.nodes := by
  intro base kept token
  refine ((ensures_advance aligned base _).weaken (held_of_start aligned fun _ => id)).bind
    fun _ => ?_
  refine (h.expression .lowest base _).bind fun inner => ?_
  refine (ensures_pass aligned (by decide) base _).bind fun _ => .pure fun p held => held.subset ?_
  simp

theorem ensures_nextBlock (h : level.Gathers finish stream edge) (base kept : List Token) :
    Rule.Ensures (Held finish stream edge base kept) (.nextBlock level)
      (fun b => Held finish stream edge base (kept ++ tokensIn b.nodes))
      (Stuck finish stream edge base) :=
  (ensures_expect aligned .lbrace base kept).bind fun _ => h.block.anywhere base kept

theorem gathers_cond (h : level.Gathers finish stream edge) :
    Gathers finish stream edge (·.legible = true) (.cond level) fun e => tokensIn e.nodes := by
  intro base kept token
  refine .current_eq (fun p h => h.2.1) ?_
  refine ((ensures_pass aligned (by decide) base _).weaken
    (held_of_start aligned fun _ => id)).bind fun _ => ?_
  refine (ensures_advance aligned base _).bind fun _ => ?_
  refine (h.expression .lowest base _).bind fun condition => ?_
  refine (ensures_pass aligned (by decide) base _).bind fun _ => ?_
  refine (ensures_nextBlock aligned h base _).bind fun consequence => ?_
  refine .peek fun next => ?_
  split
  · next otherwise =>
    refine (ensures_skip aligned (by simp [otherwise]) base _).bind fun _ => ?_
    refine (ensures_nextBlock aligned h base _).bind fun alternative =>
      .pure fun p held => held.subset ?_
    simp [Expr.nodes, Node.token, Expr.token]
  · refine .pure fun p held => held.1.subset ?_
    simp [Expr.nodes, Node.token, Expr.token]

theorem ensures_nextParam (base kept : List Token) :
    Rule.Ensures (Held finish stream edge base kept) .nextParam
      (fun name => Held finish stream edge base (kept ++ [name.token]))
      (Stuck finish stream edge base) := by
  refine (ensures_expect aligned .ident base kept).bind fun _ => ?_
  refine .current fun token => .pure ?_
  rintro p ⟨⟨fresh, kind⟩, rfl⟩
  exact fresh.take aligned (by rw [kind]; rfl)

/-- The parameters after the first one, each after a comma. -/
theorem ensures_moreParams (first : List Ident) (base kept : List Token) :
    Rule.Ensures (Held finish stream edge base (kept ++ first.map Ident.token))
      (.repeatWhile (· == .comma) rfl (fun names => return names ++ [← Rule.nextParam]) first)
      (fun names => Held finish stream edge base (kept ++ names.map Ident.token))
      (Stuck finish stream edge base) := by
  have param (names : List Ident) : Rule.Ensures
      (fun q => ∃ p, Held finish stream edge base (kept ++ names.map Ident.token) p ∧
        (p.peek.kind == .comma) = true ∧ q = p.advance)
      (do return names ++ [← Rule.nextParam])
      (fun names => Held finish stream edge base (kept ++ names.map Ident.token))
      (Stuck finish stream edge base) := by
    refine ((ensures_nextParam aligned base (kept ++ names.map Ident.token)).weaken ?_).bind
      fun name => .pure fun p held => ?_
    · rintro q ⟨p, held, comma, rfl⟩
      refine (held.advance aligned).pass aligned ?_
      change p.peek.kind ≠ _
      simp [beq_iff_eq.mp comma]
    · simpa using held
  exact .repeatWhile (· == .comma) rfl param first

theorem ensures_params (base kept : List Token) :
    Rule.Ensures (Held finish stream edge base kept) .params
      (fun names => Held finish stream edge base (kept ++ names.map Ident.token))
      (Stuck finish stream edge base) := by
  refine .peek fun next => ?_
  split
  · next closes =>
    exact (ensures_skip aligned (by simp [closes]) base _).bind fun _ =>
      .pure fun p held => held.subset (by simp)
  · refine ((ensures_nextParam aligned base kept).weaken fun _ h => h.1).bind fun first => ?_
    refine (ensures_moreParams aligned [first] base kept).bind fun names => ?_
    exact (ensures_pass aligned (by decide) base _).bind fun _ => .pure fun p held => held

theorem gathers_func (h : level.Gathers finish stream edge) :
    Gathers finish stream edge (·.legible = true) (.func level) fun e => tokensIn e.nodes := by
  intro base kept token
  refine .current_eq (fun p h => h.2.1) ?_
  refine ((ensures_pass aligned (by decide) base _).weaken
    (held_of_start aligned fun _ => id)).bind fun _ => ?_
  refine (ensures_params aligned base _).bind fun names => ?_
  refine (ensures_nextBlock aligned h base _).bind fun body => .pure fun p held => held.subset ?_
  simp [Expr.nodes, Node.token, Expr.token]

theorem gathers_operand (h : level.Gathers finish stream edge) :
    Gathers finish stream edge (fun _ => True) (.operand level) fun e => tokensIn e.nodes := by
  intro base kept token
  refine .current_eq (fun p h => h.2.1) ?_
  cases form : Grammar.standard.operand token.kind with
  | none => exact ensures_refusal (fun _ => True) _
  | some form' =>
    have legible := Kind.legible_of_operand form
    cases form' with
    | primary => exact gathers_primary aligned base kept token
    | unary => exact (gathers_unary aligned h).of_kind legible base kept
    | group => exact (gathers_group aligned h).of_kind legible base kept
    | cond => exact (gathers_cond aligned h).of_kind legible base kept
    | func => exact (gathers_func aligned h).of_kind legible base kept

theorem ensures_operators (h : level.Gathers finish stream edge) (power : BindingPower) (left : Expr)
    (base kept : List Token) :
    Rule.Ensures (Held finish stream edge base (kept ++ tokensIn left.nodes))
      (.operators level power left)
      (fun e => Held finish stream edge base (kept ++ tokensIn e.nodes))
      (Stuck finish stream edge base) := by
  have operation (left : Expr) : Rule.Ensures
      (fun q => ∃ p, Held finish stream edge base (kept ++ tokensIn left.nodes) p ∧
        Rule.continues power p.peek.kind = true ∧ q = p.advance)
      (do Rule.binary level left (Grammar.standard.power (← Rule.current).kind))
      (fun e => Held finish stream edge base (kept ++ tokensIn e.nodes))
      (Stuck finish stream edge base) := by
    refine .current fun operator => (ensures_binary aligned h left _ base kept).weaken ?_
    rintro q ⟨⟨p, held, more, rfl⟩, -⟩
    exact ⟨held.advance aligned, Kind.legible_of_continues more⟩
  exact .repeatWhile (Rule.continues power) _ operation left

theorem gathers_expression (h : level.Gathers finish stream edge) (power : BindingPower) :
    Gathers finish stream edge (fun _ => True) (.expression level power)
      fun e => tokensIn e.nodes := by
  intro base kept token
  refine (gathers_operand aligned h base kept token).bind fun left => ?_
  refine ((ensures_operators aligned h power left base (kept ++ [token])).weaken ?_).relax ?_
  · intro p held
    simpa using held
  · intro e p held
    simpa using held

/-! ## Statements -/

theorem gathers_binding (h : level.Gathers finish stream edge) :
    Gathers finish stream edge (·.legible = true) (.binding level) fun s => tokensIn s.nodes := by
  intro base kept token
  refine .current_eq (fun p h => h.2.1) ?_
  refine ((ensures_expect aligned .ident base _).weaken
    (held_of_start aligned fun _ => id)).bind fun _ => ?_
  refine .current fun name => ?_
  refine ((ensures_pass aligned (by decide) base (kept ++ [token] ++ [name])).weaken ?_).bind
    fun _ => ?_
  · rintro p ⟨⟨fresh, kind⟩, rfl⟩
    exact fresh.take aligned (by rw [kind]; rfl)
  refine (ensures_advance aligned base _).bind fun _ => ?_
  refine (h.expression .lowest base _).bind fun value => ?_
  refine (ensures_skipOptional aligned (by decide) base _).bind fun _ =>
    .pure fun p held => held.subset ?_
  simp [Stmt.nodes, Node.token, Stmt.token, Ident.ofToken]

theorem gathers_returning (h : level.Gathers finish stream edge) :
    Gathers finish stream edge (·.legible = true) (.returning level) fun s => tokensIn s.nodes := by
  intro base kept token
  refine .current_eq (fun p h => h.2.1) ?_
  refine ((ensures_advance aligned base _).weaken (held_of_start aligned fun _ => id)).bind
    fun _ => ?_
  refine (h.expression .lowest base _).bind fun value => ?_
  refine (ensures_skipOptional aligned (by decide) base _).bind fun _ =>
    .pure fun p held => held.subset ?_
  simp [Stmt.nodes, Node.token, Stmt.token]

theorem gathers_expressionStatement (h : level.Gathers finish stream edge) :
    Gathers finish stream edge (fun _ => True) (.expressionStatement level)
      fun s => tokensIn s.nodes := by
  intro base kept token
  refine .current_eq (fun p h => h.2.1) ?_
  refine (h.expr .lowest base kept token).bind fun expression => ?_
  refine (ensures_skipOptional aligned (by decide) base _).bind fun _ =>
    .pure fun p held => held.subset ?_
  simp [Stmt.nodes, Node.token, Stmt.token]

theorem gathers_statement (h : level.Gathers finish stream edge) :
    Gathers finish stream edge (fun _ => True) (.statement level) fun s => tokensIn s.nodes := by
  intro base kept token
  refine .current_eq (fun p h => h.2.1) ?_
  cases form : Grammar.standard.statement token.kind with
  | none => exact gathers_expressionStatement aligned h base kept token
  | some form' =>
    have legible := Kind.legible_of_statement form
    cases form' with
    | bind => exact (gathers_binding aligned h).of_kind legible base kept
    | ret => exact (gathers_returning aligned h).of_kind legible base kept

/-- Statements store tokens and recovery passes over some, and neither gets into the other's way. -/
theorem fresh_statements (h : level.Gathers finish stream edge) {p : Parser}
    (fresh : Fresh finish stream edge base p) :
    Fresh finish stream edge (base ++ tokensIn (nodesOf (p.statements level).1))
      (p.statements level).2 := by
  fun_induction Parser.statements level p generalizing base with
  | case1 p ends => simpa [nodesOf] using fresh
  | case2 p ends statement q tried rest r eq ih =>
    have one := (gathers_statement aligned h).anywhere base []
    have held := one.of_ok ⟨by simpa using fresh, trivial⟩ tried
    rw [eq] at ih
    simpa [nodesOf] using ih (held.advance aligned)
  | case3 p ends d q tried ih =>
    have one := (gathers_statement aligned h).anywhere base []
    have stuck := one.of_error ⟨by simpa using fresh, trivial⟩ tried
    exact ih (stuck.recover aligned)

theorem gathers_block (h : level.Gathers finish stream edge) :
    Gathers finish stream edge (· = .lbrace) (.block level) fun b => tokensIn b.nodes := by
  intro base kept token p start
  have legible (kind : Kind) (same : kind = .lbrace) : kind.legible = true := same ▸ rfl
  have opened : Fresh finish stream edge (base ++ (kept ++ [token])) p.advance.openBlock :=
    ((held_of_start aligned legible p start).advance aligned).congr rfl rfl rfl
  have read := fresh_statements aligned h opened
  have ends := Parser.endsBody_statements level p.advance.openBlock
  obtain ⟨-, rfl, -⟩ := start
  change Held _ _ _ _ _ (p.advance.openBlock.statements level).2.closeBlock
  refine Held.congr (p := (p.advance.openBlock.statements level).2) ?_ rfl rfl rfl
  rw [List.append_assoc] at read
  refine (read.pass aligned (Parser.ne_illegal_of_endsBody ends)).subset ?_
  simp [Block.nodes, Node.token, Block.token]

/-- **Every rule keeps a ledger**, at every level of nesting. -/
theorem gathers (depth : Nat) : (Level.of depth).Gathers finish stream edge := by
  induction depth with
  | zero =>
    have refused {α : Type} {test : Kind → Prop} {taken : α → List Token} :
        Gathers finish stream edge test .tooDeep taken := by
      intro base kept token
      exact .current_eq (fun p h => h.2.1) (ensures_refusal _ _)
    exact ⟨fun _ => refused, refused⟩
  | succ depth ih =>
    have nested {α : Type} {test : Kind → Prop} {taken : α → List Token} {r : Rule α}
        (h : Gathers finish stream edge test r taken) :
        Gathers finish stream edge test (.nested r) taken := by
      intro base kept token
      refine (h base kept token).nested ?_ (fun _ _ held => held.congr rfl rfl rfl)
        fun _ _ stuck => stuck.congr rfl rfl rfl
      exact fun p ⟨fresh, start⟩ => ⟨fresh.congr rfl rfl rfl, start⟩
    exact ⟨fun power => nested (gathers_expression aligned ih power),
      nested (gathers_block aligned ih)⟩

end

/-! ## Parses -/

/-- A skip in the words of the log. -/
def Skip.lines (skip : Skip) : List String :=
  [skip.diagnostic.message ++ " at " ++ Text.decimal skip.diagnostic.position.offset,
    "resynchronised from " ++ Text.decimal skip.start ++ " to " ++ Text.decimal skip.stop]

/-- The ledger of a parse. -/
theorem ledger_parse (text : String) (file : Option String) :
    let stream := (Lexer.ofText text file).tokens
    let finish := (Lexer.ofText text file).finish
    let parsed := parse text file
    ∃ skips place, parsed.diagnostics = skips.map Skip.diagnostic ∧
      parsed.events.toList.filter (·.severity = .debug) = skips.flatMap Skip.records ∧
      skips.Pairwise (fun s t => s.stop ≤ t.start) ∧
      (∀ s ∈ skips, s.Sound finish stream (IsEdge text.toList) place) ∧
      Clear skips place (tokensIn parsed.program.nodes) := by
  intro stream finish parsed
  let start := (Parser.ofText text file).note (.started (Parser.ofText text file).position.file)
  have aligned := Lexer.aligned_ofText text file
  have fresh : Fresh finish stream (IsEdge text.toList) [] start := by
    refine ⟨[], stream, ⟨rfl, List.suffix_rfl, rfl, rfl, .nil, by simp⟩, .nil _ _, ?_⟩
    exact aligned.edge_first
  obtain ⟨skips, tokens, ledger, clear, -⟩ :=
    fresh_statements aligned (gathers aligned maxDepth) fresh
  refine ⟨skips, _, ledger.diagnostics, ?_, ledger.ordered, ledger.sound, clear⟩
  change ((start.statements (.of maxDepth)).2.events.push (.finished _ _)).toList.filter _ = _
  rw [Array.toList_push, List.filter_append, ledger.log]
  simp [Event.severity]

/-- **Recovery is accounted for.** The debug lines of the log are two for each diagnostic, in order:
its message and position, and from where to where recovery passed over the source. What was passed
over begins no later than the diagnostic, the parts follow one another, and no token of the program
starts in one of them. -/
theorem recovery_accounted (text : String) (file : Option String) :
    let parsed := parse text file
    ∃ skips : List Skip, parsed.diagnostics = skips.map Skip.diagnostic ∧
      (parsed.events.toList.filter (·.severity = .debug)).map Event.text =
        skips.flatMap Skip.lines ∧
      (∀ s ∈ skips, s.start ≤ s.stop ∧ s.start ≤ s.diagnostic.position.offset) ∧
      skips.Pairwise (fun s t => s.stop ≤ t.start) ∧
      ∀ node ∈ parsed.program.nodes, ∀ s ∈ skips, ¬ s.Covers node.token := by
  obtain ⟨skips, place, diagnostics, log, ordered, sound, clear⟩ := ledger_parse text file
  refine ⟨skips, diagnostics, ?_, fun s hs => ⟨(sound s hs).forward, (sound s hs).reported⟩,
    ordered, fun node mem => (clear _ (List.mem_map_of_mem mem)).2⟩
  rw [log, List.map_flatMap]
  rfl

end Monkey
