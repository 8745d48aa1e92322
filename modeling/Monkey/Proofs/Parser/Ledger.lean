import Monkey.Proofs.Parser.Ensures
import Monkey.Proofs.Program.Nodes
import Monkey.Proofs.Source.Edge

/-!
# The ledger of recovery

Each diagnostic comes with a skip: the bytes that recovery passed over before it went on. A `Ledger`
is the list of them up to where a parser stands. It agrees with the diagnostics and with the log, and
its entries lie one after another, all of them behind the parser. That is so after a failure as well,
where the tree of the statement is lost and what was skipped inside it stays on record.

What has been read is `Clear` of the skips. While a rule runs, `base` are the tokens that were stored
before it began, and `kept` those that it has stored itself. If it fails then only the `base` is
needed, and recovery begins after that; if it succeeds, all of them are clear.

Results:
* `Fresh.take`, `Held.advance`, `Fresh.stop`, `Held.unexpected`: what a rule does to a ledger.
* `Stuck.recover`: recovery adds an entry.
-/

namespace Monkey

/-- A diagnostic, and from where to where recovery passed over the source. -/
structure Skip where
  diagnostic : Diagnostic
  start : Nat
  stop : Nat

namespace Skip

/-- What the log says of a skip. -/
def records (skip : Skip) : List Event :=
  [.failed skip.diagnostic, .resynchronised skip.start skip.stop]

/-- Whether a token starts in what was passed over. -/
def Covers (skip : Skip) (token : Token) : Prop :=
  skip.start ≤ token.start ∧ token.start < skip.stop

end Skip

/-- Kinds that have lexemes in ASCII. -/
def Kind.legible (kind : Kind) : Bool :=
  kind != .eof && kind != .illegal

theorem Kind.ne_of_legible {kind : Kind} (h : kind.legible = true) :
    kind ≠ .eof ∧ kind ≠ .illegal := by
  simpa [legible] using h

theorem Kind.legible_of_operand {kind : Kind} {form : OperandForm}
    (h : Grammar.standard.operand kind = some form) : kind.legible = true := by
  cases kind <;> cases h <;> rfl

theorem Kind.legible_of_statement {kind : Kind} {form : StatementForm}
    (h : Grammar.standard.statement kind = some form) : kind.legible = true := by
  cases kind <;> cases h <;> rfl

theorem Kind.legible_of_continues {power : BindingPower} {kind : Kind}
    (h : Rule.continues power kind = true) : kind.legible = true := by
  cases kind with
  | eof =>
    rw [Rule.continues_eof] at h
    cases h
  | illegal => simp [Rule.continues, Grammar.power, Grammar.standard, BindingPower.not_lt_lowest] at h
  | _ => rfl

/-! ## Clear tokens -/

/-- Tokens that start before a place, none of them in what was skipped. -/
def Clear (skips : List Skip) (place : Nat) (tokens : List Token) : Prop :=
  ∀ t ∈ tokens, t.start < place ∧ ∀ s ∈ skips, ¬ s.Covers t

namespace Clear

variable {skips : List Skip} {place later : Nat} {tokens others : List Token} {token : Token}

theorem nil (skips : List Skip) (place : Nat) : Clear skips place [] := by
  simp [Clear]

theorem mono (h : Clear skips place tokens) (le : place ≤ later) : Clear skips later tokens :=
  fun t ht => ⟨Nat.lt_of_lt_of_le (h t ht).1 le, (h t ht).2⟩

theorem subset (h : Clear skips place tokens) (fewer : others ⊆ tokens) : Clear skips place others :=
  fun t ht => h t (fewer ht)

theorem append (h : Clear skips place tokens) (k : Clear skips place others) :
    Clear skips place (tokens ++ others) :=
  fun t ht => (List.mem_append.mp ht).elim (h t) (k t)

/-- What is skipped after a token does not cover it. -/
theorem record (h : Clear skips place tokens) {skip : Skip} (le : place ≤ skip.start) :
    Clear (skips ++ [skip]) place tokens := by
  intro t ht
  refine ⟨(h t ht).1, fun s hs => ?_⟩
  rcases List.mem_append.mp hs with hs | hs
  · exact (h t ht).2 s hs
  · rw [List.mem_singleton.mp hs]
    exact fun covers => absurd (h t ht).1 (Nat.not_lt_of_le (le.trans covers.1))

/-- A token where all skips have ended is clear of them. -/
theorem single (behind : ∀ s ∈ skips, s.stop ≤ token.start) (lt : token.start < place) :
    Clear skips place [token] := by
  intro t ht
  rw [List.mem_singleton.mp ht]
  exact ⟨lt, fun s hs covers => absurd covers.2 (Nat.not_lt_of_le (behind s hs))⟩

end Clear

/-! ## Where recovery stops -/

section

variable {finish : Position} {stream tokens rest : List Token} {edge : Nat → Prop} {token : Token}
  {p q : Parser} {skips : List Skip}

theorem Kind.ne_illegal_of_beginsStatement {kind : Kind} (h : kind.beginsStatement = true) :
    kind ≠ .illegal := by
  rintro rfl
  cases h

theorem Parser.ne_illegal_of_endsBody (ends : p.endsBody = true) : p.current.kind ≠ .illegal := by
  intro illegal
  simp [endsBody, illegal] at ends

/-- Recovery stops at an edge, wherever it starts. -/
theorem Parser.At.skipStatement (aligned : Aligned finish stream edge) (stands : p.At finish tokens)
    (within : tokens <:+ stream) (braces : Nat) :
    ∃ rest, (p.skipStatement braces).At finish rest ∧ rest <:+ tokens ∧
      edge (startOf finish rest) := by
  have past (tokens : List Token) : tokens.tail <:+ tokens := List.tail_suffix tokens
  fun_induction Parser.skipStatement braces p generalizing tokens with
  | case1 braces p stops =>
    refine ⟨tokens, stands, List.suffix_rfl, aligned.edge_current within stands ?_⟩
    rcases stops with eof | ⟨-, ends⟩
    · simp [eof]
    · exact Parser.ne_illegal_of_endsBody ends
  | case2 braces p _ semicolon =>
    exact ⟨_, stands.advance, past tokens, aligned.edge_peek within stands (by simp [semicolon])⟩
  | case3 braces p _ _ left =>
    rename_i begins
    refine ⟨_, stands.advance, past tokens, ?_⟩
    exact aligned.edge_current ((past tokens).trans within) stands.advance
      (Kind.ne_illegal_of_beginsStatement begins.2)
  | case4 braces p _ _ left _ =>
    rename_i ih
    obtain ⟨rest, stands, suffix, edge⟩ := ih stands.advance ((past tokens).trans within)
    exact ⟨rest, stands, suffix.trans (past tokens), edge⟩

/-! ## Ledgers -/

/-- What is so of an entry when the parser has come to a place. -/
structure Skip.Sound (finish : Position) (stream : List Token) (edge : Nat → Prop) (place : Nat)
    (skip : Skip) : Prop where
  forward : skip.start ≤ skip.stop
  behind : skip.stop ≤ place
  reported : skip.start ≤ skip.diagnostic.position.offset
  token : ∃ t ∈ stream ++ [.endOfInput finish], t.span.start = skip.diagnostic.position
  edge : edge skip.diagnostic.position.offset

/-- The entries up to where a parser stands. -/
structure Ledger (finish : Position) (stream : List Token) (edge : Nat → Prop) (skips : List Skip)
    (tokens : List Token) (p : Parser) : Prop where
  stands : p.At finish tokens
  within : tokens <:+ stream
  diagnostics : p.diagnostics.toList = skips.map Skip.diagnostic
  log : p.events.toList.filter (·.severity = .debug) = skips.flatMap Skip.records
  ordered : skips.Pairwise fun s t => s.stop ≤ t.start
  sound : ∀ s ∈ skips, s.Sound finish stream edge (startOf finish tokens)

namespace Ledger

theorem congr (h : Ledger finish stream edge skips tokens p) (cursor : q.cursor = p.cursor)
    (diagnostics : q.diagnostics = p.diagnostics) (events : q.events = p.events) :
    Ledger finish stream edge skips tokens q where
  stands := cursor.trans h.stands
  within := h.within
  diagnostics := diagnostics ▸ h.diagnostics
  log := events ▸ h.log
  ordered := h.ordered
  sound := h.sound

theorem tail_within (h : Ledger finish stream edge skips tokens p) : tokens.tail <:+ stream :=
  (List.tail_suffix tokens).trans h.within

/-- Moving on adds no entry. -/
theorem advance (aligned : Aligned finish stream edge)
    (h : Ledger finish stream edge skips tokens p) :
    Ledger finish stream edge skips tokens.tail p.advance where
  stands := h.stands.advance
  within := h.tail_within
  diagnostics := h.diagnostics
  log := by
    change (p.events.push (.lexed _)).toList.filter _ = _
    rw [Array.toList_push, List.filter_append, h.log]
    simp [Event.severity]
  ordered := h.ordered
  sound s hs :=
    { h.sound s hs with
      behind := (h.sound s hs).behind.trans
        (aligned.startOf_le h.within (List.tail_suffix tokens)) }

/-- Recovery adds one. -/
theorem recover (aligned : Aligned finish stream edge)
    (h : Ledger finish stream edge skips tokens p) {d : Diagnostic}
    (reported : startOf finish tokens ≤ d.position.offset)
    (token : ∃ t ∈ stream ++ [.endOfInput finish], t.span.start = d.position)
    (at_edge : edge d.position.offset) :
    ∃ rest stop, Ledger finish stream edge (skips ++ [⟨d, startOf finish tokens, stop⟩]) rest
        (p.recover d) ∧ startOf finish tokens ≤ startOf finish rest ∧ edge (startOf finish rest) := by
  have recorded : (p.record d).At finish tokens := h.stands
  obtain ⟨rest, stands, suffix, lands⟩ := recorded.skipStatement aligned h.within 0
  have stands : (p.recover d).At finish rest := stands
  have le := aligned.startOf_le h.within suffix
  obtain ⟨taken, log, -⟩ := Parser.events_recover p d
  refine ⟨rest, startOf finish rest, ⟨stands, suffix.trans h.within, ?_, ?_, ?_, ?_⟩, le, lands⟩
  · rw [p.diagnostics_recover d]
    change (p.diagnostics.push d).toList = _
    rw [Array.toList_push, h.diagnostics, List.map_append]
    rfl
  · rw [log, List.filter_append, h.log, h.stands.offset, stands.offset, List.flatMap_append]
    simp [Event.severity, Skip.records, List.filter_map, Function.comp_def]
  · refine List.pairwise_append.mpr ⟨h.ordered, List.pairwise_singleton _ _, fun s hs t ht => ?_⟩
    rw [List.mem_singleton.mp ht]
    exact (h.sound s hs).behind
  · intro s hs
    rcases List.mem_append.mp hs with hs | hs
    · exact { h.sound s hs with behind := (h.sound s hs).behind.trans le }
    · rw [List.mem_singleton.mp hs]
      exact ⟨le, Nat.le_refl _, reported, token, at_edge⟩

end Ledger

/-! ## What a rule does to a ledger -/

section

variable (finish stream edge)

/-- The current token is still to be read. -/
def Fresh (base : List Token) (p : Parser) : Prop :=
  ∃ skips tokens, Ledger finish stream edge skips tokens p ∧
    Clear skips (startOf finish tokens) base ∧ edge (startOf finish tokens)

/-- The current token has been read, and `kept` is stored. -/
def Held (base kept : List Token) (p : Parser) : Prop :=
  ∃ skips tokens, Ledger finish stream edge skips tokens p ∧
    Clear skips (startOf finish tokens) base ∧ Clear skips (startOf finish tokens.tail) kept ∧
    edge (startOf finish tokens.tail)

/-- A rule has failed at the current token or the next one. -/
def Stuck (base : List Token) (d : Diagnostic) (p : Parser) : Prop :=
  ∃ skips tokens, Ledger finish stream edge skips tokens p ∧
    Clear skips (startOf finish tokens) base ∧
    ∃ rest, (rest = tokens ∨ rest = tokens.tail) ∧ d.position = (firstOf finish rest).span.start ∧
      edge (startOf finish rest)

end

variable {base kept : List Token}

theorem start_firstOf (finish : Position) (tokens : List Token) :
    (firstOf finish tokens).start = startOf finish tokens := by
  cases tokens <;> rfl

namespace Fresh

/-- A token is read and stored. -/
theorem take (aligned : Aligned finish stream edge) (h : Fresh finish stream edge (base ++ kept) p)
    (legible : p.current.kind.legible = true) :
    Held finish stream edge base (kept ++ [p.current]) p := by
  obtain ⟨skips, tokens, ledger, clear, -⟩ := h
  obtain ⟨eof, illegal⟩ := Kind.ne_of_legible legible
  obtain ⟨rest, rfl⟩ := ledger.stands.exists_cons eof
  have lt := (aligned.toAscending.suffix ledger.within).lt_startOf List.suffix_rfl
  have behind (s : Skip) (hs : s ∈ skips) : s.stop ≤ p.current.start := (ledger.sound s hs).behind
  refine ⟨skips, _, ledger, clear.subset (List.subset_append_left _ _), ?_,
    aligned.edge_peek ledger.within ledger.stands illegal⟩
  exact ((clear.subset (List.subset_append_right _ _)).mono lt.le).append (.single behind lt)

/-- A token is read and not stored. -/
theorem pass (aligned : Aligned finish stream edge) (h : Fresh finish stream edge (base ++ kept) p)
    (legal : p.current.kind ≠ .illegal) : Held finish stream edge base kept p := by
  obtain ⟨skips, tokens, ledger, clear, -⟩ := h
  have le := aligned.startOf_le ledger.within (List.tail_suffix tokens)
  exact ⟨skips, tokens, ledger, clear.subset (List.subset_append_left _ _),
    (clear.subset (List.subset_append_right _ _)).mono le,
    aligned.edge_peek ledger.within ledger.stands legal⟩

/-- A rule stops at the current token. -/
theorem stop (h : Fresh finish stream edge (base ++ kept) p) (cause : Cause) :
    Stuck finish stream edge base ⟨cause, p.position⟩ p := by
  obtain ⟨skips, tokens, ledger, clear, at_edge⟩ := h
  exact ⟨skips, tokens, ledger, clear.subset (List.subset_append_left _ _), tokens, .inl rfl,
    congrArg (·.span.start) ledger.stands.current_eq, at_edge⟩

theorem congr (h : Fresh finish stream edge base p) (cursor : q.cursor = p.cursor)
    (diagnostics : q.diagnostics = p.diagnostics) (events : q.events = p.events) :
    Fresh finish stream edge base q := by
  obtain ⟨skips, tokens, ledger, rest⟩ := h
  exact ⟨skips, tokens, ledger.congr cursor diagnostics events, rest⟩

end Fresh

namespace Held

theorem subset {others : List Token} (h : Held finish stream edge base kept p)
    (fewer : others ⊆ kept) : Held finish stream edge base others p := by
  obtain ⟨skips, tokens, ledger, clear, clear', at_edge⟩ := h
  exact ⟨skips, tokens, ledger, clear, clear'.subset fewer, at_edge⟩

theorem advance (aligned : Aligned finish stream edge) (h : Held finish stream edge base kept p) :
    Fresh finish stream edge (base ++ kept) p.advance := by
  obtain ⟨skips, tokens, ledger, clear, clear', at_edge⟩ := h
  have le := aligned.startOf_le ledger.within (List.tail_suffix tokens)
  exact ⟨skips, tokens.tail, ledger.advance aligned, (clear.mono le).append clear', at_edge⟩

/-- A rule stops before the next token. -/
theorem unexpected (h : Held finish stream edge base kept p) (cause : Cause) :
    Stuck finish stream edge base ⟨cause, p.peek.span.start⟩ p := by
  obtain ⟨skips, tokens, ledger, clear, -, at_edge⟩ := h
  exact ⟨skips, tokens, ledger, clear, tokens.tail, .inr rfl,
    congrArg (·.span.start) ledger.stands.advance.current_eq, at_edge⟩

theorem congr (h : Held finish stream edge base kept p) (cursor : q.cursor = p.cursor)
    (diagnostics : q.diagnostics = p.diagnostics) (events : q.events = p.events) :
    Held finish stream edge base kept q := by
  obtain ⟨skips, tokens, ledger, rest⟩ := h
  exact ⟨skips, tokens, ledger.congr cursor diagnostics events, rest⟩

end Held

namespace Stuck

theorem congr {d : Diagnostic} (h : Stuck finish stream edge base d p) (cursor : q.cursor = p.cursor)
    (diagnostics : q.diagnostics = p.diagnostics) (events : q.events = p.events) :
    Stuck finish stream edge base d q := by
  obtain ⟨skips, tokens, ledger, rest⟩ := h
  exact ⟨skips, tokens, ledger.congr cursor diagnostics events, rest⟩

/-- Recovery puts the skip on record, and what was stored before is clear of it. -/
theorem recover (aligned : Aligned finish stream edge) {d : Diagnostic}
    (h : Stuck finish stream edge base d p) : Fresh finish stream edge base (p.recover d) := by
  obtain ⟨skips, tokens, ledger, clear, rest, about, position, at_edge⟩ := h
  have suffix : rest <:+ tokens := by
    rcases about with rfl | rfl
    · exact List.suffix_rfl
    · exact List.tail_suffix tokens
  have offset : d.position.offset = startOf finish rest := by
    rw [position]
    exact start_firstOf finish rest
  have reported : startOf finish tokens ≤ d.position.offset :=
    offset ▸ aligned.startOf_le ledger.within suffix
  have token : ∃ t ∈ stream ++ [.endOfInput finish], t.span.start = d.position :=
    ⟨_, firstOf_mem (suffix.trans ledger.within), position.symm⟩
  obtain ⟨after, stop, ledger, le, lands⟩ :=
    ledger.recover aligned reported token (offset ▸ at_edge)
  exact ⟨_, after, ledger, (clear.record (Nat.le_refl _)).mono le, lands⟩

end Stuck

end

end Monkey
