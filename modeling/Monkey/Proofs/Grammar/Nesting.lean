import Monkey.Program.Equality
import Monkey.Proofs.Grammar.Soundness
import Monkey.Proofs.Parser.Accounting

/-!
# What is inside a block

A block holds the statements that start between its braces, where the second brace is the token at
which its statements have ended. If no recovery stalls in between, that token is the brace that closes
the first one.

Results:
* `Derives.sited`: of the parts of a derived phrase, the statements inside a block are those between
  its braces.
* `Derives.balanced`: the phrases of a block close the braces that they open, if what is skipped
  between them does.
* `block_closing_exact`: where blocks stop in a parse, and which statements they hold.
-/

namespace Monkey

/-! ## Parts of a program -/

/-- A statement or a block, wherever it stands in a program. -/
inductive Part where
  | statement (statement : Stmt)
  | block (block : Block)
deriving DecidableEq

mutual

/-- The statements and blocks of an expression. -/
def Expr.parts : Expr → List Part
  | .ident _ | .int _ _ | .bool _ _ => []
  | .unary _ _ operand => operand.parts
  | .binary _ left _ right => left.parts ++ right.parts
  | .cond _ condition consequence none => condition.parts ++ consequence.parts
  | .cond _ condition consequence (some alternative) =>
    condition.parts ++ (consequence.parts ++ alternative.parts)
  | .func _ _ body => body.parts

/-- A statement and the statements and blocks of its value. -/
def Stmt.parts : Stmt → List Part
  | .bind token name value => .statement (.bind token name value) :: value.parts
  | .ret token value => .statement (.ret token value) :: value.parts
  | .expr token expression => .statement (.expr token expression) :: expression.parts

/-- A block and what is inside of it. -/
def Block.parts : Block → List Part
  | .mk token body => .block (.mk token body) :: partsOf body

/-- The statements and blocks of a list of statements. -/
def partsOf : List Stmt → List Part
  | [] => []
  | statement :: rest => statement.parts ++ partsOf rest

end

/-- The statements and blocks inside a block. -/
def Block.inside (b : Block) : List Part := partsOf b.body

/-- The statements and blocks of a program. -/
def Program.parts (program : Program) : List Part := partsOf program.statements

/-! ## Blocks and their statements -/

/-- No recovery stalls after a place, up to where some tokens start. -/
def Faultless (faults : List Nat) (place : Nat) (finish : Position) (stop : List Token) : Prop :=
  ∀ x ∈ faults, place < x → startOf finish stop < x

section

variable (stream : List Token) (finish : Position) (faults : List Nat)

/-- The statements of a block of a text end at the tokens `stop`. If no recovery stalls between the
opening brace and these, they begin with the brace that closes the block, or there is none. -/
structure Block.EndsAt (b : Block) (stop : List Token) : Prop where
  opens : b.token.kind = .lbrace
  ends : stop = [] ∨ lookahead stop = .rbrace
  braces : ∃ after, b.token :: after <:+ stream ∧ stop <:+ after ∧
    (Faultless faults b.token.start finish stop → stop = closing 0 after)

/-- A block in a range of a text, among other parts. The statements inside of it are those of the parts
that start between its opening brace and its end. -/
structure Block.SitedIn (lo hi : Nat) (parts : List Part) (b : Block) : Prop where
  le_start : lo ≤ b.token.start
  inside : b.inside ⊆ parts
  holds : ∃ stop, b.EndsAt stream finish faults stop ∧ startOf finish stop ≤ hi ∧
    ∀ s, .statement s ∈ parts → (.statement s ∈ b.inside ↔
      b.token.start < s.token.start ∧ s.token.start < startOf finish stop)

/-- Parts that start in a range. -/
structure Sited (lo hi : Nat) (parts : List Part) : Prop where
  le : lo ≤ hi
  statements : ∀ s, .statement s ∈ parts → lo ≤ s.token.start ∧ s.token.start < hi
  blocks : ∀ b, .block b ∈ parts → b.SitedIn stream finish faults lo hi parts

end

namespace Sited

variable {stream : List Token} {finish : Position} {faults : List Nat} {lo middle hi lo' hi' : Nat}
  {parts left right all : List Part}

/-- Statements that start outside of a range are inside none of its blocks. -/
theorem blocks_mono (h : Sited stream finish faults lo hi parts) (le : lo' ≤ lo) (ge : hi ≤ hi')
    (sub : parts ⊆ all) (others : ∀ s, .statement s ∈ all →
      .statement s ∈ parts ∨ s.token.start < lo ∨ hi ≤ s.token.start) {b : Block}
    (hb : .block b ∈ parts) : b.SitedIn stream finish faults lo' hi' all := by
  obtain ⟨start, inside, stop, ends, le_hi, iff⟩ := h.blocks b hb
  refine ⟨Nat.le_trans le start, List.Subset.trans inside sub, stop, ends, Nat.le_trans le_hi ge,
    fun s hs => ?_⟩
  rcases others s hs with hs | outside
  · exact iff s hs
  · refine iff_of_false (fun mem => ?_) fun between => ?_
    · have := h.statements s (inside mem)
      omega
    · omega

theorem nil (le : lo ≤ hi) : Sited stream finish faults lo hi [] where
  le := le
  statements := by simp
  blocks := by simp

theorem widen (h : Sited stream finish faults lo hi parts) (le : lo' ≤ lo) (ge : hi ≤ hi') :
    Sited stream finish faults lo' hi' parts where
  le := (le.trans h.le).trans ge
  statements s hs := by
    have := h.statements s hs
    omega
  blocks b hb := h.blocks_mono le ge (List.Subset.refl parts) (fun _ => .inl) hb

/-- What is sited in ranges one after another. -/
theorem append (h : Sited stream finish faults lo middle left)
    (k : Sited stream finish faults middle hi right) :
    Sited stream finish faults lo hi (left ++ right) where
  le := h.le.trans k.le
  statements s hs := by
    rcases List.mem_append.mp hs with hs | hs
    · exact (h.statements s hs).imp_right k.le.trans_lt'
    · exact (k.statements s hs).imp_left h.le.trans
  blocks b hb := by
    rcases List.mem_append.mp hb with hb | hb
    · refine h.blocks_mono (Nat.le_refl lo) k.le (List.subset_append_left left right) ?_ hb
      intro s hs
      exact (List.mem_append.mp hs).imp_right fun hs => .inr (k.statements s hs).1
    · refine k.blocks_mono h.le (Nat.le_refl hi) (List.subset_append_right left right) ?_ hb
      intro s hs
      exact (List.mem_append.mp hs).symm.imp_right fun hs => .inl (h.statements s hs).2

/-- The blocks of a value start after the statement. -/
theorem statement {s : Stmt} (h : Sited stream finish faults (s.token.start + 1) hi parts) :
    Sited stream finish faults s.token.start hi (.statement s :: parts) where
  le := Nat.le_of_succ_le h.le
  statements t ht := by
    rcases List.mem_cons.mp ht with eq | ht
    · cases eq
      exact ⟨Nat.le_refl _, h.le⟩
    · exact (h.statements t ht).imp_left Nat.le_of_succ_le
  blocks b hb := by
    have hb : Part.block b ∈ parts := by simpa using hb
    refine h.blocks_mono (Nat.le_succ _) (Nat.le_refl hi) (List.subset_cons_self _ parts) ?_ hb
    intro t ht
    rcases List.mem_cons.mp ht with eq | ht
    · cases eq
      exact .inr (.inl (Nat.lt_succ_self _))
    · exact .inl ht

/-- A block holds all that is sited between its braces. -/
theorem block {b : Block} {stop : List Token}
    (h : Sited stream finish faults lo (startOf finish stop) b.inside)
    (ends : b.EndsAt stream finish faults stop) (lt : b.token.start < lo)
    (ge : startOf finish stop ≤ hi) :
    Sited stream finish faults b.token.start hi (.block b :: b.inside) where
  le := (Nat.le_of_lt lt).trans (h.le.trans ge)
  statements s hs := by
    have := h.statements s (by simpa using hs)
    omega
  blocks c hc := by
    rcases List.mem_cons.mp hc with eq | hc
    · cases eq
      refine ⟨Nat.le_refl _, List.subset_cons_self _ _, stop, ends, ge, fun s hs => ?_⟩
      have hs : Part.statement s ∈ b.inside := by simpa using hs
      have := h.statements s hs
      exact iff_of_true hs ⟨by omega, this.2⟩
    · refine h.blocks_mono (Nat.le_of_lt lt) ge (List.subset_cons_self _ _) (fun s hs => ?_) hc
      exact .inl (by simpa using hs)

end Sited

/-! ## Derived phrases -/

theorem MoreParams.suffix {names : List Ident} {tokens rest : List Token}
    (h : MoreParams names tokens rest) : rest <:+ tokens := by
  induction h with
  | nil => exact List.suffix_rfl
  | cons _ _ _ ih => exact (ih.trans (List.suffix_cons _ _)).trans (List.suffix_cons _ _)

theorem Params.suffix {names : List Ident} {tokens rest : List Token}
    (h : Params names tokens rest) : rest <:+ tokens := by
  cases h with
  | none => exact List.suffix_cons _ _
  | some _ more =>
    exact ((List.suffix_cons _ _).trans more.suffix).trans (List.suffix_cons _ _)

theorem Terminator.suffix {tokens rest : List Token} (h : Terminator tokens rest) :
    rest <:+ tokens := by
  cases h with
  | present => exact List.suffix_cons _ _
  | absent => exact List.suffix_rfl

namespace Derives

variable {skipped : Scope → List Token → List Token → Prop} {depth : Nat} {phrase : Phrase}
  {tokens rest : List Token}

/-- What a phrase leaves is the end of where it starts. -/
theorem suffix (h : Derives skipped depth phrase tokens rest)
    (ahead : ∀ {scope tokens middle}, skipped scope tokens middle → middle <:+ tokens) :
    rest <:+ tokens := by
  induction h with
  | tier _ _ _ ih ih' => exact ih'.trans ih
  | stop => exact List.suffix_rfl
  | step _ _ _ ih ih' => exact (ih'.trans ih).trans (List.suffix_cons _ _)
  | ident => exact List.suffix_cons _ _
  | int => exact List.suffix_cons _ _
  | truth => exact List.suffix_cons _ _
  | falsity => exact List.suffix_cons _ _
  | unary _ _ ih => exact ih.trans (List.suffix_cons _ _)
  | group _ _ _ ih => exact ((List.suffix_cons _ _).trans ih).trans (List.suffix_cons _ _)
  | cond _ _ _ _ _ ih ih' =>
    exact ((ih'.trans (List.suffix_cons _ _)).trans ih).trans
      ((List.suffix_cons _ _).trans (List.suffix_cons _ _))
  | condElse _ _ _ _ _ _ _ ih ih' ih'' =>
    have body := (ih''.trans (List.suffix_cons _ _)).trans ih'
    exact ((body.trans (List.suffix_cons _ _)).trans ih).trans
      ((List.suffix_cons _ _).trans (List.suffix_cons _ _))
  | func _ _ params _ ih =>
    exact (ih.trans params.suffix).trans ((List.suffix_cons _ _).trans (List.suffix_cons _ _))
  | closed _ _ _ ih => exact ((List.suffix_cons _ _).trans ih).trans (List.suffix_cons _ _)
  | unclosed => exact List.nil_suffix
  | bind _ _ _ _ terminator ih =>
    exact (terminator.suffix.trans ih).trans (((List.suffix_cons _ _).trans
      (List.suffix_cons _ _)).trans (List.suffix_cons _ _))
  | ret _ _ terminator ih => exact (terminator.suffix.trans ih).trans (List.suffix_cons _ _)
  | expr _ terminator ih => exact terminator.suffix.trans ih
  | nil => exact List.suffix_rfl
  | cons _ _ ih ih' => exact ih'.trans ih
  | skip gap _ ih => exact ih.trans (ahead gap)

end Derives

/-! ## Braces -/

theorem Tier.plain_of_operators {tier : Tier} {kind : Kind} (h : tier.operators kind = true) :
    kind.plain = true := by
  cases tier <;> cases kind <;> first
    | rfl
    | cases h

theorem MoreParams.closing_eq {names : List Ident} {tokens rest : List Token}
    (h : MoreParams names tokens rest) (depth : Nat) : closing depth tokens = closing depth rest := by
  induction h with
  | nil => rfl
  | cons separator kind _ ih =>
    rw [closing_plain separator rfl, closing_plain kind rfl, ih]

theorem Params.closing_eq {names : List Ident} {tokens rest : List Token}
    (h : Params names tokens rest) (depth : Nat) : closing depth tokens = closing depth rest := by
  cases h with
  | none closes => rw [closing_plain closes rfl]
  | some kind more closes =>
    rw [closing_plain kind rfl, more.closing_eq, closing_plain closes rfl]

theorem Terminator.closing_eq {tokens rest : List Token} (h : Terminator tokens rest)
    (depth : Nat) : closing depth tokens = closing depth rest := by
  cases h with
  | present kind => exact closing_other (by simp [kind]) (by simp [kind])
  | absent => rfl

/-- What recovery skips between statements. In a block it closes the braces that it opens, if none of
the recoveries stalls there. -/
structure Gap (finish : Position) (faults : List Nat) (scope : Scope) (tokens middle : List Token) :
    Prop where
  suffix : middle <:+ tokens
  balanced : scope = .block → Numbered finish tokens →
    (∀ x ∈ faults, startOf finish tokens ≤ x → startOf finish middle < x) →
    ∀ depth, closing depth tokens = closing depth middle

/-- A phrase that may stand in a block. -/
def Phrase.InBlock : Phrase → Prop
  | .statements scope _ => scope = .block
  | _ => True

namespace Derives

variable {finish : Position} {faults : List Nat} {depth place : Nat} {phrase : Phrase}
  {outer last tokens rest : List Token}

/-- **The phrases of a block close the braces that they open**, up to where recovery stalls. -/
theorem balanced (h : Derives (Gap finish faults) depth phrase tokens rest)
    (numbered : Numbered finish outer) (lt : place < startOf finish outer)
    (clean : Faultless faults place finish last) (block : phrase.InBlock)
    (within : tokens <:+ outer) (before : last <:+ rest) (count : Nat) :
    closing count tokens = closing count rest := by
  -- the place and `last` stay where they are, so that every gap is in a range without stalls
  have later {token : Token} {tokens : List Token} (within : token :: tokens <:+ outer) :
      tokens <:+ outer := (List.suffix_cons _ _).trans within
  have earlier {token : Token} {tokens : List Token} (before : last <:+ tokens) :
      last <:+ token :: tokens := before.trans (List.suffix_cons _ _)
  induction h generalizing count with
  | tier _ first more ih ih' =>
    rw [ih trivial within (before.trans (more.suffix Gap.suffix)),
      ih' trivial ((first.suffix Gap.suffix).trans within) before]
  | stop => rfl
  | step kind operand more ih ih' =>
    rw [closing_plain rfl (Tier.plain_of_operators kind),
      ih trivial (later within) (before.trans (more.suffix Gap.suffix)),
      ih' trivial ((operand.suffix Gap.suffix).trans (later within)) before]
  | ident kind => rw [closing_plain kind rfl]
  | int kind => rw [closing_plain kind rfl]
  | truth kind => rw [closing_plain kind rfl]
  | falsity kind => rw [closing_plain kind rfl]
  | unary kind _ ih =>
    rcases kind with kind | kind
    · rw [closing_plain kind rfl, ih trivial (later within) before]
    · rw [closing_plain kind rfl, ih trivial (later within) before]
  | group opens _ closes ih =>
    rw [closing_plain opens rfl,
      ih trivial (later within) (earlier before), closing_plain closes rfl]
  | cond kind opens test closes body ih ih' =>
    have inner := later ((test.suffix Gap.suffix).trans (later (later within)))
    rw [closing_plain kind rfl, closing_plain opens rfl,
      ih trivial (later (later within)) (earlier (before.trans (body.suffix Gap.suffix))),
      closing_plain closes rfl, ih' trivial inner before]
  | condElse kind opens test closes body otherwise other ih ih' ih'' =>
    have inner := later ((test.suffix Gap.suffix).trans (later (later within)))
    have before' := before.trans (other.suffix Gap.suffix)
    rw [closing_plain kind rfl, closing_plain opens rfl,
      ih trivial (later (later within))
        (earlier ((earlier before').trans (body.suffix Gap.suffix))),
      closing_plain closes rfl, ih' trivial inner (earlier before'),
      closing_plain otherwise rfl,
      ih'' trivial (later ((body.suffix Gap.suffix).trans inner)) before]
  | func kind opens params _ ih =>
    rw [closing_plain kind rfl, closing_plain opens rfl, params.closing_eq,
      ih trivial (params.suffix.trans (later (later within))) before]
  | closed opens _ closes ih =>
    rw [closing_lbrace opens, ih rfl (later within) (earlier before), closing_rbrace count closes]
  | unclosed opens _ ih =>
    rw [closing_lbrace opens, ih rfl (later within) before, closing_nil, closing_nil]
  | bind kind named assigned _ terminator ih =>
    rw [closing_plain kind rfl, closing_plain named rfl,
      closing_plain assigned rfl,
      ih trivial (later (later (later within))) (before.trans terminator.suffix),
      terminator.closing_eq]
  | ret kind _ terminator ih =>
    rw [closing_plain kind rfl,
      ih trivial (later within) (before.trans terminator.suffix), terminator.closing_eq]
  | expr _ terminator ih =>
    rw [ih trivial within (before.trans terminator.suffix), terminator.closing_eq]
  | nil => rfl
  | cons first more ih ih' =>
    rw [ih trivial within (before.trans (more.suffix Gap.suffix)),
      ih' block ((first.suffix Gap.suffix).trans within) before]
  | skip gap more ih =>
    have inside := gap.suffix.trans within
    rw [gap.balanced block (numbered.suffix within) ?_, ih block inside before]
    intro x hx le
    have := clean x hx (lt.trans_le ((numbered.startOf_le within).trans le))
    exact ((numbered.suffix inside).startOf_le (before.trans (more.suffix Gap.suffix))).trans_lt this

end Derives

/-! ## Sites -/

section

variable (stream : List Token) (finish : Position) (faults : List Nat)

/-- The parts of a phrase start where it does or later, those of an expression later. Those of a chain
follow those of its left operand. -/
def Phrase.Sited : Phrase → List Token → List Token → Prop
  | .expr _ tree, tokens, rest => Monkey.Sited stream finish faults (startOf finish tokens + 1)
      (startOf finish rest) tree.parts
  | .chain _ left tree, tokens, rest => ∀ lo,
      Monkey.Sited stream finish faults lo (startOf finish tokens) left.parts →
      Monkey.Sited stream finish faults lo (startOf finish rest) tree.parts
  | .block tree, tokens, rest => Monkey.Sited stream finish faults (startOf finish tokens)
      (startOf finish rest) tree.parts
  | .statement tree, tokens, rest => Monkey.Sited stream finish faults (startOf finish tokens)
      (startOf finish rest) tree.parts
  | .statements _ trees, tokens, rest => Monkey.Sited stream finish faults
      (startOf finish tokens) (startOf finish rest) (partsOf trees)

end

namespace Derives

variable {stream : List Token} {finish : Position} {faults : List Nat} {depth : Nat}
  {phrase : Phrase} {tokens rest : List Token}

/-- A block holds the statements between its braces. -/
theorem sited_block {opening : Token} {body : List Stmt} {stop : List Token}
    (inner : Derives (Gap finish faults) depth (.statements .block body) tokens stop)
    (sited : (Phrase.statements .block body).Sited stream finish faults tokens stop)
    (numbered : Numbered finish (opening :: tokens)) (within : opening :: tokens <:+ stream)
    (opens : opening.kind = .lbrace) (ends : stop = [] ∨ lookahead stop = .rbrace)
    (suffix : rest <:+ stop) :
    (Phrase.block (.mk opening body)).Sited stream finish faults (opening :: tokens) rest := by
  have after : stop <:+ tokens := inner.suffix Gap.suffix
  refine Sited.block (b := .mk opening body) sited ⟨opens, ends, tokens, within, after, ?_⟩
    (numbered.lt_startOf List.suffix_rfl) ((numbered.tail.suffix after).startOf_le suffix)
  intro clean
  rw [inner.balanced numbered.tail (numbered.lt_startOf List.suffix_rfl) clean rfl List.suffix_rfl
    List.suffix_rfl]
  rcases ends with rfl | rbrace
  · rfl
  · cases stop with
    | nil => rfl
    | cons closing _ => rw [closing_zero rbrace]

/-- **The statements inside a block are those between its braces.** -/
theorem sited (h : Derives (Gap finish faults) depth phrase tokens rest)
    (numbered : Numbered finish tokens) (within : tokens <:+ stream) :
    phrase.Sited stream finish faults tokens rest := by
  have next {token : Token} {tokens : List Token} (numbered : Numbered finish (token :: tokens)) :
      token.start < startOf finish tokens := numbered.lt_startOf List.suffix_rfl
  have later {token : Token} {tokens : List Token} (within : token :: tokens <:+ stream) :
      tokens <:+ stream := (List.suffix_cons _ _).trans within
  induction h with
  | tier _ first _ ih ih' =>
    have after := first.suffix Gap.suffix
    exact ih' (numbered.suffix after) (after.trans within) _ (ih numbered within)
  | stop => exact fun lo left => left
  | step kind operand _ ih ih' =>
    intro lo left
    have after := operand.suffix Gap.suffix
    refine ih' (numbered.tail.suffix after) (after.trans (later within)) lo (left.append ?_)
    exact (ih numbered.tail (later within)).widen ((next numbered).le.trans (Nat.le_succ _)) le_rfl
  | ident => exact .nil (next numbered)
  | int => exact .nil (next numbered)
  | truth => exact .nil (next numbered)
  | falsity => exact .nil (next numbered)
  | unary _ _ ih =>
    exact (ih numbered.tail (later within)).widen (Nat.succ_le_succ (next numbered).le) le_rfl
  | group _ inner _ ih =>
    have after := inner.suffix Gap.suffix
    exact (ih numbered.tail (later within)).widen (Nat.succ_le_succ (next numbered).le)
      ((next (numbered.tail.suffix after)).le)
  | cond _ _ test _ body ih ih' =>
    have after := test.suffix Gap.suffix
    have numbered' := numbered.tail.tail.suffix after
    have within' := after.trans (later (later within))
    refine ((ih numbered.tail.tail (later (later within))).widen ?_ (next numbered').le).append
      (ih' numbered'.tail (later within'))
    exact Nat.succ_le_succ ((next numbered).le.trans (next numbered.tail).le)
  | condElse _ _ test _ body _ other ih ih' ih'' =>
    have after := test.suffix Gap.suffix
    have numbered' := numbered.tail.tail.suffix after
    have within' := after.trans (later (later within))
    have after' := body.suffix Gap.suffix
    have numbered'' := numbered'.tail.suffix after'
    have within'' := after'.trans (later within')
    refine ((ih numbered.tail.tail (later (later within))).widen ?_ (next numbered').le).append
      (((ih' numbered'.tail (later within')).widen le_rfl (next numbered'').le).append
        (ih'' numbered''.tail (later within'')))
    exact Nat.succ_le_succ ((next numbered).le.trans (next numbered.tail).le)
  | func _ _ params body ih =>
    have after := params.suffix
    refine (ih (numbered.tail.tail.suffix after) (after.trans (later (later within)))).widen ?_ le_rfl
    exact (next numbered).trans ((next numbered.tail).trans_le (numbered.tail.tail.startOf_le after))
  | closed opens inner closes ih =>
    exact sited_block inner (ih numbered.tail (later within)) numbered within opens (.inr closes)
      (List.suffix_cons _ _)
  | unclosed opens inner ih =>
    exact sited_block inner (ih numbered.tail (later within)) numbered within opens (.inl rfl)
      List.suffix_rfl
  | bind _ _ _ inner terminator ih =>
    have numbered' := numbered.tail.tail.tail
    have value := ih numbered' (later (later (later within)))
    refine Sited.statement (s := .bind _ _ _) (value.widen ?_ ?_)
    · exact Nat.succ_le_succ (((next numbered).le.trans (next numbered.tail).le).trans
        (next numbered.tail.tail).le)
    · exact (numbered'.suffix (inner.suffix Gap.suffix)).startOf_le terminator.suffix
  | ret _ inner terminator ih =>
    have value := ih numbered.tail (later within)
    refine Sited.statement (s := .ret _ _) (value.widen (Nat.succ_le_succ (next numbered).le) ?_)
    exact (numbered.tail.suffix (inner.suffix Gap.suffix)).startOf_le terminator.suffix
  | expr inner terminator ih =>
    refine Sited.statement (s := .expr _ _) ((ih numbered within).widen le_rfl ?_)
    exact (numbered.suffix (inner.suffix Gap.suffix)).startOf_le terminator.suffix
  | nil => exact .nil le_rfl
  | cons first more ih ih' =>
    have after := first.suffix Gap.suffix
    exact (ih numbered within).append (ih' (numbered.suffix after) (after.trans within))
  | skip gap more ih =>
    exact (ih (numbered.suffix gap.suffix) (gap.suffix.trans within)).widen
      (numbered.startOf_le gap.suffix) le_rfl

end Derives

/-! ## Parses -/

/-- The tokens of a text start one after another. -/
theorem Ascending.ofText (text : String) (file : Option String) :
    Ascending (Lexer.ofText text file).finish (Lexer.ofText text file).tokens where
  ordered := (Lexer.within_ofText text file).maximalMunch_tokens.ordered.imp And.right
  start_lt t ht := by
    rw [Lexer.finish_ofText]
    exact ((Lexer.within_ofText text file).maximalMunch_tokens.not_blank ht).1

/-- Without zero bytes none of them is an `eof`. -/
theorem Numbered.ofText {text : String} (zero_free : 0 ∉ Text.utf8 text) (file : Option String) :
    Numbered (Lexer.ofText text file).finish (Lexer.ofText text file).tokens where
  toAscending := .ofText text file
  not_eof _ := Lexer.kind_ne_eof zero_free file

/-- What recovery skips is some of the tokens. In a block it is balanced, if the log shows no stall
there. -/
theorem exists_gap {finish : Position} {faults : List Nat} {depth : Nat} {p q : Parser}
    {d : Diagnostic} {tokens : List Token} (before : p.Before finish tokens)
    (failed : (Rule.statement (.of depth)).run p = (.error d, q))
    (logged : stalls (q.recover d).events.toList ⊆ faults) :
    ∃ middle, (q.recover d).Before finish middle ∧ Gap finish faults p.scope tokens middle := by
  have ahead : p.Ahead (q.recover d) := by
    have statement := (Rule.statement (.of depth)).ahead p
    rw [failed] at statement
    exact statement.trans (Parser.ahead_recover q d)
  obtain ⟨count, stands⟩ := before.stands.ahead ahead
  have suffix : tokens.drop count <:+ tokens := List.drop_suffix count tokens
  have not_eof (t : Token) (ht : t ∈ tokens.drop count) : t.kind ≠ .eof :=
    before.not_eof t (suffix.subset ht)
  refine ⟨tokens.drop count, ⟨stands, not_eof⟩, suffix, fun scope numbered clean => ?_⟩
  have block : 0 < p.openBlocks := by
    refine Nat.pos_of_ne_zero fun zero => ?_
    rw [Parser.scope, if_pos zero] at scope
    cases scope
  obtain ⟨rest, missed, account⟩ := statement_account numbered before.stands block failed
  obtain rfl : rest = tokens.drop count := account.stands.unique stands account.not_eof not_eof
  have none : missed = [] := by
    refine List.eq_nil_iff_forall_not_mem.mpr fun x hx => ?_
    have listed : x ∈ faults := logged (account.stalls ▸ List.mem_append_right _ hx)
    have := account.places x hx
    have := clean x listed this.1
    omega
  rw [none] at account
  exact account.balance

/-- A parse of which the stalls are among some places. -/
def Reading.following (finish : Position) (faults : List Nat) : Reading where
  finish := finish
  skipped := Gap finish faults
  good p := stalls p.events.toList ⊆ faults
  earlier _ events logged := by
    obtain ⟨later, events⟩ := events
    rw [← events] at logged
    exact List.Subset.trans (stalls_subset_append _ later) logged
  gap before _ failed logged := exists_gap before failed logged

/-- **Where blocks stop in a parse, and which statements they hold.** Without zero bytes in the text,
a block stops at the brace that closes it, or at the end of input if none does, exactly if no recovery
inside of it has stalled or the input has ended. Whatever the errors, a block of the program holds the
statements that start between its opening brace and where it has stopped. That is the brace that
closes it, if no recovery stalls in between. -/
theorem block_closing_exact (text : String) (file : Option String)
    (zero_free : 0 ∉ Text.utf8 text) :
    let stream := (tokenize text file).dropLast
    let finish := (Lexer.ofText text file).finish
    let parsed := parse text file
    (∀ (depth : Nat) (p q : Parser) (tree : Block) (brace : Token) (after : List Token),
      brace :: after <:+ stream → p.At finish (brace :: after) →
      (Level.of depth).block.run p = (.ok tree, q) →
      (q.At finish (closing 0 after) ↔
        stalls q.events.toList = stalls p.events.toList ∨ q.current.kind = .eof)) ∧
    ∀ b, .block b ∈ parsed.program.parts → ∃ stop,
      b.EndsAt stream finish (stalls parsed.events.toList) stop ∧
      ∀ s, .statement s ∈ parsed.program.parts → (.statement s ∈ b.inside ↔
        b.token.start < s.token.start ∧ s.token.start < startOf finish stop) := by
  intro stream finish parsed
  have numbered : Numbered finish stream := by
    have tokens : stream = (Lexer.ofText text file).tokens := Lexer.dropLast_tokenize zero_free file
    rw [tokens]
    exact .ofText zero_free file
  constructor
  · intro depth p q tree brace after within stands run
    exact block_stops (numbered.suffix within).tail stands run
  · intro b hb
    let start := (Parser.ofText text file).note (.started (Parser.ofText text file).position.file)
    let final := start.statements (.of maxDepth)
    have before : start.Before finish stream := Parser.before_ofText zero_free file _
    have logged : stalls final.2.events.toList ⊆ stalls parsed.events.toList := by
      change _ ⊆ stalls (final.2.events.push _).toList
      rw [Array.toList_push]
      exact stalls_subset_append _ _
    obtain ⟨rest, -, derived⟩ := Reading.statements
      ((Reading.following finish (stalls parsed.events.toList)).sound maxDepth) before logged
    have sited := derived.sited numbered List.suffix_rfl
    obtain ⟨stop, ends, -, iff⟩ := (sited.blocks b hb).holds
    exact ⟨stop, ends, iff⟩

/-- A block with a statement that fails, in which no recovery stalls. -/
theorem block_closing_exact_failed_binding :
    let text := "fn() \x7b let = 1; x \x7d y"
    let stream := (tokenize text none).dropLast
    let finish := (Lexer.ofText text none).finish
    let parsed := parse text none
    0 ∉ Text.utf8 text ∧ parsed.diagnostics ≠ [] ∧ stalls parsed.events.toList = [] ∧
      (∃ (q : Parser) (tree : Block), q.At finish (closing 0 (stream.drop 4)) ∧
        (Level.of 2).block.run (.ofStream ⟨stream.drop 3, finish⟩) = (.ok tree, q)) ∧
      ∃ b after, .block b ∈ parsed.program.parts ∧ b.token :: after <:+ stream ∧ b.inside ≠ [] ∧
        ∀ s, .statement s ∈ parsed.program.parts → (.statement s ∈ b.inside ↔
          b.token.start < s.token.start ∧ s.token.start < startOf finish (closing 0 after)) := by
  intro text stream finish parsed
  have exact := block_closing_exact text none (by decide)
  have clean : stalls parsed.events.toList = [] := by decide +kernel
  let token (kind : Kind) (value : String) (start : Nat) : Token :=
    ⟨kind, value, ⟨start, "shell"⟩, ⟨start + 1, "shell"⟩⟩
  let x := token .ident "x" 16
  let b : Block := .mk (token .lbrace "\x7b" 5) [.expr x (.ident (.ofToken x))]
  refine ⟨by decide, by decide +kernel, clean, ?_, ?_⟩
  · have from_brace : stream.drop 3 = b.token :: stream.drop 4 := by decide +kernel
    let p : Parser := .ofStream ⟨stream.drop 3, finish⟩
    have run : (Level.of 2).block.run p = (.ok b, ((Level.of 2).block.run p).2) :=
      Prod.ext (by decide +kernel) rfl
    refine ⟨_, b, (exact.1 2 p _ b b.token _ ?_ ?_ run).mpr (.inl (by decide +kernel)), run⟩
    · rw [← from_brace]
      exact List.drop_suffix 3 stream
    · rw [← from_brace]
      exact .ofStream _ _
  · have hb : Part.block b ∈ parsed.program.parts := by decide +kernel
    obtain ⟨stop, ends, iff⟩ := exact.2 b hb
    obtain ⟨after, within, -, closes⟩ := ends.braces
    rw [closes fun x hx => absurd (clean ▸ hx) List.not_mem_nil] at iff
    exact ⟨b, after, hb, within, by decide, iff⟩

/-- A statement in a block fails on the token after a block of its own. The outer block ends with the
inner one, and `x`, which stands between its braces, is not inside. -/
theorem block_closes_early :
    let text := "fn() \x7b (fn() \x7b\x7d x \x7d"
    let parsed := parse text none
    let stream := (tokenize text none).dropLast
    ∃ b s after, .block b ∈ parsed.program.parts ∧ .statement s ∈ parsed.program.parts ∧
      b.token :: after <:+ stream ∧ .statement s ∉ b.inside ∧ b.token.start < s.token.start ∧
        s.token.start < startOf (Lexer.ofText text none).finish (closing 0 after) := by
  intro text parsed stream
  let token (kind : Kind) (value : String) (start : Nat) : Token :=
    ⟨kind, value, ⟨start, "shell"⟩, ⟨start + 1, "shell"⟩⟩
  let x := token .ident "x" 16
  refine ⟨.mk (token .lbrace "\x7b" 5) [], .expr x (.ident (.ofToken x)), stream.drop 4, ?_⟩
  decide +kernel

end Monkey
