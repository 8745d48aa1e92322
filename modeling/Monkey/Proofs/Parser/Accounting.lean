import Monkey.Proofs.Lexing.MaximalMunch
import Monkey.Proofs.Parser.Simulation
import Monkey.Proofs.Parser.Standing

/-!
# Accounting for braces

`closing` matches braces in a list of tokens, without a parser. Reading a block keeps account of
them, with one exception. Where a statement fails on the token after a closing brace that a block
inside it has used, recovery takes that brace for the one of the enclosing block and skips nothing: a
stall. From there on the parser has a block less open than there are braces. The log of a parse shows
each stall, so it shows how many braces the parser is short of.

Results:
* `accounting`: the account, as a simulation of a parse by itself.
* `Account.recover`, `Account.stall`: recovery keeps the account, or stalls and misses a brace.
* `block_stops`: a block stops at the brace that closes it, exactly if no recovery in it has stalled
  or the input has ended.
-/

namespace Monkey

/-! ## Matching braces -/

/-- The tokens from the brace on that closes the innermost of the braces open before them, when
`depth` more have been opened since. -/
def closing (depth : Nat) : List Token → List Token
  | [] => []
  | token :: rest =>
    if token.kind = .rbrace ∧ depth = 0 then token :: rest
    else closing (token.kind.bracesAfter depth) rest

section

variable {token : Token} {tokens : List Token} {depth : Nat}

theorem closing_nil (depth : Nat) : closing depth [] = [] := rfl

theorem closing_cons (h : ¬ (token.kind = .rbrace ∧ depth = 0)) :
    closing depth (token :: tokens) = closing (token.kind.bracesAfter depth) tokens := by
  rw [closing, if_neg h]

theorem closing_zero (h : token.kind = .rbrace) : closing 0 (token :: tokens) = token :: tokens := by
  rw [closing, if_pos ⟨h, rfl⟩]

theorem closing_rbrace (depth : Nat) (h : token.kind = .rbrace) :
    closing (depth + 1) (token :: tokens) = closing depth tokens := by
  rw [closing_cons (fun k => Nat.succ_ne_zero depth k.2), h]
  rfl

theorem closing_lbrace (h : token.kind = .lbrace) :
    closing depth (token :: tokens) = closing (depth + 1) tokens := by
  rw [closing_cons (fun k => by rw [k.1] at h; cases h), h]
  rfl

theorem closing_other (lbrace : token.kind ≠ .lbrace) (rbrace : token.kind ≠ .rbrace) :
    closing depth (token :: tokens) = closing depth tokens := by
  rw [closing_cons (fun k => rbrace k.1), Kind.bracesAfter_other lbrace rbrace]

theorem closing_plain {kind : Kind} (same : token.kind = kind) (plain : kind.plain = true)
    (depth : Nat) (tokens : List Token) : closing depth (token :: tokens) = closing depth tokens := by
  obtain ⟨lbrace, rbrace, -⟩ := Kind.ne_of_plain plain
  rw [← same] at lbrace rbrace
  exact closing_other lbrace rbrace

theorem closing_suffix (depth : Nat) (tokens : List Token) : closing depth tokens <:+ tokens := by
  induction tokens generalizing depth with
  | nil => exact List.suffix_rfl
  | cons token rest ih =>
    rw [closing]
    split
    · exact List.suffix_rfl
    · exact (ih _).trans (List.suffix_cons token rest)

/-- What closes another brace comes after a brace that closes the innermost one. -/
theorem closing_succ_ne (h : token.kind = .rbrace) :
    closing (depth + 1) (token :: tokens) ≠ token :: tokens := by
  rw [closing_rbrace depth h]
  intro same
  have := (closing_suffix depth tokens).length_le
  rw [same, List.length_cons] at this
  omega

end

/-! ## Stalls -/

/-- Where recoveries of a log skip nothing and yet are about a token further on. -/
def stalls : List Event → List Nat
  | .failed diagnostic :: .resynchronised start stop :: rest =>
    (if start = stop ∧ diagnostic.position.offset ≠ start then [start] else []) ++ stalls rest
  | _ :: rest => stalls rest
  | [] => []

/-- A log that goes on with anything but the end of a recovery has the stalls of its parts. -/
theorem stalls_append (log : List Event) {event : Event} (later : List Event)
    (h : ∀ start stop, event ≠ .resynchronised start stop) :
    stalls (log ++ event :: later) = stalls log ++ stalls (event :: later) := by
  fun_induction stalls log with
  | case1 diagnostic start stop rest ih =>
    rw [List.cons_append, List.cons_append, stalls, ih, List.append_assoc]
  | case2 first rest other ih =>
    rw [← ih, List.cons_append, stalls]
    rintro diagnostic start stop rest' rfl eq
    cases rest with
    | nil => exact h start stop (List.cons.inj eq).1
    | cons second rest =>
      obtain ⟨rfl, -⟩ := List.cons.inj eq
      exact other diagnostic start stop rest rfl rfl
  | case3 => rfl

theorem stalls_push (events : Array Event) {event : Event}
    (h : ∀ start stop, event ≠ .resynchronised start stop) :
    stalls (events.push event).toList = stalls events.toList := by
  rw [Array.toList_push, stalls_append _ _ h]
  cases event <;> exact List.append_nil _

theorem stalls_subset_cons (first : Event) (rest : List Event) :
    stalls rest ⊆ stalls (first :: rest) := by
  generalize eq : first :: rest = log
  fun_cases stalls log with
  | case1 diagnostic start stop later =>
    cases eq
    exact List.subset_append_right _ _
  | case2 first rest =>
    cases eq
    exact List.Subset.refl _
  | case3 => cases eq

/-- A log that goes on keeps its stalls. -/
theorem stalls_subset_append (log later : List Event) : stalls log ⊆ stalls (log ++ later) := by
  fun_induction stalls log with
  | case1 diagnostic start stop rest ih =>
    exact List.append_subset.mpr ⟨List.subset_append_left _ _,
      List.Subset.trans ih (List.subset_append_right _ _)⟩
  | case2 first rest other ih => exact List.Subset.trans ih (stalls_subset_cons first _)
  | case3 => exact List.nil_subset _

namespace Parser

variable {p : Parser}

theorem stalls_advance (p : Parser) :
    stalls p.advance.events.toList = stalls p.events.toList :=
  stalls_push p.events (by simp)

theorem stalls_record (p : Parser) (d : Diagnostic) :
    stalls (p.record d).events.toList = stalls p.events.toList :=
  stalls_push p.events (by simp)

/-- Skipping adds the tokens that it takes to the log, and it takes one if it moves. -/
theorem events_skipStatement (braces : Nat) (p : Parser) : ∃ taken : List Token,
    (p.skipStatement braces).events.toList = p.events.toList ++ taken.map .lexed ∧
      (taken = [] → p.skipStatement braces = p) := by
  have advance (p : Parser) : p.advance.events.toList =
      p.events.toList ++ [p.cursor.stream.head].map .lexed :=
    Array.toList_push
  fun_induction skipStatement braces p with
  | case1 => exact ⟨[], (List.append_nil _).symm, fun _ => rfl⟩
  | case2 braces p => exact ⟨_, advance p, fun none => by cases none⟩
  | case3 braces p => exact ⟨_, advance p, fun none => by cases none⟩
  | case4 braces p _ _ left _ ih =>
    obtain ⟨taken, log, -⟩ := ih
    refine ⟨p.cursor.stream.head :: taken, ?_, fun none => by cases none⟩
    rw [log, advance, List.append_assoc, ← List.map_append]
    rfl

theorem events_recover (p : Parser) (d : Diagnostic) : ∃ taken : List Token,
    (p.recover d).events.toList = p.events.toList ++ .failed d ::
        (taken.map .lexed ++ [.resynchronised p.position.offset (p.recover d).position.offset]) ∧
      (taken = [] → (p.record d).skipStatement 0 = p.record d) := by
  obtain ⟨taken, log, stays⟩ := events_skipStatement 0 (p.record d)
  refine ⟨taken, ?_, stays⟩
  change (((p.record d).skipStatement 0).events.push _).toList = _
  rw [Array.toList_push, log]
  change (p.events.push _).toList ++ _ ++ _ = _
  rw [Array.toList_push, List.append_assoc, List.append_assoc]
  rfl

/-- Where statements end recovery skips nothing. It stalls if the diagnostic is about another token. -/
theorem stalls_recover_of_endsBody (ends : p.endsBody = true) (d : Diagnostic) :
    (p.recover d).cursor = p.cursor ∧ stalls (p.recover d).events.toList =
      stalls p.events.toList ++
        if d.position.offset = p.position.offset then [] else [p.position.offset] := by
  have stays : (p.record d).skipStatement 0 = p.record d := by
    rw [skipStatement, if_pos (.inr ⟨rfl, ends⟩)]
  have cursor : (p.recover d).cursor = p.cursor := by
    change ((p.record d).skipStatement 0).cursor = _
    rw [stays]
    rfl
  have log : (p.recover d).events.toList = p.events.toList ++
      [.failed d, .resynchronised p.position.offset p.position.offset] := by
    change (((p.record d).skipStatement 0).events.push (.resynchronised _
      ((p.record d).skipStatement 0).position.offset)).toList = _
    rw [stays, Array.toList_push]
    change (p.events.push _).toList ++ _ = _
    rw [Array.toList_push, List.append_assoc]
    rfl
  refine ⟨cursor, ?_⟩
  rw [log, stalls_append _ _ (by simp)]
  simp only [stalls, ne_eq, true_and, List.append_nil, ite_not]

/-- Elsewhere it skips a token, and does not stall. -/
theorem stalls_recover_of_not_endsBody (goes_on : p.endsBody = false) (d : Diagnostic) :
    stalls (p.recover d).events.toList = stalls p.events.toList := by
  obtain ⟨taken, log, stays⟩ := events_recover p d
  cases taken with
  | nil =>
    have less := remaining_skipStatement_lt (p := p.record d) goes_on
    rw [stays rfl] at less
    exact absurd less (Nat.lt_irrefl _)
  | cons token taken =>
    rw [log, stalls_append _ _ (by simp)]
    have none (taken : List Token) (start stop : Nat) :
        stalls (taken.map .lexed ++ [.resynchronised start stop]) = [] := by
      induction taken with
      | nil => rfl
      | cons token taken ih => exact ih
    exact (congrArg _ (none (token :: taken) _ _)).trans (List.append_nil _)

end Parser

/-! ## Positions -/

/-- Where tokens start, before the end of input. -/
def startOf (finish : Position) : List Token → Nat
  | [] => finish.offset
  | token :: _ => token.start

theorem Parser.At.offset {finish : Position} {tokens : List Token} {p : Parser}
    (h : p.At finish tokens) : p.position.offset = startOf finish tokens := by
  cases tokens with
  | nil =>
    rw [Parser.position, h.current_nil]
    rfl
  | cons token rest =>
    rw [Parser.position, h.current]
    rfl

/-- Tokens that start one after another before the end of input. -/
structure Ascending (finish : Position) (tokens : List Token) : Prop where
  ordered : tokens.Pairwise fun t u => t.start < u.start
  start_lt : ∀ t ∈ tokens, t.start < finish.offset

namespace Ascending

variable {finish : Position} {token : Token} {tokens rest : List Token}

theorem suffix (h : Ascending finish tokens) (suffix : rest <:+ tokens) : Ascending finish rest where
  ordered := h.ordered.sublist suffix.sublist
  start_lt t ht := h.start_lt t (suffix.subset ht)

theorem lt_startOf (h : Ascending finish (token :: tokens)) (suffix : rest <:+ tokens) :
    token.start < startOf finish rest := by
  cases rest with
  | nil => exact h.start_lt token List.mem_cons_self
  | cons next rest =>
    exact (List.pairwise_cons.mp h.ordered).1 next (suffix.subset List.mem_cons_self)

theorem startOf_le (h : Ascending finish tokens) (suffix : rest <:+ tokens) :
    startOf finish tokens ≤ startOf finish rest := by
  cases tokens with
  | nil => exact Nat.le_of_eq (congrArg _ (List.suffix_nil.mp suffix).symm)
  | cons token tokens =>
    rcases List.suffix_cons_iff.mp suffix with rfl | suffix
    · exact Nat.le_refl _
    · exact Nat.le_of_lt (h.lt_startOf suffix)

theorem startOf_le_start (h : Ascending finish tokens) (mem : token ∈ tokens) :
    startOf finish tokens ≤ token.start := by
  obtain ⟨earlier, later, rfl⟩ := List.append_of_mem mem
  exact h.startOf_le (List.suffix_append earlier (token :: later))

end Ascending

/-- Ascending tokens, none of them an `eof`. -/
structure Numbered (finish : Position) (tokens : List Token) : Prop
    extends Ascending finish tokens where
  not_eof : ∀ t ∈ tokens, t.kind ≠ .eof

namespace Numbered

variable {finish : Position} {token : Token} {tokens rest : List Token}

theorem suffix (h : Numbered finish tokens) (suffix : rest <:+ tokens) : Numbered finish rest where
  toAscending := h.toAscending.suffix suffix
  not_eof t ht := h.not_eof t (suffix.subset ht)

theorem tail (h : Numbered finish (token :: tokens)) : Numbered finish tokens :=
  h.suffix (List.suffix_cons token tokens)

end Numbered

/-! ## The account -/

/-- The account of a parser that stands at `tokens` and has been followed from the tokens `first` on.
There `blocks` blocks were open and recoveries had stalled at `lost`; since then `inner` more blocks
are open, and at `missed` braces were taken for those of blocks around them. -/
structure Account (finish : Position) (first : List Token) (blocks : Nat) (lost : List Nat)
    (tokens : List Token) (inner : Nat) (missed : List Nat) (p : Parser) : Prop where
  stands : p.At finish tokens
  numbered : Numbered finish first
  suffix : tokens <:+ first
  openBlocks : p.openBlocks = blocks + inner
  stalls : stalls p.events.toList = lost ++ missed
  places : ∀ x ∈ missed, startOf finish first ≤ x ∧ x ≤ startOf finish tokens
  balance : ∀ depth, closing depth first = closing (depth + inner + missed.length) tokens

namespace Account

variable {finish : Position} {first tokens rest : List Token} {token : Token}
  {blocks inner inner' : Nat} {lost missed : List Nat} {p q : Parser}

theorem begin (numbered : Numbered finish tokens) (stands : p.At finish tokens) :
    Account finish tokens p.openBlocks (Monkey.stalls p.events.toList) tokens 0 [] p where
  stands := stands
  numbered := numbered
  suffix := List.suffix_rfl
  openBlocks := rfl
  stalls := (List.append_nil _).symm
  places := by simp
  balance _ := rfl

theorem not_eof (h : Account finish first blocks lost tokens inner missed p) :
    ∀ t ∈ tokens, t.kind ≠ .eof :=
  (h.numbered.suffix h.suffix).not_eof

/-- Moving on without a stall, over tokens that open and close as many braces as blocks. -/
theorem onward (h : Account finish first blocks lost tokens inner missed p)
    (stands : q.At finish rest) (suffix : rest <:+ tokens) (openBlocks : q.openBlocks = blocks + inner')
    (events : Monkey.stalls q.events.toList = Monkey.stalls p.events.toList)
    (balance : ∀ depth, closing (depth + inner) tokens = closing (depth + inner') rest) :
    Account finish first blocks lost rest inner' missed q where
  stands := stands
  numbered := h.numbered
  suffix := suffix.trans h.suffix
  openBlocks := openBlocks
  stalls := events.trans h.stalls
  places x hx := ⟨(h.places x hx).1,
    Nat.le_trans (h.places x hx).2 ((h.numbered.suffix h.suffix).startOf_le suffix)⟩
  balance depth := by rw [h.balance, Nat.add_right_comm, balance, Nat.add_right_comm]

/-- Nothing but the cursor, the blocks and the log matters. -/
theorem congr (h : Account finish first blocks lost tokens inner missed p)
    (cursor : q.cursor = p.cursor) (openBlocks : q.openBlocks = p.openBlocks)
    (events : Monkey.stalls q.events.toList = Monkey.stalls p.events.toList) :
    Account finish first blocks lost tokens inner missed q :=
  h.onward (cursor.trans h.stands) List.suffix_rfl (openBlocks.trans h.openBlocks) events fun _ => rfl

/-- A token that is no brace does not matter. -/
theorem advance (h : Account finish first blocks lost (token :: tokens) inner missed p)
    (lbrace : token.kind ≠ .lbrace) (rbrace : token.kind ≠ .rbrace) :
    Account finish first blocks lost tokens inner missed p.advance :=
  h.onward h.stands.advance (List.suffix_cons _ _) h.openBlocks p.stalls_advance
    fun _ => closing_other lbrace rbrace

theorem openBlock (h : Account finish first blocks lost (token :: tokens) inner missed p)
    (lbrace : token.kind = .lbrace) :
    Account finish first blocks lost tokens (inner + 1) missed p.advance.openBlock :=
  h.onward h.stands.advance (List.suffix_cons _ _) (congrArg (· + 1) h.openBlocks) p.stalls_advance
    fun _ => closing_lbrace lbrace

theorem closeBlock (h : Account finish first blocks lost (token :: tokens) (inner + 1) missed p)
    (rbrace : token.kind = .rbrace) :
    Account finish first blocks lost tokens inner missed p.closeBlock.advance :=
  h.onward h.stands.advance (List.suffix_cons _ _) (congrArg (· - 1) h.openBlocks) p.stalls_advance
    fun depth => closing_rbrace (depth + inner) rbrace

/-- Skipping counts the braces that it skips, and stops where it has closed them. -/
theorem skipStatement (h : Account finish first blocks lost tokens inner missed p)
    (block : 0 < p.openBlocks) : ∃ rest, (p.skipStatement 0).At finish rest ∧ rest <:+ tokens ∧
      ∀ depth, closing (depth + inner) tokens = closing (depth + inner) rest := by
  have numbered := h.numbered.suffix h.suffix
  refine Parser.related_skipStatement
    (fun braces p q => q = p ∧ 0 < p.openBlocks ∧ ∃ rest, p.At finish rest ∧ rest <:+ tokens ∧
      ∀ depth, closing (depth + inner) tokens = closing (depth + inner + braces) rest)
    (fun p _ => ∃ rest, p.At finish rest ∧ rest <:+ tokens ∧
      ∀ depth, closing (depth + inner) tokens = closing (depth + inner) rest)
    ?kind ?endsBody ?peek ?skip ?semicolon ?stop (q := p)
    ⟨rfl, block, tokens, h.stands, List.suffix_rfl, fun _ => rfl⟩
  case kind =>
    rintro braces p _ ⟨rfl, -⟩
    rfl
  case endsBody =>
    rintro braces p _ ⟨rfl, -⟩
    rfl
  case peek =>
    rintro braces p _ ⟨rfl, -⟩ _ _ _
    rfl
  case skip =>
    rintro braces p _ ⟨rfl, block, rest, stands, suffix, balance⟩ eof goes_on -
    cases rest with
    | nil => exact absurd (by rw [stands.current_nil]; rfl) eof
    | cons token rest =>
      rw [stands.current] at eof ⊢
      have opened : token.kind = .rbrace → 0 < braces := fun rbrace =>
        Nat.pos_of_ne_zero fun zero =>
          goes_on ⟨zero, by simp [Parser.endsBody, stands.current, rbrace, block]⟩
      refine ⟨rfl, block, rest, stands.advance, (List.suffix_cons _ _).trans suffix,
        fun depth => ?_⟩
      rw [balance, closing_cons fun k => by have := opened k.1; omega]
      congr 1
      unfold Kind.bracesAfter
      split
      · omega
      · have := opened ‹_›
        omega
      · rfl
  case semicolon =>
    rintro p _ ⟨rfl, block, rest, stands, suffix, balance⟩ semicolon
    cases rest with
    | nil =>
      rw [stands.current_nil] at semicolon
      cases semicolon
    | cons token rest =>
      rw [stands.current] at semicolon
      refine ⟨rest, stands.advance, (List.suffix_cons _ _).trans suffix, fun depth => ?_⟩
      rw [balance, closing_other (by simp [semicolon]) (by simp [semicolon]),
        Nat.add_zero]
  case stop =>
    rintro braces p _ ⟨rfl, block, rest, stands, suffix, balance⟩ (rfl | eof)
    · exact ⟨rest, stands, suffix, balance⟩
    · cases rest with
      | nil => exact ⟨[], stands, suffix, balance⟩
      | cons token rest =>
        rw [stands.current] at eof
        exact absurd eof (numbered.not_eof token (suffix.subset List.mem_cons_self))

/-- Recovery from a diagnostic about the current token keeps the account. -/
theorem recover (h : Account finish first blocks lost tokens inner missed p)
    (block : 0 < p.openBlocks) {d : Diagnostic} (here : p.endsBody = true → d.position = p.position) :
    ∃ rest, Account finish first blocks lost rest inner missed (p.recover d) := by
  have openBlocks := (Parser.ahead_recover p d).openBlocks_eq
  cases ends : p.endsBody with
  | true =>
    obtain ⟨cursor, log⟩ := Parser.stalls_recover_of_endsBody ends d
    rw [here ends, if_pos rfl, List.append_nil] at log
    exact ⟨tokens, h.congr cursor openBlocks log⟩
  | false =>
    have recorded : Account finish first blocks lost tokens inner missed (p.record d) :=
      h.congr rfl rfl (p.stalls_record d)
    obtain ⟨rest, stands, suffix, balance⟩ := recorded.skipStatement block
    exact ⟨rest, h.onward stands suffix (openBlocks.trans h.openBlocks)
      (Parser.stalls_recover_of_not_endsBody ends d) balance⟩

/-- A recovery that stalls takes the brace it stands at for that of a block around. -/
theorem stall (h : Account finish first blocks lost tokens inner missed p.advance)
    (stands : p.At finish (token :: tokens)) (suffix : token :: tokens <:+ first)
    (places : ∀ x ∈ missed, x ≤ token.start) (rbrace : token.kind = .rbrace)
    (block : 0 < p.openBlocks) {d : Diagnostic} (next : d.position.offset ≠ p.position.offset) :
    Account finish first blocks lost (token :: tokens) inner
      (missed ++ [token.start]) (p.recover d) := by
  have ends : p.endsBody = true := by simp [Parser.endsBody, stands.current, rbrace, block]
  have openBlocks := (Parser.ahead_recover p d).openBlocks_eq
  obtain ⟨cursor, log⟩ := Parser.stalls_recover_of_endsBody ends d
  rw [if_neg next, stands.offset, ← p.stalls_advance, h.stalls, List.append_assoc] at log
  refine ⟨cursor.trans stands, h.numbered, suffix, openBlocks.trans h.openBlocks, log, ?_, ?_⟩
  · intro x hx
    rcases List.mem_append.mp hx with hx | hx
    · exact ⟨(h.places x hx).1, places x hx⟩
    · rw [List.mem_singleton.mp hx]
      exact ⟨h.numbered.startOf_le suffix, Nat.le_refl _⟩
  · intro depth
    rw [h.balance, ← closing_rbrace (depth + inner + missed.length) rbrace, List.length_append]
    rfl

end Account

section

variable (finish : Position) (first : List Token) (blocks : Nat) (lost : List Nat)

/-- There is an account for the tokens to come. -/
def Accounted (p : Parser) : Prop :=
  ∃ tokens inner missed, Account finish first blocks lost tokens inner missed p

/-- There is an account for the tokens after the current one, which is the last token of a phrase. -/
inductive Settled (p : Parser) : Prop
  | ended {inner : Nat} {missed : List Nat}
      (account : Account finish first blocks lost [] inner missed p)
  | token {token : Token} {tokens : List Token} {inner : Nat} {missed : List Nat}
      (stands : p.At finish (token :: tokens)) (suffix : token :: tokens <:+ first)
      (lbrace : token.kind ≠ .lbrace) (places : ∀ x ∈ missed, x ≤ token.start)
      (account : Account finish first blocks lost tokens inner missed p.advance)

end

section

variable {finish : Position} {first tokens : List Token} {blocks inner : Nat}
  {lost missed : List Nat} {p q : Parser}

theorem Accounted.congr (h : Accounted finish first blocks lost p) (cursor : q.cursor = p.cursor)
    (openBlocks : q.openBlocks = p.openBlocks)
    (events : stalls q.events.toList = stalls p.events.toList) :
    Accounted finish first blocks lost q := by
  obtain ⟨tokens, inner, missed, account⟩ := h
  exact ⟨tokens, inner, missed, account.congr cursor openBlocks events⟩

/-- What stands at the end of input stays there. -/
theorem Account.advance_nil (h : Account finish first blocks lost [] inner missed p) :
    Account finish first blocks lost [] inner missed p.advance :=
  h.onward h.stands.advance List.suffix_rfl h.openBlocks p.stalls_advance fun _ => rfl

theorem Settled.advance (h : Settled finish first blocks lost p) :
    Accounted finish first blocks lost p.advance := by
  cases h with
  | ended account => exact ⟨_, _, _, account.advance_nil⟩
  | token _ _ _ _ account => exact ⟨_, _, _, account⟩

theorem Settled.leave (h : Settled finish first blocks lost p) :
    Settled finish first blocks lost p.leave := by
  cases h with
  | ended account => exact .ended (account.congr rfl rfl rfl)
  | token stands suffix lbrace places account =>
    exact .token stands suffix lbrace places (account.congr rfl rfl rfl)

theorem Accounted.settled (h : Accounted finish first blocks lost p)
    (plain : p.current.kind.plain = true) : Settled finish first blocks lost p := by
  obtain ⟨tokens, inner, missed, account⟩ := h
  cases tokens with
  | nil =>
    rw [account.stands.current_nil] at plain
    cases plain
  | cons token rest =>
    rw [account.stands.current] at plain
    obtain ⟨lbrace, rbrace, -⟩ := Kind.ne_of_plain plain
    exact .token account.stands account.suffix lbrace (fun x hx => (account.places x hx).2)
      (account.advance lbrace rbrace)

theorem Accounted.advance_semicolon (h : Accounted finish first blocks lost p)
    (semicolon : p.current.kind = .semicolon) : Accounted finish first blocks lost p.advance := by
  obtain ⟨tokens, inner, missed, account⟩ := h
  cases tokens with
  | nil =>
    rw [account.stands.current_nil] at semicolon
    cases semicolon
  | cons token rest =>
    rw [account.stands.current] at semicolon
    exact ⟨rest, inner, missed,
      account.advance (by simp [semicolon]) (by simp [semicolon])⟩

/-- A block that ends settles the brace that opened it. -/
theorem Accounted.closeBlock (h : Accounted finish first blocks lost p)
    (inside : blocks < p.openBlocks) (ends : p.endsBody = true) :
    Settled finish first blocks lost p.closeBlock := by
  obtain ⟨tokens, inner, missed, account⟩ := h
  obtain ⟨inner, rfl⟩ : ∃ outer, inner = outer + 1 := by
    have := account.openBlocks
    exact ⟨inner - 1, by omega⟩
  have before : p.Before finish tokens := ⟨account.stands, account.not_eof⟩
  cases tokens with
  | nil =>
    exact .ended (account.onward account.stands List.suffix_rfl (congrArg (· - 1) account.openBlocks)
      rfl fun _ => rfl)
  | cons token rest =>
    rcases before.nil_or_rbrace ends with nil | ⟨rbrace, -⟩
    · cases nil
    · rw [account.stands.current] at rbrace
      exact .token account.stands account.suffix (by simp [rbrace])
        (fun x hx => (account.places x hx).2) (account.closeBlock rbrace)

/-- Recovery from a diagnostic about the next token stalls at a closing brace, and only there. -/
theorem Settled.recover (h : Settled finish first blocks lost p) (block : 0 < p.openBlocks)
    {d : Diagnostic} (next : d.position = p.peek.span.start) :
    Accounted finish first blocks lost (p.recover d) := by
  cases h with
  | ended account =>
    have here : d.position = p.position := by
      rw [next, Parser.position, account.stands.current_nil]
      exact congrArg (·.span.start) account.stands.advance.current_nil
    obtain ⟨rest, account⟩ := account.recover block fun _ => here
    exact ⟨rest, _, _, account⟩
  | @token token tokens inner missed stands suffix lbrace places account =>
    have numbered := account.numbered.suffix suffix
    by_cases rbrace : token.kind = .rbrace
    · have apart : d.position.offset ≠ p.position.offset := by
        have peek : p.peek.span.start.offset = startOf finish tokens := account.stands.offset
        rw [next, peek, stands.offset]
        exact Nat.ne_of_gt (numbered.lt_startOf List.suffix_rfl)
      exact ⟨_, _, _, account.stall stands suffix places rbrace block apart⟩
    · have before : Account finish first blocks lost (token :: tokens) inner missed p :=
        ⟨stands, account.numbered, suffix, account.openBlocks,
          p.stalls_advance.symm.trans account.stalls,
          fun x hx => ⟨(account.places x hx).1, places x hx⟩,
          fun depth => by rw [account.balance, closing_other lbrace rbrace]⟩
      have goes_on : p.endsBody = false := by
        simp [Parser.endsBody, stands.current, rbrace, numbered.not_eof token List.mem_cons_self]
      obtain ⟨rest, account⟩ := before.recover block fun ends => by simp [goes_on] at ends
      exact ⟨rest, _, _, account⟩

end

/-- The account of a parse inside a block, as a simulation by itself. -/
def accounting (finish : Position) (first : List Token) (blocks : Nat) (lost : List Nat)
    (inside : 0 < blocks) : Simulation where
  token := id
  fresh p q := p = q ∧ Accounted finish first blocks lost p
  held p q := p = q ∧ Settled finish first blocks lost p
  ended p q := p = q ∧ Accounted finish first blocks lost p.advance
  between p q := p = q ∧ Accounted finish first blocks lost p
  stuck d e p q := d = e ∧ p = q ∧
    (d.position = p.position ∧ Accounted finish first blocks lost p ∨
      d.position = p.peek.span.start ∧ Settled finish first blocks lost p)
  scope := (blocks ≤ ·)
  floor := blocks
  kind_token := Token.kind_id
  value_token := Token.value_id
  scope_succ _ le := Nat.le_succ_of_le le
  floor_le := by
    rintro p _ ⟨-, _, inner, _, account⟩
    exact account.openBlocks ▸ Nat.le_add_right blocks inner
  current := by
    rintro p _ ⟨rfl, -⟩
    rfl
  openBlocks := by
    rintro p _ ⟨rfl, -⟩
    rfl
  peek := by
    rintro p _ ⟨rfl, -⟩
    rfl
  hold := by
    rintro p _ ⟨rfl, h⟩ plain
    exact ⟨rfl, h.settled plain⟩
  advance := by
    rintro p _ ⟨rfl, h⟩
    exact ⟨rfl, h.advance⟩
  enter := by
    rintro p _ ⟨rfl, h⟩
    exact ⟨rfl, h.congr rfl rfl rfl⟩
  leave := by
    rintro p _ ⟨rfl, h⟩
    exact ⟨rfl, h.leave⟩
  leave_stuck := by
    rintro d _ p _ ⟨rfl, rfl, ⟨here, h⟩ | ⟨next, h⟩⟩
    · exact ⟨rfl, rfl, .inl ⟨here, h.congr rfl rfl rfl⟩⟩
    · exact ⟨rfl, rfl, .inr ⟨next, h.leave⟩⟩
  blame := by
    rintro p _ cause ⟨rfl, h⟩ -
    exact ⟨rfl, rfl, .inl ⟨rfl, h⟩⟩
  unexpected := by
    rintro p _ kind ⟨rfl, h⟩ -
    exact ⟨rfl, rfl, .inr ⟨rfl, h⟩⟩
  openBlock := by
    rintro p _ ⟨rfl, tokens, inner, missed, account⟩ brace
    refine ⟨rfl, ?_⟩
    cases tokens with
    | nil =>
      rw [account.stands.current_nil] at brace
      cases brace
    | cons token rest =>
      rw [account.stands.current] at brace
      exact ⟨rest, inner + 1, missed, account.openBlock brace⟩
  endsBody := by
    rintro p _ ⟨rfl, -⟩
    rfl
  start h _ := h
  closeBlock := by
    rintro p _ ⟨rfl, h⟩ below ends
    exact ⟨rfl, h.closeBlock below ends⟩
  settle := by
    rintro p _ ⟨rfl, h⟩ -
    exact ⟨rfl, h.advance⟩
  semicolon := by
    rintro p _ ⟨rfl, h⟩ semicolon
    exact ⟨rfl, h.advance.advance_semicolon semicolon⟩
  next := by
    rintro p _ ⟨rfl, h⟩ -
    exact ⟨rfl, h⟩
  recover := by
    rintro d _ p _ ⟨rfl, rfl, h⟩ scope
    have block : 0 < p.openBlocks := Nat.lt_of_lt_of_le inside scope
    refine ⟨rfl, ?_⟩
    rcases h with ⟨here, tokens, inner, missed, account⟩ | ⟨next, h⟩
    · obtain ⟨rest, account⟩ := account.recover block fun _ => here
      exact ⟨rest, inner, missed, account⟩
    · exact h.recover block next

/-- A statement in a block that fails keeps the account, recovery included. -/
theorem statement_account {finish : Position} {tokens : List Token} {depth : Nat} {p q : Parser}
    {d : Diagnostic} (numbered : Numbered finish tokens) (stands : p.At finish tokens)
    (block : 0 < p.openBlocks) (run : (Rule.statement (.of depth)).run p = (.error d, q)) :
    ∃ rest missed, Account finish tokens p.openBlocks (stalls p.events.toList) rest 0 missed
      (q.recover d) := by
  let account := accounting finish tokens p.openBlocks (stalls p.events.toList) block
  have related := Simulation.related_statement (account.follows depth) p p
    ⟨rfl, tokens, 0, [], .begin numbered stands⟩
  have blocks := ((Rule.statement (.of depth)).ahead p).openBlocks_eq
  rw [run] at related blocks
  cases related with
  | error stuck =>
    obtain ⟨-, rest, inner, missed, final⟩ := account.recover stuck (Nat.le_of_eq blocks.symm)
    obtain rfl : inner = 0 := by
      have := ((Parser.ahead_recover q d).openBlocks_eq.trans blocks).symm.trans final.openBlocks
      omega
    exact ⟨rest, missed, final⟩

/-! ## Where blocks stop -/

/-- A block that is read stops where statements end, as many braces too early as recoveries in it
have stalled. -/
theorem block_account {finish : Position} {brace : Token} {after : List Token} {depth : Nat}
    {p q : Parser} {tree : Block} (numbered : Numbered finish after)
    (stands : p.At finish (brace :: after))
    (run : (Level.of depth).block.run p = (.ok tree, q)) :
    ∃ tokens missed, q.At finish tokens ∧ tokens <:+ after ∧
      (tokens = [] ∨ lookahead tokens = .rbrace) ∧
      stalls q.events.toList = stalls p.events.toList ++ missed ∧
      closing 0 after = closing missed.length tokens := by
  cases depth with
  | zero => cases run
  | succ depth =>
    obtain ⟨m, read, rfl⟩ := Rule.of_nested_ok run
    have state : (p.enter.advance.openBlock.statements (.of depth)).2.closeBlock = m :=
      congrArg Prod.snd read
    subst state
    generalize body : p.enter.advance.openBlock = start
    have account : Account finish after (p.openBlocks + 1) (stalls p.events.toList) after 0 []
        start := by
      have begin := Account.begin numbered (show start.At finish after from body ▸ stands.advance)
      have blocks : start.openBlocks = p.openBlocks + 1 := body ▸ rfl
      have log : stalls start.events.toList = stalls p.events.toList := body ▸ p.stalls_advance
      rwa [blocks, log] at begin
    obtain ⟨-, -, tokens, inner, missed, final⟩ := Simulation.statements
      ((accounting finish after (p.openBlocks + 1) (stalls p.events.toList)
        (Nat.succ_pos _)).follows depth) ⟨rfl, after, 0, [], account⟩
      (Nat.le_of_eq account.openBlocks.symm)
    obtain rfl : inner = 0 := by
      have := (Parser.ahead_statements (.of depth) start).openBlocks_eq.symm.trans final.openBlocks
      have := account.openBlocks
      omega
    refine ⟨tokens, missed, final.stands, final.suffix, ?_, final.stalls, ?_⟩
    · have before : (start.statements (.of depth)).2.Before finish tokens :=
        ⟨final.stands, final.not_eof⟩
      rcases before.nil_or_rbrace (Parser.endsBody_statements _ _) with nil | ⟨rbrace, -⟩
      · exact .inl nil
      · exact .inr (before.kind ▸ rbrace)
    · rw [final.balance]
      simp only [Nat.zero_add]

/-- **Where a block stops.** It stops at the brace that closes it, or at the end of input if nothing
does, exactly if no recovery inside of it has stalled or the input has ended. -/
theorem block_stops {finish : Position} {brace : Token} {after : List Token} {depth : Nat}
    {p q : Parser} {tree : Block} (numbered : Numbered finish after)
    (stands : p.At finish (brace :: after))
    (run : (Level.of depth).block.run p = (.ok tree, q)) :
    q.At finish (closing 0 after) ↔
      stalls q.events.toList = stalls p.events.toList ∨ q.current.kind = .eof := by
  obtain ⟨tokens, missed, at_tokens, suffix, ends, log, balance⟩ :=
    block_account numbered stands run
  have not_eof : ∀ t ∈ tokens, t.kind ≠ .eof := (numbered.suffix suffix).not_eof
  constructor
  · intro at_closing
    have same : tokens = closing 0 after := at_tokens.unique at_closing not_eof
      (numbered.suffix (closing_suffix 0 after)).not_eof
    rw [balance] at same
    cases tokens with
    | nil =>
      refine .inr ?_
      rw [at_tokens.current_nil]
      rfl
    | cons token rest =>
      have rbrace : token.kind = .rbrace := ends.resolve_left (List.cons_ne_nil _ _)
      cases missed with
      | nil => exact .inl (log.trans (List.append_nil _))
      | cons place missed => exact absurd same.symm (closing_succ_ne rbrace)
  · rintro (none | eof)
    · obtain rfl : missed = [] := by
        rw [log] at none
        exact List.append_right_eq_self.mp none
      rcases ends with rfl | rbrace
      · rw [balance]
        exact at_tokens
      · cases tokens with
        | nil => cases rbrace
        | cons token rest =>
          rw [balance, List.length_nil, closing_zero rbrace]
          exact at_tokens
    · rw [at_tokens.kind] at eof
      cases tokens with
      | nil =>
        rw [balance]
        exact at_tokens
      | cons token rest => exact absurd eof (not_eof token List.mem_cons_self)

end Monkey
