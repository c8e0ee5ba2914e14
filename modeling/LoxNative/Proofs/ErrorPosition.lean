import Mathlib
import LoxNative.Proofs.Grammar
import LoxNative.Proofs.SourceSpans

namespace LoxNative

/-!
# Errors are found at the first offending item

A text that is no expression goes wrong somewhere.  The place where it does is fixed by the grammar
alone: it is the first item at which the tokens read so far stop being the beginning of any
expression.  Reading reports this item, neither an earlier nor a later one, and whatever stands
behind it is not looked at.

The heart of the matter is that the automaton goes on exactly as long as the tokens can still be
continued to an expression.  That it goes on for such tokens is completeness, applied to a
continuation.  That it stops for others means that every state can be completed: the frames on its
stack say which tokens are missing.  The tokens of a continuation need not come from any text, so
they are first spelled as their kinds demand.
-/

namespace Grammar

open Token

/-- Tokens are viable if some expression begins with them. -/
def Viable (tokens : List Token) : Prop :=
  exists rest expr, Derives .equality (tokens ++ rest) expr

/-- Tokens stand at the beginning of what a cursor reads: they are its first items, and none of them
is the end of the input. -/
structure Leads (cursor : Cursor) (tokens : List Token) : Prop where
  given : forall index token, tokens[index]? = some token -> cursor.item index = .ok token
  unended : forall token, token ∈ tokens -> token.kind ≠ .endOfInput

/-- An item behind some tokens keeps them from being an expression: it is a complaint of the
scanner, or the end of the input behind tokens that are no complete expression, or a token with
which no expression goes on. -/
inductive Offends (before : List Token) : Item -> Prop
  | diagnostic (diagnostic : Diagnostic) : Offends before (.error diagnostic)
  | ending {token : Token} :
      token.kind = .endOfInput -> (¬ exists expr, Derives .equality before expr) ->
      Offends before (.ok token)
  | token {token : Token} : token.kind ≠ .endOfInput -> ¬ Viable (before ++ [token]) ->
      Offends before (.ok token)

/-- The item with a number offends, behind the tokens in front of it. -/
def OffendsAt (cursor : Cursor) (index : Nat) : Prop :=
  exists before, before.length = index ∧ Leads cursor before ∧ Offends before (cursor.item index)

/-- A diagnostic reports an item: it is the complaint itself, or a complaint of the reader with the
line and the lexeme of the token. -/
def Reports (diagnostic : Diagnostic) : Item -> Prop
  | .error found => diagnostic = found
  | .ok token =>
      diagnostic.stage = .parse ∧ diagnostic.line = token.line ∧
        diagnostic.location = if token.kind = .endOfInput then " at end" else token.lexeme

/-! ## Viable tokens -/

theorem Viable.left {first second : List Token} (viable : Viable (first ++ second)) :
    Viable first := by
  rcases viable with ⟨rest, expr, derived⟩
  rw [List.append_assoc] at derived
  exact ⟨second ++ rest, expr, derived⟩

/-- What tokens derive hangs on their kinds: tokens of the same kinds derive something as well, once
they are spelled. -/
theorem Derives.respelled {level : Level} {tokens others : List Token} {expr : Expr}
    (derived : Derives level tokens expr) (spelled : forall token, token ∈ others -> Spelled token)
    (kinds : others.map Token.kind = tokens.map Token.kind) :
    exists other, Derives level others other := by
  induction derived generalizing others with
  | tighter inner ih =>
      rcases ih spelled kinds with ⟨other, derived⟩
      exact ⟨other, .tighter derived⟩
  | @binary level left right token op first second derivedLeft listed derivedRight ihLeft ihRight =>
      rw [List.map_append, List.map_cons] at kinds
      rcases List.map_eq_append_iff.mp kinds with ⟨before, behind, rfl, kindsLeft, kindsBehind⟩
      rcases List.map_eq_cons_iff.mp kindsBehind with ⟨own, after, rfl, sameKind, kindsRight⟩
      rcases List.forall_mem_append.mp spelled with ⟨spelledLeft, spelledBehind⟩
      rcases ihLeft spelledLeft kindsLeft with ⟨one, derivedOne⟩
      rcases ihRight (List.forall_mem_cons.mp spelledBehind).2 kindsRight with ⟨two, derivedTwo⟩
      rw [<- sameKind] at listed
      exact ⟨_, .binary derivedOne listed derivedTwo⟩
  | @unary token right op operand listed derivedRight ih =>
      rcases List.map_eq_cons_iff.mp kinds with ⟨own, after, rfl, sameKind, kindsRight⟩
      rcases ih (List.forall_mem_cons.mp spelled).2 kindsRight with ⟨other, derived⟩
      rw [<- sameKind] at listed
      exact ⟨_, .unary listed derived⟩
  | @literal token kind listed =>
      rcases List.map_eq_cons_iff.mp kinds with ⟨own, after, rfl, sameKind, none⟩
      rw [List.map_eq_nil_iff.mp none]
      rw [<- sameKind] at listed
      exact ⟨_, .literal listed⟩
  | @string token raw kind quoted =>
      rcases List.map_eq_cons_iff.mp kinds with ⟨own, after, rfl, sameKind, none⟩
      rw [List.map_eq_nil_iff.mp none]
      have ownKind : own.kind = .string := sameKind.trans kind
      rcases (spelled own List.mem_cons_self).string ownKind with ⟨text, ownQuoted⟩
      exact ⟨_, .string ownKind ownQuoted⟩
  | @group opening closing inside inner opened derivedInside closed ih =>
      rw [List.map_append, List.map_cons] at kinds
      rcases List.map_eq_append_iff.mp kinds with ⟨before, behind, rfl, kindsBefore, kindsBehind⟩
      rcases List.map_eq_cons_iff.mp kindsBefore with ⟨first, middle, rfl, sameFirst, kindsInside⟩
      rcases List.map_eq_cons_iff.mp kindsBehind with ⟨last, after, rfl, sameLast, none⟩
      rw [List.map_eq_nil_iff.mp none]
      rcases List.forall_mem_append.mp spelled with ⟨spelledBefore, -⟩
      rcases ih (List.forall_mem_cons.mp spelledBefore).2 kindsInside with ⟨other, derived⟩
      exact ⟨_, .group (sameFirst.trans opened) derived (sameLast.trans closed)⟩

/-- Every kind has a token that is spelled as it demands. -/
theorem exists_spelled (kind : TokenKind) : exists token, Spelled token ∧ token.kind = kind := by
  have words : forall entry, entry ∈ TokenKind.keywords ->
      TokenKind.ofWord entry.1 = entry.2 := by decide
  by_cases quoted : kind = .string
  · refine ⟨⟨.string, "\"" ++ "" ++ "\"", 0⟩, ⟨fun _ => ⟨"", rfl⟩, fun word listed => ?_⟩,
      quoted.symm⟩
    have plain : TokenKind.string ∉ TokenKind.keywords.map Prod.snd := by decide
    exact absurd (List.mem_map_of_mem listed) plain
  · by_cases listed : kind ∈ TokenKind.keywords.map Prod.snd
    · rcases List.mem_map.mp listed with ⟨entry, member, rfl⟩
      have spelled := Cursor.isSpelled_word entry.1.toList [] 0 _ rfl
      rw [String.ofList_toList] at spelled
      exact ⟨_, spelled, words entry member⟩
    · have free : kind ∉ TokenKind.string :: TokenKind.keywords.map Prod.snd :=
        List.not_mem_cons_of_ne_of_not_mem quoted listed
      exact ⟨⟨kind, "", 0⟩, Cursor.spelled_of_free free "" 0, rfl⟩

theorem exists_respelling (tokens : List Token) :
    exists others : List Token, (forall token, token ∈ others -> Spelled token) ∧
      others.map Token.kind = tokens.map Token.kind := by
  induction tokens with
  | nil => exact ⟨[], fun token member => absurd member List.not_mem_nil, rfl⟩
  | cons token tokens ih =>
      rcases ih with ⟨others, spelled, kinds⟩
      rcases exists_spelled token.kind with ⟨other, otherSpelled, sameKind⟩
      exact ⟨other :: others, List.forall_mem_cons.mpr ⟨otherSpelled, spelled⟩,
        by rw [List.map_cons, List.map_cons, sameKind, kinds]⟩

/-- Viable tokens are all taken. -/
theorem exists_takeAll?_of_viable {tokens : List Token}
    (spelled : forall token, token ∈ tokens -> Spelled token) (viable : Viable tokens) :
    exists reading, takeAll? tokens .start = some reading := by
  rcases viable with ⟨rest, expr, derived⟩
  rcases exists_respelling rest with ⟨others, spelledOthers, kinds⟩
  rcases derived.respelled (List.forall_mem_append.mpr ⟨spelled, spelledOthers⟩)
      (by rw [List.map_append, List.map_append, kinds]) with ⟨other, derivedOther⟩
  have free : Opens [] .equality := trivial
  rcases takeAll?_of_derives derivedOther
    (List.forall_mem_append.mpr ⟨spelled, spelledOthers⟩) free with
    ⟨above, value, taken, -⟩
  rw [takeAll?_append] at taken
  rcases Option.bind_eq_some_iff.mp taken with ⟨reading, first, -⟩
  exact ⟨reading, first⟩

/-- Tokens whose right side is still to come can be completed, once an operand stands behind them.
The induction is on the stack; every parenthesis on it asks for one more token. -/
theorem Pending.viable {frames : List Expr.Frame} {before : List Token}
    (pending : Pending frames before)
    {tight : Level} {own : List Token} {value : Expr} (derived : Derives tight own value)
    (opens : Opens frames tight) : Viable (before ++ own) := by
  induction pending generalizing tight own value with
  | nil => exact ⟨[], value, by rw [List.append_nil]; exact derived.weaken (Nat.zero_le _)⟩
  | @group frames tokens opening pending opened ih =>
      let closing : Token := ⟨.rightParen, ")", 0⟩
      have closed : Derives .primary (opening :: own ++ [closing]) (.group value) :=
        .group opened (derived.weaken (Nat.zero_le _)) rfl
      have viable := ih closed (opens_primary frames)
      rw [<- List.append_assoc] at viable
      rw [List.append_assoc, List.singleton_append]
      exact viable.left
  | @unary frames tokens token op pending listed ih =>
      have signed : Derives .unary (token :: own) (.unary op value) :=
        .unary listed (derived.weaken opens)
      rw [List.append_assoc, List.singleton_append]
      exact ih signed (opens_unary frames)
  | @binary frames tokens left level first token op pending waiting derivedLeft listed ih =>
      rcases ofKind?_of_mem listed with ⟨-, same, four⟩
      have above : op.level < tight.rank := opens
      have next := Level.rank_tighter (Nat.lt_of_lt_of_le four (by decide) : level.rank < 5)
      have joined : Derives level (left ++ token :: own) (.binary op first value) :=
        .binary derivedLeft listed (derived.weaken (by omega))
      have viable := ih joined waiting
      rw [<- List.append_assoc] at viable
      rw [List.append_assoc, List.singleton_append]
      exact viable

/-- Whatever has been read is viable. -/
theorem Reads.viable {tokens : List Token} {reading : Expr.Reading} (reads : Reads tokens reading) :
    Viable tokens := by
  cases reading with
  | operand frames =>
      have pending : Pending frames tokens := reads
      let number : Token := ⟨.number, "0", 0⟩
      have operand : Derives .primary [number] (.literal ⟨.number, "0", 0⟩) := .literal (by decide)
      exact (pending.viable operand (opens_primary frames)).left
  | operator frames value =>
      rcases reads with ⟨before, own, pending, derived, rfl⟩
      exact pending.viable derived (opens_primary frames)

theorem Reads.takeAll {before tokens : List Token} {reading last : Expr.Reading}
    (reads : Reads before reading) (spelled : forall token, token ∈ tokens -> Spelled token)
    (taken : takeAll? tokens reading = some last) : Reads (before ++ tokens) last := by
  induction tokens generalizing before reading with
  | nil =>
      cases taken
      rw [List.append_nil]
      exact reads
  | cons token tokens ih =>
      rcases List.forall_mem_cons.mp spelled with ⟨spelledToken, spelledRest⟩
      rw [takeAll?_cons] at taken
      rcases Option.bind_eq_some_iff.mp taken with ⟨next, shifted, others⟩
      have step := ih (reads.shift spelledToken shifted) spelledRest others
      rw [List.append_assoc, List.singleton_append] at step
      exact step

/-- The automaton goes on exactly as long as the tokens are viable. -/
theorem viable_iff {tokens : List Token} (spelled : forall token, token ∈ tokens -> Spelled token) :
    Viable tokens <-> exists reading, takeAll? tokens .start = some reading := by
  constructor
  · exact exists_takeAll?_of_viable spelled
  · rintro ⟨reading, taken⟩
    have start : Reads [] .start := Pending.nil
    exact (start.takeAll spelled taken).viable

/-! ## Where reading stops -/

/-- Reading stops behind some tokens, at a token that the automaton refuses or at something that is
no token. -/
theorem exists_stop (items : List Item) (reading : Expr.Reading) :
    exists tokens last rest, items = tokens.map Except.ok ++ rest ∧
      takeAll? tokens reading = some last ∧
      forall token others, rest = .ok token :: others -> last.shift? token = none := by
  induction items generalizing reading with
  | nil => exact ⟨[], reading, [], rfl, rfl, nofun⟩
  | cons item items ih =>
      rcases item with diagnostic | token
      · exact ⟨[], reading, .error diagnostic :: items, rfl, rfl, nofun⟩
      · cases shifted : reading.shift? token with
        | none =>
            refine ⟨[], reading, .ok token :: items, rfl, rfl, ?_⟩
            intro other others same
            cases same
            exact shifted
        | some next =>
            rcases ih next with ⟨tokens, last, rest, rfl, taken, refused⟩
            refine ⟨token :: tokens, last, rest, rfl, ?_, refused⟩
            rw [takeAll?_cons, shifted]
            exact taken

theorem reports_complaint (token : Token) (text : String) :
    Reports (Expr.complaint token text) (.ok token) :=
  ⟨rfl, rfl, rfl⟩

/-- What a text as a whole comes to: the expression at its beginning counts only if nothing is left
behind it. -/
def conclude : Except Diagnostic Expr × List Item -> Except Diagnostic Expr
  | (.error diagnostic, _) => .error diagnostic
  | (.ok expr, []) => .ok expr
  | (.ok _, .ok token :: _) => .error (Expr.complaint token "Expect end of expression.")
  | (.ok _, .error diagnostic :: _) => .error diagnostic

theorem parse_eq_conclude (source : String) :
    Expr.parse source =
      conclude (Expr.readFrom (Cursor.start source).items.ending .start
        (Cursor.start source).items.items) := by
  rw [Expr.parse, read_eq]
  generalize Expr.readFrom (Cursor.start source).items.ending .start
    (Cursor.start source).items.items =
    result
  rcases result with ⟨diagnostic | expr, _ | ⟨diagnostic | token, rest⟩⟩ <;> rfl

/-- At a token that is refused, reading complains about the token. -/
theorem conclude_of_refused (ending : Token) {reading : Expr.Reading} {token : Token}
    (refused : reading.shift? token = none) (others : List Item) :
    exists diagnostic, conclude (Expr.readFrom ending reading (.ok token :: others)) =
      .error diagnostic ∧
      Reports diagnostic (.ok token) := by
  rw [Expr.readFrom, refused]
  cases reading.finish with
  | error text => exact ⟨_, rfl, reports_complaint token text⟩
  | ok expr => exact ⟨_, rfl, reports_complaint token _⟩

/-- At the end of the input, reading gives the expression or complains about the end. -/
theorem conclude_of_ended (ending : Token) (reading : Expr.Reading) :
    (exists expr, conclude (Expr.readFrom ending reading []) = .ok expr ∧
      reading.finish = .ok expr) ∨
      exists diagnostic, conclude (Expr.readFrom ending reading []) = .error diagnostic ∧
        Reports diagnostic (.ok ending) := by
  rw [Expr.readFrom]
  cases reading.finish with
  | error text => exact Or.inr ⟨_, rfl, reports_complaint ending text⟩
  | ok expr => exact Or.inl ⟨expr, rfl, rfl⟩

/-! ## The first offending item -/

theorem leads_of_split {cursor : Cursor} {stream : ItemStream} (holds : cursor.Holds stream)
    {tokens : List Token} {rest : List Item} (split : stream.items = tokens.map Except.ok ++ rest) :
    Leads cursor tokens where
  given := fun _ _ found => holds.given split found
  unended := by
    intro token member ended
    rcases List.mem_iff_getElem?.mp member with ⟨index, found⟩
    have inside : index < stream.items.length := by
      have less : index < tokens.length := (List.getElem?_eq_some_iff.mp found).1
      rw [split, List.length_append, List.length_map]
      omega
    have goesOn := (holds.listed index inside).2
    rw [holds.given split found, Cursor.isEnding, ended] at goesOn
    cases goesOn

theorem Leads.spelled {cursor : Cursor} {tokens : List Token} (leads : Leads cursor tokens) :
    forall token, token ∈ tokens -> Spelled token := by
  intro token member
  rcases List.mem_iff_getElem?.mp member with ⟨index, found⟩
  exact Cursor.isSpelled_item index cursor token (leads.given index token found)

/-- Of two lists of first tokens, the shorter one is the beginning of the longer one. -/
theorem Leads.eq_take {cursor : Cursor} {first second : List Token}
    (leadsFirst : Leads cursor first)
    (leadsSecond : Leads cursor second) (shorter : first.length ≤ second.length) :
    first = second.take first.length := by
  apply List.ext_getElem
  · rw [List.length_take, Nat.min_eq_left shorter]
  · intro index inFirst inTaken
    have inSecond : index < second.length := Nat.lt_of_lt_of_le inFirst shorter
    have one := leadsFirst.given index _ (List.getElem?_eq_getElem inFirst)
    have two := leadsSecond.given index _ (List.getElem?_eq_getElem inSecond)
    rw [List.getElem_take]
    exact Except.ok.inj (one.symm.trans two)

/-- A token that is refused makes the tokens in front of it go on with nothing. -/
theorem not_viable_of_refused {before : List Token} {reading : Expr.Reading} {token : Token}
    (spelled : forall own, own ∈ before -> Spelled own) (spelledToken : Spelled token)
    (taken : takeAll? before .start = some reading) (refused : reading.shift? token = none) :
    ¬ Viable (before ++ [token]) := by
  have spelledAll :=
    List.forall_mem_append.mpr ⟨spelled, List.forall_mem_singleton.mpr spelledToken⟩
  rw [viable_iff spelledAll]
  rintro ⟨last, takenMore⟩
  rw [takeAll?_append, taken, Option.bind_some, takeAll?_cons, refused] at takenMore
  cases takenMore

/-- What reading a text comes to.  Some viable tokens lead, and behind them stands the end of a
complete expression, or the item that offends and is reported. -/
theorem exists_boundary (source : String) :
    exists before, Leads (Cursor.start source) before ∧ Viable before ∧
      ((exists ending expr, (Cursor.start source).item before.length = .ok ending ∧
          ending.kind = .endOfInput ∧ Derives .equality before expr ∧
          Expr.parse source = .ok expr) ∨
        (Offends before ((Cursor.start source).item before.length) ∧
          exists diagnostic, Expr.parse source = .error diagnostic ∧
            Reports diagnostic ((Cursor.start source).item before.length))) := by
  have holds := (Cursor.start source).holds_items
  rcases exists_stop (Cursor.start source).items.items .start with
    ⟨before, last, rest, split, taken, refused⟩
  have leads := leads_of_split holds split
  have start : Reads [] .start := Pending.nil
  have reads : Reads before last := start.takeAll leads.spelled taken
  have viable : Viable before := (viable_iff leads.spelled).mpr ⟨last, taken⟩
  have parsed : Expr.parse source =
      conclude (Expr.readFrom (Cursor.start source).items.ending last rest) := by
    rw [parse_eq_conclude, <- readFrom_of_takeAll? _ taken rest, <- split]
  refine ⟨before, leads, viable, ?_⟩
  have item := holds.item_length split
  rw [parsed]
  rcases rest with _ | ⟨diagnostic | token, others⟩
  · rw [item]
    rcases conclude_of_ended (Cursor.start source).items.ending last with
      ⟨expr, concluded, finished⟩ | ⟨diagnostic, failed, reports⟩
    · exact Or.inl ⟨_, expr, rfl, rfl, reads.finish finished, concluded⟩
    · refine Or.inr ⟨.ending rfl ?_, diagnostic, failed, reports⟩
      rintro ⟨expr, derived⟩
      -- A complete expression would have been read.
      have complete := (readFrom_iff holds expr []).mpr ⟨before, split, derived, trivial⟩
      rw [<- parsed, parse_eq_ok.mpr complete] at failed
      cases failed
  · rw [item]
    exact Or.inr ⟨.diagnostic diagnostic, diagnostic, rfl, rfl⟩
  · have refusedToken := refused token others rfl
    have more : (Cursor.start source).items.items =
        (before ++ [token]).map Except.ok ++ others := by
      rw [split, List.map_append, List.append_assoc]
      rfl
    have other := (leads_of_split holds more).unended token
      (List.mem_append_right before List.mem_cons_self)
    have spelledToken : Spelled token := Cursor.isSpelled_item _ _ token item
    rw [item]
    exact Or.inr
      ⟨.token other (not_viable_of_refused leads.spelled spelledToken taken refusedToken),
        conclude_of_refused _ refusedToken others⟩

section Boundary

variable {cursor : Cursor} {before : List Token} (leads : Leads cursor before)

include leads

/-- Tokens that lead further go on with the item behind the others. -/
theorem Leads.eq_append {longer : List Token} (leadsLonger : Leads cursor longer)
    (less : before.length < longer.length) :
    exists token rest, longer = before ++ [token] ++ rest ∧ cursor.item before.length = .ok token ∧
      token.kind ≠ .endOfInput := by
  have taken := leads.eq_take leadsLonger (Nat.le_of_lt less)
  refine ⟨longer[before.length], longer.drop (before.length + 1), ?_,
    leadsLonger.given _ _ (List.getElem?_eq_getElem less),
    leadsLonger.unended _ (List.getElem_mem less)⟩
  rw [List.append_assoc, List.singleton_append, List.getElem_cons_drop]
  conv_lhs => rw [<- List.take_append_drop before.length longer, <- taken]

/-- No item among viable tokens offends. -/
theorem Leads.length_le (viable : Viable before) {index : Nat} (offends : OffendsAt cursor index) :
    before.length ≤ index := by
  rcases offends with ⟨earlier, rfl, leadsEarlier, offends⟩
  by_contra shorter
  rcases leadsEarlier.eq_append leads (Nat.lt_of_not_le shorter) with
    ⟨token, rest, longer, found, other⟩
  rw [found] at offends
  cases offends with
  | ending ended incomplete => exact other ended
  | token _ notViable =>
      rw [longer] at viable
      exact notViable viable.left

theorem Leads.offendsAt_of_diagnostic {diagnostic : Diagnostic}
    (found : cursor.item before.length = .error diagnostic) : OffendsAt cursor before.length := by
  refine ⟨before, rfl, leads, ?_⟩
  rw [found]
  exact .diagnostic diagnostic

/-- Where a complete expression ends with the input, nothing offends. -/
theorem Leads.not_offendsAt {expr : Expr} (derived : Derives .equality before expr) {ending : Token}
    (found : cursor.item before.length = .ok ending) (ended : ending.kind = .endOfInput)
    (index : Nat) :
    ¬ OffendsAt cursor index := by
  rintro ⟨others, rfl, leadsOthers, offends⟩
  by_cases less : before.length < others.length
  · rcases leads.eq_append leadsOthers less with ⟨token, rest, -, foundToken, other⟩
    rw [found] at foundToken
    cases foundToken
    exact other ended
  · have viable : Viable before := ⟨[], expr, by rw [List.append_nil]; exact derived⟩
    have atLeast := leads.length_le viable ⟨others, rfl, leadsOthers, offends⟩
    have same : others = before := by
      rw [leadsOthers.eq_take leads (Nat.le_of_not_lt less)]
      exact List.take_of_length_le atLeast
    rw [same, found] at offends
    cases offends with
    | ending _ incomplete => exact incomplete ⟨expr, derived⟩
    | token other _ => exact other ended

end Boundary

/-- Reading a text as a whole fails exactly if some item offends, and reports the first item that
does: a complaint of the scanner as it is, and a token by its line and its lexeme.  A complaint of
the scanner is reported exactly if the tokens in front of it are viable. -/
theorem parse_reports_first (source : String) :
    ((exists diagnostic, Expr.parse source = .error diagnostic) <->
      exists index, IsLeast {index | OffendsAt (Cursor.start source) index} index) ∧
    (forall index, IsLeast {index | OffendsAt (Cursor.start source) index} index ->
      exists diagnostic, Expr.parse source = .error diagnostic ∧
        Reports diagnostic ((Cursor.start source).item index)) ∧
    (forall diagnostic, (Expr.parse source = .error diagnostic ∧ diagnostic.stage = .scan) <->
      exists before, Leads (Cursor.start source) before ∧ Viable before ∧
        (Cursor.start source).item before.length = .error diagnostic) := by
  rcases exists_boundary source with
    ⟨before, leads, viable, ⟨ending, expr, found, ended, derived, parsed⟩ |
    ⟨offends, diagnostic, failed, reports⟩⟩
  · have nowhere := leads.not_offendsAt derived found ended
    rw [parsed]
    refine ⟨⟨?_, ?_⟩, ?_, fun diagnostic => ⟨?_, ?_⟩⟩
    · exact nofun
    · exact fun ⟨index, least⟩ => absurd least.1 (nowhere index)
    · exact fun index least => absurd least.1 (nowhere index)
    · exact fun ⟨failed, _⟩ => nomatch failed
    · rintro ⟨others, leadsOthers, -, item⟩
      exact absurd (leadsOthers.offendsAt_of_diagnostic item) (nowhere _)
  · have here : OffendsAt (Cursor.start source) before.length := ⟨before, rfl, leads, offends⟩
    have least : IsLeast {index | OffendsAt (Cursor.start source) index} before.length :=
      ⟨here, fun index other => leads.length_le viable other⟩
    refine ⟨⟨fun _ => ⟨_, least⟩, fun _ => ⟨diagnostic, failed⟩⟩, ?_, fun other => ⟨?_, ?_⟩⟩
    · intro index leastIndex
      rw [leastIndex.unique least]
      exact ⟨diagnostic, failed, reports⟩
    · rintro ⟨failedOther, scanned⟩
      cases failed.symm.trans failedOther
      refine ⟨before, leads, viable, ?_⟩
      cases item : (Cursor.start source).item before.length with
      | error own =>
          rw [item] at reports
          exact congrArg Except.error (Eq.symm reports)
      | ok token =>
          rw [item] at reports
          cases scanned.symm.trans reports.1
    · rintro ⟨others, leadsOthers, viableOthers, item⟩
      have same : others.length = before.length :=
        Nat.le_antisymm (leadsOthers.length_le viableOthers here)
          (leads.length_le viable (leadsOthers.offendsAt_of_diagnostic item))
      rw [<- same, item] at reports
      have reported : diagnostic = other := reports
      rw [<- reported] at item ⊢
      exact ⟨failed, Cursor.stage_of_item item⟩

theorem parse_reports_first_operand :
    exists index, IsLeast {index | OffendsAt (Cursor.start "(1 + 2 * ) @") index} index ∧
      Reports ⟨.parse, 1, ")", "Expect expression."⟩
        ((Cursor.start "(1 + 2 * ) @").item index) := by
  have failed : Expr.parse "(1 + 2 * ) @" = .error ⟨.parse, 1, ")", "Expect expression."⟩ := by
    decide +kernel
  rcases parse_reports_first "(1 + 2 * ) @" with ⟨fails, reported, -⟩
  rcases fails.mp ⟨_, failed⟩ with ⟨index, least⟩
  rcases reported index least with ⟨diagnostic, same, reports⟩
  cases failed.symm.trans same
  exact ⟨index, least, reports⟩

end Grammar
end LoxNative
