import Mathlib
import LoxNative.Proofs.LongestMatch
import LoxNative.Proofs.ScanAgreement

namespace LoxNative

/-!
# Scanning printed tokens again

Tokens that were scanned can be printed and scanned again.  Any number of them, taken from any texts
and put in any order, make one text when their lexemes are joined by single blanks, and scanning
that text gives tokens of the same kinds with the same lexemes.

A blank is enough to keep neighbours apart, because no token goes on behind one: a blank is part of
no number, word or symbol, and a string is over at its second quote.  So a lexeme with a blank
behind it is the longest token there, and its text alone decides its kind.
-/

namespace TokenKind

/-! ## A blank ends a token -/

theorem Admits.ne_endOfInput {kind : TokenKind} {text : List Char} (admitted : Admits kind text) :
    kind ≠ .endOfInput := by
  have words : forall entry, entry ∈ keywords -> entry.2 ≠ .endOfInput := by decide
  have signs : forall entry, entry ∈ symbols -> entry.2 ≠ .endOfInput := by decide
  cases admitted with
  | number number => decide
  | keyword word listed => exact words _ listed
  | identifier word other => decide
  | string quoted => decide
  | symbol listed => exact signs _ listed

theorem IsNumber.isDigit_of_mem {text : List Char} (number : IsNumber text) {c : Char}
    (member : c ∈ text) :
    c.isDigit = true ∨ c = '.' := by
  rcases number with digits | ⟨digits, decimals, rfl, whole, fraction⟩
  · exact Or.inl (digits.2 c member)
  · rcases List.mem_append.mp member with inWhole | behind
    · exact Or.inl (whole.2 c inWhole)
    · rcases List.mem_cons.mp behind with dot | inFraction
      · exact Or.inr dot
      · exact Or.inl (fraction.2 c inFraction)

/-- Only strings contain blanks. -/
theorem Admits.blank_not_mem {kind : TokenKind} {text : List Char} (admitted : Admits kind text)
    (plain : kind ≠ .string) : ' ' ∉ text := by
  intro member
  cases admitted with
  | number number => rcases number.isDigit_of_mem member with digit | dot <;> contradiction
  | keyword word listed => exact absurd (Cursor.isWordPart_of_mem word member) (by decide)
  | identifier word other => exact absurd (Cursor.isWordPart_of_mem word member) (by decide)
  | string quoted => exact plain rfl
  | symbol listed =>
      have every : forall entry, entry ∈ symbols -> ' ' ∉ entry.1 := by decide
      exact every _ listed member

/-- No string goes on behind another: the second quote ends both. -/
theorem IsQuoted.eq_of_prefix {first second : List Char} (quoted : IsQuoted first)
    (longer : IsQuoted second) (begins : first <+: second) : first = second := by
  rcases quoted with ⟨body, rfl, plain⟩
  rcases longer with ⟨other, rfl, plainOther⟩
  rcases begins with ⟨rest, split⟩
  rw [List.cons_append, List.append_assoc, List.singleton_append] at split
  have behind : body ++ '"' :: rest = other ++ ['"'] := (List.cons.inj split).2
  have bodies := congrArg (List.takeWhile (· != '"')) behind
  rw [Cursor.takeWhile_of_not_mem plain, Cursor.takeWhile_of_not_mem plainOther] at bodies
  rw [bodies]

/-- The kind of a number or a string says what its text looks like. -/
theorem Admits.text_of_kind {kind : TokenKind} {text : List Char} (admitted : Admits kind text) :
    (kind = .number -> IsNumber text) ∧ (kind = .string -> IsQuoted text) := by
  have words : forall entry, entry ∈ keywords -> entry.2 ≠ .number ∧ entry.2 ≠ .string := by decide
  have signs : forall entry, entry ∈ symbols -> entry.2 ≠ .number ∧ entry.2 ≠ .string := by decide
  cases admitted with
  | number number => exact ⟨fun _ => number, nofun⟩
  | keyword word listed =>
      exact ⟨fun same => absurd same (words _ listed).1, fun same => absurd same (words _ listed).2⟩
  | identifier word other => exact ⟨nofun, nofun⟩
  | string quoted => exact ⟨nofun, fun _ => quoted⟩
  | symbol listed =>
      exact ⟨fun same => absurd same (signs _ listed).1, fun same => absurd same (signs _ listed).2⟩

/-- The text of a token with a blank behind it begins no longer token. -/
theorem Admits.not_extended {kind other : TokenKind} {text tail : List Char}
    (admitted : Admits kind text) :
    ¬ Admits other (text ++ ' ' :: tail) := by
  intro longer
  by_cases string : other = .string
  · subst string
    have quotedLonger := longer.text_of_kind.2 rfl
    have sameKind : kind = .string := by
      cases text with
      | nil => exact absurd rfl admitted.ne_nil
      | cons c rest =>
          rcases quotedLonger with ⟨body, split, -⟩
          rw [admitted.kind_eq, (List.cons.inj split).1]
          rfl
    subst sameKind
    have quoted := admitted.text_of_kind.2 rfl
    have same := quoted.eq_of_prefix quotedLonger (List.prefix_append _ _)
    exact List.cons_ne_nil _ _ (List.self_eq_append_right.mp same)
  · exact longer.blank_not_mem string (List.mem_append_right _ List.mem_cons_self)

end TokenKind

namespace Cursor

open TokenKind

/-- Tokens are kept apart in front of some text: the text is empty or goes on with a blank. -/
def EndsToken : List Char -> Prop
  | [] => True
  | c :: _ => c = ' '

section Separated

variable {kind : TokenKind} {text rest : List Char}

/-- A longer token than the one that ends here would go on behind a blank. -/
theorem eq_of_admits (admitted : Admits kind text) (ends : EndsToken rest) {other : TokenKind}
    {longer : List Char}
    (known : Admits other longer) (begins : text <+: longer) (inside : longer <+: text ++ rest) :
    longer = text := by
  rcases begins with ⟨more, rfl⟩
  cases more with
  | nil => exact List.append_nil text
  | cons c more =>
      rcases (List.prefix_append_right_inj text).mp inside with ⟨behind, rfl⟩
      have blank : c = ' ' := ends
      subst blank
      exact absurd known admitted.not_extended

theorem head_not_mem_blanks {c : Char} (admitted : Admits kind (c :: text)) : c ∉ blanks := by
  intro blank
  have begins : c.isDigit = false ∧ isWordStart c = false ∧ (c == '"') = false ∧
      (symbols.any fun entry => entry.1.head? == some c) = false := by
    simp only [blanks, List.mem_cons, List.not_mem_nil, or_false] at blank
    rcases blank with rfl | rfl | rfl | rfl | rfl | rfl <;> exact ⟨rfl, rfl, rfl, rfl⟩
  rcases begins with ⟨digit, starts, quote, unlisted⟩
  have shape := admitted.by_head
  rw [if_neg (by rw [digit]; decide), if_neg (by rw [starts]; decide),
    if_neg (ne_of_beq_false quote)] at shape
  exact List.any_eq_false.mp unlisted _ shape (beq_self_eq_true _)

/-- A token that ends here does not begin with layout.  A division sign could begin a comment, but
has a blank or nothing behind it. -/
theorem not_beginsLayout (admitted : Admits kind text) (ends : EndsToken rest) :
    ¬ BeginsLayout (text ++ rest) := by
  cases text with
  | nil => exact absurd rfl admitted.ne_nil
  | cons c more =>
      rintro (⟨d, blank, begins⟩ | begins)
      · rw [(List.cons_prefix_cons.mp begins).1] at blank
        exact head_not_mem_blanks admitted blank
      · rcases List.cons_prefix_cons.mp begins with ⟨slash, inside⟩
        have slashAlone : forall entry, entry ∈ symbols -> entry.1.head? = some '/' ->
            entry.1 = ['/'] := by decide
        subst slash
        have listed := admitted.symbol_of_head (by decide : (['/'], TokenKind.slash) ∈ symbols)
        have alone : more = [] := (List.cons.inj (slashAlone _ listed rfl)).2
        subst alone
        rcases inside with ⟨behind, rfl⟩
        have blank : '/' = ' ' := ends
        exact absurd blank (by decide)

theorem skipLayout_of_not_beginsLayout (bare : ¬ BeginsLayout text) (line : Nat) :
    skipLayout false text line = ⟨text, line⟩ := by
  rcases exists_skipped false text line with ⟨gap, after, rfl, skipped, reached⟩
  have gapless : Gap after gap := skipped
  cases gapless with
  | nil => exact reached
  | blank blank => exact absurd (Or.inl ⟨_, blank, ⟨_, rfl⟩⟩) bare
  | comment => exact absurd (Or.inr ⟨_, rfl⟩) bare

/-- The text of a token that ends here is read as that token. -/
theorem next_of_admits (admitted : Admits kind text) (ends : EndsToken rest) (line : Nat) :
    next ⟨text ++ rest, line⟩ = take kind text rest line := by
  rw [next, skipLayout_of_not_beginsLayout (not_beginsLayout admitted ends)]
  cases text with
  | nil => exact absurd rfl admitted.ne_nil
  | cons c more =>
      have longest := takesLongest_item c (more ++ rest) line
      have taken := takes_item c (more ++ rest) line
      rw [List.cons_append]
      dsimp only
      generalize takeItem (c :: (more ++ rest)) line = result at longest taken
      rcases result with ⟨diagnostic | token, after⟩
      · exact absurd ⟨rest, rfl⟩ (longest kind _ admitted)
      · have lexeme : token.lexeme.toList = c :: more :=
          eq_of_admits admitted ends longest.admitted (longest.longest _ _ admitted ⟨rest, rfl⟩)
            ⟨after.rest, longest.split.symm⟩
        have sameKind : token.kind = kind := by
          rw [longest.admitted.kind_eq, lexeme, <- admitted.kind_eq]
        rcases taken with ⟨span, behind, split, spans, reached⟩
        have place : after = ⟨behind, line + lineBreaks span⟩ := reached
        have spelled : span = c :: more := spans.lexeme_eq.symm.trans lexeme
        have sameRest : rest = behind := by
          rw [spelled, <- List.cons_append] at split
          exact List.append_cancel_left split
        have sameToken : token = ⟨kind, String.ofList (c :: more), line⟩ := by
          rw [<- sameKind, <- lexeme, String.ofList_toList, <- spans.line_eq]
        rw [sameToken, place, spelled, sameRest]
        rfl

end Separated

/-! ## Tokens one behind the other -/

/-- The lexemes of tokens, each with a blank in front. -/
def spaced (tokens : List Token) : List Char :=
  tokens.flatMap fun token => ' ' :: token.lexeme.toList

theorem endsToken_spaced (tokens : List Token) : EndsToken (spaced tokens) := by
  cases tokens with
  | nil => exact trivial
  | cons token tokens => exact rfl

/-- What a cursor holds depends only on what it reads next. -/
theorem Holds.of_next_eq {cursor other : Cursor} {stream : ItemStream} (holds : cursor.Holds stream)
    (same : cursor.next = other.next) : other.Holds stream := by
  have items (index : Nat) : other.item index = cursor.item index := by
    cases index with
    | zero => rw [item, skip, peek, <- same, item, skip, peek]
    | succ index => rw [item, skip, <- same, item, skip]
  refine ⟨fun index inside => ?_, ?_⟩
  · rw [items]
    exact holds.listed index inside
  · rw [items]
    exact holds.ended

/-- Reading spaced lexemes gives their tokens back, apart from the lines.  The induction is on the
tokens; the blank in front of the next lexeme ends the one before it. -/
theorem Holds.exists_copies {tokens : List Token} {line : Nat} {stream : ItemStream}
    (admitted : forall token, token ∈ tokens -> token.kind.Admits token.lexeme.toList)
    (holds : Holds ⟨spaced tokens, line⟩ stream) :
    exists copies : List Token, stream.items = copies.map Except.ok ∧
      copies.map (fun token => (token.kind, token.lexeme)) = tokens.map fun token =>
        (token.kind, token.lexeme) := by
  induction tokens generalizing line stream with
  | nil =>
      rcases holds.cases_next with ⟨empty, -⟩ | ⟨rest, -, goesOn, -⟩
      · exact ⟨[], empty, rfl⟩
      · cases goesOn
  | cons token tokens ih =>
      rcases List.forall_mem_cons.mp admitted with ⟨first, others⟩
      -- The blank in front of the first lexeme is skipped as layout.
      have read : next ⟨spaced (token :: tokens), line⟩ =
          take token.kind token.lexeme.toList (spaced tokens) line :=
        next_of_admits first (endsToken_spaced tokens) line
      rcases holds.cases_next with ⟨-, ended⟩ | ⟨rest, rfl, -, holdsRest⟩
      · rw [read] at ended
        exact absurd (congrArg Token.kind (Except.ok.inj ended)) first.ne_endOfInput
      · rw [read] at holdsRest ⊢
        rcases ih others holdsRest with ⟨copies, isItems, same⟩
        refine ⟨⟨token.kind, String.ofList token.lexeme.toList, line⟩ :: copies,
          congrArg (List.cons _) isItems, ?_⟩
        rw [List.map_cons, List.map_cons, same, String.ofList_toList]

theorem admits_of_next {cursor : Cursor} {token : Token} (read : cursor.next.1 = .ok token)
    (other : token.kind ≠ .endOfInput) : token.kind.Admits token.lexeme.toList := by
  rw [next] at read
  generalize skipLayout false cursor.rest cursor.line = place at read
  rcases place with ⟨_ | ⟨c, rest⟩, line⟩
  · cases read
    exact absurd rfl other
  · have longest := takesLongest_item c rest line
    rw [TakesLongest, read] at longest
    exact longest.admitted

/-- A token that reading gives is spelled by a text of its kind. -/
theorem Holds.admits {cursor : Cursor} {stream : ItemStream} (holds : cursor.Holds stream)
    {token : Token}
    (listed : .ok token ∈ stream.items) : token.kind.Admits token.lexeme.toList := by
  rcases List.mem_iff_getElem?.mp listed with ⟨index, found⟩
  have read : (cursor.skip index).next.1 = .ok token := holds.item_eq found
  exact admits_of_next read (holds.kind_ne listed)

end Cursor

namespace Token

open Cursor

theorem admits_of_scanAll {source : String} {token : Token} (member : token ∈ (scanAll source).1)
    (other : token.kind ≠ .endOfInput) : token.kind.Admits token.lexeme.toList := by
  rw [scanAll_eq] at member
  rcases List.mem_append.mp member with collected | last
  · rcases List.mem_filterMap.mp collected with ⟨item, listed, found⟩
    cases item with
    | error diagnostic => cases found
    | ok own =>
        cases found
        exact (Cursor.start source).holds_items.admits listed
  · rw [List.mem_singleton.mp last] at other
    exact absurd rfl other

/-- Between the lexemes of tokens that are joined stands what is in front of each lexeme when they
are spaced. -/
theorem toList_joined (first : Token) (tokens : List Token) :
    (" ".intercalate ((first :: tokens).map Token.lexeme)).toList =
      first.lexeme.toList ++ spaced tokens := by
  have blank : " ".toList = [' '] := rfl
  rw [String.toList_intercalate, List.map_map, blank]
  induction tokens generalizing first with
  | nil => rw [List.map_singleton, List.intercalate_singleton, spaced, List.flatMap_nil,
      List.append_nil]; rfl
  | cons second tokens ih =>
      rw [List.map_cons, List.map_cons, List.intercalate_cons_cons, <- List.map_cons, ih second,
        spaced, spaced, List.flatMap_cons, List.append_assoc, List.singleton_append,
        List.cons_append]
      rfl

theorem next_of_joined (tokens : List Token) :
    (Cursor.start (" ".intercalate (tokens.map Token.lexeme))).next = next ⟨spaced tokens, 1⟩ := by
  cases tokens with
  | nil => rfl
  | cons first tokens =>
      rw [Cursor.start, toList_joined]
      rfl

/-- Scanning printed tokens gives the tokens back.  However tokens are taken from the scans of
texts, which may be any tokens of any number of texts in any order, the text of their lexemes joined
by single blanks is scanned without a diagnostic, and gives tokens of the same kinds with the same
lexemes in the same order, and then the end of the input. -/
theorem rescanning_gives_tokens_back {tokens : List Token}
    (scanned : forall token, token ∈ tokens -> token.kind ≠ .endOfInput ∧
      exists source, token ∈ (scanAll source).1) :
    (scan (" ".intercalate (tokens.map Token.lexeme))).2 = none ∧
      (scan (" ".intercalate (tokens.map Token.lexeme))).1.map
        (fun token => (token.kind, token.lexeme)) =
        tokens.map (fun token => (token.kind, token.lexeme)) ++ [(.endOfInput, "")] := by
  have admitted : forall token, token ∈ tokens -> token.kind.Admits token.lexeme.toList := by
    intro token member
    rcases scanned token member with ⟨other, source, found⟩
    exact admits_of_scanAll found other
  have holds := (Cursor.start (" ".intercalate (tokens.map Token.lexeme))).holds_items.of_next_eq
    (next_of_joined tokens)
  rcases holds.exists_copies admitted with ⟨copies, isItems, same⟩
  have again : scan (" ".intercalate (tokens.map Token.lexeme)) =
      (copies ++ [(Cursor.start (" ".intercalate (tokens.map Token.lexeme))).items.ending], none) :=
    untilError_eq.mpr ⟨copies, isItems, rfl⟩
  rw [again]
  refine ⟨rfl, ?_⟩
  rw [List.map_append, same]
  rfl

/-- Tokens of two texts, the first of which has a diagnostic.  Side by side, most of these lexemes
would be read as something else. -/
theorem rescanning_gives_tokens_back_mixed :
    let first := "1./2 ? \"a // b\n\""
    let second := "!nil = ile"
    let tokens : List Token :=
      [⟨.slash, "/", 1⟩, ⟨.slash, "/", 1⟩, ⟨.bang, "!", 1⟩, ⟨.equal, "=", 1⟩, ⟨.number, "1", 1⟩,
        ⟨.dot, ".", 1⟩, ⟨.number, "2", 1⟩, ⟨.string, "\"a // b\n\"", 1⟩, ⟨.nilWord, "nil", 1⟩,
        ⟨.identifier, "ile", 1⟩]
    let text := "/ / ! = 1 . 2 \"a // b\n\" nil ile"
    (forall token, token ∈ tokens -> token.kind ≠ .endOfInput ∧
      (token ∈ (scanAll first).1 ∨ token ∈ (scanAll second).1)) ∧
      (scanAll first).2 ≠ [] ∧ " ".intercalate (tokens.map Token.lexeme) = text ∧
      (scan text).2 = none ∧
      (scan text).1.map (fun token => (token.kind, token.lexeme)) =
        [(.slash, "/"), (.slash, "/"), (.bang, "!"), (.equal, "="), (.number, "1"), (.dot, "."),
          (.number, "2"), (.string, "\"a // b\n\""), (.nilWord, "nil"), (.identifier, "ile"),
          (.endOfInput, "")] := by
  intro first second tokens text
  have taken : forall token, token ∈ tokens -> token.kind ≠ .endOfInput ∧
      (token ∈ (scanAll first).1 ∨ token ∈ (scanAll second).1) := by
    decide +kernel
  have scanned : forall token, token ∈ tokens -> token.kind ≠ .endOfInput ∧
      exists source, token ∈ (scanAll source).1 := by
    intro token member
    rcases taken token member with ⟨other, inFirst | inSecond⟩
    · exact ⟨other, first, inFirst⟩
    · exact ⟨other, second, inSecond⟩
  have joined : " ".intercalate (tokens.map Token.lexeme) = text := by decide +kernel
  have again := rescanning_gives_tokens_back scanned
  rw [joined] at again
  exact ⟨taken, by decide +kernel, joined, again⟩

end Token

end LoxNative
