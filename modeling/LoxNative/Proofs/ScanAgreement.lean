import Mathlib
import LoxNative.Proofs.Scanning

namespace LoxNative

/-!
# The ways of scanning agree

A text is scanned in three ways: up to the first diagnostic, as a whole, and item by item with a
cursor that the caller may leave at any time.  All three read one item after another, but they stop
at different places: behind the first diagnostic, at the end of the input, in front of that end, or
where the caller stops.

What reading gives is described by `Cursor.Holds`, without any of the three.  Its items are split at
the first diagnostic, and each way of scanning is told in terms of this split.
-/

namespace Cursor

section Stream

variable {cursor : Cursor} {stream : ItemStream}

/-- At the end of the input reading gives the end, over and over. -/
theorem next_next_of_isEnding (ends : isEnding cursor.next.1 = true) :
    cursor.next.2.next.1 = cursor.next.1 := by
  rw [next] at ends
  rw [next.eq_1 cursor]
  generalize skipLayout false cursor.rest cursor.line = place at ends ⊢
  rcases place with ⟨_ | ⟨c, rest⟩, line⟩
  · rfl
  · rw [isEnding_takeItem] at ends
    cases ends

theorem holds_nil (ends : cursor.next.1 = .ok stream.ending) :
    cursor.Holds ⟨[], stream.lastLine⟩ where
  listed := fun _ inside => absurd inside (Nat.not_lt_zero _)
  ended := ends

/-- A stream is empty at the end of the input, and elsewhere holds the next item and the stream
behind it. -/
theorem Holds.cases_next (holds : cursor.Holds stream) :
    (stream.items = [] ∧ cursor.next.1 = .ok stream.ending) ∨
      exists rest, stream = .cons cursor.next.1 rest ∧ isEnding cursor.next.1 = false ∧
        cursor.next.2.Holds rest := by
  rcases stream with ⟨_ | ⟨first, others⟩, lastLine⟩
  · exact Or.inl ⟨rfl, holds.ended⟩
  · right
    rcases holds.listed 0 (Nat.succ_pos _) with ⟨same, goesOn⟩
    cases Option.some.inj same
    refine ⟨⟨others, lastLine⟩, rfl, goesOn, ?_, holds.ended⟩
    intro index inside
    exact holds.listed (index + 1) (Nat.succ_lt_succ inside)

theorem Holds.kind_ne (holds : cursor.Holds stream) {token : Token}
    (listed : .ok token ∈ stream.items) :
    token.kind ≠ .endOfInput := by
  rcases List.mem_iff_getElem?.mp listed with ⟨index, found⟩
  have goesOn := (holds.listed index (List.getElem?_eq_some_iff.mp found).1).2
  rw [holds.item_eq found] at goesOn
  exact ne_of_beq_false goesOn

/-- There are no more items than characters. -/
theorem Holds.length_le (holds : cursor.Holds stream) :
    stream.items.length ≤ cursor.rest.length := by
  generalize size : stream.items.length = count
  induction count generalizing cursor stream with
  | zero => exact Nat.zero_le _
  | succ count ih =>
      rcases holds.cases_next with ⟨empty, -⟩ | ⟨rest, rfl, goesOn, holdsRest⟩
      · rw [empty] at size
        cases size
      · exact Nat.lt_of_le_of_lt (ih holdsRest (Nat.succ.inj size)) (length_next_lt goesOn)

end Stream

/-- The items up to the first diagnostic, which is the last of them. -/
def throughError : List Item -> List Item
  | [] => []
  | .error diagnostic :: _ => [.error diagnostic]
  | .ok token :: rest => .ok token :: throughError rest

theorem throughError_append (tokens : List Token) (rest : List Item) :
    throughError (tokens.map Except.ok ++ rest) = tokens.map Except.ok ++ throughError rest := by
  induction tokens with
  | nil => rfl
  | cons token tokens ih => exact congrArg (List.cons _) ih

theorem length_throughError_le (items : List Item) :
    (throughError items).length ≤ items.length := by
  fun_induction throughError items with
  | case1 => exact Nat.le_refl _
  | case2 diagnostic rest => exact Nat.succ_le_succ (Nat.zero_le _)
  | case3 token rest ih => exact Nat.succ_le_succ ih

/-! ## Pulling -/

section Pull

variable {cursor : Cursor} {stream : ItemStream}

theorem pullWithin_of_error {diagnostic : Diagnostic} (reads : cursor.next.1 = .error diagnostic)
    (limit : Nat) : cursor.pullWithin (limit + 1) = ([.error diagnostic], cursor.next.2) := by
  rw [pullWithin]
  rcases read : cursor.next with ⟨item, after⟩
  rw [read] at reads
  cases reads
  rfl

theorem pullWithin_of_token {token : Token} (reads : cursor.next.1 = .ok token) (limit : Nat) :
    cursor.pullWithin (limit + 1) =
      if token.kind = .endOfInput then ([], cursor.next.2)
      else (.ok token :: (cursor.next.2.pullWithin limit).1,
        (cursor.next.2.pullWithin limit).2) := by
  rw [pullWithin]
  rcases read : cursor.next with ⟨item, after⟩
  rw [read] at reads
  cases reads
  rfl

/-- Pulling gives the items up to the first diagnostic, at most as many as the limit allows, and
leaves a cursor from which reading gives all the others. -/
theorem pullWithin_of_holds (holds : cursor.Holds stream) (limit : Nat) :
    (cursor.pullWithin limit).1 = (throughError stream.items).take limit ∧
      exists remaining, stream.items = (cursor.pullWithin limit).1 ++ remaining ∧
        (cursor.pullWithin limit).2.Holds ⟨remaining, stream.lastLine⟩ := by
  induction limit generalizing cursor stream with
  | zero => exact ⟨rfl, stream.items, rfl, holds⟩
  | succ limit ih =>
      rcases holds.cases_next with ⟨empty, ended⟩ | ⟨rest, rfl, goesOn, holdsRest⟩
      · have isEnd : stream.ending.kind = .endOfInput := rfl
        rw [pullWithin_of_token ended, if_pos isEnd, empty]
        refine ⟨rfl, [], rfl, holds_nil ?_⟩
        rw [next_next_of_isEnding (by rw [ended]; rfl), ended]
      · cases read : cursor.next.1 with
        | error diagnostic =>
            rw [pullWithin_of_error read]
            exact ⟨congrArg (List.cons _) List.take_nil.symm, rest.items, rfl, holdsRest⟩
        | ok token =>
            have other : token.kind ≠ .endOfInput := by
              rw [read] at goesOn
              exact ne_of_beq_false goesOn
            rcases ih holdsRest with ⟨given, remaining, split, holdsRemaining⟩
            rw [pullWithin_of_token read, if_neg other]
            exact ⟨congrArg (List.cons _) given, remaining, congrArg (List.cons _) split,
              holdsRemaining⟩

/-- Without a limit, pulling goes on up to the first diagnostic or the end of the input. -/
theorem pull_of_nonpos (holds : cursor.Holds stream) {count : Int} (unlimited : count ≤ 0) :
    (cursor.pull count).1 = throughError stream.items := by
  have enough : (throughError stream.items).length ≤ cursor.rest.length + 1 :=
    calc (throughError stream.items).length
      _ ≤ stream.items.length := length_throughError_le _
      _ ≤ cursor.rest.length := holds.length_le
      _ ≤ cursor.rest.length + 1 := Nat.le_succ _
  rw [pull, if_neg (Int.not_lt.mpr unlimited), (pullWithin_of_holds holds _).1,
    List.take_of_length_le enough]

theorem pull_of_pos (holds : cursor.Holds stream) {count : Int} (limited : 0 < count) :
    (cursor.pull count).1 = (throughError stream.items).take count.toNat := by
  rw [pull, if_pos limited, (pullWithin_of_holds holds _).1]

end Pull

end Cursor

/-! ## Tokens and diagnostics -/

namespace Token

open Cursor

/-- The diagnostic that an item gives, unless it is a token. -/
def complaint? : Item -> Option Diagnostic
  | .error diagnostic => some diagnostic
  | .ok _ => none

theorem complaints_append (tokens : List Token) (rest : List Item) :
    (tokens.map Except.ok ++ rest).filterMap complaint? = rest.filterMap complaint? := by
  induction tokens with
  | nil => rfl
  | cons token tokens ih => exact ih

theorem tokens_append (tokens : List Token) (rest : List Item) :
    (tokens.map Except.ok ++ rest).filterMap Except.toOption =
      tokens ++ rest.filterMap Except.toOption := by
  induction tokens with
  | nil => rfl
  | cons token tokens ih => exact congrArg (List.cons _) ih

theorem untilError_append (ending : Token) (tokens : List Token) (rest : List Item) :
    untilError ending (tokens.map Except.ok ++ rest) =
      (tokens ++ (untilError ending rest).1, (untilError ending rest).2) := by
  induction tokens with
  | nil => rfl
  | cons token tokens ih =>
      rw [List.map_cons, List.cons_append, untilError_ok, ih]
      rfl

/-- Items are tokens only, or tokens up to a first diagnostic. -/
theorem split_at_error (items : List Item) :
    exists (tokens : List Token) (rest : List Item), items = tokens.map Except.ok ++ rest ∧
      (rest = [] ∨ exists diagnostic others, rest = .error diagnostic :: others) := by
  induction items with
  | nil => exact ⟨[], [], rfl, Or.inl rfl⟩
  | cons item items ih =>
      cases item with
      | error diagnostic => exact ⟨[], _, rfl, Or.inr ⟨diagnostic, items, rfl⟩⟩
      | ok token =>
          rcases ih with ⟨tokens, rest, rfl, ends⟩
          exact ⟨token :: tokens, rest, rfl, ends⟩

theorem eq_map_ok_of_clean {items : List Item}
    (clean : forall diagnostic, .error diagnostic ∉ items) :
    exists tokens : List Token, items = tokens.map Except.ok := by
  rcases split_at_error items with ⟨tokens, rest, rfl, rfl | ⟨diagnostic, others, rfl⟩⟩
  · exact ⟨tokens, List.append_nil _⟩
  · exact absurd (List.mem_append_right _ List.mem_cons_self) (clean diagnostic)

theorem untilError_of_clean (ending : Token) {items : List Item}
    (clean : items.filterMap complaint? = []) :
    untilError ending items = (items.filterMap Except.toOption ++ [ending], none) := by
  rcases split_at_error items with ⟨tokens, rest, rfl, rfl | ⟨diagnostic, others, rfl⟩⟩
  · rw [untilError_append, tokens_append, List.filterMap_nil, List.append_nil]
    rfl
  · rw [complaints_append] at clean
    cases clean

/-- The first diagnostic of a text is where scanning stops, with the tokens in front of it. -/
theorem untilError_of_complaint (ending : Token) {items : List Item} {first : Diagnostic}
    {others : List Diagnostic} (found : items.filterMap complaint? = first :: others) :
    (untilError ending items).2 = some first ∧
      exists rest, items = (untilError ending items).1.map Except.ok ++ .error first :: rest := by
  rcases split_at_error items with ⟨tokens, rest, rfl, rfl | ⟨diagnostic, behind, rfl⟩⟩
  · rw [complaints_append] at found
    cases found
  · rw [complaints_append] at found
    cases (List.cons.inj found).1
    rw [untilError_append]
    refine ⟨rfl, behind, ?_⟩
    rw [untilError, List.append_nil]

theorem scanAll_eq (source : String) :
    scanAll source = ((Cursor.start source).items.items.filterMap Except.toOption ++
      [(Cursor.start source).items.ending],
      (Cursor.start source).items.items.filterMap complaint?) := by
  have same : (fun item : Item => match item with
      | .error diagnostic => some diagnostic
      | .ok _ => none) = complaint? := by
    funext item
    cases item <;> rfl
  rw [<- same]
  rfl

/-- What is read up to the first diagnostic are the tokens that are collected until then, without
the end of the input, and that diagnostic. -/
theorem throughError_eq {items : List Item} {ending : Token} (ends : ending.kind = .endOfInput)
    (others : forall token, .ok token ∈ items -> token.kind ≠ .endOfInput) :
    throughError items =
      ((untilError ending items).1.filter (·.kind != .endOfInput)).map Except.ok ++
        (untilError ending items).2.toList.map Except.error := by
  rcases split_at_error items with ⟨tokens, rest, rfl, stops⟩
  have kept : tokens.filter (·.kind != .endOfInput) = tokens := by
    apply List.filter_eq_self.mpr
    intro token listed
    have inItems := List.mem_append_left rest (List.mem_map_of_mem (f := Except.ok) listed)
    exact bne_iff_ne.mpr (others token inItems)
  rw [throughError_append, untilError_append]
  rcases stops with rfl | ⟨diagnostic, behind, rfl⟩
  · have dropped : [ending].filter (·.kind != .endOfInput) = [] := by
      apply List.filter_cons_of_neg
      rw [ends]
      decide
    simp only [untilError, throughError, List.filter_append, kept, dropped, Option.toList_none,
      List.map_nil, List.append_nil]
  · simp only [untilError, throughError, List.append_nil, kept, Option.toList_some, List.map_cons,
      List.map_nil]

/-- The three ways of scanning a text agree.  Every reading that does not give the end of the input
consumes something, hence reading gives finitely many items and then the end.  Scanning up to the
first diagnostic fails exactly if scanning the whole text finds a diagnostic: the first one, behind
the tokens that were collected up to it; if there is none the tokens are the same.  Pulling gives
these tokens without the end of the input, and then the diagnostic.  Where pulling is left after a
number of items, reading goes on with exactly the items behind them, and so does pulling, unless
what it gave last is the diagnostic at which it stops. -/
theorem ways_of_scanning_agree :
    (forall cursor : Cursor, isEnding cursor.next.1 = false ->
      cursor.next.2.rest.length < cursor.rest.length) ∧
    forall source : String, exists stream : ItemStream, (Cursor.start source).Holds stream ∧
      scanAll source =
        (stream.items.filterMap Except.toOption ++ [stream.ending],
          stream.items.filterMap complaint?) ∧
      ((scan source).2 ≠ none <-> (scanAll source).2 ≠ []) ∧
      ((scanAll source).2 = [] -> scan source = ((scanAll source).1, none)) ∧
      (forall first others, (scanAll source).2 = first :: others ->
        (scan source).2 = some first ∧
        exists rest, stream.items = (scan source).1.map Except.ok ++ .error first :: rest ∧
          (scanAll source).1 =
            (scan source).1 ++ (rest.filterMap Except.toOption ++ [stream.ending])) ∧
      (forall count, count ≤ 0 -> ((Cursor.start source).pull count).1 =
        ((scan source).1.filter (·.kind != .endOfInput)).map Except.ok ++
          (scan source).2.toList.map Except.error) ∧
      forall count, exists pulled after, (Cursor.start source).pull count = (pulled, after) ∧
        (0 < count -> pulled = ((Cursor.start source).pull 0).1.take count.toNat) ∧
        (exists remaining, stream.items = pulled ++ remaining ∧
          after.Holds ⟨remaining, stream.lastLine⟩) ∧
        ((forall diagnostic, .error diagnostic ∉ pulled) ->
          pulled ++ (after.pull 0).1 = ((Cursor.start source).pull 0).1) := by
  refine ⟨fun cursor => length_next_lt, fun source => ?_⟩
  have holds := holds_items (Cursor.start source)
  have collected := scanAll_eq source
  have scanned :
      scan source =
        untilError (Cursor.start source).items.ending (Cursor.start source).items.items :=
    rfl
  generalize (Cursor.start source).items = stream at holds collected scanned
  have unlimited := pull_of_nonpos holds (Int.le_refl 0)
  rw [collected, scanned, unlimited]
  refine ⟨stream, holds, rfl, ?_, untilError_of_clean stream.ending, ?_, ?_, ?_⟩
  · cases complaints : stream.items.filterMap complaint? with
    | nil =>
        rw [untilError_of_clean stream.ending complaints]
        exact ⟨fun failed => absurd rfl failed, fun found => absurd rfl found⟩
    | cons first others =>
        rw [(untilError_of_complaint stream.ending complaints).1]
        exact ⟨fun _ => List.cons_ne_nil _ _, fun _ => Option.some_ne_none _⟩
  · intro first others found
    rcases untilError_of_complaint stream.ending found with ⟨failed, rest, split⟩
    refine ⟨failed, rest, split, ?_⟩
    conv_lhs => rw [split, tokens_append]
    rw [List.append_assoc]
    rfl
  · intro count notPositive
    rw [pull_of_nonpos holds notPositive]
    exact throughError_eq rfl fun token => holds.kind_ne
  · intro count
    refine ⟨_, _, rfl, pull_of_pos holds, ?_, ?_⟩
    · exact (pullWithin_of_holds holds _).2
    · intro clean
      rcases (pullWithin_of_holds holds _).2 with ⟨remaining, split, holdsRemaining⟩
      rcases eq_map_ok_of_clean clean with ⟨tokens, same⟩
      rw [pull_of_nonpos holdsRemaining (Int.le_refl 0), split, same, throughError_append]

/-- A text with two characters that start no token, left after its first token, and a text without
such a character. -/
theorem ways_of_scanning_agree_left :
    let start := Cursor.start "1 ? 2 @"
    let question : Diagnostic := ⟨.scan, 1, "", "Unexpected character '?'."⟩
    (isEnding start.next.1 = false ∧ start.next.2.rest.length < start.rest.length) ∧
      (scanAll "1 ? 2 @").2.length = 2 ∧ (scan "1 ? 2 @").2 = some question ∧
      (start.pull 0).1 = [.ok ⟨.number, "1", 1⟩, .error question] ∧
      (exists after, start.pull 1 = ([.ok ⟨.number, "1", 1⟩], after) ∧
        (after.pull 0).1 = [.error question]) ∧
      (scanAll "1 2").2 = [] ∧ scan "1 2" = ((scanAll "1 2").1, none) := by
  intro start question
  have goesOn : isEnding start.next.1 = false := by decide +kernel
  have complaints :
      (scanAll "1 ? 2 @").2 = [question, ⟨.scan, 1, "", "Unexpected character '@'."⟩] := by
    decide +kernel
  have stopped : scan "1 ? 2 @" = ([⟨.number, "1", 1⟩], some question) := by decide +kernel
  have clean : (scanAll "1 2").2 = [] := by decide +kernel
  rcases ways_of_scanning_agree with ⟨progress, agree⟩
  rcases agree "1 ? 2 @" with ⟨stream, -, -, -, -, first, toEnd, left⟩
  rcases agree "1 2" with ⟨-, -, -, -, same, -⟩
  have whole : (start.pull 0).1 = [.ok ⟨.number, "1", 1⟩, .error question] := by
    rw [toEnd 0 (Int.le_refl 0), stopped]
    rfl
  rcases left 1 with ⟨pulled, after, pulls, taken, -, resumed⟩
  have one : pulled = [.ok ⟨.number, "1", 1⟩] := by
    rw [taken Int.one_pos, whole]
    rfl
  rw [one, whole] at resumed
  rw [one] at pulls
  refine ⟨⟨goesOn, progress start goesOn⟩, ?_, (first _ _ complaints).1, whole,
    ⟨after, pulls, ?_⟩, clean, same clean⟩
  · rw [complaints]
    rfl
  · have other : forall diagnostic, (.error diagnostic : Item) ∉ [Except.ok ⟨.number, "1", 1⟩] := by
      intro diagnostic listed
      cases List.mem_singleton.mp listed
    exact (List.cons.inj (resumed other)).2

end Token

end LoxNative
