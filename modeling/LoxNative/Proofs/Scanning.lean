import Mathlib
import LoxNative.Token.Scanner

namespace LoxNative

/-!
# The items of a text

Reading one item after another from a cursor gives the items of its stream, and then the end of the
input.  The stream is collected with the number of characters as a bound; that the bound is never
reached is because every item but the end consumes a character.

Tokens that come from scanning are spelled as their kind demands.  A reader of tokens may therefore
look at the kind alone and still know the text of a keyword, or that a string stands in quotes.
-/

namespace Cursor

/-! ## Reading consumes -/

theorem length_skipLayout_le (inside : Bool) (text : List Char) (line : Nat) :
    (skipLayout inside text line).rest.length ≤ text.length := by
  fun_induction skipLayout inside text line with
  | case1 => exact Nat.le_refl _
  | case2 rest line ih => exact Nat.le_succ_of_le ih
  | case3 c rest line other ih => exact Nat.le_succ_of_le ih
  | case4 rest line ih => exact Nat.le_succ_of_le (Nat.le_succ_of_le ih)
  | case5 c rest line notComment layout ih => exact Nat.le_succ_of_le ih
  | case6 c rest line notComment other => exact Nat.le_refl _

theorem length_dropWhile_lt {holds : Char -> Bool} {c : Char} (first : holds c = true)
    (rest : List Char) : ((c :: rest).dropWhile holds).length < (c :: rest).length := by
  rw [List.dropWhile_cons_of_pos first]
  exact Nat.lt_succ_of_le (List.length_dropWhile_le holds rest)

theorem length_splitNumber_lt {c : Char} (digit : c.isDigit = true) (rest : List Char) :
    (splitNumber (c :: rest)).2.length < (c :: rest).length := by
  have shorter := length_dropWhile_lt digit rest
  simp only [splitNumber]
  split
  · rename_i next others same
    rw [same] at shorter
    split
    · have fewer := List.length_dropWhile_le Char.isDigit (next :: others)
      simp only [List.length_cons] at shorter fewer ⊢
      omega
    · exact shorter
  · exact shorter

theorem length_takeString_lt (c : Char) (body : List Char) (line : Nat) :
    (takeString body line).2.rest.length < (c :: body).length := by
  have fewer := List.length_dropWhile_le (· != '"') body
  rw [takeString]
  split
  · rename_i quote rest same
    rw [same] at fewer
    change rest.length < body.length + 1
    rw [List.length_cons] at fewer
    omega
  · exact Nat.succ_pos _

theorem length_takeComparison_lt (c symbol : Char) (plain withEqual : TokenKind) (rest : List Char)
    (line : Nat) :
    (takeComparison symbol plain withEqual rest line).2.rest.length < (c :: rest).length := by
  unfold takeComparison
  split
  · exact Nat.lt_succ_of_lt (Nat.lt_succ_self _)
  · exact Nat.lt_succ_self _

theorem length_takeSymbol_lt (c : Char) (rest : List Char) (line : Nat) :
    (takeSymbol c rest line).2.rest.length < (c :: rest).length := by
  unfold takeSymbol
  split
  case h_12 | h_13 | h_14 | h_15 => exact length_takeComparison_lt _ _ _ _ _ _
  all_goals exact Nat.lt_succ_self _

theorem length_takeItem_lt (c : Char) (rest : List Char) (line : Nat) :
    (takeItem (c :: rest) line).2.rest.length < (c :: rest).length := by
  rw [takeItem]
  split
  · rename_i digit
    exact length_splitNumber_lt digit rest
  · split
    · rename_i starts
      have part : isWordPart c = true := by
        rw [isWordPart, starts]
        rfl
      exact length_dropWhile_lt part rest
    · split
      · exact length_takeString_lt c rest line
      · exact length_takeSymbol_lt c rest line

/-- Every item other than the end of the input consumes a character. -/
theorem length_next_lt {cursor : Cursor} (goesOn : isEnding cursor.next.1 = false) :
    cursor.next.2.rest.length < cursor.rest.length := by
  have skipped := length_skipLayout_le false cursor.rest cursor.line
  rw [next] at goesOn ⊢
  generalize skipLayout false cursor.rest cursor.line = place at skipped goesOn ⊢
  rcases place with ⟨_ | ⟨c, rest⟩, line⟩
  · cases goesOn
  · exact Nat.lt_of_lt_of_le (length_takeItem_lt c rest line) skipped

end Cursor

/-! ## Spelling -/

/-- A token is spelled as its kind demands: strings stand in quotes, and a word of the language is
that word. -/
structure Token.Spelled (token : Token) : Prop where
  string : token.kind = .string -> exists raw, token.lexeme = "\"" ++ raw ++ "\""
  word : forall word, (word, token.kind) ∈ TokenKind.keywords -> token.lexeme = word

namespace Cursor

open Token

/-- An item is spelled, if it is a token. -/
def IsSpelled (item : Item) : Prop :=
  forall token, item = .ok token -> Spelled token

/-- A kind that neither strings nor words have puts no condition on the text. -/
theorem spelled_of_free {kind : TokenKind}
    (free : kind ∉ TokenKind.string :: TokenKind.keywords.map Prod.snd) (lexeme : String)
    (line : Int) :
    Spelled ⟨kind, lexeme, line⟩ := by
  refine ⟨fun string => ?_, fun word listed => ?_⟩
  · exact absurd (List.mem_cons.mpr (Or.inl string)) free
  · exact absurd (List.mem_cons_of_mem _ (List.mem_map_of_mem listed)) free

theorem isSpelled_take {kind : TokenKind}
    (free : kind ∉ TokenKind.string :: TokenKind.keywords.map Prod.snd) (lexeme rest : List Char)
    (line : Nat) : IsSpelled (take kind lexeme rest line).1 := by
  intro token same
  cases same
  exact spelled_of_free free _ _

theorem isSpelled_takeComparison {symbol : Char} {plain withEqual : TokenKind}
    (freePlain : plain ∉ TokenKind.string :: TokenKind.keywords.map Prod.snd)
    (freeEqual : withEqual ∉ TokenKind.string :: TokenKind.keywords.map Prod.snd) (rest : List Char)
    (line : Nat) : IsSpelled (takeComparison symbol plain withEqual rest line).1 := by
  unfold takeComparison
  split
  · exact isSpelled_take freeEqual _ _ _
  · exact isSpelled_take freePlain _ _ _

theorem isSpelled_takeSymbol (c : Char) (rest : List Char) (line : Nat) :
    IsSpelled (takeSymbol c rest line).1 := by
  unfold takeSymbol
  split
  case h_12 | h_13 | h_14 | h_15 => exact isSpelled_takeComparison (by decide) (by decide) _ _
  case h_16 => exact fun token same => nomatch same
  all_goals exact isSpelled_take (by decide) _ _ _

theorem isSpelled_takeString (body : List Char) (line : Nat) :
    IsSpelled (takeString body line).1 := by
  rw [takeString]
  split
  · intro token same
    cases same
    refine ⟨fun _ => ⟨String.ofList (body.takeWhile (· != '"')), ?_⟩, fun word listed => ?_⟩
    · apply String.toList_injective
      simp
    · have plain : TokenKind.string ∉ TokenKind.keywords.map Prod.snd := by decide
      exact absurd (List.mem_map_of_mem listed) plain
  · exact fun token same => nomatch same

theorem ofWord_cases (word : String) :
    TokenKind.ofWord word = .identifier ∨ (word, TokenKind.ofWord word) ∈ TokenKind.keywords := by
  rw [TokenKind.ofWord]
  cases found : TokenKind.keywords.lookup word with
  | none => exact Or.inl rfl
  | some kind =>
      right
      rcases List.lookup_eq_some_iff.mp found with ⟨before, after, split, -⟩
      rw [split]
      exact List.mem_append_right before List.mem_cons_self

theorem isSpelled_word (word rest : List Char) (line : Nat) :
    IsSpelled (take (.ofWord (String.ofList word)) word rest line).1 := by
  have plain : forall entry, entry ∈ TokenKind.keywords -> entry.2 ≠ .string := by decide
  have distinct : forall first, first ∈ TokenKind.keywords ->
      forall second, second ∈ TokenKind.keywords -> first.2 = second.2 -> first.1 = second.1 := by
    decide
  intro token same
  cases same
  rcases ofWord_cases (String.ofList word) with identifier | listed
  · rw [identifier]
    exact spelled_of_free (by decide) _ _
  · refine ⟨fun string => absurd string (plain _ listed), fun other known => ?_⟩
    exact distinct _ listed _ known rfl

theorem isSpelled_next (cursor : Cursor) : IsSpelled cursor.next.1 := by
  rw [next]
  generalize skipLayout false cursor.rest cursor.line = place
  rcases place with ⟨_ | ⟨c, rest⟩, line⟩
  · intro token same
    cases same
    exact spelled_of_free (by decide) _ _
  · rw [takeItem]
    split
    · exact isSpelled_take (by decide) _ _ _
    · split
      · exact isSpelled_word _ _ _
      · split
        · exact isSpelled_takeString rest line
        · exact isSpelled_takeSymbol c rest line

/-! ## The stream of items -/

/-- The cursor behind a number of items. -/
def skip : Nat -> Cursor -> Cursor
  | 0, cursor => cursor
  | count + 1, cursor => cursor.next.2.skip count

/-- The item behind a number of others. -/
def item (count : Nat) (cursor : Cursor) : Item :=
  (cursor.skip count).peek

theorem isSpelled_item (count : Nat) (cursor : Cursor) : IsSpelled (cursor.item count) :=
  isSpelled_next (cursor.skip count)

/-- What the stream of a cursor holds: the items that reading gives, none of them the end of the
input, and the end behind them. -/
structure Holds (cursor : Cursor) (stream : ItemStream) : Prop where
  listed : forall index, index < stream.items.length ->
    stream.items[index]? = some (cursor.item index) ∧ isEnding (cursor.item index) = false
  ended : cursor.item stream.items.length = .ok stream.ending

theorem isEnding_takeItem (c : Char) (rest : List Char) (line : Nat) :
    isEnding (takeItem (c :: rest) line).1 = false := by
  have comparison : forall plain withEqual, plain ≠ .endOfInput -> withEqual ≠ .endOfInput ->
      isEnding (takeComparison c plain withEqual rest line).1 = false := by
    intro plain withEqual notPlain notEqual
    unfold takeComparison
    split
    · exact beq_false_of_ne notEqual
    · exact beq_false_of_ne notPlain
  rw [takeItem]
  split
  · rfl
  · split
    · have other : forall entry, entry ∈ TokenKind.keywords -> entry.2 ≠ .endOfInput := by decide
      rcases ofWord_cases (String.ofList ((c :: rest).takeWhile isWordPart)) with
        identifier | listed
      · simp only [identifier]
        rfl
      · exact beq_false_of_ne (other _ listed)
    · split
      · rw [takeString]
        split <;> rfl
      · unfold takeSymbol
        split
        case h_12 | h_13 | h_14 | h_15 => exact comparison _ _ (by decide) (by decide)
        all_goals rfl

theorem ending_of_isEnding {cursor : Cursor} (ends : isEnding cursor.next.1 = true) :
    cursor.next.1 = .ok ⟨.endOfInput, "", cursor.next.2.line⟩ := by
  rw [next] at ends ⊢
  generalize skipLayout false cursor.rest cursor.line = place at ends ⊢
  rcases place with ⟨_ | ⟨c, rest⟩, line⟩
  · rfl
  · rw [isEnding_takeItem] at ends
    cases ends

theorem holds_itemsWithin {fuel : Nat} {cursor : Cursor} (enough : cursor.rest.length < fuel) :
    cursor.Holds (cursor.itemsWithin fuel) := by
  induction fuel generalizing cursor with
  | zero => exact absurd enough (Nat.not_lt_zero _)
  | succ fuel ih =>
      have first : cursor.itemsWithin (fuel + 1) =
          if isEnding cursor.next.1 = true then ⟨[], cursor.next.2.line⟩
          else .cons cursor.next.1 (cursor.next.2.itemsWithin fuel) := rfl
      cases ends : isEnding cursor.next.1 with
      | true =>
          rw [first, if_pos ends]
          exact ⟨fun index inside => absurd inside (Nat.not_lt_zero _), ending_of_isEnding ends⟩
      | false =>
          have shorter := length_next_lt ends
          have rest := ih (by omega : cursor.next.2.rest.length < fuel)
          rw [first, if_neg (Bool.eq_false_iff.mp ends)]
          refine ⟨?_, rest.ended⟩
          intro index inside
          cases index with
          | zero => exact ⟨rfl, ends⟩
          | succ index => exact rest.listed index (Nat.lt_of_succ_lt_succ inside)

theorem holds_items (cursor : Cursor) : cursor.Holds cursor.items :=
  holds_itemsWithin (Nat.lt_succ_self _)

section Stream

variable {cursor : Cursor} {stream : ItemStream}

/-- The items of a stream are those that reading gives. -/
theorem Holds.item_eq (holds : cursor.Holds stream) {index : Nat} {found : Item}
    (listed : stream.items[index]? = some found) : cursor.item index = found := by
  have inside : index < stream.items.length := (List.getElem?_eq_some_iff.mp listed).1
  exact Option.some.inj ((holds.listed index inside).1.symm.trans listed)

theorem Holds.isSpelled (holds : cursor.Holds stream) {token : Token}
    (listed : .ok token ∈ stream.items) : Spelled token := by
  rcases List.mem_iff_getElem?.mp listed with ⟨index, found⟩
  exact isSpelled_item index cursor token (holds.item_eq found)

/-- Tokens that reading gives stand at the beginning of the stream, unless the end of the input is
among them. -/
theorem Holds.split (holds : cursor.Holds stream) {tokens : List Token}
    (given : forall index token, tokens[index]? = some token -> cursor.item index = .ok token)
    (unended : forall token, token ∈ tokens -> token.kind ≠ .endOfInput) :
    exists rest, stream.items = tokens.map Except.ok ++ rest := by
  have shorter : tokens.length ≤ stream.items.length := by
    by_contra longer
    have inside := Nat.lt_of_not_le longer
    have found := List.getElem?_eq_getElem inside
    have same := (given _ _ found).symm.trans holds.ended
    refine unended _ (List.getElem_mem inside) ?_
    rw [Except.ok.inj same]
    rfl
  refine ⟨stream.items.drop tokens.length, ?_⟩
  have taken : stream.items.take tokens.length = tokens.map Except.ok := by
    apply List.ext_getElem?
    intro index
    by_cases inside : index < tokens.length
    · have found := List.getElem?_eq_getElem inside
      rw [List.getElem?_take_of_lt inside, List.getElem?_map, found,
        (holds.listed index (by omega)).1, given _ _ found]
      rfl
    · rw [List.getElem?_eq_none (by rw [List.length_take]; omega),
        List.getElem?_eq_none (by rw [List.length_map]; omega)]
  rw [<- taken, List.take_append_drop]

theorem Holds.given (holds : cursor.Holds stream) {tokens : List Token} {rest : List Item}
    (split : stream.items = tokens.map Except.ok ++ rest) {index : Nat} {token : Token}
    (found : tokens[index]? = some token) : cursor.item index = .ok token := by
  have inside : index < tokens.length := (List.getElem?_eq_some_iff.mp found).1
  apply holds.item_eq
  rw [split, List.getElem?_append_left (by rw [List.length_map]; exact inside),
    List.getElem?_map, found]
  rfl

/-- The item behind the first ones of a stream: the next one, or the end of the input. -/
theorem Holds.item_length (holds : cursor.Holds stream) {tokens : List Token} {rest : List Item}
    (split : stream.items = tokens.map Except.ok ++ rest) :
    cursor.item tokens.length = rest.head?.getD (.ok stream.ending) := by
  cases rest with
  | nil =>
      have ended := holds.ended
      rw [split, List.append_nil, List.length_map] at ended
      exact ended
  | cons next others =>
      apply holds.item_eq
      rw [split, List.getElem?_append_right (by rw [List.length_map]), List.length_map,
        Nat.sub_self]
      rfl

end Stream

end Cursor

namespace Token

theorem untilError_ok (ending token : Token) (rest : List Item) :
    untilError ending (.ok token :: rest) =
      (token :: (untilError ending rest).1, (untilError ending rest).2) :=
  rfl

theorem untilError_eq {ending : Token} {items : List Item} {tokens : List Token} :
    untilError ending items = (tokens, none) <->
      exists before, items = before.map Except.ok ∧ tokens = before ++ [ending] := by
  induction items generalizing tokens with
  | nil =>
      constructor
      · intro scanned
        exact ⟨[], rfl, (Prod.mk.inj scanned).1.symm⟩
      · rintro ⟨before, empty, rfl⟩
        rw [List.map_eq_nil_iff.mp empty.symm]
        rfl
  | cons item items ih =>
      rcases item with diagnostic | token
      · constructor
        · intro scanned
          cases (Prod.mk.inj scanned).2
        · rintro ⟨before, same, -⟩
          cases before <;> cases same
      · rw [untilError_ok]
        constructor
        · intro scanned
          rcases Prod.mk.inj scanned with ⟨rfl, clean⟩
          rcases ih.mp (Prod.ext rfl clean) with ⟨before, same, rest⟩
          exact ⟨token :: before, congrArg (List.cons _) same, congrArg (List.cons token) rest⟩
        · rintro ⟨before, same, rfl⟩
          cases before with
          | nil => cases same
          | cons head before =>
              rcases List.cons.inj same with ⟨sameHead, rest⟩
              rw [Except.ok.inj sameHead, ih.mpr ⟨before, rest, rfl⟩]
              rfl

end Token

end LoxNative
