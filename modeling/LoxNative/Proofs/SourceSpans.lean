import Mathlib
import LoxNative.Proofs.Scanning

namespace LoxNative
namespace Cursor

/-!
# Where the items of a text stand

Scanning loses nothing.  A text is laid out as gaps and spans in turn: every span is what one item
was read from, and a gap holds nothing but blanks and comments.  Put together again in order, gaps
and spans are the text, so no character is dropped, read twice or counted for the wrong item.

Line numbers need no argument of their own.  The line of a place is the line of the beginning plus
the line breaks in between, and each step keeps this, whether the breaks stand in blanks, behind
comments or inside a string.
-/

/-! ## Gaps and spans -/

/-- The characters that separate items: space, tab, carriage return, line feed, form feed and
vertical tab. -/
def blanks : List Char :=
  [' ', '\t', '\r', '\n', Char.ofNat 0x0C, Char.ofNat 0x0B]

/-- A line is over in front of some text: the text is empty or goes on with a line break. -/
def EndsLine : List Char -> Prop
  | [] => True
  | c :: _ => c = '\n'

/-- A gap in front of some text: blanks, and comments that reach up to the end of their line.  The
line break behind a comment is not part of the comment. -/
inductive Gap (after : List Char) : List Char -> Prop
  | nil : Gap after []
  | blank {c : Char} {gap : List Char} : c ∈ blanks -> Gap after gap -> Gap after (c :: gap)
  | comment {body gap : List Char} :
      '\n' ∉ body -> EndsLine (gap ++ after) -> Gap after gap ->
      Gap after ('/' :: '/' :: (body ++ gap))

/-- The item that is read from a span of text which begins on a line.  A token is spelled by its
span, an unexpected character is a span of its own, and a string that is not closed takes everything
from its quote to the end of the input. -/
inductive Spans (line : Nat) : List Char -> List Char -> Item -> Prop
  | token {kind : TokenKind} {text after : List Char} :
      kind ≠ .endOfInput -> text ≠ [] ->
      Spans line text after (.ok ⟨kind, String.ofList text, line⟩)
  | unexpected {c : Char} {after : List Char} :
      Spans line [c] after (.error ⟨.scan, line, "", s!"Unexpected character '{c}'."⟩)
  | unterminated {body : List Char} :
      '"' ∉ body -> Spans line ('"' :: body) [] (.error ⟨.scan, line, "", "Unterminated string."⟩)

/-- An item with the span it was read from and the gap in front of the span. -/
structure Piece where
  gap : List Char
  text : List Char
  item : Item

/-- The text of a gap and the span behind it. -/
def Piece.whole (piece : Piece) : List Char :=
  piece.gap ++ piece.text

/-- The text that pieces take up one behind the other. -/
def covered (pieces : List Piece) : List Char :=
  pieces.flatMap Piece.whole

/-- Pieces lay out the text from a place on, up to a last gap.  Reading from the place gives their
items in order, each with the line its span begins on; behind an item the cursor stands at the end
of its span, on the line reached there; and once the pieces are used up, reading gives the end of
the input again and again. -/
structure LaysOut (cursor : Cursor) (pieces : List Piece) (last : List Char) : Prop where
  text : cursor.rest = covered pieces ++ last
  gap : Gap [] last
  reads : forall before piece after, pieces = before ++ piece :: after ->
    cursor.item before.length = piece.item ∧
      Gap (piece.text ++ (covered after ++ last)) piece.gap ∧
      Spans (cursor.line + lineBreaks (covered before ++ piece.gap)) piece.text
        (covered after ++ last)
        piece.item ∧
      cursor.skip (before.length + 1) =
        ⟨covered after ++ last, cursor.line + lineBreaks (covered before ++ piece.whole)⟩
  ended : forall count, pieces.length ≤ count ->
    cursor.item count = .ok ⟨.endOfInput, "", (cursor.line + lineBreaks cursor.rest : Nat)⟩ ∧
      cursor.skip (count + 1) = ⟨[], cursor.line + lineBreaks cursor.rest⟩

theorem lineBreaks_append (first second : List Char) :
    lineBreaks (first ++ second) = lineBreaks first + lineBreaks second :=
  List.count_append

theorem lineBreaks_cons (c : Char) (rest : List Char) :
    lineBreaks (c :: rest) = (if c = '\n' then 1 else 0) + lineBreaks rest := by
  rw [lineBreaks, List.count_cons, Nat.add_comm]
  simp only [beq_iff_eq]
  rfl

/-! ## Skipping gaps -/

theorem mem_blanks_of_isLayout {c : Char} (layout : isLayout c = true) : c ∈ blanks := by
  have byCode (code : Nat) (same : c.toNat = code) : c = Char.ofNat code := by
    rw [<- same, Char.ofNat_toNat]
  simp only [isLayout, Bool.or_eq_true, beq_iff_eq] at layout
  simp only [blanks, List.mem_cons, List.not_mem_nil, or_false]
  rcases layout with ((((same | same) | same) | same) | same) | same
  · exact Or.inl same
  · exact Or.inr (Or.inl same)
  · exact Or.inr (Or.inr (Or.inl same))
  · exact Or.inr (Or.inr (Or.inr (Or.inl same)))
  · exact Or.inr (Or.inr (Or.inr (Or.inr (Or.inl (byCode _ same)))))
  · exact Or.inr (Or.inr (Or.inr (Or.inr (Or.inr (byCode _ same)))))

/-- What is skipped in front of some text, from outside a comment or from inside one. -/
def Skipped (after : List Char) : Bool -> List Char -> Prop
  | false, gap => Gap after gap
  | true, gap => exists body rest, gap = body ++ rest ∧ '\n' ∉ body ∧ EndsLine (rest ++ after) ∧
      Gap after rest

/-- Skipping passes over a gap and counts its line breaks.  The induction is that of skipping;
inside a comment its body is still growing. -/
theorem exists_skipped (inside : Bool) (text : List Char) (line : Nat) :
    exists gap after, text = gap ++ after ∧ Skipped after inside gap ∧
      skipLayout inside text line = ⟨after, line + lineBreaks gap⟩ := by
  fun_induction skipLayout inside text line with
  | case1 inside line =>
      refine ⟨[], [], rfl, ?_, rfl⟩
      cases inside with
      | false => exact .nil
      | true => exact ⟨[], [], rfl, List.not_mem_nil, trivial, .nil⟩
  | case2 rest line ih =>
      rcases ih with ⟨gap, after, rfl, skipped, reached⟩
      have blank : '\n' ∈ blanks := by decide
      refine ⟨'\n' :: gap, after, rfl,
        ⟨[], '\n' :: gap, rfl, List.not_mem_nil, rfl, .blank blank skipped⟩, ?_⟩
      rw [reached, lineBreaks_cons, if_pos rfl, Nat.add_assoc]
  | case3 c rest line other ih =>
      rcases ih with ⟨gap, after, rfl, ⟨body, tail, rfl, unbroken, ends, skipped⟩, reached⟩
      refine ⟨c :: (body ++ tail), after, rfl, ⟨c :: body, tail, rfl, ?_, ends, skipped⟩, ?_⟩
      · exact List.not_mem_cons_of_ne_of_not_mem (Ne.symm other) unbroken
      · rw [reached, lineBreaks_cons, if_neg other, Nat.zero_add]
  | case4 rest line ih =>
      rcases ih with ⟨gap, after, rfl, ⟨body, tail, rfl, unbroken, ends, skipped⟩, reached⟩
      refine ⟨'/' :: '/' :: (body ++ tail), after, rfl, .comment unbroken ends skipped, ?_⟩
      rw [reached, lineBreaks_cons, lineBreaks_cons, if_neg (by decide), Nat.zero_add, Nat.zero_add]
  | case5 c rest line notComment layout ih =>
      rcases ih with ⟨gap, after, rfl, skipped, reached⟩
      refine ⟨c :: gap, after, rfl, .blank (mem_blanks_of_isLayout layout) skipped, ?_⟩
      rw [reached, lineBreaks_cons]
      split <;> simp only [Nat.add_assoc, Nat.zero_add]
  | case6 c rest line notComment other => exact ⟨[], c :: rest, rfl, .nil, rfl⟩

/-! ## Taking spans -/

/-- What was taken from a text is the item of a span at its head, and the cursor stands behind the
span. -/
def Takes (text : List Char) (line : Nat) (result : Item × Cursor) : Prop :=
  exists span after, text = span ++ after ∧ Spans line span after result.1 ∧
    result.2 = ⟨after, line + lineBreaks span⟩

theorem takes_take {kind : TokenKind} (other : kind ≠ .endOfInput) {lexeme rest text : List Char}
    (nonempty : lexeme ≠ []) (split : text = lexeme ++ rest) (line : Nat) :
    Takes text line (take kind lexeme rest line) :=
  ⟨lexeme, rest, split, .token other nonempty, rfl⟩

theorem splitNumber_append (text : List Char) :
    (splitNumber text).1 ++ (splitNumber text).2 = text := by
  have whole : text.takeWhile Char.isDigit ++ text.dropWhile Char.isDigit = text :=
    List.takeWhile_append_dropWhile
  simp only [splitNumber]
  split
  · rename_i digit rest same
    rw [same] at whole
    split
    · have fraction :
          (digit :: rest).takeWhile Char.isDigit ++ (digit :: rest).dropWhile Char.isDigit =
          digit :: rest := List.takeWhile_append_dropWhile
      rw [List.append_assoc, List.cons_append, fraction]
      exact whole
    · exact whole
  · exact whole

theorem splitNumber_ne_nil {c : Char} (digit : c.isDigit = true) (rest : List Char) :
    (splitNumber (c :: rest)).1 ≠ [] := by
  intro empty
  have shorter := length_splitNumber_lt digit rest
  have whole := congrArg List.length (splitNumber_append (c :: rest))
  rw [empty, List.nil_append] at whole
  omega

theorem takes_string (body : List Char) (line : Nat) :
    Takes ('"' :: body) line (takeString body line) := by
  have whole : body.takeWhile (· != '"') ++ body.dropWhile (· != '"') = body :=
    List.takeWhile_append_dropWhile
  rw [takeString]
  split
  · rename_i quote rest same
    have closing : quote = '"' := by
      have stops :=
        List.head_dropWhile_not (· != '"') (l := body) (by rw [same]; exact List.cons_ne_nil _ _)
      simp only [same, List.head_cons, bne_eq_false_iff_eq] at stops
      exact stops
    rw [same, closing] at whole
    refine takes_take (by decide) (by simp) ?_ line
    rw [List.append_assoc, List.cons_append, List.singleton_append, whole]
  · rename_i same
    have unclosed : '"' ∉ body := by
      intro member
      have stays := List.dropWhile_eq_nil_iff.mp same _ member
      exact absurd stays (by decide)
    exact ⟨'"' :: body, [], (List.append_nil _).symm, .unterminated unclosed, rfl⟩

theorem takes_comparison {plain withEqual : TokenKind} (plainOther : plain ≠ .endOfInput)
    (equalOther : withEqual ≠ .endOfInput) (c : Char) (rest : List Char) (line : Nat) :
    Takes (c :: rest) line (takeComparison c plain withEqual rest line) := by
  unfold takeComparison
  split
  · exact takes_take equalOther (by simp) (by rfl) line
  · exact takes_take plainOther (by simp) (by rfl) line

theorem takes_symbol (c : Char) (rest : List Char) (line : Nat) :
    Takes (c :: rest) line (takeSymbol c rest line) := by
  unfold takeSymbol
  split
  case h_12 | h_13 | h_14 | h_15 => exact takes_comparison (by decide) (by decide) _ rest line
  case h_16 => exact ⟨[c], rest, rfl, .unexpected, rfl⟩
  all_goals exact takes_take (by decide) (by simp) (by rfl) line

theorem ofWord_ne_endOfInput (word : String) : TokenKind.ofWord word ≠ .endOfInput := by
  have other : forall entry, entry ∈ TokenKind.keywords -> entry.2 ≠ .endOfInput := by decide
  rcases ofWord_cases word with identifier | listed
  · rw [identifier]
    decide
  · exact other _ listed

/-- Where there is text left, an item is taken from its head. -/
theorem takes_item (c : Char) (rest : List Char) (line : Nat) :
    Takes (c :: rest) line (takeItem (c :: rest) line) := by
  rw [takeItem]
  split
  · rename_i digit
    exact takes_take (by decide) (splitNumber_ne_nil digit rest) (splitNumber_append _).symm line
  · split
    · rename_i starts
      have part : isWordPart c = true := by
        rw [isWordPart, starts]
        rfl
      have nonempty : (c :: rest).takeWhile isWordPart ≠ [] := by
        rw [List.takeWhile_cons_of_pos part]
        exact List.cons_ne_nil _ _
      exact takes_take (ofWord_ne_endOfInput _) nonempty List.takeWhile_append_dropWhile.symm line
    · split
      · rename_i quote
        rw [quote]
        exact takes_string rest line
      · exact takes_symbol c rest line

/-! ## One item -/

/-- Reading one item passes over a gap and a span, or over the last gap of the input. -/
theorem next_cases (cursor : Cursor) :
    (exists (piece : Piece) (after : List Char), cursor.rest = piece.whole ++ after ∧
      Gap (piece.text ++ after) piece.gap ∧
      Spans (cursor.line + lineBreaks piece.gap) piece.text after piece.item ∧
      cursor.next = (piece.item, ⟨after, cursor.line + lineBreaks piece.whole⟩)) ∨
    (Gap [] cursor.rest ∧
      cursor.next = (.ok ⟨.endOfInput, "", (cursor.line + lineBreaks cursor.rest : Nat)⟩,
        ⟨[], cursor.line + lineBreaks cursor.rest⟩)) := by
  rcases exists_skipped false cursor.rest cursor.line with ⟨gap, text, split, skipped, reached⟩
  rw [next, reached]
  cases text with
  | nil =>
      rw [List.append_nil] at split
      rw [split]
      exact Or.inr ⟨skipped, rfl⟩
  | cons c rest =>
      rcases takes_item c rest (cursor.line + lineBreaks gap) with
        ⟨span, after, taken, spans, behind⟩
      refine Or.inl ⟨⟨gap, span, _⟩, after, ?_, ?_, spans, Prod.ext rfl ?_⟩
      · rw [split, taken, Piece.whole, List.append_assoc]
      · rw [<- taken]
        exact skipped
      · rw [behind, Piece.whole, lineBreaks_append, Nat.add_assoc]

theorem Spans.text_ne_nil {line : Nat} {text after : List Char} {item : Item}
    (spans : Spans line text after item) : text ≠ [] := by
  cases spans with
  | token other nonempty => exact nonempty
  | unexpected => exact List.cons_ne_nil _ _
  | unterminated unclosed => exact List.cons_ne_nil _ _

/-- A token is spelled by its span. -/
theorem Spans.lexeme_eq {line : Nat} {text after : List Char} {token : Token}
    (spans : Spans line text after (.ok token)) : token.lexeme.toList = text := by
  cases spans with
  | token other nonempty => exact String.toList_ofList

theorem Spans.line_eq {line : Nat} {text after : List Char} {token : Token}
    (spans : Spans line text after (.ok token)) : token.line = line := by
  cases spans with
  | token other nonempty => rfl

/-- Only scanning complains about spans. -/
theorem Spans.stage_eq {line : Nat} {text after : List Char} {diagnostic : Diagnostic}
    (spans : Spans line text after (.error diagnostic)) : diagnostic.stage = .scan := by
  cases spans <;> rfl

/-- Every complaint among the items comes from scanning. -/
theorem stage_of_item {cursor : Cursor} {count : Nat} {diagnostic : Diagnostic}
    (found : cursor.item count = .error diagnostic) : diagnostic.stage = .scan := by
  rcases next_cases (cursor.skip count) with ⟨piece, after, -, -, spans, read⟩ | ⟨-, read⟩
  · have same : piece.item = .error diagnostic := by
      rw [<- found, item, peek, read]
    rw [same] at spans
    exact spans.stage_eq
  · have ended := congrArg Prod.fst read
    cases ended.symm.trans found

/-! ## All items -/

theorem covered_cons (piece : Piece) (pieces : List Piece) :
    covered (piece :: pieces) = piece.whole ++ covered pieces :=
  List.flatMap_cons

/-- Nothing but a gap is left: reading gives the end of the input from here on. -/
theorem laysOut_nil {cursor : Cursor} (gap : Gap [] cursor.rest)
    (read : cursor.next = (.ok ⟨.endOfInput, "", (cursor.line + lineBreaks cursor.rest : Nat)⟩,
      ⟨[], cursor.line + lineBreaks cursor.rest⟩)) : LaysOut cursor [] cursor.rest where
  text := rfl
  gap := gap
  reads before piece after split := by
    cases before <;> cases split
  ended count _ := by
    have stays : forall more, skip more (⟨[], cursor.line + lineBreaks cursor.rest⟩ : Cursor) =
        ⟨[], cursor.line + lineBreaks cursor.rest⟩ := by
      intro more
      induction more with
      | zero => rfl
      | succ more ih => exact ih
    cases count with
    | zero =>
        refine ⟨?_, ?_⟩
        · rw [item, skip, peek, read]
        · rw [skip, read, skip]
    | succ count =>
        refine ⟨?_, ?_⟩
        · rw [item, skip, read, stays]
          rfl
        · rw [skip, read, stays]

/-- A piece in front of a layout.  The lines behind the piece begin where its own line breaks
end. -/
theorem LaysOut.cons {cursor : Cursor} {piece : Piece} {pieces : List Piece}
    {last after : List Char}
    (split : cursor.rest = piece.whole ++ after) (gap : Gap (piece.text ++ after) piece.gap)
    (spans : Spans (cursor.line + lineBreaks piece.gap) piece.text after piece.item)
    (read : cursor.next = (piece.item, ⟨after, cursor.line + lineBreaks piece.whole⟩))
    (rest : LaysOut cursor.next.2 pieces last) : LaysOut cursor (piece :: pieces) last := by
  have behind : cursor.next.2 = ⟨after, cursor.line + lineBreaks piece.whole⟩ := by rw [read]
  have afterEq : after = covered pieces ++ last := by
    rw [<- rest.text, behind]
  refine ⟨?_, rest.gap, ?_, ?_⟩
  · rw [split, afterEq, covered_cons, List.append_assoc]
  · intro before other others cut
    cases before with
    | nil =>
        cases cut
        rw [<- afterEq]
        refine ⟨?_, gap, spans, ?_⟩
        · rw [List.length_nil, item, skip, peek, read]
        · rw [List.length_nil, skip, skip, behind]
          rfl
    | cons head before =>
        rcases List.cons.inj cut with ⟨rfl, cutRest⟩
        rcases rest.reads before other others cutRest with ⟨found, otherGap, otherSpans, reached⟩
        have lines (text : List Char) : cursor.next.2.line + lineBreaks (covered before ++ text) =
            cursor.line + lineBreaks (covered (piece :: before) ++ text) := by
          rw [behind, covered_cons, List.append_assoc, lineBreaks_append piece.whole, Nat.add_assoc]
        rw [lines] at otherSpans reached
        exact ⟨found, otherGap, otherSpans, reached⟩
  · intro count enough
    have lines : cursor.next.2.line + lineBreaks cursor.next.2.rest =
        cursor.line + lineBreaks cursor.rest := by
      rw [behind, split, lineBreaks_append, Nat.add_assoc]
    cases count with
    | zero => exact absurd enough (Nat.not_succ_le_zero _)
    | succ count =>
        have ended := rest.ended count (Nat.le_of_succ_le_succ enough)
        rw [lines] at ended
        exact ended

/-- Every place has a layout of the text behind it.  The induction is on the length of that text,
which falls with every span. -/
theorem exists_laysOut (cursor : Cursor) : exists pieces last, LaysOut cursor pieces last := by
  generalize size : cursor.rest.length = length
  induction length using Nat.strong_induction_on generalizing cursor with
  | _ length ih =>
      rcases next_cases cursor with ⟨piece, after, split, gap, spans, read⟩ | ⟨gap, read⟩
      · have shorter : cursor.next.2.rest.length < length := by
          have positive := List.length_pos_of_ne_nil spans.text_ne_nil
          rw [<- size, read, split, Piece.whole, List.length_append, List.length_append]
          change after.length < _
          omega
        rcases ih _ shorter cursor.next.2 rfl with ⟨pieces, last, rest⟩
        exact ⟨piece :: pieces, last, LaysOut.cons split gap spans read rest⟩
      · exact ⟨[], cursor.rest, laysOut_nil gap read⟩

theorem Spans.isEnding_eq {line : Nat} {text after : List Char} {item : Item}
    (spans : Spans line text after item) : isEnding item = false := by
  cases spans with
  | token other nonempty => exact beq_false_of_ne other
  | unexpected => rfl
  | unterminated unclosed => rfl

/-- The collected items are those of the pieces, and the input ends on the line behind all line
breaks. -/
theorem LaysOut.items_eq {cursor : Cursor} {pieces : List Piece} {last : List Char}
    (laysOut : LaysOut cursor pieces last) :
    cursor.items = ⟨pieces.map Piece.item, cursor.line + lineBreaks cursor.rest⟩ := by
  have holds := cursor.holds_items
  have inside (index : Nat) (less : index < pieces.length) :
      cursor.item index = (pieces.get ⟨index, less⟩).item ∧
      isEnding (cursor.item index) = false := by
    have cut : pieces = pieces.take index ++ pieces.get ⟨index, less⟩ ::
        pieces.drop (index + 1) := by
      rw [List.get_eq_getElem, List.getElem_cons_drop less, List.take_append_drop]
    rcases laysOut.reads _ _ _ cut with ⟨found, -, spans, -⟩
    rw [List.length_take, Nat.min_eq_left (Nat.le_of_lt less)] at found
    exact ⟨found, by rw [found]; exact spans.isEnding_eq⟩
  have ending (count : Nat) (enough : pieces.length ≤ count) :
      isEnding (cursor.item count) = true := by
    rw [(laysOut.ended count enough).1]
    rfl
  have lengths : cursor.items.items.length = pieces.length := by
    apply Nat.le_antisymm
    · by_contra longer
      have less := Nat.lt_of_not_le longer
      have goesOn := (holds.listed _ less).2
      rw [ending _ (Nat.le_refl _)] at goesOn
      cases goesOn
    · by_contra longer
      have less := Nat.lt_of_not_le longer
      have goesOn := (inside _ less).2
      rw [holds.ended] at goesOn
      cases goesOn
  have lastLine : (cursor.items.lastLine : Int) = (cursor.line + lineBreaks cursor.rest : Nat) := by
    have found := holds.ended
    rw [lengths, (laysOut.ended _ (Nat.le_refl _)).1] at found
    exact (Token.mk.inj (Except.ok.inj found)).2.2.symm
  have listed : cursor.items.items = pieces.map Piece.item := by
    apply List.ext_getElem?
    intro index
    by_cases less : index < pieces.length
    · rw [(holds.listed index (by omega)).1, (inside index less).1, List.getElem?_map,
        List.getElem?_eq_getElem less]
      rfl
    · rw [List.getElem?_eq_none (by omega), List.getElem?_eq_none (by rw [List.length_map]; omega)]
  rw [<- listed, <- Int.ofNat.inj lastLine]

/-- Scanning is lossless, and its line numbers are exact.  A source is laid out by the items that
scanning gives: their spans follow one another with nothing but blanks and comments between, every
item is spelled by its span and carries the number of the line on which the span begins, and the
cursor always stands on the line that the text behind it ends on.  The first line is line one. -/
theorem items_lay_out_source (source : String) :
    exists pieces last, LaysOut (Cursor.start source) pieces last ∧
      (Cursor.start source).line = 1 ∧ (Cursor.start source).rest = source.toList ∧
      (Cursor.start source).items = ⟨pieces.map Piece.item, 1 + lineBreaks source.toList⟩ := by
  rcases exists_laysOut (Cursor.start source) with ⟨pieces, last, laysOut⟩
  exact ⟨pieces, last, laysOut, rfl, rfl, laysOut.items_eq⟩

end Cursor
end LoxNative
