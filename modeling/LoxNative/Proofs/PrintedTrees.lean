import Mathlib
import LoxNative.Proofs.LayoutIndependence
import LoxNative.Proofs.Rescanning

namespace LoxNative

/-!
# The printed form of a tree is unambiguous

A tree is printed as a literal, or in parentheses: a word that heads it, and its operands, each
behind a blank.  The sign of a difference and the sign of a negation are the same word, so the word
alone does not tell the two apart; the number of operands does.

Trees that were read and hold no string can be told from what is printed, except for the lines of
their literals.  The reason is the classical one.  A printed tree with any text behind it, as long
as the text ends a word, can be split from that text in one way only, and this is shown for two
trees at once.  It needs that heads and literals are single words, and the literals are, because
scanning gives no other numbers than digits with at most one dot.
-/

namespace Expr

/-! ## Words -/

/-- One word of the printed form: not empty, and without blanks and parentheses. -/
structure IsPrintedWord (text : List Char) : Prop where
  nonempty : text ≠ []
  unspaced : ' ' ∉ text
  unopened : '(' ∉ text
  unclosed : ')' ∉ text

/-- A word is over in front of some text: the text is empty, or goes on with a blank or a closing
parenthesis. -/
def EndsWord : List Char -> Prop
  | [] => True
  | c :: _ => c ∈ [' ', ')']

theorem IsPrintedWord.takeWhile_eq {word rest : List Char} (printed : IsPrintedWord word)
    (ends : EndsWord rest) :
    (word ++ rest).takeWhile (fun c => decide (c ∉ [' ', ')'])) = word := by
  have inside : forall c, c ∈ word -> decide (c ∉ [' ', ')']) = true := by
    intro c member
    have unspaced : c ≠ ' ' := fun blank => printed.unspaced (blank ▸ member)
    have unclosed : c ≠ ')' := fun closing => printed.unclosed (closing ▸ member)
    simp [unspaced, unclosed]
  have stops : rest.takeWhile (fun c => decide (c ∉ [' ', ')'])) = [] := by
    cases rest with
    | nil => rfl
    | cons c rest =>
        apply List.takeWhile_cons_of_neg
        rw [decide_eq_true_eq]
        exact fun free => free ends
  rw [List.takeWhile_append_of_pos inside, stops, List.append_nil]

/-- A word can be split from the text behind it in one way only. -/
theorem IsPrintedWord.append_inj {first second rest other : List Char}
    (printed : IsPrintedWord first)
    (printedSecond : IsPrintedWord second) (ends : EndsWord rest) (endsOther : EndsWord other)
    (same : first ++ rest = second ++ other) : first = second ∧ rest = other := by
  have words : first = second := by
    rw [<- printed.takeWhile_eq ends, same, printedSecond.takeWhile_eq endsOther]
  rw [words] at same
  exact ⟨words, List.append_cancel_left same⟩

/-- A word does not begin like a tree in parentheses. -/
theorem IsPrintedWord.append_ne {word rest other : List Char} (printed : IsPrintedWord word) :
    word ++ rest ≠ '(' :: other := by
  intro same
  cases word with
  | nil => exact printed.nonempty rfl
  | cons c word =>
      have opening : c = '(' := (List.cons.inj same).1
      exact printed.unopened (opening ▸ List.mem_cons_self)

end Expr

/-! ## Literals -/

theorem TokenKind.IsNumber.not_mem {text : List Char} (number : IsNumber text) {c : Char}
    (other : ¬ (c.isDigit = true ∨ c = '.')) : c ∉ text :=
  fun member => other (number.isDigit_of_mem member)

namespace LiteralKind

/-- The texts that literals of a kind have, unless they are strings. -/
inductive Shows : LiteralKind -> List Char -> Prop
  | number {text : List Char} : TokenKind.IsNumber text -> Shows .number text
  | truth : Shows .truth "true".toList
  | falsehood : Shows .falsehood "false".toList
  | nil : Shows .nil "nil".toList

/-- The kind of a literal with a given text. -/
def ofText (text : List Char) : LiteralKind :=
  if text = "true".toList then .truth
  else if text = "false".toList then .falsehood
  else if text = "nil".toList then .nil
  else .number

theorem Shows.isPrintedWord {kind : LiteralKind} {text : List Char} (shows : Shows kind text) :
    Expr.IsPrintedWord text := by
  cases shows with
  | number number =>
      exact ⟨(TokenKind.Admits.number number).ne_nil, number.not_mem (by decide),
        number.not_mem (by decide), number.not_mem (by decide)⟩
  | truth => exact ⟨by decide, by decide, by decide, by decide⟩
  | falsehood => exact ⟨by decide, by decide, by decide, by decide⟩
  | nil => exact ⟨by decide, by decide, by decide, by decide⟩

/-- The text of a literal that is no string decides its kind, because no number has a letter. -/
theorem Shows.kind_eq {kind : LiteralKind} {text : List Char} (shows : Shows kind text) :
    kind = ofText text := by
  cases shows with
  | number number =>
      have other (c : Char) (letter : ¬ (c.isDigit = true ∨ c = '.')) {word : List Char}
          (member : c ∈ word) :
          text ≠ word := by
        rintro rfl
        exact number.not_mem letter member
      rw [ofText, if_neg (other 't' (by decide) (by decide)),
        if_neg (other 'f' (by decide) (by decide)), if_neg (other 'n' (by decide) (by decide))]
  | truth => rfl
  | falsehood => rfl
  | nil => rfl

end LiteralKind

/-! ## Operators -/

theorem UnaryOp.mem_of_isListed {op : UnaryOp} (listed : op.isListed = true) :
    op ∈ [negate, not] := by
  cases op with
  | unlisted code => cases listed
  | _ => decide

theorem BinaryOp.mem_of_isListed {op : BinaryOp} (listed : op.isListed = true) : op ∈ all := by
  cases op with
  | unlisted code => cases listed
  | _ => decide

theorem UnaryOp.symbol_inj {op other : UnaryOp} (listed : op.isListed = true)
    (listedOther : other.isListed = true) (same : op.symbol = other.symbol) : op = other := by
  have every : forall first, first ∈ [negate, not] -> forall second, second ∈ [negate, not] ->
      first.symbol = second.symbol -> first = second := by decide
  exact every op (mem_of_isListed listed) other (mem_of_isListed listedOther) same

theorem BinaryOp.symbol_inj {op other : BinaryOp} (listed : op.isListed = true)
    (listedOther : other.isListed = true) (same : op.symbol = other.symbol) : op = other := by
  have every : forall first, first ∈ all -> forall second, second ∈ all ->
      first.symbol = second.symbol -> first = second := by decide
  exact every op (mem_of_isListed listed) other (mem_of_isListed listedOther) same

theorem UnaryOp.symbol_ne_group {op : UnaryOp} (listed : op.isListed = true) :
    op.symbol ≠ "group" := by
  have every : forall first, first ∈ [negate, not] -> first.symbol ≠ "group" := by decide
  exact every op (mem_of_isListed listed)

/-! ## Trees in parentheses -/

namespace Expr

/-- A tree is printed in parentheses: the word that heads it, and its operands. -/
inductive Heads : String -> List Expr -> Expr -> Prop
  | unary {op : UnaryOp} {right : Expr} :
      op.isListed = true -> Heads op.symbol [right] (.unary op right)
  | binary {op : BinaryOp} {left right : Expr} :
      op.isListed = true -> Heads op.symbol [left, right] (.binary op left right)
  | group {inner : Expr} : Heads "group" [inner] (.group inner)

/-- The operands of a tree in print, each behind a blank. -/
def printedOperands (operands : List Expr) : List Char :=
  operands.flatMap fun operand => ' ' :: operand.render.toList

/-- A tree in which every literal is shown as its kind demands, and everything else stands in
parentheses. -/
inductive IsPlain : Expr -> Prop
  | literal {constant : Literal} : constant.kind.Shows constant.raw.toList ->
      IsPlain (.literal constant)
  | compound {word : String} {operands : List Expr} {expr : Expr} :
      Heads word operands expr -> (forall operand, operand ∈ operands -> IsPlain operand) ->
      IsPlain expr

theorem Heads.toList_render {word : String} {operands : List Expr} {expr : Expr}
    (heads : Heads word operands expr) :
    expr.render.toList = '(' :: (word.toList ++ (printedOperands operands ++ [')'])) := by
  cases heads with
  | unary listed => simp [render, printedOperands]
  | binary listed => simp [render, printedOperands]
  | group => simp [render, printedOperands]

theorem Heads.isPrintedWord {word : String} {operands : List Expr} {expr : Expr}
    (heads : Heads word operands expr) : IsPrintedWord word.toList := by
  cases heads with
  | @unary op right listed =>
      cases op with
      | unlisted code => cases listed
      | _ => exact ⟨by decide, by decide, by decide, by decide⟩
  | @binary op left right listed =>
      cases op with
      | unlisted code => cases listed
      | _ => exact ⟨by decide, by decide, by decide, by decide⟩
  | group => exact ⟨by decide, by decide, by decide, by decide⟩

/-- The head of a tree and its operands determine the tree.  A sign that is both a unary and a
binary operator is told apart by the number of operands. -/
theorem Heads.unplaced_eq {word other : String} {operands others : List Expr} {first second : Expr}
    (heads : Heads word operands first) (headsSecond : Heads other others second)
    (sameWord : word = other)
    (sameOperands : operands.map unplaced = others.map unplaced) :
    first.unplaced = second.unplaced := by
  cases heads with
  | unary listed =>
      cases headsSecond with
      | unary listedOther =>
          rw [unplaced, unplaced, UnaryOp.symbol_inj listed listedOther sameWord,
            (List.cons.inj sameOperands).1]
      | binary listedOther => cases (List.cons.inj sameOperands).2
      | group => exact absurd sameWord (UnaryOp.symbol_ne_group listed)
  | binary listed =>
      cases headsSecond with
      | unary listedOther => cases (List.cons.inj sameOperands).2
      | binary listedOther =>
          rcases List.cons.inj sameOperands with ⟨sameLeft, sameRest⟩
          rw [unplaced, unplaced, BinaryOp.symbol_inj listed listedOther sameWord, sameLeft,
            (List.cons.inj sameRest).1]
      | group => cases (List.cons.inj sameOperands).2
  | group =>
      cases headsSecond with
      | unary listedOther => exact absurd sameWord.symm (UnaryOp.symbol_ne_group listedOther)
      | binary listedOther => cases (List.cons.inj sameOperands).2
      | group => rw [unplaced, unplaced, (List.cons.inj sameOperands).1]

/-! ## Reading in one way only -/

/-- The printed form of a tree can be split from the text behind it in one way only, and gives the
tree back. -/
def ReadsUniquely (expr : Expr) : Prop :=
  forall (other : Expr) (rest restOther : List Char), other.IsPlain -> EndsWord rest ->
    EndsWord restOther ->
    expr.render.toList ++ rest = other.render.toList ++ restOther ->
    expr.unplaced = other.unplaced ∧ rest = restOther

theorem endsWord_printedOperands (operands : List Expr) (rest : List Char) :
    EndsWord (printedOperands operands ++ ')' :: rest) := by
  cases operands with
  | nil => exact List.mem_cons_of_mem _ List.mem_cons_self
  | cons operand operands => exact List.mem_cons_self

/-- The operands up to a closing parenthesis can be read in one way only.  Where one list of
operands ends and the other goes on, the parenthesis would have to be a blank. -/
theorem printedOperands_inj {operands others : List Expr} {rest restOther : List Char}
    (unique : forall operand, operand ∈ operands -> operand.ReadsUniquely)
    (plain : forall operand, operand ∈ others -> operand.IsPlain)
    (same : printedOperands operands ++ ')' :: rest = printedOperands others ++ ')' :: restOther) :
    operands.map unplaced = others.map unplaced ∧ rest = restOther := by
  induction operands generalizing others with
  | nil =>
      cases others with
      | nil => exact ⟨rfl, (List.cons.inj same).2⟩
      | cons other others => exact absurd (List.cons.inj same).1 (by decide)
  | cons operand operands ih =>
      cases others with
      | nil => exact absurd (List.cons.inj same).1 (by decide)
      | cons other others =>
          rcases List.forall_mem_cons.mp unique with ⟨uniqueFirst, uniqueRest⟩
          rcases List.forall_mem_cons.mp plain with ⟨plainFirst, plainRest⟩
          simp only [printedOperands, List.flatMap_cons, List.cons_append, List.append_assoc]
            at same
          rcases uniqueFirst other _ _ plainFirst (endsWord_printedOperands operands rest)
            (endsWord_printedOperands others restOther) (List.cons.inj same).2 with
              ⟨sameFirst, behind⟩
          rcases ih uniqueRest plainRest behind with ⟨sameRest, sameBehind⟩
          rw [List.map_cons, List.map_cons, sameFirst, sameRest]
          exact ⟨rfl, sameBehind⟩

/-- A literal is a word, and no tree in parentheses begins like one. -/
theorem readsUniquely_literal {constant : Literal}
    (shows : constant.kind.Shows constant.raw.toList) :
    (Expr.literal constant).ReadsUniquely := by
  intro other rest restOther plain ends endsOther same
  cases plain with
  | @literal second showsSecond =>
      rcases shows.isPrintedWord.append_inj showsSecond.isPrintedWord ends endsOther same with
        ⟨sameRaw, sameRest⟩
      have sameKind : constant.kind = second.kind := by
        rw [shows.kind_eq, showsSecond.kind_eq, sameRaw]
      refine ⟨?_, sameRest⟩
      rw [unplaced, unplaced, Literal.unplaced, Literal.unplaced, sameKind,
        String.toList_injective sameRaw]
  | compound heads operands =>
      rw [heads.toList_render] at same
      exact absurd same shows.isPrintedWord.append_ne

/-- Behind the opening parenthesis come the head and the operands, and each of them can be read in
one way only. -/
theorem Heads.readsUniquely {word : String} {operands : List Expr} {expr : Expr}
    (heads : Heads word operands expr)
    (unique : forall operand, operand ∈ operands -> operand.ReadsUniquely) :
    expr.ReadsUniquely := by
  intro other rest restOther plain ends endsOther same
  rw [heads.toList_render] at same
  cases plain with
  | literal shows => exact absurd same.symm shows.isPrintedWord.append_ne
  | compound headsOther plainOperands =>
      rw [headsOther.toList_render] at same
      simp only [List.cons_append, List.append_assoc, List.nil_append] at same
      rcases heads.isPrintedWord.append_inj headsOther.isPrintedWord (endsWord_printedOperands _ _)
        (endsWord_printedOperands _ _) (List.cons.inj same).2 with ⟨sameWord, behind⟩
      rcases printedOperands_inj unique plainOperands behind with ⟨sameOperands, sameRest⟩
      exact ⟨heads.unplaced_eq headsOther (String.toList_injective sameWord) sameOperands, sameRest⟩

theorem IsPlain.readsUniquely {expr : Expr} (plain : expr.IsPlain) : expr.ReadsUniquely := by
  induction plain with
  | literal shows => exact readsUniquely_literal shows
  | compound heads plainOperands ih => exact heads.readsUniquely ih

/-- Trees that are printed alike are alike, apart from the lines of their literals. -/
theorem IsPlain.unplaced_eq {first second : Expr} (plain : first.IsPlain)
    (plainSecond : second.IsPlain)
    (same : first.render = second.render) : first.unplaced = second.unplaced :=
  (plain.readsUniquely second [] [] plainSecond trivial trivial (by rw [same])).1

/-- Lines are not printed. -/
theorem render_unplaced (expr : Expr) : expr.unplaced.render = expr.render := by
  induction expr with
  | missing => rfl
  | literal constant => rfl
  | unary op right ih => rw [unplaced, render, render, ih]
  | binary op left right ihLeft ihRight => rw [unplaced, render, render, ihLeft, ihRight]
  | group inner ih => rw [unplaced, render, render, ih]

/-! ## Trees that were read -/

theorem isPlain_of_shown {expr : Expr} (whole : expr.isWhole = true)
    (shown : forall constant, constant ∈ expr.literals -> constant.kind.Shows constant.raw.toList) :
    expr.IsPlain := by
  induction expr with
  | missing => cases whole
  | literal constant => exact .literal (shown constant (List.mem_singleton.mpr rfl))
  | unary op right ih =>
      rw [isWhole, Bool.and_eq_true] at whole
      exact .compound (.unary whole.1) (List.forall_mem_singleton.mpr (ih whole.2 shown))
  | binary op left right ihLeft ihRight =>
      rw [isWhole, Bool.and_eq_true, Bool.and_eq_true] at whole
      rcases List.forall_mem_append.mp shown with ⟨shownLeft, shownRight⟩
      exact .compound (.binary whole.1.1) (List.forall_mem_cons.mpr
        ⟨ihLeft whole.1.2 shownLeft, List.forall_mem_singleton.mpr (ihRight whole.2 shownRight)⟩)
  | group inner ih => exact .compound .group (List.forall_mem_singleton.mpr (ih whole shown))

/-- The literal of a scanned token has a text of its kind, unless it is a string. -/
theorem shows_of_ofToken? {token : Token} {constant : Literal}
    (admitted : token.kind.Admits token.lexeme.toList)
    (found : Literal.ofToken? token = some constant) (plain : constant.kind ≠ .string) :
    constant.kind.Shows constant.raw.toList := by
  rcases token with ⟨kind, lexeme, line⟩
  cases kind <;> cases found
  case number => exact .number (admitted.text_of_kind.1 rfl)
  case trueWord => exact .truth
  case falseWord => exact .falsehood
  case nilWord => exact .nil
  case string => exact absurd rfl plain

theorem isPlain_of_parse {source : String} {expr : Expr} (parsed : parse source = .ok expr)
    (plain : forall constant, constant ∈ expr.literals -> constant.kind ≠ .string) :
    expr.IsPlain := by
  have holds := (Cursor.start source).holds_items
  rcases (Grammar.readFrom_iff holds expr []).mp (Grammar.parse_eq_ok.mp parsed) with
    ⟨tokens, split, derived, -⟩
  rw [List.append_nil] at split
  have listed : forall token, token ∈ tokens -> .ok token ∈ (Cursor.start source).items.items := by
    intro token member
    rw [split]
    exact List.mem_map_of_mem member
  have isLiterals := derived.literals_eq fun token member => holds.isSpelled (listed token member)
  refine isPlain_of_shown derived.isWhole fun constant member => ?_
  have noString := plain constant member
  rw [isLiterals] at member
  rcases List.mem_filterMap.mp member with ⟨token, taken, found⟩
  exact shows_of_ofToken? (holds.admits (listed token taken)) found noString

/-- The printed form is unambiguous.  Two trees that were read from texts and hold no string are
printed alike exactly if they are alike apart from the lines of their literals: they have the same
operators with the same number of operands, the same parentheses, and literals of the same kinds
with the same texts. -/
theorem printed_form_is_unambiguous {firstSource secondSource : String} {first second : Expr}
    (parsedFirst : parse firstSource = .ok first) (parsedSecond : parse secondSource = .ok second)
    (plainFirst : forall constant, constant ∈ first.literals -> constant.kind ≠ .string)
    (plainSecond : forall constant, constant ∈ second.literals -> constant.kind ≠ .string) :
    first.render = second.render <-> first.unplaced = second.unplaced := by
  constructor
  · intro same
    exact (isPlain_of_parse parsedFirst plainFirst).unplaced_eq
      (isPlain_of_parse parsedSecond plainSecond) same
  · intro alike
    rw [<- first.render_unplaced, alike, second.render_unplaced]

/-- One text on a single line and on three lines, with the sign of a difference and of a
negation. -/
theorem printed_form_is_unambiguous_signs :
    let first : Expr := .binary .subtract (.literal ⟨.number, "1", 1⟩)
      (.group (.unary .negate (.literal ⟨.number, "2.5", 1⟩)))
    let second : Expr := .binary .subtract (.literal ⟨.number, "1", 1⟩)
      (.group (.unary .negate (.literal ⟨.number, "2.5", 3⟩)))
    parse "1 - (-2.5)" = .ok first ∧ parse "1 -\n(- // sign\n2.5)" = .ok second ∧
      (forall constant, constant ∈ first.literals -> constant.kind ≠ .string) ∧
      (forall constant, constant ∈ second.literals -> constant.kind ≠ .string) ∧
      first ≠ second ∧ first.render = "(- 1 (group (- 2.5)))" ∧ first.render = second.render ∧
      first.unplaced = second.unplaced := by
  intro first second
  have parsedFirst : parse "1 - (-2.5)" = .ok first := by decide +kernel
  have parsedSecond : parse "1 -\n(- // sign\n2.5)" = .ok second := by decide +kernel
  have plainFirst : forall constant, constant ∈ first.literals ->
      constant.kind ≠ .string := by decide
  have plainSecond : forall constant, constant ∈ second.literals ->
      constant.kind ≠ .string := by decide
  have same : first.render = second.render := by decide
  exact ⟨parsedFirst, parsedSecond, plainFirst, plainSecond, by decide, by decide, same,
    (printed_form_is_unambiguous parsedFirst parsedSecond plainFirst plainSecond).mp same⟩

/-- A string is printed without its quotes, and can look like any other tree. -/
example : (Expr.literal ⟨.string, "(- 1)", 1⟩).render =
  (Expr.unary .negate (.literal ⟨.number, "1", 1⟩)).render := by
  decide

end Expr

end LoxNative
