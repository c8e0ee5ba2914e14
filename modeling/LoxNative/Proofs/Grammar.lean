import Mathlib
import LoxNative.Expr.Reader
import LoxNative.Proofs.Scanning

namespace LoxNative

/-!
# The grammar of expressions

The grammar is given by the derivations of token lists, each with its tree, and says nothing about
how an expression is read.  Reading is a pushdown automaton, and this module shows that the
automaton accepts exactly what can be derived and builds the tree of the derivation.

Completeness follows a derivation: reading the tokens of a derivation on top of any stack that can
take them adds exactly the derived tree.  Soundness follows the automaton: its stack always stands
for tokens that have been read and whose right side is still to come.  Since the automaton is
deterministic, a list of tokens derives at most one tree.
-/

namespace Grammar

open Token

/-- The levels of the grammar, loosest first.  An expression is an equality. -/
inductive Level
  | equality
  | comparison
  | term
  | factor
  | unary
  | primary
deriving DecidableEq

namespace Level

/-- The level of the operands.  Nothing is tighter than a primary. -/
def tighter : Level -> Level
  | equality => comparison
  | comparison => term
  | term => factor
  | factor => unary
  | unary | primary => primary

/-- The operators that join the operands of a level. -/
def operators : Level -> List (TokenKind × BinaryOp)
  | equality => [(.equalEqual, .equal), (.bangEqual, .notEqual)]
  | comparison =>
      [(.greater, .greater), (.greaterEqual, .greaterEqual), (.less, .less),
        (.lessEqual, .lessEqual)]
  | term => [(.plus, .add), (.minus, .subtract)]
  | factor => [(.star, .multiply), (.slash, .divide)]
  | unary | primary => []

/-- The number of a level. -/
def rank : Level -> Nat
  | equality => 0
  | comparison => 1
  | term => 2
  | factor => 3
  | unary => 4
  | primary => 5

end Level

/-- The operators in front of an operand. -/
def signs : List (TokenKind × UnaryOp) :=
  [(.bang, .not), (.minus, .negate)]

/-- The literals that keep the text of their token. -/
def literals : List (TokenKind × LiteralKind) :=
  [(.number, .number), (.trueWord, .truth), (.falseWord, .falsehood), (.nilWord, .nil)]

/-- The kinds of the ten binary operators. -/
def binaryKinds : List TokenKind :=
  [.equalEqual, .bangEqual, .greater, .greaterEqual, .less, .lessEqual, .plus, .minus,
    .star, .slash]

/-- A list of tokens derives a tree at some level.  A binary level associates to the left: its left
operand is of the same level, and its right one of the next tighter. -/
inductive Derives : Level -> List Token -> Expr -> Prop
  | tighter {level : Level} {tokens : List Token} {expr : Expr} :
      Derives level.tighter tokens expr -> Derives level tokens expr
  | binary {level : Level} {left right : List Token} {token : Token} {op : BinaryOp}
      {first second : Expr} :
      Derives level left first -> (token.kind, op) ∈ level.operators ->
      Derives level.tighter right second ->
      Derives level (left ++ token :: right) (.binary op first second)
  | unary {token : Token} {right : List Token} {op : UnaryOp} {operand : Expr} :
      (token.kind, op) ∈ signs -> Derives .unary right operand ->
      Derives .unary (token :: right) (.unary op operand)
  | literal {token : Token} {kind : LiteralKind} :
      (token.kind, kind) ∈ literals ->
      Derives .primary [token] (.literal ⟨kind, token.lexeme, token.line⟩)
  | string {token : Token} {raw : String} :
      token.kind = .string -> token.lexeme = "\"" ++ raw ++ "\"" ->
      Derives .primary [token] (.literal ⟨.string, raw, token.line⟩)
  | group {opening closing : Token} {inside : List Token} {inner : Expr} :
      opening.kind = .leftParen -> Derives .equality inside inner -> closing.kind = .rightParen ->
      Derives .primary (opening :: inside ++ [closing]) (.group inner)

/-! ## Levels and operators -/

theorem Level.rank_tighter {level : Level} (loose : level.rank < 5) :
    level.tighter.rank = level.rank + 1 := by
  cases level with
  | primary => exact absurd loose (Nat.lt_irrefl 5)
  | _ => rfl

theorem Level.rank_injective {first second : Level} (same : first.rank = second.rank) :
    first = second := by
  cases first <;> cases second <;> first | rfl | cases same

theorem Level.rank_le (level : Level) : level.rank ≤ 5 := by
  cases level <;> decide

theorem ofKind?_of_mem {level : Level} {kind : TokenKind} {op : BinaryOp}
    (listed : (kind, op) ∈ level.operators) :
    BinaryOp.ofKind? kind = some op ∧ op.level = level.rank ∧ level.rank < 4 := by
  have every : forall entry, entry ∈ level.operators ->
      BinaryOp.ofKind? entry.1 = some entry.2 ∧ entry.2.level = level.rank ∧ level.rank < 4 := by
    cases level <;> decide
  exact every _ listed

theorem mem_of_ofKind? {kind : TokenKind} {op : BinaryOp}
    (found : BinaryOp.ofKind? kind = some op) :
    exists level : Level, (kind, op) ∈ level.operators ∧ level.rank = op.level := by
  cases kind <;> cases found
  case equalEqual | bangEqual => exact ⟨.equality, by decide, rfl⟩
  case greater | greaterEqual | less | lessEqual => exact ⟨.comparison, by decide, rfl⟩
  case plus | minus => exact ⟨.term, by decide, rfl⟩
  case star | slash => exact ⟨.factor, by decide, rfl⟩

theorem ofKind?_eq_none {kind : TokenKind} :
    BinaryOp.ofKind? kind = none <-> kind ∉ binaryKinds := by
  cases kind <;> decide

/-- What derives at a level derives at every looser one. -/
theorem Derives.weaken {tight loose : Level} {tokens : List Token} {expr : Expr}
    (derived : Derives tight tokens expr) (looser : loose.rank ≤ tight.rank) :
    Derives loose tokens expr := by
  have atMost := tight.rank_le
  rcases Nat.exists_eq_add_of_le looser with ⟨distance, apart⟩
  induction distance generalizing loose with
  | zero =>
      have same : loose = tight := Level.rank_injective apart.symm
      rw [same]
      exact derived
  | succ distance ih =>
      have next := Level.rank_tighter (by omega : loose.rank < 5)
      exact .tighter (ih (by omega) (by omega))

/-! ## Stacks that can take an operand -/

/-- A stack can take an operand of a level: the operator on top binds less tightly than the
operand. -/
def Opens (frames : List Expr.Frame) (level : Level) : Prop :=
  match frames with
  | .binary op _ :: _ => op.level < level.rank
  | .unary _ :: _ => Level.unary.rank ≤ level.rank
  | _ => True

theorem Opens.tighter {frames : List Expr.Frame} {level : Level} (opens : Opens frames level) :
    Opens frames level.tighter := by
  have ascends : level.rank ≤ level.tighter.rank := by cases level <;> decide
  rcases frames with _ | ⟨_ | _ | _, frames⟩
  · exact trivial
  · exact trivial
  · exact Nat.le_trans opens ascends
  · exact Nat.lt_of_lt_of_le opens ascends

/-- A stack that can take an operand of a binary level waits for it: nothing on it is complete
yet. -/
theorem complete_of_opens {frames : List Expr.Frame} {level : Level} (opens : Opens frames level)
    (loose : level.rank < 4) (value : Expr) :
    Expr.complete level.rank frames value = (frames, value) := by
  rcases frames with _ | ⟨_ | _ | _, frames⟩
  · rfl
  · rfl
  · exact absurd (Nat.lt_of_lt_of_le loose opens) (Nat.lt_irrefl _)
  · rw [Expr.complete, if_neg (Nat.not_le.mpr opens)]

/-! ## Literals and their tokens -/

theorem unquoted (raw : String) :
    String.ofList (("\"" ++ raw ++ "\"").toList.drop 1).dropLast = raw := by
  simp

theorem ofToken?_of_literal {token : Token} {kind : LiteralKind} (spelled : Spelled token)
    (listed : (token.kind, kind) ∈ literals) :
    Literal.ofToken? token = some ⟨kind, token.lexeme, token.line⟩ := by
  rcases token with ⟨own, lexeme, line⟩
  have word : forall word, (word, own) ∈ TokenKind.keywords -> lexeme = word := spelled.word
  simp only [literals, List.mem_cons, Prod.mk.injEq, List.not_mem_nil, or_false] at listed
  rcases listed with ⟨rfl, rfl⟩ | ⟨rfl, rfl⟩ | ⟨rfl, rfl⟩ | ⟨rfl, rfl⟩
  · rfl
  · have text : lexeme = "true" := word "true" (by decide)
    rw [text]
    rfl
  · have text : lexeme = "false" := word "false" (by decide)
    rw [text]
    rfl
  · have text : lexeme = "nil" := word "nil" (by decide)
    rw [text]
    rfl

theorem ofToken?_of_string {token : Token} {raw : String} (kind : token.kind = .string)
    (quoted : token.lexeme = "\"" ++ raw ++ "\"") :
    Literal.ofToken? token = some ⟨.string, raw, token.line⟩ := by
  simp only [Literal.ofToken?, kind, quoted, unquoted]

theorem derives_of_ofToken? {token : Token} {value : Literal} (spelled : Spelled token)
    (found : Literal.ofToken? token = some value) : Derives .primary [token] (.literal value) := by
  by_cases quoted : token.kind = .string
  · rcases spelled.string quoted with ⟨raw, text⟩
    rw [ofToken?_of_string quoted text] at found
    cases found
    exact .string quoted text
  · have listed : exists kind, (token.kind, kind) ∈ literals := by
      simp only [Literal.ofToken?] at found
      split at found
      · rename_i kind
        exact ⟨.falsehood, by rw [kind]; decide⟩
      · rename_i kind
        exact ⟨.truth, by rw [kind]; decide⟩
      · rename_i kind
        exact ⟨.nil, by rw [kind]; decide⟩
      · rename_i kind
        exact ⟨.number, by rw [kind]; decide⟩
      · rename_i kind
        exact absurd kind quoted
      · cases found
    rcases listed with ⟨kind, listed⟩
    rw [ofToken?_of_literal spelled listed] at found
    cases found
    exact .literal listed

theorem ofKind?_of_signs {token : Token} {op : UnaryOp} (listed : (token.kind, op) ∈ signs) :
    UnaryOp.ofKind? token.kind = some op ∧ Literal.ofToken? token = none := by
  rcases token with ⟨own, lexeme, line⟩
  simp only [signs, List.mem_cons, Prod.mk.injEq, List.not_mem_nil, or_false] at listed
  rcases listed with ⟨rfl, rfl⟩ | ⟨rfl, rfl⟩ <;> exact ⟨rfl, rfl⟩

theorem signs_of_ofKind? {kind : TokenKind} {op : UnaryOp}
    (found : UnaryOp.ofKind? kind = some op) :
    (kind, op) ∈ signs := by
  cases kind <;> cases found <;> decide

/-! ## What derives is read -/

/-- Take tokens one behind the other, if the expression can go on with all of them. -/
def takeAll? (tokens : List Token) (reading : Expr.Reading) : Option Expr.Reading :=
  tokens.foldlM (fun reading token => reading.shift? token) reading

theorem takeAll?_cons (token : Token) (rest : List Token) (reading : Expr.Reading) :
    takeAll? (token :: rest) reading = (reading.shift? token).bind (takeAll? rest) :=
  List.foldlM_cons

theorem takeAll?_append (first second : List Token) (reading : Expr.Reading) :
    takeAll? (first ++ second) reading = (takeAll? first reading).bind (takeAll? second) :=
  List.foldlM_append

theorem shift?_binary {level : Level} {token : Token} {op : BinaryOp}
    (listed : (token.kind, op) ∈ level.operators) {frames below : List Expr.Frame}
    {value left : Expr} (completed : Expr.complete level.rank frames value = (below, left)) :
    (Expr.Reading.operator frames value).shift? token =
      some (.operand (.binary op left :: below)) := by
  rcases ofKind?_of_mem listed with ⟨found, same, -⟩
  simp only [Expr.Reading.shift?, found, same, completed]

theorem shift?_closing {token : Token} (closing : token.kind = .rightParen)
    {frames below : List Expr.Frame} {value inner : Expr}
    (completed : Expr.complete 0 frames value = (.group :: below, inner)) :
    (Expr.Reading.operator frames value).shift? token = some (.operator below (.group inner)) := by
  simp only [Expr.Reading.shift?, closing, completed, BinaryOp.ofKind?, if_true]

/-- Reading the tokens of a derivation on a stack that can take its level adds the derived tree.
The stack may end up higher, with frames that the next token completes; completing them gives what
completing with the tree itself gives. -/
theorem takeAll?_of_derives {level : Level} {tokens : List Token} {expr : Expr}
    (derived : Derives level tokens expr) (spelled : forall token, token ∈ tokens -> Spelled token)
    {frames : List Expr.Frame} (opens : Opens frames level) :
    exists above value, takeAll? tokens (.operand frames) = some (.operator above value) ∧
      forall rank, rank ≤ level.rank ->
        Expr.complete rank above value = Expr.complete rank frames expr := by
  induction derived generalizing frames with
  | @tighter level tokens expr inner ih =>
      have ascends : level.rank ≤ level.tighter.rank := by cases level <;> decide
      rcases ih spelled opens.tighter with ⟨above, value, taken, completes⟩
      exact ⟨above, value, taken, fun rank less => completes rank (Nat.le_trans less ascends)⟩
  | @binary level left right token op first second derivedLeft listed derivedRight ihLeft ihRight =>
      rcases ofKind?_of_mem listed with ⟨-, same, loose⟩
      rcases List.forall_mem_append.mp spelled with ⟨spelledLeft, spelledRest⟩
      rcases List.forall_mem_cons.mp spelledRest with ⟨-, spelledRight⟩
      rcases ihLeft spelledLeft opens with ⟨above, value, takenLeft, completesLeft⟩
      have waits : Expr.complete level.rank above value = (frames, first) := by
        rw [completesLeft _ (Nat.le_refl _), complete_of_opens opens loose]
      have next := Level.rank_tighter (Nat.lt_of_lt_of_le loose (by decide) : level.rank < 5)
      have waiting : Opens (.binary op first :: frames) level.tighter := by
        change op.level < level.tighter.rank
        omega
      rcases ihRight spelledRight waiting with ⟨top, result, takenRight, completesRight⟩
      refine ⟨top, result, ?_, ?_⟩
      · rw [takeAll?_append, takenLeft, Option.bind_some, takeAll?_cons, shift?_binary listed waits]
        exact takenRight
      · intro rank less
        rw [completesRight rank (by omega), Expr.complete, if_pos (by omega)]
  | @unary token right op operand listed derivedRight ih =>
      rcases List.forall_mem_cons.mp spelled with ⟨-, spelledRight⟩
      rcases ofKind?_of_signs listed with ⟨found, notLiteral⟩
      have waiting : Opens (.unary op :: frames) .unary := Nat.le_refl Level.unary.rank
      rcases ih spelledRight waiting with ⟨above, value, taken, completes⟩
      refine ⟨above, value, ?_, fun rank less => completes rank less⟩
      have shifted : (Expr.Reading.operand frames).shift? token =
          some (.operand (.unary op :: frames)) := by
        simp only [Expr.Reading.shift?, notLiteral, found]
      rw [takeAll?_cons, shifted]
      exact taken
  | @literal token kind listed =>
      have found := ofToken?_of_literal (spelled token List.mem_cons_self) listed
      refine ⟨frames, _, ?_, fun rank less => rfl⟩
      rw [takeAll?_cons]
      simp only [Expr.Reading.shift?, found]
      rfl
  | @string token raw kind quoted =>
      have found := ofToken?_of_string kind quoted
      refine ⟨frames, _, ?_, fun rank less => rfl⟩
      rw [takeAll?_cons]
      simp only [Expr.Reading.shift?, found]
      rfl
  | @group opening closing inside inner opened derivedInside closed ih =>
      rcases List.forall_mem_append.mp spelled with ⟨spelledBefore, -⟩
      rcases List.forall_mem_cons.mp spelledBefore with ⟨-, spelledInside⟩
      have waiting : Opens (.group :: frames) .equality := trivial
      rcases ih spelledInside waiting with ⟨above, value, taken, completes⟩
      have shifted : (Expr.Reading.operand frames).shift? opening =
          some (.operand (.group :: frames)) := by
        simp only [Expr.Reading.shift?, Literal.ofToken?, opened, UnaryOp.ofKind?, if_true]
      refine ⟨frames, .group inner, ?_, fun rank less => rfl⟩
      rw [takeAll?_append, takeAll?_cons, shifted, Option.bind_some, taken, Option.bind_some,
        takeAll?_cons, shift?_closing closed (completes 0 (Nat.zero_le _))]
      rfl

/-! ## What is read derives -/

/-- A stack stands for the tokens that have been read and whose right side is still to come.  The
operators above one another bind more and more tightly. -/
inductive Pending : List Expr.Frame -> List Token -> Prop
  | nil : Pending [] []
  | group {frames : List Expr.Frame} {tokens : List Token} {opening : Token} :
      Pending frames tokens -> opening.kind = .leftParen ->
      Pending (.group :: frames) (tokens ++ [opening])
  | unary {frames : List Expr.Frame} {tokens : List Token} {token : Token} {op : UnaryOp} :
      Pending frames tokens -> (token.kind, op) ∈ signs ->
      Pending (.unary op :: frames) (tokens ++ [token])
  | binary {frames : List Expr.Frame} {tokens operand : List Token} {level : Level} {left : Expr}
      {token : Token} {op : BinaryOp} :
      Pending frames tokens -> Opens frames level -> Derives level operand left ->
      (token.kind, op) ∈ level.operators ->
      Pending (.binary op left :: frames) (tokens ++ operand ++ [token])

theorem opens_unary (frames : List Expr.Frame) : Opens frames .unary := by
  rcases frames with _ | ⟨_ | _ | op, frames⟩
  · exact trivial
  · exact trivial
  · exact Nat.le_refl _
  · change op.level < 4
    cases op <;> simp [BinaryOp.level]

/-- Completing frames with a derived operand derives the completed tree, and leaves a stack that can
take another operand of the level to which it was completed.  The induction is on the stack; with
every frame that is completed the operand grows to the left. -/
theorem Pending.complete {frames : List Expr.Frame} {before : List Token}
    (pending : Pending frames before) {own goal : Level} {operand : List Token} {value : Expr}
    (derived : Derives own operand value) (opens : Opens frames own) (looser : goal.rank ≤ own.rank)
    (loose : goal.rank < 4) :
    exists below expr left tokens, Expr.complete goal.rank frames value = (below, expr) ∧
      Pending below left ∧ Opens below goal ∧ Derives goal tokens expr ∧
      left ++ tokens = before ++ operand := by
  induction pending generalizing own operand value with
  | nil => exact ⟨[], value, [], operand, rfl, .nil, trivial, derived.weaken looser, rfl⟩
  | group pending opened ih =>
      exact ⟨_, value, _, operand, rfl, .group pending opened, trivial, derived.weaken looser, rfl⟩
  | @unary frames tokens token op pending listed ih =>
      have tight : Level.unary.rank ≤ own.rank := opens
      have signed : Derives .unary (token :: operand) (.unary op value) :=
        .unary listed (derived.weaken tight)
      rcases ih signed (opens_unary frames) (Nat.le_of_lt loose) with
        ⟨below, expr, read, rest, completed, still, free, derivedRest, split⟩
      refine ⟨below, expr, read, rest, completed, still, free, derivedRest, ?_⟩
      rw [split, List.append_assoc, List.singleton_append]
  | @binary frames tokens left level first token op pending waiting derivedLeft listed ih =>
      rcases ofKind?_of_mem listed with ⟨-, same, four⟩
      have above : op.level < own.rank := opens
      have next := Level.rank_tighter (Nat.lt_of_lt_of_le four (by decide) : level.rank < 5)
      by_cases binds : goal.rank ≤ op.level
      · have joined : Derives level (left ++ token :: operand) (.binary op first value) :=
          .binary derivedLeft listed (derived.weaken (by omega))
        rcases ih joined waiting (by omega) with
          ⟨below, expr, read, rest, completed, still, free, derivedRest, split⟩
        refine ⟨below, expr, read, rest, ?_, still, free, derivedRest, ?_⟩
        · rw [Expr.complete, if_pos binds]
          exact completed
        · rw [split]
          simp only [List.append_assoc, List.cons_append, List.nil_append]
      · refine ⟨_, value, _, operand, ?_, .binary pending waiting derivedLeft listed,
          Nat.lt_of_not_le binds, derived.weaken looser, rfl⟩
        rw [Expr.complete, if_neg binds]

/-- The automaton in some state has read some tokens. -/
def Reads (tokens : List Token) : Expr.Reading -> Prop
  | .operand frames => Pending frames tokens
  | .operator frames value => exists before own, Pending frames before ∧
      Derives .primary own value ∧
      before ++ own = tokens

theorem opens_primary (frames : List Expr.Frame) : Opens frames .primary :=
  (opens_unary frames).tighter

/-- Completing everything derives all tokens, or those behind the last open parenthesis. -/
theorem Pending.completeAll {frames : List Expr.Frame} {before own : List Token} {value : Expr}
    (pending : Pending frames before) (derived : Derives .primary own value) :
    (exists expr tokens, Expr.complete 0 frames value = ([], expr) ∧ Derives .equality tokens expr ∧
      tokens = before ++ own) ∨
    (exists below opening left expr tokens, Expr.complete 0 frames value = (.group :: below, expr) ∧
      Pending below left ∧ opening.kind = .leftParen ∧ Derives .equality tokens expr ∧
      left ++ opening :: tokens = before ++ own) := by
  rcases pending.complete derived (opens_primary frames) (Level.rank_le .equality) (by decide) with
    ⟨below, expr, left, tokens, completed, still, free, derivedAll, split⟩
  cases still with
  | nil => exact Or.inl ⟨expr, tokens, completed, derivedAll, split⟩
  | @group frames read opening still opened =>
      refine Or.inr ⟨frames, opening, read, expr, tokens, completed, still, opened, derivedAll, ?_⟩
      rw [<- split, List.append_assoc, List.singleton_append]
  | unary still listed => exact absurd free (Nat.not_succ_le_zero 3)
  | binary still waiting derivedLeft listed => exact absurd free (Nat.not_lt_zero _)

/-- One more token is read. -/
theorem Reads.shift {reading next : Expr.Reading} {tokens : List Token} {token : Token}
    (reads : Reads tokens reading) (spelled : Spelled token)
    (shifted : reading.shift? token = some next) : Reads (tokens ++ [token]) next := by
  cases reading with
  | operand frames =>
      have pending : Pending frames tokens := reads
      simp only [Expr.Reading.shift?] at shifted
      split at shifted
      · rename_i value found
        cases shifted
        exact ⟨tokens, [token], pending, derives_of_ofToken? spelled found, rfl⟩
      · split at shifted
        · rename_i op found
          cases shifted
          exact .unary pending (signs_of_ofKind? found)
        · split at shifted
          · rename_i opened
            cases shifted
            exact .group pending opened
          · cases shifted
  | operator frames value =>
      rcases reads with ⟨before, own, pending, derived, rfl⟩
      simp only [Expr.Reading.shift?] at shifted
      split at shifted
      · rename_i op found
        rcases mem_of_ofKind? found with ⟨level, listed, same⟩
        rcases pending.complete derived (opens_primary frames) level.rank_le
            (ofKind?_of_mem listed).2.2 with
          ⟨below, left, read, rest, completed, still, free, derivedLeft, split⟩
        rw [<- same, completed] at shifted
        cases shifted
        rw [<- split]
        exact .binary still free derivedLeft listed
      · rcases pending.completeAll derived with
          ⟨inner, rest, completed, derivedInner, rfl⟩ |
            ⟨below, opening, read, inner, rest, completed, still, opened, derivedInner, split⟩
        · rw [completed] at shifted
          cases shifted
        · simp only [completed] at shifted
          by_cases closed : token.kind = .rightParen
          · rw [if_pos closed] at shifted
            cases shifted
            refine ⟨read, opening :: rest ++ [token], still, .group opened derivedInner closed, ?_⟩
            rw [<- split]
            simp only [List.append_assoc, List.cons_append]
          · rw [if_neg closed] at shifted
            cases shifted

theorem Reads.finish {reading : Expr.Reading} {tokens : List Token} {expr : Expr}
    (reads : Reads tokens reading) (finished : reading.finish = .ok expr) :
    Derives .equality tokens expr := by
  cases reading with
  | operand frames => cases finished
  | operator frames value =>
      rcases reads with ⟨before, own, pending, derived, rfl⟩
      rcases pending.completeAll derived with
        ⟨inner, rest, completed, derivedInner, same⟩ |
          ⟨below, opening, read, inner, rest, completed, -⟩
      · rw [Expr.Reading.finish, completed] at finished
        cases finished
        rw [<- same]
        exact derivedInner
      · rw [Expr.Reading.finish, completed] at finished
        cases finished

/-! ## Runs of the automaton -/

/-- An expression ends in front of some items: at the end of the input, or at a token that is no
binary operator. -/
def EndsBefore : List Item -> Prop
  | [] => True
  | .ok token :: _ => token.kind ∉ binaryKinds
  | .error _ :: _ => False

theorem readFrom_of_takeAll? (ending : Token) {tokens : List Token} {reading last : Expr.Reading}
    (taken : takeAll? tokens reading = some last) (rest : List Item) :
    Expr.readFrom ending reading (tokens.map Except.ok ++ rest) =
      Expr.readFrom ending last rest := by
  induction tokens generalizing reading with
  | nil =>
      cases taken
      rfl
  | cons token tokens ih =>
      rw [takeAll?_cons] at taken
      rcases Option.bind_eq_some_iff.mp taken with ⟨next, shifted, others⟩
      rw [List.map_cons, List.cons_append, Expr.readFrom, shifted]
      exact ih others

/-- Every derivation is read, up to where the expression ends. -/
theorem readFrom_of_derives (ending : Token) {tokens : List Token} {expr : Expr}
    (derived : Derives .equality tokens expr)
    (spelled : forall token, token ∈ tokens -> Spelled token)
    {rest : List Item} (ends : EndsBefore rest) :
    Expr.readFrom ending .start (tokens.map Except.ok ++ rest) = (.ok expr, rest) := by
  have free : Opens [] .equality := trivial
  rcases takeAll?_of_derives derived spelled free with ⟨above, value, taken, completes⟩
  have completed : Expr.complete 0 above value = ([], expr) := completes 0 (Nat.le_refl 0)
  have finished : (Expr.Reading.operator above value).finish = .ok expr := by
    rw [Expr.Reading.finish, completed]
  rw [Expr.Reading.start, readFrom_of_takeAll? ending taken]
  rcases rest with _ | ⟨diagnostic | token, rest⟩
  · rw [Expr.readFrom, finished]
    rfl
  · exact ends.elim
  · have other := ofKind?_eq_none.mpr ends
    have refused : (Expr.Reading.operator above value).shift? token = none := by
      simp only [Expr.Reading.shift?, other, completed]
    rw [Expr.readFrom, refused, finished]
    rfl

theorem finish_of_mapError {reading : Expr.Reading} {complaint : String -> Diagnostic} {expr : Expr}
    (finished : reading.finish.mapError complaint = .ok expr) : reading.finish = .ok expr := by
  cases result : reading.finish with
  | error text =>
      rw [result] at finished
      cases finished
  | ok found =>
      rw [result] at finished
      exact congrArg Except.ok (Except.ok.inj finished)

/-- A finished expression refuses only what is no binary operator. -/
theorem not_mem_binaryKinds {reading : Expr.Reading} {expr : Expr} {token : Token}
    (finished : reading.finish = .ok expr) (refused : reading.shift? token = none) :
    token.kind ∉ binaryKinds := by
  cases reading with
  | operand frames => cases finished
  | operator frames value =>
      cases found : BinaryOp.ofKind? token.kind with
      | none => exact ofKind?_eq_none.mp found
      | some op =>
          simp only [Expr.Reading.shift?, found] at refused
          cases refused

/-- What is read derives, and the expression ends where reading stopped. -/
theorem Reads.readFrom {ending : Token} {before : List Token} {reading : Expr.Reading}
    (reads : Reads before reading) {items rest : List Item} {expr : Expr}
    (spelled : forall token, .ok token ∈ items -> Spelled token)
    (read : Expr.readFrom ending reading items = (.ok expr, rest)) :
    exists tokens, items = tokens.map Except.ok ++ rest ∧
      Derives .equality (before ++ tokens) expr ∧
      EndsBefore rest := by
  induction items generalizing reading before with
  | nil =>
      rcases Prod.mk.inj read with ⟨finished, rfl⟩
      refine ⟨[], rfl, ?_, trivial⟩
      rw [List.append_nil]
      exact reads.finish (finish_of_mapError finished)
  | cons item items ih =>
      rcases item with diagnostic | token
      · cases read
      · rw [Expr.readFrom] at read
        cases shifted : reading.shift? token with
        | none =>
            rw [shifted] at read
            rcases Prod.mk.inj read with ⟨finished, rfl⟩
            have done := finish_of_mapError finished
            refine ⟨[], rfl, ?_, not_mem_binaryKinds done shifted⟩
            rw [List.append_nil]
            exact reads.finish done
        | some next =>
            rw [shifted] at read
            have step := reads.shift (spelled token List.mem_cons_self) shifted
            rcases ih step
              (fun other member => spelled other (List.mem_cons_of_mem _ member)) read with
              ⟨tokens, rfl, derived, ends⟩
            refine ⟨token :: tokens, rfl, ?_, ends⟩
            rw [List.append_assoc, List.singleton_append] at derived
            exact derived

/-- Tokens derive at most one tree, because reading them gives it. -/
theorem Derives.unique {tokens : List Token} {expr other : Expr}
    (spelled : forall token, token ∈ tokens -> Spelled token)
    (derived : Derives .equality tokens expr)
    (derivedOther : Derives .equality tokens other) : other = expr := by
  have ends : EndsBefore [] := trivial
  have read := readFrom_of_derives default derived spelled ends
  have readOther := readFrom_of_derives default derivedOther spelled ends
  exact Except.ok.inj (Prod.mk.inj (readOther.symm.trans read)).1

/-- The end of the input is part of no expression. -/
theorem Derives.unended {level : Level} {tokens : List Token} {expr : Expr}
    (derived : Derives level tokens expr) :
    forall token, token ∈ tokens -> token.kind ≠ .endOfInput := by
  induction derived with
  | tighter inner ih => exact ih
  | @binary level left right token op first second derivedLeft listed derivedRight ihLeft ihRight =>
      refine List.forall_mem_append.mpr ⟨ihLeft, List.forall_mem_cons.mpr ⟨?_, ihRight⟩⟩
      intro ending
      rw [ending] at listed
      exact nomatch (ofKind?_of_mem listed).1
  | @unary token right op operand listed derivedRight ih =>
      refine List.forall_mem_cons.mpr ⟨?_, ih⟩
      intro ending
      rw [ending] at listed
      exact absurd listed (by simp [signs])
  | @literal token kind listed =>
      refine List.forall_mem_singleton.mpr ?_
      intro ending
      rw [ending] at listed
      exact absurd listed (by simp [literals])
  | @string token raw kind quoted =>
      refine List.forall_mem_singleton.mpr ?_
      rw [kind]
      decide
  | @group opening closing inside inner opened derivedInside closed ih =>
      refine List.forall_mem_append.mpr ⟨List.forall_mem_cons.mpr ⟨?_, ih⟩,
        List.forall_mem_singleton.mpr ?_⟩
      · rw [opened]
        decide
      · rw [closed]
        decide

/-! ## Reading a text -/

theorem read_eq (stream : ItemStream) :
    Expr.read stream =
      ((Expr.readFrom stream.ending .start stream.items).1,
        { stream with items := (Expr.readFrom stream.ending .start stream.items).2 }) :=
  rfl

/-- Reading a stream gives a tree exactly if its first tokens derive the tree and the expression
ends behind them. -/
theorem readFrom_iff {cursor : Cursor} {stream : ItemStream} (holds : cursor.Holds stream)
    (expr : Expr) (rest : List Item) :
    Expr.readFrom stream.ending .start stream.items = (.ok expr, rest) <->
      exists tokens, stream.items = tokens.map Except.ok ++ rest ∧ Derives .equality tokens expr ∧
        EndsBefore rest := by
  constructor
  · intro read
    have start : Reads [] .start := Pending.nil
    exact start.readFrom (fun token listed => holds.isSpelled listed) read
  · rintro ⟨tokens, split, derived, ends⟩
    have spelled : forall token, token ∈ tokens -> Spelled token := by
      intro token member
      apply holds.isSpelled
      rw [split]
      exact List.mem_append_left rest (List.mem_map_of_mem member)
    rw [split]
    exact readFrom_of_derives stream.ending derived spelled ends

theorem endsBefore_iff {cursor : Cursor} {stream : ItemStream} (holds : cursor.Holds stream)
    {tokens : List Token} {rest : List Item} (split : stream.items = tokens.map Except.ok ++ rest) :
    EndsBefore rest <->
      exists following, cursor.item tokens.length = .ok following ∧
        following.kind ∉ binaryKinds := by
  rw [holds.item_length split]
  rcases rest with _ | ⟨diagnostic | token, rest⟩
  · have other : TokenKind.endOfInput ∉ binaryKinds := by decide
    exact ⟨fun _ => ⟨stream.ending, rfl, other⟩, fun _ => trivial⟩
  · exact ⟨fun ends => ends.elim, fun ⟨following, same, _⟩ => nomatch same⟩
  · constructor
    · intro ends
      exact ⟨token, rfl, ends⟩
    · rintro ⟨following, same, other⟩
      rw [<- Except.ok.inj same] at other
      exact other

/-- Reading takes exactly the tokens of a derivation that ends in front of no binary operator. -/
theorem read_iff {cursor : Cursor} {stream : ItemStream} (holds : cursor.Holds stream)
    (expr : Expr) (count : Nat) :
    (count ≤ stream.items.length ∧
      Expr.read stream = (.ok expr, { stream with items := stream.items.drop count })) <->
    exists tokens following, tokens.length = count ∧
      (forall index token, tokens[index]? = some token -> cursor.item index = .ok token) ∧
      Derives .equality tokens expr ∧
      cursor.item count = .ok following ∧ following.kind ∉ binaryKinds := by
  rw [read_eq]
  constructor
  · rintro ⟨shorter, read⟩
    rcases Prod.mk.inj read with ⟨result, remaining⟩
    have read : Expr.readFrom stream.ending .start stream.items =
        (.ok expr, stream.items.drop count) :=
      Prod.ext result (ItemStream.mk.inj remaining).1
    rcases (readFrom_iff holds expr _).mp read with ⟨tokens, split, derived, ends⟩
    have lengths := congrArg List.length split
    rw [List.length_append, List.length_map, List.length_drop] at lengths
    rcases (endsBefore_iff holds split).mp ends with ⟨following, item, other⟩
    have taken : tokens.length = count := by omega
    rw [taken] at item
    exact ⟨tokens, following, taken, fun _ _ found => holds.given split found, derived, item, other⟩
  · rintro ⟨tokens, following, rfl, given, derived, item, other⟩
    rcases holds.split given derived.unended with ⟨rest, split⟩
    have ends := (endsBefore_iff holds split).mpr ⟨following, item, other⟩
    have remaining : stream.items.drop tokens.length = rest := by
      rw [split]
      exact List.drop_left' (List.length_map _)
    rw [(readFrom_iff holds expr rest).mpr ⟨tokens, split, derived, ends⟩, remaining, split]
    refine ⟨?_, rfl⟩
    rw [List.length_append, List.length_map]
    exact Nat.le_add_right _ _

theorem parse_eq_ok {source : String} {expr : Expr} :
    Expr.parse source = .ok expr <->
      Expr.readFrom (Cursor.start source).items.ending .start (Cursor.start source).items.items =
        (.ok expr, []) := by
  rw [Expr.parse, read_eq]
  generalize Expr.readFrom (Cursor.start source).items.ending .start
    (Cursor.start source).items.items =
    result
  rcases result with ⟨diagnostic | found, _ | ⟨diagnostic | token, rest⟩⟩
  all_goals simp [bind, Except.bind, pure, Except.pure, throw, throwThe, MonadExceptOf.throw]

/-- A text is read as a whole exactly if it scans, and its tokens derive the tree. -/
theorem parse_iff {source : String} {expr : Expr} :
    Expr.parse source = .ok expr <->
      exists tokens ending, Token.scan source = (tokens ++ [ending], none) ∧
        ending.kind = .endOfInput ∧ Derives .equality tokens expr := by
  have scanned : Token.scan source =
      untilError (Cursor.start source).items.ending (Cursor.start source).items.items := rfl
  rw [parse_eq_ok, scanned, readFrom_iff (Cursor.start source).holds_items]
  constructor
  · rintro ⟨tokens, split, derived, -⟩
    rw [List.append_nil] at split
    exact ⟨tokens, _, untilError_eq.mpr ⟨tokens, split, rfl⟩, rfl, derived⟩
  · rintro ⟨tokens, ending, clean, -, derived⟩
    rcases untilError_eq.mp clean with ⟨before, split, same⟩
    rcases List.append_inj_left' same rfl with rfl
    exact ⟨tokens, by rw [List.append_nil]; exact split, derived, trivial⟩

/-- Reading accepts exactly the grammar and builds its tree.  Reading an expression at the beginning
of a text takes some tokens and gives a tree exactly if these tokens derive the tree and the item
behind them is a token that is no binary operator.  A text as a whole is read exactly if scanning it
succeeds and its tokens in front of the end derive the tree.  And the tree is unique. -/
theorem read_iff_derives (source : String) (expr : Expr) :
    (forall count,
      (count ≤ (Cursor.start source).items.items.length ∧
        Expr.read (Cursor.start source).items =
          (.ok expr, { (Cursor.start source).items with
            items := (Cursor.start source).items.items.drop count })) <->
      exists tokens following, tokens.length = count ∧
        (forall index token, tokens[index]? = some token ->
          (Cursor.start source).item index = .ok token) ∧
        Derives .equality tokens expr ∧
        (Cursor.start source).item count = .ok following ∧ following.kind ∉ binaryKinds) ∧
    (Expr.parse source = .ok expr <->
      exists tokens ending, Token.scan source = (tokens ++ [ending], none) ∧
        ending.kind = .endOfInput ∧ Derives .equality tokens expr) ∧
    (forall tokens other,
      (forall index token, tokens[index]? = some token ->
        (Cursor.start source).item index = .ok token) ->
      Derives .equality tokens expr -> Derives .equality tokens other -> other = expr) := by
  refine ⟨read_iff (Cursor.start source).holds_items expr, parse_iff, ?_⟩
  intro tokens other given derived derivedOther
  refine Derives.unique ?_ derived derivedOther
  intro token member
  rcases List.mem_iff_getElem?.mp member with ⟨index, found⟩
  exact Cursor.isSpelled_item index _ token (given index token found)

theorem read_iff_derives_difference :
    exists tokens ending, Token.scan "8 - -4 - \"2\"" = (tokens ++ [ending], none) ∧
      ending.kind = .endOfInput ∧
      Derives .equality tokens
        (.binary .subtract
          (.binary .subtract (.literal ⟨.number, "8", 1⟩)
            (.unary .negate (.literal ⟨.number, "4", 1⟩))) (.literal ⟨.string, "2", 1⟩)) := by
  have parsed : Expr.parse "8 - -4 - \"2\"" = .ok (.binary .subtract
      (.binary .subtract (.literal ⟨.number, "8", 1⟩) (.unary .negate (.literal ⟨.number, "4", 1⟩)))
      (.literal ⟨.string, "2", 1⟩)) := by
    decide +kernel
  exact (read_iff_derives _ _).2.1.mp parsed

end Grammar

end LoxNative
