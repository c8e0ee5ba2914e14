import Mathlib
import LoxNative.Proofs.SourceSpans

namespace LoxNative

/-!
# Scanning takes the longest token

The tokens of the language are given here by their texts, kind by kind, without saying how they are
found.  At every place that is not layout the scanner takes the longest text that is a token, and it
complains only where no token begins.

The classes of tokens begin with different characters, so the first character decides which class is
in question, and the longest text of that class is the longest of all.  For the same reason the kind
of a token can be read off its text.
-/

namespace TokenKind

/-! ## The texts of a kind -/

/-- The symbols that stay as they are, whatever follows. -/
def plainSymbols : List (Char × TokenKind) :=
  [('(', .leftParen), (')', .rightParen), ('\x7b', .leftBrace), ('\x7d', .rightBrace),
    (',', .comma), ('.', .dot), ('-', .minus), ('+', .plus), (';', .semicolon), ('*', .star),
    ('/', .slash)]

/-- The symbols that become others when an equals sign follows: the character, and the kinds without
and with the sign. -/
def comparisons : List (Char × TokenKind × TokenKind) :=
  [('!', .bang, .bangEqual), ('=', .equal, .equalEqual), ('<', .less, .lessEqual),
    ('>', .greater, .greaterEqual)]

/-- The symbols of one or two characters. -/
def symbols : List (List Char × TokenKind) :=
  plainSymbols.map (fun entry => ([entry.1], entry.2)) ++
    comparisons.flatMap fun entry => [([entry.1], entry.2.1), ([entry.1, '='], entry.2.2)]

/-- One or more ASCII digits. -/
def IsDigits (text : List Char) : Prop :=
  text ≠ [] ∧ forall c, c ∈ text -> c.isDigit = true

/-- Digits, and possibly a dot with digits behind it. -/
def IsNumber (text : List Char) : Prop :=
  IsDigits text ∨
    exists digits decimals, text = digits ++ '.' :: decimals ∧ IsDigits digits ∧ IsDigits decimals

/-- A letter or an underscore, followed by letters, underscores and decimal digits of any script. -/
def IsWord : List Char -> Prop
  | [] => False
  | c :: rest => (Text.isLetter c = true ∨ c = '_') ∧
      forall d, d ∈ rest -> Text.isLetter d = true ∨ d = '_' ∨ Text.isDecimalDigit d = true

/-- A quote, anything without quotes, and a quote. -/
def IsQuoted (text : List Char) : Prop :=
  exists body, text = '"' :: (body ++ ['"']) ∧ '"' ∉ body

/-- The texts of the tokens of a kind. -/
inductive Admits : TokenKind -> List Char -> Prop
  | number {text : List Char} : IsNumber text -> Admits .number text
  | keyword {kind : TokenKind} {text : List Char} : IsWord text ->
      (String.ofList text, kind) ∈ keywords -> Admits kind text
  | identifier {text : List Char} :
      IsWord text -> (forall kind, (String.ofList text, kind) ∉ keywords) ->
      Admits .identifier text
  | string {text : List Char} : IsQuoted text -> Admits .string text
  | symbol {kind : TokenKind} {text : List Char} : (text, kind) ∈ symbols -> Admits kind text

/-- The kind of a token with a given text.  Only the end of the input has no text. -/
def ofLexeme : List Char -> TokenKind
  | [] => .endOfInput
  | c :: rest =>
      if c.isDigit then .number
      else if Cursor.isWordStart c then .ofWord (String.ofList (c :: rest))
      else if c = '"' then .string
      else (symbols.lookup (c :: rest)).getD .endOfInput

/-! ## First characters -/

theorem isWordStart_of_isDigit {c : Char} (digit : c.isDigit = true) :
    Cursor.isWordStart c = false := by
  have range : 48 ≤ c.toNat ∧ c.toNat ≤ 57 := by
    simp only [Char.isDigit, Bool.and_eq_true, decide_eq_true_eq, ge_iff_le, UInt32.le_iff_toNat_le]
      at digit
    exact digit
  rw [Bool.eq_false_iff]
  intro starts
  simp only [Cursor.isWordStart, Bool.or_eq_true, beq_iff_eq] at starts
  rcases starts with letter | rfl
  · rw [Text.isLetter, if_pos (by omega)] at letter
    simp only [Char.isAlpha, Char.isUpper, Char.isLower, Bool.or_eq_true, Bool.and_eq_true,
      decide_eq_true_eq, ge_iff_le, UInt32.le_iff_toNat_le] at letter
    rcases letter with upper | lower
    · have least : 65 ≤ c.toNat := upper.1
      omega
    · have least : 97 ≤ c.toNat := lower.1
      omega
  · exact absurd digit (by decide)

theorem isWordStart_iff {c : Char} :
    Cursor.isWordStart c = true <-> Text.isLetter c = true ∨ c = '_' := by
  rw [Cursor.isWordStart, Bool.or_eq_true, beq_iff_eq]

theorem isWordPart_iff {c : Char} :
    Cursor.isWordPart c = true <->
      Text.isLetter c = true ∨ c = '_' ∨ Text.isDecimalDigit c = true := by
  rw [Cursor.isWordPart, Bool.or_eq_true, isWordStart_iff, or_assoc]

theorem IsNumber.isDigit_head {c : Char} {rest : List Char} (number : IsNumber (c :: rest)) :
    c.isDigit = true := by
  rcases number with digits | ⟨digits, decimals, split, whole, -⟩
  · exact digits.2 c List.mem_cons_self
  · cases digits with
    | nil => exact absurd rfl whole.1
    | cons d digits =>
        rw [(List.cons.inj split).1]
        exact whole.2 d List.mem_cons_self

/-- The first character of a symbol begins no token of another class. -/
theorem head_of_symbol {c : Char} {rest : List Char} {kind : TokenKind}
    (listed : (c :: rest, kind) ∈ symbols) :
    c.isDigit = false ∧ Cursor.isWordStart c = false ∧ c ≠ '"' := by
  have every : forall entry, entry ∈ symbols -> (entry.1.head?.all fun first =>
      !first.isDigit && !Cursor.isWordStart first && first != '"') = true := by decide
  have found := every _ listed
  simp only [List.head?_cons, Option.all_some, Bool.and_eq_true, Bool.not_eq_true', bne_iff_ne]
    at found
  exact ⟨found.1.1, found.1.2, found.2⟩

theorem ofWord_of_mem {word : String} {kind : TokenKind} (listed : (word, kind) ∈ keywords) :
    ofWord word = kind := by
  have every : forall entry, entry ∈ keywords -> ofWord entry.1 = entry.2 := by decide
  exact every _ listed

theorem ofWord_of_not_mem {word : String} (other : forall kind, (word, kind) ∉ keywords) :
    ofWord word = .identifier := by
  rcases Cursor.ofWord_cases word with identifier | listed
  · exact identifier
  · exact absurd listed (other _)

theorem Admits.ne_nil {kind : TokenKind} {text : List Char} (admitted : Admits kind text) :
    text ≠ [] := by
  rintro rfl
  cases admitted with
  | number number =>
      rcases number with digits | ⟨digits, decimals, split, -⟩
      · exact digits.1 rfl
      · cases digits <;> cases split
  | keyword word => exact word
  | identifier word => exact word
  | string quoted =>
      rcases quoted with ⟨body, split, -⟩
      cases split
  | symbol listed =>
      have every : forall entry, entry ∈ symbols -> entry.1 ≠ [] := by decide
      exact every _ listed rfl

/-- The first character decides the class of a token. -/
theorem Admits.by_head {kind : TokenKind} {c : Char} {rest : List Char}
    (admitted : Admits kind (c :: rest)) :
    if c.isDigit then kind = .number ∧ IsNumber (c :: rest)
    else if Cursor.isWordStart c then kind = .ofWord (String.ofList (c :: rest)) ∧
      IsWord (c :: rest)
    else if c = '"' then kind = .string ∧ IsQuoted (c :: rest)
    else (c :: rest, kind) ∈ symbols := by
  have notDigit (starts : Cursor.isWordStart c = true) : ¬ c.isDigit = true := by
    intro digit
    rw [isWordStart_of_isDigit digit] at starts
    cases starts
  cases admitted with
  | number number =>
      rw [if_pos number.isDigit_head]
      exact ⟨rfl, number⟩
  | keyword word listed =>
      have starts := isWordStart_iff.mpr word.1
      rw [if_neg (notDigit starts), if_pos starts]
      exact ⟨(ofWord_of_mem listed).symm, word⟩
  | identifier word other =>
      have starts := isWordStart_iff.mpr word.1
      rw [if_neg (notDigit starts), if_pos starts]
      exact ⟨(ofWord_of_not_mem other).symm, word⟩
  | string quoted =>
      have first : c = '"' := by
        rcases quoted with ⟨body, split, -⟩
        exact (List.cons.inj split).1
      subst first
      rw [if_neg (by decide), if_neg (by decide), if_pos rfl]
      exact ⟨rfl, quoted⟩
  | symbol listed =>
      rcases head_of_symbol listed with ⟨noDigit, noStart, noQuote⟩
      rw [if_neg (by rw [noDigit]; decide), if_neg (by rw [noStart]; decide), if_neg noQuote]
      exact listed

theorem Admits.kind_eq {kind : TokenKind} {text : List Char} (admitted : Admits kind text) :
    kind = ofLexeme text := by
  have every : forall entry, entry ∈ symbols -> symbols.lookup entry.1 = some entry.2 := by decide
  cases text with
  | nil => exact absurd rfl admitted.ne_nil
  | cons c rest =>
      have shape := admitted.by_head
      rw [ofLexeme]
      by_cases digit : c.isDigit = true
      · rw [if_pos digit] at shape ⊢
        exact shape.1
      · rw [if_neg digit] at shape ⊢
        by_cases starts : Cursor.isWordStart c = true
        · rw [if_pos starts] at shape ⊢
          exact shape.1
        · rw [if_neg starts] at shape ⊢
          by_cases quote : c = '"'
          · rw [if_pos quote] at shape ⊢
            exact shape.1
          · rw [if_neg quote] at shape ⊢
            rw [every _ shape]
            rfl

theorem Admits.exists_cons {kind : TokenKind} {c : Char} {text rest : List Char}
    (admitted : Admits kind text)
    (begins : text <+: c :: rest) : exists more, text = c :: more ∧ more <+: rest := by
  cases text with
  | nil => exact absurd rfl admitted.ne_nil
  | cons d more =>
      rcases List.cons_prefix_cons.mp begins with ⟨rfl, inside⟩
      exact ⟨more, rfl, inside⟩

theorem Admits.symbol_of_head {kind first : TokenKind} {c : Char} {behind rest : List Char}
    (listed : (c :: behind, first) ∈ symbols) (admitted : Admits kind (c :: rest)) :
    (c :: rest, kind) ∈ symbols := by
  have shape := admitted.by_head
  rcases head_of_symbol listed with ⟨noDigit, noStart, noQuote⟩
  rw [if_neg (by rw [noDigit]; decide), if_neg (by rw [noStart]; decide), if_neg noQuote] at shape
  exact shape

end TokenKind

namespace Cursor

open TokenKind

/-- A text begins with a blank or a comment. -/
def BeginsLayout (text : List Char) : Prop :=
  (exists c, c ∈ blanks ∧ [c] <+: text) ∨ ['/', '/'] <+: text

/-- A token is the longest one at the head of a text, and leaves the text behind it. -/
structure LongestToken (text after : List Char) (token : Token) : Prop where
  split : text = token.lexeme.toList ++ after
  admitted : token.kind.Admits token.lexeme.toList
  longest : forall kind other, Admits kind other -> other <+: text -> other <+: token.lexeme.toList

/-- No token begins a text. -/
def BeginsNoToken (text : List Char) : Prop :=
  forall kind other, Admits kind other -> ¬ other <+: text

/-- What is taken from a text is its longest token, or a complaint where no token begins. -/
def TakesLongest (text : List Char) (result : Item × Cursor) : Prop :=
  match result.1 with
  | .ok token => LongestToken text result.2.rest token
  | .error _ => BeginsNoToken text

theorem takesLongest_take {kind : TokenKind} {text lexeme rest : List Char}
    (split : text = lexeme ++ rest) (admitted : kind.Admits lexeme)
    (longest : forall kind other, Admits kind other -> other <+: text ->
      other.length ≤ lexeme.length)
    (line : Nat) : TakesLongest text (take kind lexeme rest line) := by
  have begins : lexeme <+: text := ⟨rest, split.symm⟩
  refine ⟨?_, ?_, ?_⟩
  · rw [String.toList_ofList]
    exact split
  · rw [String.toList_ofList]
    exact admitted
  · intro kind other known inside
    rw [String.toList_ofList]
    exact List.prefix_of_prefix_length_le inside begins (longest kind other known inside)

theorem length_le_takeWhile {holds : Char -> Bool} {text other : List Char}
    (all : forall c, c ∈ other -> holds c = true) (begins : other <+: text) :
    other.length ≤ (text.takeWhile holds).length := by
  rcases begins with ⟨rest, rfl⟩
  rw [List.takeWhile_append_of_pos all, List.length_append]
  exact Nat.le_add_right _ _

/-! ## Numbers -/

theorem splitNumber_of_fraction {digits decimals : List Char} (whole : IsDigits digits)
    (fraction : IsDigits decimals) (rest : List Char) :
    (splitNumber (digits ++ '.' :: (decimals ++ rest))).1 =
      digits ++ '.' :: (decimals ++ rest).takeWhile Char.isDigit := by
  have dot : ¬ Char.isDigit '.' = true := by decide
  cases decimals with
  | nil => exact absurd rfl fraction.1
  | cons d decimals =>
      have digit := fraction.2 d List.mem_cons_self
      simp only [splitNumber, List.takeWhile_append_of_pos whole.2,
        List.dropWhile_append_of_pos whole.2, List.takeWhile_cons_of_neg dot,
        List.dropWhile_cons_of_neg dot, List.append_nil, List.cons_append, if_pos digit]

theorem length_takeWhile_le_splitNumber (text : List Char) :
    (text.takeWhile Char.isDigit).length ≤ (splitNumber text).1.length := by
  simp only [splitNumber]
  split
  · split
    · rw [List.length_append]
      exact Nat.le_add_right _ _
    · exact Nat.le_refl _
  · exact Nat.le_refl _

theorem isDigits_takeWhile {c : Char} (digit : c.isDigit = true) (rest : List Char) :
    IsDigits ((c :: rest).takeWhile Char.isDigit) := by
  refine ⟨?_, fun d member => List.mem_takeWhile_imp member⟩
  rw [List.takeWhile_cons_of_pos digit]
  exact List.cons_ne_nil _ _

theorem isNumber_splitNumber {c : Char} (digit : c.isDigit = true) (rest : List Char) :
    IsNumber (splitNumber (c :: rest)).1 := by
  have whole := isDigits_takeWhile digit rest
  simp only [splitNumber]
  split
  · split
    · rename_i decimal
      exact Or.inr ⟨_, _, rfl, whole, isDigits_takeWhile decimal _⟩
    · exact Or.inl whole
  · exact Or.inl whole

theorem length_le_splitNumber {text other : List Char} (number : IsNumber other)
    (begins : other <+: text) :
    other.length ≤ (splitNumber text).1.length := by
  rcases number with digits | ⟨digits, decimals, rfl, whole, fraction⟩
  · exact Nat.le_trans (length_le_takeWhile digits.2 begins) (length_takeWhile_le_splitNumber text)
  · rcases begins with ⟨rest, rfl⟩
    rw [List.append_assoc, List.cons_append, splitNumber_of_fraction whole fraction,
      List.length_append, List.length_append, List.length_cons, List.length_cons]
    have longer := length_le_takeWhile fraction.2 (List.prefix_append decimals rest)
    omega

theorem takesLongest_number {c : Char} (digit : c.isDigit = true) (rest : List Char) (line : Nat) :
    TakesLongest (c :: rest)
      (take .number (splitNumber (c :: rest)).1 (splitNumber (c :: rest)).2 line) := by
  refine takesLongest_take (splitNumber_append _).symm
    (.number (isNumber_splitNumber digit rest)) ?_ line
  intro kind other admitted begins
  rcases admitted.exists_cons begins with ⟨more, rfl, -⟩
  have shape := admitted.by_head
  rw [if_pos digit] at shape
  exact length_le_splitNumber shape.2 begins

/-! ## Words -/

theorem isWordPart_of_mem {text : List Char} (word : IsWord text) {c : Char} (member : c ∈ text) :
    isWordPart c = true := by
  cases text with
  | nil => exact word.elim
  | cons first rest =>
      rcases List.mem_cons.mp member with rfl | inside
      · rw [isWordPart, isWordStart_iff.mpr word.1]
        rfl
      · exact isWordPart_iff.mpr (word.2 c inside)

theorem isWord_takeWhile {c : Char} (starts : isWordStart c = true) (rest : List Char) :
    IsWord ((c :: rest).takeWhile isWordPart) := by
  have part : isWordPart c = true := by
    rw [isWordPart, starts]
    rfl
  rw [List.takeWhile_cons_of_pos part]
  exact ⟨isWordStart_iff.mp starts,
    fun d member => isWordPart_iff.mp (List.mem_takeWhile_imp member)⟩

theorem admits_ofWord {text : List Char} (word : IsWord text) :
    Admits (.ofWord (String.ofList text)) text := by
  by_cases listed : exists kind, (String.ofList text, kind) ∈ keywords
  · rcases listed with ⟨kind, listed⟩
    rw [ofWord_of_mem listed]
    exact .keyword word listed
  · have other := not_exists.mp listed
    rw [ofWord_of_not_mem other]
    exact .identifier word other

theorem takesLongest_word {c : Char} (digit : ¬ c.isDigit = true) (starts : isWordStart c = true)
    (rest : List Char) (line : Nat) :
    TakesLongest (c :: rest) (take (.ofWord (String.ofList ((c :: rest).takeWhile isWordPart)))
      ((c :: rest).takeWhile isWordPart) ((c :: rest).dropWhile isWordPart) line) := by
  refine takesLongest_take List.takeWhile_append_dropWhile.symm
    (admits_ofWord (isWord_takeWhile starts rest))
    ?_ line
  intro kind other admitted begins
  rcases admitted.exists_cons begins with ⟨more, rfl, -⟩
  have shape := admitted.by_head
  rw [if_neg digit, if_pos starts] at shape
  exact length_le_takeWhile (fun d member => isWordPart_of_mem shape.2 member) begins

/-! ## Strings -/

theorem takeWhile_of_not_mem {body rest : List Char} (unquoted : '"' ∉ body) :
    (body ++ '"' :: rest).takeWhile (· != '"') = body := by
  have all : forall c, c ∈ body -> (c != '"') = true := by
    intro c member
    rw [bne_iff_ne]
    rintro rfl
    exact unquoted member
  rw [List.takeWhile_append_of_pos all, List.takeWhile_cons_of_neg (by decide), List.append_nil]

theorem exists_body {kind : TokenKind} {other body : List Char} (admitted : Admits kind other)
    (begins : other <+: '"' :: body) :
    exists inner rest, other = '"' :: (inner ++ ['"']) ∧ '"' ∉ inner ∧
      body = inner ++ '"' :: rest := by
  rcases admitted.exists_cons begins with ⟨more, rfl, inside⟩
  have shape := admitted.by_head
  rw [if_neg (by decide), if_neg (by decide), if_pos rfl] at shape
  rcases shape.2 with ⟨inner, split, unquoted⟩
  rcases inside with ⟨rest, rfl⟩
  cases split
  exact ⟨inner, rest, rfl, unquoted, by rw [List.append_assoc, List.singleton_append]⟩

theorem split_of_takes {kind : TokenKind} {text lexeme rest : List Char} {line : Nat}
    (taken : Takes text line (take kind lexeme rest line)) : text = lexeme ++ rest := by
  rcases taken with ⟨span, after, split, spans, behind⟩
  have spelled : lexeme = span := String.toList_ofList.symm.trans spans.lexeme_eq
  have left : rest = after := congrArg Cursor.rest behind
  rw [spelled, left]
  exact split

theorem takesLongest_string (body : List Char) (line : Nat) :
    TakesLongest ('"' :: body) (takeString body line) := by
  have taken := takes_string body line
  rw [takeString] at taken ⊢
  cases dropped : body.dropWhile (· != '"') with
  | nil =>
      intro kind other admitted begins
      rcases exists_body admitted begins with ⟨inner, behind, rfl, -, rfl⟩
      have stays :=
        List.dropWhile_eq_nil_iff.mp dropped '"' (List.mem_append_right _ List.mem_cons_self)
      exact absurd stays (by decide)
  | cons quote rest =>
      rw [dropped] at taken
      have unquoted : '"' ∉ body.takeWhile (· != '"') := by
        intro member
        exact absurd (List.mem_takeWhile_imp member) (by decide)
      refine takesLongest_take (split_of_takes taken) (.string ⟨_, rfl, unquoted⟩) ?_ line
      intro kind other admitted begins
      rcases exists_body admitted begins with ⟨inner, behind, rfl, plain, rfl⟩
      rw [takeWhile_of_not_mem plain]
      exact Nat.le_refl _

/-! ## Symbols -/

theorem takesLongest_plain {c : Char} {kind : TokenKind} (listed : (c, kind) ∈ plainSymbols)
    (rest : List Char) (line : Nat) : TakesLongest (c :: rest) (take kind [c] rest line) := by
  have alone : forall entry, entry ∈ symbols -> forall plain, plain ∈ plainSymbols ->
      entry.1.head? = some plain.1 -> entry.1.length ≤ 1 := by decide
  have known : ([c], kind) ∈ symbols :=
    List.mem_append_left _ (List.mem_map_of_mem (f := fun entry => ([entry.1], entry.2)) listed)
  refine takesLongest_take rfl (.symbol known) ?_ line
  intro other text admitted begins
  rcases admitted.exists_cons begins with ⟨more, rfl, -⟩
  exact alone _ (admitted.symbol_of_head known) _ listed rfl

/-- A symbol that an equals sign can follow, alone and with the sign, and nothing else begins like
it. -/
theorem symbols_of_comparison {c : Char} {plain withEqual : TokenKind}
    (listed : (c, plain, withEqual) ∈ comparisons) :
    ([c], plain) ∈ symbols ∧ ([c, '='], withEqual) ∈ symbols ∧
      forall kind more, (c :: more, kind) ∈ symbols -> more = [] ∨ more = ['='] := by
  have every : forall entry, entry ∈ comparisons -> ([entry.1], entry.2.1) ∈ symbols ∧
      ([entry.1, '='], entry.2.2) ∈ symbols := by decide
  have shapes : forall entry, entry ∈ symbols -> entry.1.tail = [] ∨
      entry.1.tail = ['='] := by decide
  exact ⟨(every _ listed).1, (every _ listed).2, fun kind more found => shapes _ found⟩

theorem takesLongest_comparison {c : Char} {plain withEqual : TokenKind}
    (listed : (c, plain, withEqual) ∈ comparisons) (rest : List Char) (line : Nat) :
    TakesLongest (c :: rest) (takeComparison c plain withEqual rest line) := by
  rcases symbols_of_comparison listed with ⟨single, double, shapes⟩
  unfold takeComparison
  split
  · refine takesLongest_take (by rfl) (.symbol double) ?_ line
    intro kind other admitted begins
    rcases admitted.exists_cons begins with ⟨more, rfl, -⟩
    rcases shapes _ _ (admitted.symbol_of_head single) with rfl | rfl <;> simp
  · rename_i noEqual
    refine takesLongest_take (by rfl) (.symbol single) ?_ line
    intro kind other admitted begins
    rcases admitted.exists_cons begins with ⟨more, rfl, inside⟩
    rcases shapes _ _ (admitted.symbol_of_head single) with rfl | rfl
    · exact Nat.le_refl _
    · rcases inside with ⟨behind, rfl⟩
      exact absurd rfl (noEqual behind)

theorem takesLongest_symbol {c : Char} (digit : ¬ c.isDigit = true)
    (starts : ¬ isWordStart c = true) (quote : c ≠ '"') (rest : List Char) (line : Nat) :
    TakesLongest (c :: rest) (takeSymbol c rest line) := by
  unfold takeSymbol
  split
  case h_12 | h_13 | h_14 | h_15 => exact takesLongest_comparison (by decide) rest line
  case h_16 =>
    intro kind other admitted begins
    rcases admitted.exists_cons begins with ⟨more, rfl, -⟩
    have listed := admitted.by_head
    rw [if_neg digit, if_neg starts, if_neg quote] at listed
    -- The table lists only symbols whose first characters are excluded here.
    simp only [symbols, plainSymbols, comparisons] at listed
    simp_all
  all_goals exact takesLongest_plain (by decide) rest line

/-! ## One item -/

theorem takesLongest_item (c : Char) (rest : List Char) (line : Nat) :
    TakesLongest (c :: rest) (takeItem (c :: rest) line) := by
  rw [takeItem]
  split
  · rename_i digit
    exact takesLongest_number digit rest line
  · rename_i digit
    split
    · rename_i starts
      exact takesLongest_word digit starts rest line
    · rename_i starts
      split
      · rename_i quote
        rw [quote]
        exact takesLongest_string rest line
      · rename_i quote
        exact takesLongest_symbol digit starts quote rest line

theorem not_beginsLayout_skipLayout (inside : Bool) (text : List Char) (line : Nat) :
    ¬ BeginsLayout (skipLayout inside text line).rest := by
  have layout : forall c, c ∈ blanks -> isLayout c = true := by
    intro c blank
    simp only [blanks, List.mem_cons, List.not_mem_nil, or_false] at blank
    rcases blank with rfl | rfl | rfl | rfl | rfl | rfl <;> rfl
  fun_induction skipLayout inside text line with
  | case1 inside line =>
      rintro (⟨c, -, begins⟩ | begins) <;>
        exact absurd (List.prefix_nil.mp begins) (List.cons_ne_nil _ _)
  | case2 rest line ih => exact ih
  | case3 c rest line other ih => exact ih
  | case4 rest line ih => exact ih
  | case5 c rest line notComment blank ih => exact ih
  | case6 c rest line notComment other =>
      rintro (⟨d, blank, begins⟩ | begins)
      · rw [(List.cons_prefix_cons.mp begins).1] at blank
        exact other (layout c blank)
      · rcases begins with ⟨behind, split⟩
        cases split
        exact notComment behind rfl rfl

theorem lexeme_of_slash {text : List Char} (admitted : Admits .slash text) : text = ['/'] := by
  have noWord : forall entry, entry ∈ keywords -> entry.2 ≠ .slash := by decide
  have onlyOne : forall entry, entry ∈ symbols -> entry.2 = .slash -> entry.1 = ['/'] := by decide
  cases admitted with
  | keyword word listed => exact absurd rfl (noWord _ listed)
  | symbol listed => exact onlyOne _ listed rfl

/-- A division sign with another one behind it would have begun a comment. -/
theorem LongestToken.head_ne_of_slash {text after : List Char} {token : Token}
    (longest : LongestToken text after token) (layout : ¬ BeginsLayout text)
    (slash : token.kind = .slash) :
    after.head? ≠ some '/' := by
  intro follows
  have lexeme := lexeme_of_slash (slash ▸ longest.admitted)
  apply layout
  right
  rw [longest.split, lexeme, <- List.cons_head?_tail follows]
  exact ⟨after.tail, rfl⟩

/-- The sign behind a comparison decides between its two kinds. -/
theorem LongestToken.kind_of_comparison {text after : List Char} {token : Token}
    (longest : LongestToken text after token) {c : Char} {plain withEqual : TokenKind}
    {behind : List Char}
    (listed : (c, plain, withEqual) ∈ comparisons) (begins : text = c :: behind) :
    token.kind = if behind.head? = some '=' then withEqual else plain := by
  rcases symbols_of_comparison listed with ⟨single, double, shapes⟩
  have inside : token.lexeme.toList <+: c :: behind := ⟨after, by rw [<- longest.split, begins]⟩
  rcases longest.admitted.exists_cons inside with ⟨more, spelled, follows⟩
  have admitted := longest.admitted
  have kindEq := admitted.kind_eq
  rw [spelled] at admitted kindEq
  have shape := shapes _ _ (admitted.symbol_of_head single)
  split
  · rename_i equal
    have doubled : [c, '='] <+: text := by
      rw [begins, <- List.cons_head?_tail equal]
      exact ⟨behind.tail, rfl⟩
    have longer := (longest.longest _ _ (.symbol double) doubled).length_le
    rcases shape with rfl | rfl
    · rw [spelled] at longer
      exact absurd longer (by simp)
    · rw [kindEq, <- (Admits.symbol double).kind_eq]
  · rename_i other
    rcases shape with rfl | rfl
    · rw [kindEq, <- (Admits.symbol single).kind_eq]
    · rcases follows with ⟨tail, rfl⟩
      exact absurd rfl other

/-- Reading takes the longest token.  Behind the layout at a place there is the end of the input, or
else the longest text there that is a token of any kind, or else no token begins.  A division sign
is not followed by another one, a comparison has its equals sign whenever one follows, and every
token's kind is determined by its text. -/
theorem next_takes_longest_token (cursor : Cursor) :
    exists gap text, cursor.rest = gap ++ text ∧ Gap text gap ∧ ¬ BeginsLayout text ∧
      match cursor.next.1 with
      | .ok token =>
          token.kind = .ofLexeme token.lexeme.toList ∧
          if token.kind = .endOfInput then text = []
          else
            LongestToken text cursor.next.2.rest token ∧
            (token.kind = .slash -> cursor.next.2.rest.head? ≠ some '/') ∧
            forall c plain withEqual behind, (c, plain, withEqual) ∈ comparisons ->
              text = c :: behind ->
              token.kind = if behind.head? = some '=' then withEqual else plain
      | .error _ => text ≠ [] ∧ BeginsNoToken text := by
  rcases exists_skipped false cursor.rest cursor.line with ⟨gap, text, split, skipped, reached⟩
  have layout := not_beginsLayout_skipLayout false cursor.rest cursor.line
  rw [reached] at layout
  refine ⟨gap, text, split, skipped, layout, ?_⟩
  rw [next, reached]
  cases text with
  | nil => exact ⟨rfl, rfl⟩
  | cons c rest =>
      have ending := isEnding_takeItem c rest (cursor.line + lineBreaks gap)
      have taken := takesLongest_item c rest (cursor.line + lineBreaks gap)
      dsimp only
      generalize takeItem (c :: rest) (cursor.line + lineBreaks gap) = result at ending taken
      rcases result with ⟨diagnostic | token, after⟩
      · exact ⟨List.cons_ne_nil _ _, taken⟩
      · refine ⟨taken.admitted.kind_eq, ?_⟩
        dsimp only
        rw [if_neg (ne_of_beq_false ending)]
        exact ⟨taken, taken.head_ne_of_slash layout,
          fun d plain withEqual behind listed begins => taken.kind_of_comparison listed begins⟩

end Cursor

end LoxNative
