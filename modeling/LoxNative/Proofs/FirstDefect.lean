import Mathlib
import LoxNative.Proofs.CompileDiagnostics

namespace LoxNative

/-!
# Lowering reports the first defect of a tree

A tree may have several nodes that cannot be lowered, and a tree that was built by hand has more
ways to be wrong than one that was read.  Each such node has an error of its own.  Lowering visits
the nodes from left to right, operands before their operator, and reports the error of the first one
it meets.

With optimisation it looks at literals ahead of their turn, and drops what it learns about the wrong
ones.  A node that is lowered in this way has no defect below it, so which error is reported does
not depend on that.
-/

namespace Literal

/-- The number that digits denote: the rightmost counts once, and every other one ten times as much
as its neighbour to the right. -/
def positional (raw : String) : Nat :=
  Nat.ofDigits 10 (raw.toList.reverse.map fun digit => digit.toNat - 0x30)

end Literal

namespace Expr

/-- The nodes of a tree from left to right, operands before their operator.  Each node is given by
the tree below it. -/
def postOrder : Expr -> List Expr
  | .missing => [.missing]
  | .literal constant => [.literal constant]
  | .group inner => inner.postOrder ++ [.group inner]
  | .unary op right => right.postOrder ++ [.unary op right]
  | .binary op left right => left.postOrder ++ right.postOrder ++ [.binary op left right]

/-- What is wrong with a node, apart from the nodes below it, and the error that says so. -/
inductive Defect : Expr -> CompileError -> Prop
  | missing : Defect .missing .missingExpression
  | string {raw : String} {line : Int} :
      Defect (.literal ⟨.string, raw, line⟩)
        (.rejected ⟨.codegen, line, "\"" ++ raw ++ "\"", "String literals cannot be compiled."⟩)
  | empty {line : Int} :
      Defect (.literal ⟨.number, "", line⟩)
        (.rejected ⟨.codegen, line, "", "Only integer literals can be compiled."⟩)
  | notDigit {raw : String} {line : Int} {c : Char} : c ∈ raw.toList -> c.isDigit = false ->
      Defect (.literal ⟨.number, raw, line⟩)
        (.rejected ⟨.codegen, line, raw, "Only integer literals can be compiled."⟩)
  | tooLarge {raw : String} {line : Int} : (forall c, c ∈ raw.toList -> c.isDigit = true) ->
      0xFFFFFFFF < Literal.positional raw ->
      Defect (.literal ⟨.number, raw, line⟩)
        (.rejected ⟨.codegen, line, raw, "Integer literal out of range."⟩)
  | literal {code : Int} {raw : String} {line : Int} :
      Defect (.literal ⟨.unlisted code, raw, line⟩) (.unknownLiteral code)
  | unary {code : Int} {right : Expr} : Defect (.unary (.unlisted code) right) (.unknownUnary code)
  | binary {code : Int} {left right : Expr} :
      Defect (.binary (.unlisted code) left right) (.unknownBinary code)

/-- An error is that of the first defective node of a tree. -/
def FirstDefect (expr : Expr) (error : CompileError) : Prop :=
  exists before node after, expr.postOrder = before ++ node :: after ∧
    (forall earlier, earlier ∈ before -> forall other, ¬ Defect earlier other) ∧ Defect node error

end Expr

/-! ## Computing defects -/

/-- The error of a computation that failed. -/
def failure? {ε α : Type} : Except ε α -> Option ε
  | .error error => some error
  | .ok _ => none

theorem failure?_eq_some {ε α : Type} {result : Except ε α} {error : ε} :
    failure? result = some error <-> result = .error error := by
  cases result <;> simp [failure?]

theorem failure?_eq_none {ε α : Type} {result : Except ε α} :
    failure? result = none <-> exists value, result = .ok value := by
  cases result <;> simp [failure?]

/-- The first failure counts.  What comes second may use the result of the first, but not to fail in
another way. -/
theorem failure?_bind {ε α β : Type} {action : Except ε α} {next : α -> Except ε β}
    {rest : Option ε} (goesOn : forall value, failure? (next value) = rest) :
    failure? (action >>= next) = (failure? action).or rest := by
  cases action with
  | error error => rfl
  | ok value => exact goesOn value

/-- A computation that only finishes another one fails as that one does. -/
theorem failure?_finish {ε α β : Type} {action : Except ε α} {finish : α -> β} :
    failure? (action >>= fun value => pure (finish value)) = failure? action := by
  cases action <;> rfl

namespace Literal

theorem decimalValue_eq (raw : String) : decimalValue raw = positional raw := by
  have folded (digits : List Char) (start : Nat) :
      digits.foldl (fun value digit => value * 10 + (digit.toNat - 0x30)) start =
        start * 10 ^ digits.length +
          Nat.ofDigits 10 (digits.reverse.map fun digit => digit.toNat - 0x30) := by
    induction digits generalizing start with
    | nil => simp
    | cons digit digits ih =>
        rw [List.foldl_cons, ih, List.reverse_cons, List.map_append, Nat.ofDigits_append,
          List.length_map, List.length_reverse, List.length_cons]
        simp
        ring
  have whole := folded raw.toList 0
  rw [Nat.zero_mul, Nat.zero_add] at whole
  exact whole

theorem isInteger_iff {raw : String} :
    isInteger raw = true <-> raw ≠ "" ∧ forall c, c ∈ raw.toList -> c.isDigit = true := by
  rw [isInteger, Bool.and_eq_true, Bool.not_eq_true', List.all_eq_true, <- Bool.not_eq_true,
    String.isEmpty_iff]

/-- The value of a number literal, by the three things that can be said of its text. -/
theorem value_of_number (raw : String) (line : Int) :
    Literal.value ⟨.number, raw, line⟩ =
      if isInteger raw = false then
        .error (.rejected ⟨.codegen, line, raw, "Only integer literals can be compiled."⟩)
      else if positional raw ≤ 0xFFFFFFFF then .ok (UInt32.ofNat (positional raw))
      else .error (.rejected ⟨.codegen, line, raw, "Integer literal out of range."⟩) := by
  simp only [Literal.value, Bool.not_eq_true', decimalValue_eq]
  have bound : positional raw < 0x100000000 <-> positional raw ≤ 0xFFFFFFFF := Nat.lt_succ_iff
  simp only [bound]
  rfl

end Literal

namespace Expr

/-- The error of a node, apart from the nodes below it. -/
def defect? : Expr -> Option CompileError
  | .missing => some .missingExpression
  | .literal constant => failure? constant.value
  | .group _ => none
  | .unary op _ => failure? op.idiom
  | .binary op _ _ => failure? op.idiom

theorem defect?_of_defect {node : Expr} {error : CompileError} (defect : Defect node error) :
    node.defect? = some error := by
  cases defect with
  | missing | string | literal | unary | binary => rfl
  | empty => rfl
  | @notDigit raw line c member other =>
      have fractional : Literal.isInteger raw = false := by
        rw [Bool.eq_false_iff]
        intro integer
        have digit := (Literal.isInteger_iff.mp integer).2 c member
        exact absurd (digit.symm.trans other) (by decide)
      rw [defect?, Literal.value_of_number, if_pos fractional]
      rfl
  | @tooLarge raw line digits large =>
      have nonempty : raw ≠ "" := by
        rintro rfl
        exact absurd large (by decide)
      have integer := Literal.isInteger_iff.mpr ⟨nonempty, digits⟩
      rw [defect?, Literal.value_of_number, if_neg (by rw [integer]; decide),
        if_neg (Nat.not_le.mpr large)]
      rfl

theorem defect_of_literal {constant : Literal} {error : CompileError}
    (found : failure? constant.value = some error) : Defect (.literal constant) error := by
  rcases constant with ⟨kind, raw, line⟩
  cases kind with
  | truth | falsehood | nil => cases found
  | string =>
      cases found
      exact .string
  | unlisted code =>
      cases found
      exact .literal
  | number =>
      rw [Literal.value_of_number] at found
      split at found
      · rename_i fractional
        cases found
        by_cases empty : raw = ""
        · subst empty
          exact .empty
        · have notAll : ¬ forall c, c ∈ raw.toList -> c.isDigit = true := by
            intro digits
            rw [Literal.isInteger_iff.mpr ⟨empty, digits⟩] at fractional
            cases fractional
          simp only [not_forall] at notAll
          rcases notAll with ⟨c, member, other⟩
          exact .notDigit member (Bool.eq_false_iff.mpr other)
      · rename_i integer
        split at found
        · cases found
        · rename_i large
          cases found
          have digits := (Literal.isInteger_iff.mp (Bool.eq_true_of_not_eq_false integer)).2
          exact .tooLarge digits (Nat.not_le.mp large)

theorem defect_iff {node : Expr} {error : CompileError} :
    Defect node error <-> node.defect? = some error := by
  refine ⟨defect?_of_defect, fun found => ?_⟩
  cases node with
  | missing =>
      cases found
      exact .missing
  | literal constant => exact defect_of_literal found
  | group inner => cases found
  | unary op right =>
      cases op <;> cases found
      exact .unary
  | binary op left right =>
      cases op <;> cases found
      exact .binary

theorem firstDefect_iff {expr : Expr} {error : CompileError} :
    expr.FirstDefect error <-> expr.postOrder.findSome? defect? = some error := by
  rw [List.findSome?_eq_some_iff]
  constructor
  · rintro ⟨before, node, after, split, sound, defect⟩
    refine ⟨before, node, after, split, defect_iff.mp defect, fun earlier member => ?_⟩
    rw [Option.eq_none_iff_forall_ne_some]
    exact fun other found => sound earlier member other (defect_iff.mpr found)
  · rintro ⟨before, node, after, split, found, sound⟩
    refine ⟨before, node, after, split, fun earlier member other defect => ?_, defect_iff.mpr found⟩
    rw [defect_iff, sound earlier member] at defect
    cases defect

/-! ## What lowering reports -/

/-- A literal with a value has no defect, however many parentheses stand around it. -/
theorem findSome?_of_literalValue? {expr : Expr} {value : UInt32}
    (found : expr.literalValue? = some value) : expr.postOrder.findSome? defect? = none := by
  induction expr with
  | literal constant =>
      change constant.value.toOption = some value at found
      cases valued : constant.value with
      | error error =>
          rw [valued] at found
          cases found
      | ok own => simp [postOrder, defect?, valued, failure?]
  | group inner ih =>
      rw [postOrder, List.findSome?_append, ih found]
      rfl
  | _ => cases found

/-- Lowering fails with the first defect in the order in which nodes are visited.  The induction is
over the tree; where the two ways of lowering a binary node part, its operands are literals with
values. -/
theorem failure?_emit (options : LoweringOptions) (expr : Expr) (done : Array Idiom) :
    failure? (expr.emit options done) = expr.postOrder.findSome? defect? := by
  induction expr generalizing done with
  | missing => rfl
  | literal constant =>
      rw [emit, failure?_finish]
      simp [postOrder, defect?]
  | group inner ih =>
      rw [emit, ih, postOrder, List.findSome?_append]
      exact (Option.or_none).symm
  | unary op right ih =>
      have operator (half : Array Idiom) :
          failure? (op.idiom >>= fun idiom => (pure (half.push idiom) : Except CompileError _)) =
            [Expr.unary op right].findSome? defect? := by
        rw [failure?_finish]
        simp [defect?]
      rw [emit, failure?_bind operator, ih, postOrder, List.findSome?_append]
  | binary op left right ihLeft ihRight =>
      rw [postOrder, List.findSome?_append, List.findSome?_append]
      cases stacked : isInRegisters options.optimize op left right with
      | true =>
          rcases exists_of_isInRegisters stacked with
            ⟨first, second, idiom, foundFirst, foundSecond, chosen, constant⟩
          rw [emit, constant, findSome?_of_literalValue? foundFirst,
            findSome?_of_literalValue? foundSecond]
          cases op <;> cases chosen <;> rfl
      | false =>
          have operator (half : Array Idiom) :
              failure? (op.idiom >>=
                fun idiom => (pure (half.push idiom) : Except CompileError _)) =
                [Expr.binary op left right].findSome? defect? := by
            rw [failure?_finish]
            simp [defect?]
          have second (half : Array Idiom) :
              failure? (right.emit options half >>= fun out =>
                op.idiom >>= fun idiom => (pure (out.push idiom) : Except CompileError _)) =
                  (right.postOrder.findSome? defect?).or
                    ([Expr.binary op left right].findSome? defect?) := by
            rw [failure?_bind operator, ihRight]
          rw [emit, constantIdiom?_of_not_isInRegisters stacked, Option.or_assoc]
          exact (failure?_bind second).trans (by rw [ihLeft])

/-- There is a program exactly if lowering the tree succeeds, and otherwise the same error. -/
theorem failure?_ofExpr (options : LoweringOptions) (expr : Expr) :
    failure? (Program.ofExpr options expr) = expr.postOrder.findSome? defect? := by
  rw [<- failure?_emit options expr #[]]
  cases lowered : Program.ofExpr options expr with
  | error error =>
      rw [emit_error_of_ofExpr lowered]
      rfl
  | ok program =>
      rcases emit_of_isLowerable options (isLowerable_of_ofExpr lowered) #[] with
        ⟨out, -, emitted, -⟩
      rw [emitted]
      rfl

/-- Lowering a tree fails exactly if some node has a defect, and then with the error of the first
such node.  Neither depends on whether the code is optimised. -/
theorem lowering_reports_first_defect (options : LoweringOptions) (expr : Expr) :
    ((exists error, Program.ofExpr options expr = .error error) <->
      exists node error, node ∈ expr.postOrder ∧ Defect node error) ∧
    (forall error, Program.ofExpr options expr = .error error <-> expr.FirstDefect error) ∧
    forall other : LoweringOptions,
      (forall error, Program.ofExpr options expr = .error error <->
        Program.ofExpr other expr = .error error) ∧
      ((exists program, Program.ofExpr options expr = .ok program) <->
        exists program, Program.ofExpr other expr = .ok program) := by
  have reported (choice : LoweringOptions) (error : CompileError) :
      Program.ofExpr choice expr = .error error <-> expr.FirstDefect error := by
    rw [firstDefect_iff, <- failure?_ofExpr choice, failure?_eq_some]
  refine ⟨?_, reported options, fun other => ⟨fun error => ?_, ?_⟩⟩
  · constructor
    · rintro ⟨error, failed⟩
      rcases (reported options error).mp failed with ⟨before, node, after, split, -, defect⟩
      exact ⟨node, error, by rw [split]; exact List.mem_append_right _ List.mem_cons_self, defect⟩
    · rintro ⟨node, error, member, defect⟩
      have present : (expr.postOrder.findSome? defect?).isSome = true :=
        List.findSome?_isSome_iff.mpr ⟨node, member, by rw [defect_iff.mp defect]; rfl⟩
      rcases Option.isSome_iff_exists.mp present with ⟨first, found⟩
      exact ⟨first, (reported options first).mpr (firstDefect_iff.mpr found)⟩
  · rw [reported, reported]
  · rw [<- failure?_eq_none, <- failure?_eq_none, failure?_ofExpr, failure?_ofExpr]

end Expr

end LoxNative
