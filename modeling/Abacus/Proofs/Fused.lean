import Abacus.Proofs.Simulation

/-! Values without trees: a calculator that evaluates while it reads, by recursive descent, and keeps one
value for the sum and one for the product it is in. It gives the same value as evaluating the tree, with
all operations in the same order, or fails in the same way at the same position. -/
namespace Abacus

open Descent

namespace Fused

/-- Values, which an operation changes as soon as its second operand has been read. -/
def arithmetic : Meaning Float Float where
  literal x := x
  begin x := x
  extend x op y := Grammar.operate op x y
  result x := x

/-- Evaluates a text while reading it. -/
def evaluate (calculator : Calculator) (text : String) : Except ParseError Float := do
  checkText text
  ((Frame.ofText calculator text 0 0).first.read arithmetic).outcome

private theorem arithmetic_ofTrees : arithmetic.OfTrees Expr.evaluate fun operands => operands.expr.evaluate where
  literal _ := rfl
  begin _ := rfl
  extend operands op e := by
    rw [Operands.expr, Operands.expr, Expr.evaluate_join, Expr.evaluate_join, List.reverse_cons, Expr.applyAll_append]
    exact (Grammar.operate_eq op _ _).symm
  result _ := rfl

end Fused

private theorem Calculator.result_evaluate (calculator : Calculator) (text : String) :
    (calculator.evaluate text).result = (calculator.parse text).result.map Expr.evaluate := by
  rw [evaluate]
  cases (calculator.parse text).result <;> rfl

/-- Reading a text into a tree and evaluating that gives what evaluating it on the way gives: the same
value, with the same operations in the same order, or the same error at the same position. -/
theorem evaluate_eq_fused (calculator : Calculator) (text : String) :
    (calculator.evaluate text).result = Fused.evaluate calculator text := by
  rw [Calculator.result_evaluate, Fused.evaluate]
  rcases Classical.em (Valid text) with valid | invalid
  · have call : ((Frame.ofText calculator text 0 0).first.read Fused.arithmetic).Matches Expr.evaluate 0
        (calculator.reading text) := @read_matches (.ofText calculator text 0 0) _ _ calculator rfl _ _ _
      Fused.arithmetic_ofTrees (Frame.first _)
    rw [(checkText_eq_ok_iff text).mpr valid, Calculator.parse_of_valid valid]
    have outcome := call.outcome
    cases read : (calculator.reading text).outcome with
    | ok e =>
      rw [read] at outcome
      exact outcome.symm
    | error e =>
      rw [read] at outcome
      -- the limit that an error of depth tells of is that of the calculator
      have told := Place.read_withLimit read (calculator.reading text).cursor.position
      exact (outcome.trans (congrArg Except.error told)).symm
  · obtain ⟨e, refused⟩ := Calculator.exists_refused invalid
    rw [Calculator.parse_of_refused refused, refused]
    rfl

end Abacus
