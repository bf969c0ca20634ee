import Abacus.Expr.Basic

/-! Chains as nests of nodes with two operands each. A chain applies one operator after the other to what came before,
so it can be cut anywhere: what stands before the cut is the first operand of what comes after it. -/
namespace Abacus

namespace Expr

mutual

/-- The tree with a node for every operator, those of one chain nested to the left. -/
def nested : Expr → Expr
  | literal value => literal value
  | chain first rest => nestOn first.nested rest

def nestOn (left : Expr) : List (Operator × Expr) → Expr
  | [] => left
  | (op, operand) :: rest => nestOn (binary op left operand.nested) rest

end

inductive Paired : Expr → Prop
  | literal (value : Float) : Paired (literal value)
  | binary (op : Operator) {left right : Expr} (first : Paired left) (second : Paired right) :
      Paired (binary op left right)

def ungrouped (text : List Char) : List Char := text.filter fun c => c != '(' && c != ')'

private theorem evaluate_binary (op : Operator) (left right : Expr) :
    (binary op left right).evaluate = op.apply left.evaluate right.evaluate := by
  rw [binary, evaluate_join, applyAll, applyAll]

private theorem ungrouped_append (before after : List Char) :
    ungrouped (before ++ after) = ungrouped before ++ ungrouped after :=
  List.filter_append before after

private theorem ungrouped_chain (first : Expr) (rest : List (Operator × Expr)) :
    ungrouped (chain first rest).toText = ungrouped first.toText ++ ungrouped (restText rest) := by
  simp [toText, ungrouped]

private theorem ungrouped_binary (op : Operator) (left right : Expr) :
    ungrouped (binary op left right).toText = ungrouped left.toText ++ ungrouped (restText [(op, right)]) :=
  ungrouped_chain left [(op, right)]

private theorem ungrouped_step (op : Operator) (operand : Expr) (rest : List (Operator × Expr)) :
    ungrouped (restText ((op, operand) :: rest)) =
      ungrouped [' ', op.symbol, ' '] ++ (ungrouped operand.toText ++ ungrouped (restText rest)) := by
  rw [restText, ← ungrouped_append, ← ungrouped_append]
  rfl

mutual

private theorem paired_nested (e : Expr) : e.nested.Paired := by
  match e with
  | literal value => exact .literal value
  | chain first rest =>
    rw [nested]
    exact paired_nestOn (paired_nested first) rest

private theorem paired_nestOn {left : Expr} (paired : left.Paired) (rest : List (Operator × Expr)) :
    (nestOn left rest).Paired := by
  match rest with
  | [] => exact paired
  | (op, operand) :: rest =>
    rw [nestOn]
    exact paired_nestOn (.binary op paired (paired_nested operand)) rest

end

mutual

private theorem evaluate_nested (e : Expr) : e.nested.evaluate = e.evaluate := by
  match e with
  | literal value => rfl
  | chain first rest => rw [nested, evaluate, evaluate_nestOn, evaluate_nested first]

private theorem evaluate_nestOn (left : Expr) (rest : List (Operator × Expr)) :
    (nestOn left rest).evaluate = applyAll left.evaluate rest := by
  match rest with
  | [] => rfl
  | (op, operand) :: rest =>
    -- the nest on the left is the accumulator: its value is what the chain has come to so far
    rw [nestOn, applyAll, evaluate_nestOn, evaluate_binary, evaluate_nested operand]

end

mutual

private theorem ungrouped_nested (e : Expr) : ungrouped e.nested.toText = ungrouped e.toText := by
  match e with
  | literal value => rfl
  | chain first rest => rw [nested, ungrouped_nestOn, ungrouped_nested first, ungrouped_chain]

private theorem ungrouped_nestOn (left : Expr) (rest : List (Operator × Expr)) :
    ungrouped (nestOn left rest).toText = ungrouped left.toText ++ ungrouped (restText rest) := by
  match rest with
  | [] => simp [nestOn, restText, ungrouped]
  | (op, operand) :: rest =>
    rw [nestOn, ungrouped_nestOn, ungrouped_binary, ungrouped_step, ungrouped_step, ungrouped_nested operand]
    simp [restText, ungrouped]

end

/-- A tree with a gap in it, at any depth. -/
inductive Surroundings
  | gap
  | front (inside : Surroundings) (rest : List (Operator × Expr))
  | later (first : Expr) (before : List (Operator × Expr)) (op : Operator) (inside : Surroundings)
      (after : List (Operator × Expr))

def Surroundings.fill (e : Expr) : Surroundings → Expr
  | gap => e
  | front inside rest => chain (inside.fill e) rest
  | later first before op inside after => chain first (before ++ (op, inside.fill e) :: after)

private theorem Surroundings.evaluate_fill {e e' : Expr} (same : e.evaluate = e'.evaluate)
    (surroundings : Surroundings) : (surroundings.fill e).evaluate = (surroundings.fill e').evaluate := by
  induction surroundings with
  | gap => exact same
  | front inside rest ih => rw [fill, fill, evaluate, evaluate, ih]
  | later first before op inside after ih =>
    rw [fill, fill, evaluate, evaluate, applyAll_append, applyAll_append, applyAll, applyAll, ih]

private theorem evaluate_regrouped (first : Expr) (before after : List (Operator × Expr)) :
    (chain (chain first before) after).evaluate = (chain first (before ++ after)).evaluate := by
  rw [evaluate, evaluate, evaluate, applyAll_append]

end Expr

/-- Whatever its operators and even without any, a chain means the nest of its operators to the left: every tree has
the value of the one with a node for each operator, which is written like it but for the parentheses. Wherever a
chain stands, its first steps can be grouped without a change to the value of the whole. -/
theorem chain_eq_nested :
    (∀ e : Expr, e.nested.Paired ∧ Expr.ungrouped e.nested.toText = Expr.ungrouped e.toText ∧
      e.nested.evaluate = e.evaluate) ∧
    ∀ (surroundings : Expr.Surroundings) (first : Expr) (before after : List (Operator × Expr)),
      (surroundings.fill (.chain first (before ++ after))).evaluate =
        (surroundings.fill (.chain (.chain first before) after)).evaluate :=
  ⟨fun e => ⟨e.paired_nested, e.ungrouped_nested, e.evaluate_nested⟩, fun surroundings first before after =>
    surroundings.evaluate_fill (Expr.evaluate_regrouped first before after).symm⟩

end Abacus
