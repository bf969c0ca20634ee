import Abacus.Decimal
import Abacus.Operator

/-! Expression trees, their values and their texts. A run of operators of one precedence is one chain, folded from
left to right, so that only parentheses and precedence make a tree deeper. In its text every chain is in parentheses,
with spaces around its operators. -/
namespace Abacus

inductive Expr
  | literal (value : Float)
  | chain (first : Expr) (rest : List (Operator × Expr))

namespace Expr

/-- A chain, or its first operand alone where there is nothing to apply to it. -/
def join (first : Expr) : List (Operator × Expr) → Expr
  | [] => first
  | step :: rest => chain first (step :: rest)

def binary (op : Operator) (left right : Expr) : Expr := join left [(op, right)]

mutual

def evaluate : Expr → Float
  | literal value => value
  | chain first rest => applyAll first.evaluate rest

def applyAll (x : Float) : List (Operator × Expr) → Float
  | [] => x
  | (op, operand) :: rest => applyAll (op.apply x operand.evaluate) rest

end

theorem applyAll_eq_foldl (x : Float) (rest : List (Operator × Expr)) :
    applyAll x rest = rest.foldl (fun acc step => step.1.apply acc step.2.evaluate) x := by
  induction rest generalizing x with
  | nil => rfl
  | cons step rest ih => exact ih _

theorem applyAll_append (x : Float) (before after : List (Operator × Expr)) :
    applyAll x (before ++ after) = applyAll (applyAll x before) after := by
  simp only [applyAll_eq_foldl, List.foldl_append]

theorem evaluate_join (first : Expr) (rest : List (Operator × Expr)) :
    (join first rest).evaluate = applyAll first.evaluate rest := by
  cases rest <;> rfl

mutual

/-- The height of the tree, a literal being 1. -/
def depth : Expr → Nat
  | literal _ => 1
  | chain first rest => 1 + max first.depth (deepest rest)

/-- The greatest height of an operand, or 0 if there is none. -/
def deepest : List (Operator × Expr) → Nat
  | [] => 0
  | (_, operand) :: rest => max operand.depth (deepest rest)

end

mutual

/-- Equality of structure. Literals are compared as numbers: 0 equals -0, and NaN differs from itself. -/
def same : Expr → Expr → Bool
  | literal x, literal y => x == y
  | chain first rest, chain first' rest' => first.same first' && sameAll rest rest'
  | _, _ => false

def sameAll : List (Operator × Expr) → List (Operator × Expr) → Bool
  | [], [] => true
  | (op, operand) :: rest, (op', operand') :: rest' =>
    op == op' && operand.same operand' && sameAll rest rest'
  | _, _ => false

end

instance : BEq Expr := ⟨same⟩

mutual

def toText : Expr → List Char
  | literal value => (ValueNotation.literal.write value).toList
  | chain first rest => '(' :: first.toText ++ restText rest ++ [')']

def restText : List (Operator × Expr) → List Char
  | [] => []
  | (op, operand) :: rest => ' ' :: op.symbol :: ' ' :: operand.toText ++ restText rest

end

def text (e : Expr) : String := String.ofList e.toText

end Expr

end Abacus
