import Abacus.Expr.Basic

/-! One level of parentheses while it is being read: the sum so far, and within its last term the
product so far. -/
namespace Abacus

/-- Operands and the operators between them, the latest step first. -/
structure Operands where
  first : Expr
  later : List (Operator × Expr)

def Operands.expr (operands : Operands) : Expr := Expr.join operands.first operands.later.reverse

/-- Operands and an operator that waits for one more. -/
structure Pending where
  operands : Operands
  op : Operator

/-- The operands with one more, which is the first where none was waited for. -/
def Operands.extend : Option Pending → Expr → Operands
  | none, operand => ⟨operand, []⟩
  | some ⟨⟨first, later⟩, op⟩, operand => ⟨first, (op, operand) :: later⟩

/-- A level at a place where a factor is due. -/
structure Level where
  sum : Option Pending
  product : Option Pending

namespace Level

def fresh : Level := ⟨none, none⟩

def term (level : Level) (factor : Expr) : Expr := (Operands.extend level.product factor).expr

def expr (level : Level) (factor : Expr) : Expr := (Operands.extend level.sum (level.term factor)).expr

/-- The level that waits for an operand after a factor and an operator. An operator of a sum
ends the current term. -/
def await (level : Level) (factor : Expr) (op : Operator) : Level :=
  match op.precedence with
  | .product => ⟨level.sum, some ⟨Operands.extend level.product factor, op⟩⟩
  | .sum => ⟨some ⟨Operands.extend level.sum (level.term factor), op⟩, none⟩

end Level

end Abacus
