/-! The four arithmetic operators. -/
namespace Abacus

inductive Operator
  | add
  | subtract
  | multiply
  | divide
deriving DecidableEq, Repr

/-- Products bind tighter than sums. -/
inductive Precedence
  | sum
  | product
deriving DecidableEq, Repr

namespace Operator

def symbol : Operator → Char
  | add => '+'
  | subtract => '-'
  | multiply => '*'
  | divide => '/'

def precedence : Operator → Precedence
  | add | subtract => .sum
  | multiply | divide => .product

/-- The operation of IEEE 754 arithmetic. Dividing by zero gives an infinity or a NaN. -/
def apply : Operator → Float → Float → Float
  | add, x, y => x + y
  | subtract, x, y => x - y
  | multiply, x, y => x * y
  | divide, x, y => x / y

end Operator

end Abacus
