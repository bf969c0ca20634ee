import Abacus.Operator
import Abacus.Text

/-! What a character means to the parser, and which characters an expression may hold. -/
namespace Abacus

/-- The meaning of the next character, or of there being none. -/
inductive Token
  | number
  | operator (op : Operator)
  | leftParenthesis
  | rightParenthesis
  | foreign (c : Char)
  | endOfText
deriving DecidableEq, Repr

def isNumeralPart (c : Char) : Bool := c.isDigit || c == '.'

namespace Token

/-- A character that has no place in an expression is foreign. -/
def ofChar (c : Char) : Token :=
  if isNumeralPart c then number
  else if c = '+' then operator .add
  else if c = '-' then operator .subtract
  else if c = '*' then operator .multiply
  else if c = '/' then operator .divide
  else if c = '(' then leftParenthesis
  else if c = ')' then rightParenthesis
  else foreign c

theorem ofChar_symbol (op : Operator) : ofChar op.symbol = operator op := by
  cases op <;> rfl

end Token

/-- Digits and the point, the signs of the operators, parentheses, and blanks. -/
def isAllowed (c : Char) : Bool :=
  c.isDigit || c == '.' || c == '+' || c == '-' || c == '*' || c == '/' || c == '(' || c == ')' || Text.isBlank c

/-- What is allowed in an expression is what is passed over as blank and what has a meaning. -/
theorem isAllowed_iff_ofChar (c : Char) : isAllowed c ↔ Text.isBlank c ∨ Token.ofChar c ≠ .foreign c := by
  have foreign : Token.ofChar c ≠ .foreign c ↔
      c.isDigit ∨ c = '.' ∨ c = '+' ∨ c = '-' ∨ c = '*' ∨ c = '/' ∨ c = '(' ∨ c = ')' := by
    simp only [Token.ofChar, isNumeralPart, Bool.or_eq_true, beq_iff_eq]
    grind
  rw [foreign]
  simp only [isAllowed, Bool.or_eq_true, beq_iff_eq]
  grind

end Abacus
