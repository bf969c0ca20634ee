import Abacus.Expr.Basic
import Abacus.ParseError
import Abacus.Token

/-! What a calculator tells while it works: the repairs of malformed structure, and the outcome. -/
namespace Abacus

inductive EventLevel
  | trace
  | debug
deriving DecidableEq, Repr

inductive Event
  /-- The place of a closing parenthesis was taken by something else. -/
  | groupClosedBy (found : Token) (position : Nat)
  /-- Something follows the expression, from this position on. -/
  | trailingIgnored (position : Nat)
  | parsed (expr : Expr)
  | evaluated (input : String) (value : Float)
  | rejected (input : String) (error : ParseError)

namespace Event

def level : Event → EventLevel
  | groupClosedBy _ _ | parsed _ => .trace
  | trailingIgnored _ | evaluated _ _ | rejected _ _ => .debug

def message : Event → String
  | groupClosedBy _ _ => "closing group without ')'"
  | trailingIgnored _ => "ignoring trailing input"
  | parsed _ => "parsed expression"
  | evaluated _ _ => "evaluated expression"
  | rejected _ _ => "rejected expression"

end Event

end Abacus
