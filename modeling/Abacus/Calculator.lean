import Abacus.Decimal
import Abacus.Parser

/-! Calculators at work: from a text to a value, and to what the display shows. -/
namespace Abacus

def errorText : String := "Error"

/-- A result together with what was told on the way to it. -/
structure Logged (α : Type) where
  result : α
  events : List Event

namespace Calculator

def parse (calculator : Calculator) (text : String) : Logged (Except ParseError Expr) :=
  match Parser.ofText calculator text with
  | .error e => ⟨.error e, []⟩
  | .ok parser => ⟨parser.parse.outcome, parser.parse.events⟩

def evaluate (calculator : Calculator) (text : String) : Logged (Except ParseError Float) :=
  let parsed := calculator.parse text
  match parsed.result with
  | .ok expr => ⟨.ok expr.evaluate, parsed.events ++ [.parsed expr, .evaluated text expr.evaluate]⟩
  | .error e => ⟨.error e, parsed.events ++ [.rejected text e]⟩

def display (calculator : Calculator) (text : String) : Logged String :=
  let evaluated := calculator.evaluate text
  match evaluated.result with
  | .ok value => ⟨ValueNotation.display.write value, evaluated.events⟩
  | .error _ => ⟨errorText, evaluated.events⟩

end Calculator

-- The same under the default settings, for a text alone.

def parse (text : String) : Logged (Except ParseError Expr) := Calculator.default.parse text

def evaluate (text : String) : Logged (Except ParseError Float) := Calculator.default.evaluate text

def evaluateToDisplay (text : String) : Logged String := Calculator.default.display text

end Abacus
