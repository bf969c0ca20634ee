import Abacus.Expr.Basic
import Abacus.Json

/-! Expression trees as JSON. Each node is an object with one key, `Literal` over a number or
`Chain` over an object whose `rest` is a list of pairs. -/
namespace Abacus

def Operator.name : Operator → String
  | add => "Add"
  | subtract => "Subtract"
  | multiply => "Multiply"
  | divide => "Divide"

def Operator.ofName? (name : String) : Option Operator :=
  [add, subtract, multiply, divide].find? fun op => op.name == name

def Operator.ofJson? (value : Json) : Option Operator := value.name?.bind Operator.ofName?

namespace Expr

mutual

def toJson : Expr → Json
  | literal value => .object [("Literal", .ofFloat value)]
  | chain first rest => .object [("Chain", .object [("first", first.toJson), ("rest", .list (restToJson rest))])]

def restToJson : List (Operator × Expr) → List Json
  | [] => []
  | (op, operand) :: rest => .list [.text op.name, operand.toJson] :: restToJson rest

end

mutual

/-- The tree that a JSON value describes. Other keys beside `first` and `rest` are ignored. -/
def ofJson? : Json → Option Expr
  | .object [(key, value)] =>
    if key = "Literal" then value.number?.map literal
    else if key = "Chain" then chainOfJson? value
    else none
  | _ => none

def chainOfJson? : Json → Option Expr
  | .object fields => do return chain (← first? fields) (← rest? fields)
  | _ => none

def first? : List (String × Json) → Option Expr
  | [] => none
  | (key, value) :: fields => if key = "first" then ofJson? value else first? fields

def rest? : List (String × Json) → Option (List (Operator × Expr))
  | [] => none
  | (key, value) :: fields => if key = "rest" then steps? value else rest? fields

def steps? : Json → Option (List (Operator × Expr))
  | .list items => allSteps? items
  | _ => none

def allSteps? : List Json → Option (List (Operator × Expr))
  | [] => some []
  | item :: items => do return (← step? item) :: (← allSteps? items)

def step? : Json → Option (Operator × Expr)
  | .list [op, operand] => do return (← Operator.ofJson? op, ← ofJson? operand)
  | _ => none

end

end Expr

end Abacus
