import Abacus.Decimal

/-! JSON values. Integers are kept exactly, other numbers as binary64 values. -/
namespace Abacus

inductive Json
  | null
  | bool (value : Bool)
  | integer (value : Int)
  | real (value : Float)
  | text (value : String)
  | list (items : List Json)
  | object (fields : List (String × Json))

namespace Json

/-- A number as it is written: a sign, the digits before and after the point, and the exponent. -/
structure Literal where
  negative : Bool
  whole : List Char
  fraction : Option (List Char)
  exponent : Option Int
deriving DecidableEq, Repr

/-- The exact decimal without its sign. Exponents past those of all finite values, with as many
digits as there are, make no difference to the value read and are cut off. -/
def Literal.decimal (literal : Literal) : Decimal :=
  let fraction := literal.fraction.getD []
  let digits := literal.whole ++ fraction
  let exponent := literal.exponent.getD 0 - fraction.length
  ⟨Numeral.ofDigits digits, max (-(digits.length + 400)) (min 400 exponent)⟩

/-- The value of a written number. Without point and exponent it is an integer, except for -0,
which only a binary64 value can express. -/
def Literal.value (literal : Literal) : Json :=
  let n := Numeral.ofDigits literal.whole
  match literal.fraction, literal.exponent with
  | none, none =>
    if !literal.negative then integer n
    else if n = 0 then real (literal.decimal.signed true)
    else integer (-n)
  | _, _ => real (literal.decimal.signed literal.negative)

def nearestFloat : Int → Float
  | .ofNat n => (Decimal.mk n 0).signed false
  | .negSucc n => (Decimal.mk (n + 1) 0).signed true

def number? : Json → Option Float
  | integer n => some (nearestFloat n)
  | real x => some x
  | _ => none

/-- The natural number of 64 bits that a value is. -/
def word? : Json → Option Nat
  | integer (.ofNat n) => if n < UInt64.size then some n else none
  | _ => none

/-- A binary64 value as JSON, which has no infinities and no NaN. -/
def ofFloat (x : Float) : Json := if Binary64.isFinite x then real x else null

/-- The name that a value stands for: the text itself, or the only key of an object over null. -/
def name? : Json → Option String
  | text name => some name
  | object [(name, null)] => some name
  | _ => none

theorem name_eq_some_iff (value : Json) (name : String) :
    value.name? = some name ↔ value = text name ∨ value = object [(name, null)] := by
  constructor
  · intro named
    unfold name? at named
    split at named
    · cases named
      exact .inl rfl
    · cases named
      exact .inr rfl
    · cases named
  · rintro (rfl | rfl)
    · rfl
    · rfl

end Json

end Abacus
