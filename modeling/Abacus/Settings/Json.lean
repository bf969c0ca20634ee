import Abacus.Json
import Abacus.Settings

/-! Settings as JSON: an object with the fields `strictness` and `max_depth`, or a list of the two
values in this order. What is left out has its default. -/
namespace Abacus

def Strictness.ofJson? (value : Json) : Option Strictness := value.name?.bind Strictness.ofName?

namespace Settings

def ofValues? (strictness maxDepth : Option Json) : Option Settings := do
  let strictness ← match strictness with
    | none => some Strictness.lenient
    | some value => Strictness.ofJson? value
  let maxDepth ← match maxDepth with
    | none => some defaultDepth
    | some value => value.word?
  return ⟨strictness, maxDepth⟩

/-- Settings of any depth limit. Fields of other names are ignored. -/
def ofJson? : Json → Option Settings
  | .object fields => ofValues? (fields.lookup "strictness") (fields.lookup "max_depth")
  | .list [] => ofValues? none none
  | .list [strictness] => ofValues? (some strictness) none
  | .list [strictness, maxDepth] => ofValues? (some strictness) (some maxDepth)
  | _ => none

end Settings

/-- Why a JSON value is not a calculator: it has the wrong form, or its settings are refused. -/
inductive LoadError
  | form
  | refused (error : SettingsError)
deriving DecidableEq, Repr

namespace Calculator

def ofJson (value : Json) : Except LoadError Calculator :=
  match Settings.ofJson? value with
  | none => .error .form
  | some settings => settings.calculator.mapError .refused

def toJson (calculator : Calculator) : Json :=
  .object [("strictness", .text calculator.strictness.name), ("max_depth", .integer calculator.maxDepth)]

end Calculator

end Abacus
