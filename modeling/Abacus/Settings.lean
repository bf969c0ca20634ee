import Abacus.Text

/-! How strictly and how deeply expressions are parsed: settings as they are asked for, and
calculators, whose settings are within the limits. -/
namespace Abacus

inductive Strictness
  /-- The place of a closing parenthesis takes whatever is there, and what follows an expression is ignored. -/
  | lenient
  /-- Every parenthesis is closed and nothing follows the expression. -/
  | strict
deriving DecidableEq, Repr

def defaultDepth : Nat := 256

def greatestDepth : Nat := 512

inductive SettingsError
  | zeroDepth
  | depthTooLarge (depth : Nat)
  | invalidStrictness (text : String)
deriving DecidableEq, Repr

def SettingsError.message : SettingsError → String
  | zeroDepth => "Zero value not allowed for the depth limit"
  | depthTooLarge depth => "Depth limit " ++ toString depth ++ " is above the ceiling of " ++ toString greatestDepth
  | invalidStrictness text =>
    "Invalid strictness: " ++ Text.quote text ++ ", expected \"lenient\" or \"strict\""

namespace Strictness

def name : Strictness → String
  | lenient => "lenient"
  | strict => "strict"

def ofName? (name : String) : Option Strictness :=
  if name = lenient.name then some lenient else if name = strict.name then some strict else none

/-- Reads a name without regard to surrounding white space and to the case of ASCII letters. -/
def ofText (text : String) : Except SettingsError Strictness :=
  match ofName? (String.ofList ((Text.trim text.toList).map Char.toLower)) with
  | some strictness => .ok strictness
  | none => .error (.invalidStrictness text)

end Strictness

/-- Settings as they are asked for, within the limits or not. -/
structure Settings where
  strictness : Strictness := .lenient
  maxDepth : Nat := defaultDepth
deriving DecidableEq, Repr

/-- Settings under which expressions can be parsed. -/
structure Calculator where
  strictness : Strictness
  maxDepth : Nat
  depth_pos : 0 < maxDepth
  depth_le : maxDepth ≤ greatestDepth
deriving DecidableEq, Repr

inductive Adjustment
  | strictness (value : Strictness)
  | maxDepth (value : Nat)
  | reset
deriving DecidableEq, Repr

namespace Settings

def adjust (settings : Settings) : Adjustment → Settings
  | .strictness value => { settings with strictness := value }
  | .maxDepth value => { settings with maxDepth := value }
  | .reset => {}

/-- The calculator with these settings, if the depth limit is neither zero nor above the ceiling. -/
def calculator (settings : Settings) : Except SettingsError Calculator :=
  if zero : settings.maxDepth = 0 then .error .zeroDepth
  else if bound : settings.maxDepth ≤ greatestDepth then
    .ok ⟨settings.strictness, settings.maxDepth, Nat.pos_of_ne_zero zero, bound⟩
  else .error (.depthTooLarge settings.maxDepth)

theorem calculator_eq_ok_iff (settings : Settings) (calculator : Calculator) :
    settings.calculator = .ok calculator ↔
      settings.strictness = calculator.strictness ∧ settings.maxDepth = calculator.maxDepth := by
  obtain ⟨strictness, depth, pos, le⟩ := calculator
  unfold Settings.calculator
  split
  · rename_i zero
    simp only [reduceCtorEq, false_iff, not_and]
    omega
  · split
    · simp
    · simp only [reduceCtorEq, false_iff, not_and]
      omega

end Settings

namespace Calculator

def default : Calculator := ⟨.lenient, defaultDepth, by decide, by decide⟩

theorem of_default_settings : ({} : Settings).calculator = .ok default := rfl

end Calculator

end Abacus
