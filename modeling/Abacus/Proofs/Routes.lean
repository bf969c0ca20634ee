import Abacus.Settings.Json
import Mathlib.Data.List.Induction
import Mathlib.Data.Option.Defs

/-! The ways to a calculator: adjustments of the default settings, one after the other, and JSON values, which stand
for the adjustments that they hold the values of. All of them come to the same check of the depth limit. -/
namespace Abacus

/-- The JSON values that stand for a variant: its name in a table, alone or as the only key of an object over null. -/
inductive Json.Spells {α : Type} (names : List (String × α)) : Json → α → Prop
  | text {name : String} {a : α} (listed : (name, a) ∈ names) : Spells names (.text name) a
  | key {name : String} {a : α} (listed : (name, a) ∈ names) : Spells names (.object [(name, .null)]) a

theorem Json.bind_name_eq_some_iff {α : Type} {names : List (String × α)} {ofName? : String → Option α}
    (table : ∀ name a, ofName? name = some a ↔ (name, a) ∈ names) (value : Json) (a : α) :
    value.name?.bind ofName? = some a ↔ Spells names value a := by
  constructor
  · intro read
    obtain ⟨name, named, known⟩ := Option.bind_eq_some_iff.mp read
    rcases (value.name_eq_some_iff _).mp named with rfl | rfl
    · exact .text ((table _ _).mp known)
    · exact .key ((table _ _).mp known)
  · rintro (listed | listed)
    · exact (table _ _).mpr listed
    · exact (table _ _).mpr listed

namespace Strictness

def names : List (String × Strictness) := [("lenient", .lenient), ("strict", .strict)]

theorem mem_names_iff (name : String) (x : Strictness) : (name, x) ∈ names ↔ name = x.name := by
  cases x <;> simp [names, Strictness.name]

theorem ofName_eq_some_iff (name : String) (x : Strictness) : ofName? name = some x ↔ (name, x) ∈ names := by
  rw [mem_names_iff, ofName?]
  cases x <;> split_ifs <;> simp_all [Strictness.name]

end Strictness

namespace Adjustment

def strictness? : Adjustment → Option Strictness
  | strictness value => some value
  | maxDepth _ | reset => none

def maxDepth? : Adjustment → Option Nat
  | maxDepth value => some value
  | strictness _ | reset => none

/-- The adjustments since the settings were last reset, the latest first. -/
def sinceReset (steps : List Adjustment) : List Adjustment := steps.reverse.takeWhile (· != reset)

/-- The strictness that was last asked for since then. -/
def lastStrictness (steps : List Adjustment) : Strictness := ((sinceReset steps).findSome? strictness?).getD .lenient

/-- The depth limit that was last asked for since then. -/
def lastDepth (steps : List Adjustment) : Nat := ((sinceReset steps).findSome? maxDepth?).getD 256

private theorem sinceReset_concat (steps : List Adjustment) (step : Adjustment) :
    sinceReset (steps ++ [step]) = if step = reset then [] else step :: sinceReset steps := by
  rw [sinceReset, List.reverse_concat, List.takeWhile_cons]
  split <;> simp_all [sinceReset]

end Adjustment

namespace Settings

open Adjustment

def after (steps : List Adjustment) : Settings := steps.foldl adjust {}

private theorem after_eq (steps : List Adjustment) : after steps = ⟨lastStrictness steps, lastDepth steps⟩ := by
  induction steps using List.reverseRecOn with
  | nil => rfl
  | append_singleton steps step ih =>
    have before : steps.foldl adjust {} = _ := ih
    rw [after, List.foldl_append, before]
    simp only [lastStrictness, lastDepth, sinceReset_concat]
    cases step <;> rfl

private theorem calculator_of_zero {settings : Settings} (zero : settings.maxDepth = 0) :
    settings.calculator = .error .zeroDepth := by
  rw [calculator, dif_pos zero]

private theorem calculator_of_large {settings : Settings} (large : greatestDepth < settings.maxDepth) :
    settings.calculator = .error (.depthTooLarge settings.maxDepth) := by
  rw [calculator, dif_neg (Nat.ne_of_gt (Nat.zero_lt_of_lt large)), dif_neg (Nat.not_le.mpr large)]

private theorem exists_calculator_iff (settings : Settings) :
    (∃ calculator, settings.calculator = .ok calculator) ↔
      1 ≤ settings.maxDepth ∧ settings.maxDepth ≤ greatestDepth := by
  constructor
  · rintro ⟨calculator, made⟩
    obtain ⟨-, depth⟩ := (settings.calculator_eq_ok_iff calculator).mp made
    rw [depth]
    exact ⟨calculator.depth_pos, calculator.depth_le⟩
  · rintro ⟨pos, le⟩
    exact ⟨⟨settings.strictness, settings.maxDepth, pos, le⟩, (settings.calculator_eq_ok_iff _).mpr ⟨rfl, rfl⟩⟩

/-- The JSON values that stand for a depth limit, within the limits or not. -/
inductive SpelledDepth : Json → Nat → Prop
  | integer {depth : Nat} (fits : depth < UInt64.size) : SpelledDepth (.integer depth) depth

/-- A JSON value of the form of settings, and the values it has for strictness and depth limit, if it has any. -/
inductive Holds : Json → Option Json → Option Json → Prop
  | object (fields : List (String × Json)) :
      Holds (.object fields) (fields.lookup "strictness") (fields.lookup "max_depth")
  | list {items : List Json} (short : items.length ≤ 2) : Holds (.list items) items[0]? items[1]?

/-- The adjustments that a JSON value stands for, one for each value it holds. -/
inductive Spelled (value : Json) : List Adjustment → Prop
  | mk {first second : Option Json} {strictness : Option Strictness} {depth : Option Nat}
      (holds : Holds value first second)
      (strictnessSpelled : Option.Rel (Json.Spells Strictness.names) first strictness)
      (depthSpelled : Option.Rel SpelledDepth second depth) :
      Spelled value (strictness.toList.map .strictness ++ depth.toList.map .maxDepth)

private theorem strictness_eq_some_iff (value : Json) (strictness : Strictness) :
    Strictness.ofJson? value = some strictness ↔ Json.Spells Strictness.names value strictness :=
  Json.bind_name_eq_some_iff Strictness.ofName_eq_some_iff value strictness

private theorem word_eq_some_iff (value : Json) (depth : Nat) :
    value.word? = some depth ↔ SpelledDepth value depth := by
  constructor
  · intro read
    unfold Json.word? at read
    split at read
    · split at read
      · rename_i fits
        cases read
        exact .integer fits
      · cases read
    · cases read
  · rintro ⟨fits⟩
    exact if_pos fits

private theorem ofValues_eq (first second : Option Json) :
    ofValues? first second = (first.elim (some .lenient) Strictness.ofJson?).bind fun strictness =>
      (second.elim (some defaultDepth) Json.word?).bind fun depth => some ⟨strictness, depth⟩ := by
  cases first <;> cases second <;> rfl

private theorem ofValues_of_spelled {first second : Option Json} {strictness : Option Strictness} {depth : Option Nat}
    (strictnessSpelled : Option.Rel (Json.Spells Strictness.names) first strictness)
    (depthSpelled : Option.Rel SpelledDepth second depth) :
    ofValues? first second = some (after (strictness.toList.map .strictness ++ depth.toList.map .maxDepth)) := by
  have strictnessRead : first.elim (some .lenient) Strictness.ofJson? = some (strictness.getD .lenient) := by
    cases strictnessSpelled with
    | none => rfl
    | some spelled => exact (strictness_eq_some_iff _ _).mpr spelled
  have depthRead : second.elim (some defaultDepth) Json.word? = some (depth.getD defaultDepth) := by
    cases depthSpelled with
    | none => rfl
    | some spelled => exact (word_eq_some_iff _ _).mpr spelled
  rw [ofValues_eq, strictnessRead, depthRead]
  cases strictness <;> cases depth <;> rfl

private theorem ofJson_of_holds {value : Json} {first second : Option Json} (holds : Holds value first second) :
    ofJson? value = ofValues? first second := by
  cases holds with
  | object fields => rfl
  | @list items short =>
    match items, short with
    | [], _ => rfl
    | [_], _ => rfl
    | [_, _], _ => rfl

private theorem ofJson_of_spelled {value : Json} {steps : List Adjustment} (spelled : Spelled value steps) :
    ofJson? value = some (after steps) := by
  obtain ⟨holds, strictnessSpelled, depthSpelled⟩ := spelled
  rw [ofJson_of_holds holds]
  exact ofValues_of_spelled strictnessSpelled depthSpelled

private theorem exists_of_values {first second : Option Json} {settings : Settings}
    (read : ofValues? first second = some settings) :
    (∃ strictness, Option.Rel (Json.Spells Strictness.names) first strictness) ∧
      ∃ depth, Option.Rel SpelledDepth second depth := by
  rw [ofValues_eq] at read
  obtain ⟨strictness, strictnessRead, rest⟩ := Option.bind_eq_some_iff.mp read
  obtain ⟨depth, depthRead, -⟩ := Option.bind_eq_some_iff.mp rest
  constructor
  · cases first with
    | none => exact ⟨none, .none⟩
    | some value => exact ⟨some strictness, .some ((strictness_eq_some_iff _ _).mp strictnessRead)⟩
  · cases second with
    | none => exact ⟨none, .none⟩
    | some value => exact ⟨some depth, .some ((word_eq_some_iff _ _).mp depthRead)⟩

private theorem exists_holds {value : Json} {settings : Settings} (read : ofJson? value = some settings) :
    ∃ first second, Holds value first second := by
  unfold ofJson? at read
  split at read
  · exact ⟨_, _, .object _⟩
  · exact ⟨_, _, .list (by simp)⟩
  · exact ⟨_, _, .list (by simp)⟩
  · exact ⟨_, _, .list (by simp)⟩
  · cases read

private theorem exists_spelled {value : Json} {settings : Settings} (read : ofJson? value = some settings) :
    ∃ steps, Spelled value steps := by
  obtain ⟨first, second, holds⟩ := exists_holds read
  rw [ofJson_of_holds holds] at read
  obtain ⟨⟨strictness, strictnessSpelled⟩, depth, depthSpelled⟩ := exists_of_values read
  exact ⟨_, .mk holds strictnessSpelled depthSpelled⟩

end Settings

namespace Calculator

open Adjustment Settings

private theorem ofJson_of_spelled {value : Json} {steps : List Adjustment} (spelled : Spelled value steps) :
    ofJson value = (after steps).calculator.mapError .refused := by
  rw [ofJson, Settings.ofJson_of_spelled spelled]

private theorem ofJson_eq_form_iff (value : Json) : ofJson value = .error .form ↔ ¬ ∃ steps, Spelled value steps := by
  constructor
  · rintro refused ⟨steps, spelled⟩
    rw [ofJson_of_spelled spelled] at refused
    cases made : (after steps).calculator <;> simp [made, Except.mapError] at refused
  · intro none
    cases read : Settings.ofJson? value with
    | none => rw [ofJson, read]
    | some settings => exact absurd (exists_spelled read) none

private theorem ofJson_toJson (calculator : Calculator) : ofJson calculator.toJson = .ok calculator := by
  have fits : calculator.maxDepth < UInt64.size := Nat.lt_of_le_of_lt calculator.depth_le (by decide)
  have spelled : Spelled calculator.toJson [.strictness calculator.strictness, .maxDepth calculator.maxDepth] :=
    @Spelled.mk _ _ _ (some _) (some _) (.object _) (.some (.text ((Strictness.mem_names_iff _ _).mpr rfl)))
      (.some (.integer fits))
  have made : (after [.strictness calculator.strictness, .maxDepth calculator.maxDepth]).calculator = .ok calculator :=
    (calculator_eq_ok_iff _ _).mpr ⟨rfl, rfl⟩
  rw [ofJson_of_spelled spelled, made]
  rfl

private theorem ofJson_list {items : List Json} (short : items.length ≤ 2) :
    ofJson (.list items) = ofJson (.object (["strictness", "max_depth"].zip items)) := by
  match items, short with
  | [], _ => rfl
  | [_], _ => rfl
  | [_, _], _ => rfl

theorem lookup_filter {known : String → Bool} {key : String} (kept : known key) (fields : List (String × Json)) :
    (fields.filter fun field => known field.1).lookup key = fields.lookup key := by
  induction fields with
  | nil => rfl
  | cons field fields ih =>
    by_cases same : key = field.1
    · subst same
      rw [List.filter_cons, if_pos kept, List.lookup_cons, List.lookup_cons, beq_self_eq_true]
    · rw [List.lookup_cons, beq_false_of_ne same, ← ih, List.filter_cons]
      split
      · rw [List.lookup_cons, beq_false_of_ne same]
      · rfl

private theorem ofJson_filter {known : String → Bool} (strictness : known "strictness") (depth : known "max_depth")
    (fields : List (String × Json)) :
    ofJson (.object fields) = ofJson (.object (fields.filter fun field => known field.1)) := by
  rw [ofJson, ofJson, Settings.ofJson?, Settings.ofJson?, lookup_filter strictness, lookup_filter depth]

end Calculator

open Adjustment Settings

/-- Whatever the way, a calculator has the strictness and the depth limit that were last asked for, or the default
ones, and there is one exactly if that limit is within 1 and 512. A JSON value that does not stand for settings is
refused for its form; else it gives what the adjustments give that it stands for. Its fields may be listed, what is
missing at the end has its default, other fields are ignored, and every calculator is read back. -/
theorem routes_checked :
    (∀ steps,
      ((∃ calculator, (after steps).calculator = .ok calculator) ↔ 1 ≤ lastDepth steps ∧ lastDepth steps ≤ 512) ∧
      (∀ calculator, (after steps).calculator = .ok calculator →
        calculator.strictness = lastStrictness steps ∧ calculator.maxDepth = lastDepth steps) ∧
      (lastDepth steps = 0 → (after steps).calculator = .error .zeroDepth) ∧
      (512 < lastDepth steps → (after steps).calculator = .error (.depthTooLarge (lastDepth steps)))) ∧
    (∀ value,
      (∀ steps, Spelled value steps → Calculator.ofJson value = (after steps).calculator.mapError .refused) ∧
      (Calculator.ofJson value = .error .form ↔ ¬ ∃ steps, Spelled value steps) ∧
      ∀ calculator, Calculator.ofJson value = .ok calculator → 1 ≤ calculator.maxDepth ∧ calculator.maxDepth ≤ 512) ∧
    (∀ items, items.length ≤ 2 →
      Calculator.ofJson (.list items) = Calculator.ofJson (.object (["strictness", "max_depth"].zip items))) ∧
    (∀ fields, Calculator.ofJson (.object fields) =
      Calculator.ofJson (.object (fields.filter fun field => field.1 == "strictness" || field.1 == "max_depth"))) ∧
    ∀ calculator, Calculator.ofJson calculator.toJson = .ok calculator := by
  refine ⟨fun steps => ?_,
    fun value => ⟨fun steps => Calculator.ofJson_of_spelled, Calculator.ofJson_eq_form_iff value, ?_⟩,
    fun items => Calculator.ofJson_list, ?_, Calculator.ofJson_toJson⟩
  · rw [after_eq]
    refine ⟨exists_calculator_iff _, fun calculator made => ?_, fun zero => calculator_of_zero zero,
      fun large => calculator_of_large large⟩
    obtain ⟨strictness, depth⟩ := (calculator_eq_ok_iff _ calculator).mp made
    exact ⟨strictness.symm, depth.symm⟩
  · exact fun calculator _ => ⟨calculator.depth_pos, calculator.depth_le⟩
  · exact @Calculator.ofJson_filter (fun key => key == "strictness" || key == "max_depth") rfl rfl

end Abacus
