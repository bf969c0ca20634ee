import Abacus.Place
import Abacus.Proofs.FloatValue
import Abacus.Proofs.Offset
import Abacus.Proofs.ReadBack
import Mathlib.Tactic.FieldSimp

/-! The numbers that numerals denote, and the values that they are read as. A numeral is the longest run of digits and
points from the cursor on, and its value is its number rounded to the nearest one there is. -/
namespace Abacus

open Binary64

namespace Decimal

/-- The number that a decimal stands for. -/
def value (d : Decimal) : ℚ := d.coefficient * 10 ^ d.exponent

private theorem value_eq (d : Decimal) : d.value = d.numerator / d.denominator := by
  obtain ⟨n, e⟩ := d
  rw [value, numerator, denominator]
  rcases Int.le_total 0 e with nonneg | nonpos
  · obtain ⟨k, rfl⟩ := Int.eq_ofNat_of_zero_le nonneg
    simp
  · obtain ⟨k, rfl⟩ := Int.exists_eq_neg_ofNat nonpos
    simp [div_eq_mul_inv]

private theorem value_nonneg (d : Decimal) : 0 ≤ d.value := by
  rw [value]
  positivity

theorem nearest_magnitude (d : Decimal) : Nearest d.value d.magnitude := by
  rw [value_eq]
  exact nearest_spec d.denominator_pos

private theorem nearest_toFloat (d : Decimal) : Nearest d.value (Binary64.magnitude d.toFloat) := by
  rw [magnitude_toFloat]
  exact d.nearest_magnitude

theorem roundsTo_toFloat (d : Decimal) : RoundsTo d.value d.toFloat :=
  .of_nearest d.value_nonneg d.isNegative_toFloat d.nearest_toFloat

end Decimal

namespace Numeral

def digit (c : Char) : Nat := c.toNat - '0'.toNat

/-- Digits before the point: each one multiplies what is before it by ten. -/
def whole (run : List Char) : ℚ := run.foldl (fun (value : ℚ) c => 10 * value + digit c) 0

/-- Digits behind the point: each one divides what is behind it by ten, and itself. -/
def fraction : List Char → ℚ
  | [] => 0
  | c :: rest => (digit c + fraction rest) / 10

/-- The number that a run of digits with at most one point denotes. -/
def value (run : List Char) : ℚ :=
  whole (run.takeWhile (· != '.')) + fraction ((run.dropWhile (· != '.')).tail)

private theorem whole_eq (run : List Char) : whole run = ofDigits run := by
  have general (run : List Char) (n : Nat) :
      run.foldl (fun (value : ℚ) c => 10 * value + digit c) n = Nat.ofDigitChars 10 run n := by
    induction run generalizing n with
    | nil => rfl
    | cons c rest ih =>
      rw [List.foldl_cons, Nat.ofDigitChars_cons, ← ih]
      push_cast
      rfl
  exact general run 0

private theorem fraction_eq (run : List Char) : fraction run = ofDigits run / 10 ^ run.length := by
  induction run with
  | nil => simp [fraction, ofDigits]
  | cons c rest ih =>
    have single : ofDigits [c] = digit c := by
      rw [ofDigits, Nat.ofDigitChars_cons, Nat.ofDigitChars_nil, Nat.mul_zero, Nat.zero_add, digit]
    have split : ofDigits (c :: rest) = digit c * 10 ^ rest.length + ofDigits rest := by
      rw [← List.singleton_append, ofDigits_append, single]
    rw [fraction, ih, split, List.length_cons]
    push_cast
    field_simp
    ring

section

variable {run : List Char} (parts : ∀ c ∈ run, isNumeralPart c) (points : run.count '.' ≤ 1)

include parts

private theorem isDigit_of_part {c : Char} (member : c ∈ run) (other : c ≠ '.') : c.isDigit := by
  have part := parts c member
  rw [isNumeralPart, Bool.or_eq_true, beq_iff_eq] at part
  exact part.resolve_right other

include points

private theorem exists_parts : ∃ before behind, (∀ c ∈ before, c.isDigit) ∧ (∀ c ∈ behind, c.isDigit) ∧
    (run = before ∧ behind = [] ∨ run = before ++ '.' :: behind) := by
  have split := List.takeWhile_append_dropWhile (p := (· != '.')) (l := run)
  have before : ∀ c ∈ run.takeWhile (· != '.'), c.isDigit := by
    intro c member
    have other := List.mem_takeWhile_imp (p := (· != '.')) member
    exact isDigit_of_part parts (List.takeWhile_subset _ member) (bne_iff_ne.mp other)
  cases rest : run.dropWhile (· != '.') with
  | nil =>
    rw [rest, List.append_nil] at split
    refine ⟨_, [], before, ?_, .inl ⟨split.symm, rfl⟩⟩
    exact fun _ member => absurd member List.not_mem_nil
  | cons d behind =>
    have stopped := List.head?_dropWhile_not (· != '.') run
    rw [rest] at stopped split
    obtain rfl : d = '.' := by simpa using stopped
    refine ⟨_, behind, before, ?_, .inr split.symm⟩
    intro c member
    refine isDigit_of_part parts (split ▸ List.mem_append_right _ (List.mem_cons_of_mem _ member)) ?_
    rintro rfl
    have more := List.count_pos_iff.mpr member
    rw [← split, List.count_append, List.count_cons_self] at points
    omega

private theorem value_decimal : (decimal run).value = value run := by
  obtain ⟨before, behind, whole, rest, ⟨rfl, rfl⟩ | rfl⟩ := exists_parts parts points
  · have plain : run.takeWhile (· != '.') = run ∧ run.dropWhile (· != '.') = [] := by
      simp only [List.takeWhile_eq_self_iff, List.dropWhile_eq_nil_iff, bne_iff_ne]
      exact ⟨fun c => Decimal.not_point whole, fun c => Decimal.not_point whole⟩
    rw [Decimal.value, decimal, Decimal.filter_digits whole, value, plain.1, plain.2, whole_eq]
    simp [fraction]
  · have visible : ∀ c ∈ before, c != '.' := fun c member => bne_iff_ne.mpr (Decimal.not_point whole member)
    have reach : (before ++ '.' :: behind).dropWhile (· != '.') = '.' :: behind := by
      rw [List.dropWhile_append_of_pos visible]
      rfl
    have taken : (before ++ '.' :: behind).takeWhile (· != '.') = before := by
      rw [List.takeWhile_append_of_pos visible]
      exact List.append_nil _
    have kept : (before ++ '.' :: behind).filter Char.isDigit = before ++ behind := by
      rw [List.filter_append, Decimal.filter_digits whole]
      exact congrArg _ (Decimal.filter_digits rest)
    have places : ('.' :: behind).countP Char.isDigit = behind.length := List.countP_eq_length.mpr rest
    rw [Decimal.value, decimal, kept, reach, places, ofDigits_append, value, taken, reach, whole_eq, List.tail_cons,
      fraction_eq, zpow_neg, zpow_natCast]
    push_cast
    field_simp

end

end Numeral

theorem Numeral.wellFormed_iff {run : List Char} :
    wellFormed run ↔ (∃ c ∈ run, c.isDigit) ∧ run.count '.' ≤ 1 := by
  rw [wellFormed, Bool.and_eq_true, List.any_eq_true, decide_eq_true_iff]

namespace Cursor

variable {cursor : Cursor}

private theorem not_part_of_head_pastRun {c : Char} (next : c ∈ cursor.pastRun.head?) : isNumeralPart c = false := by
  have stopped := List.head?_dropWhile_not (fun glyph : Glyph => isNumeralPart glyph.char) cursor.rest
  obtain ⟨glyph, found, rfl⟩ := Option.map_eq_some_iff.mp next
  have found : (cursor.rest.dropWhile fun glyph => isNumeralPart glyph.char).head? = some glyph := found
  rwa [found] at stopped

private theorem numeral_eq (nonempty : cursor.run ≠ []) :
    cursor.numeral = if Numeral.wellFormed cursor.run then .ok (Numeral.decimal cursor.run).toFloat
      else .error ⟨[cursor.position], .malformedNumber (String.ofList cursor.run) .invalid⟩ := by
  rw [numeral]
  cases run : cursor.run with
  | nil => exact absurd run nonempty
  | cons c rest =>
    simp only [Numeral.toFloat?]
    cases Numeral.wellFormed (c :: rest) <;> rfl

private theorem nearest_of_ok {x : Float} (ok : cursor.numeral = .ok x) :
    isNegative x = false ∧ Nearest (Numeral.value cursor.run) (magnitude x) := by
  have nonempty : cursor.run ≠ [] := by
    intro empty
    rw [numeral, empty] at ok
    cases ok
  rw [numeral_eq nonempty] at ok
  split at ok
  · rename_i formed
    cases ok
    rw [← Numeral.value_decimal (fun _ => isNumeralPart_of_mem_run) (Numeral.wellFormed_iff.mp formed).2]
    exact ⟨Decimal.isNegative_toFloat _, Decimal.nearest_toFloat _⟩
  · cases ok

section

variable {cursor' : Cursor} {x x' : Float} (ok : cursor.numeral = .ok x) (ok' : cursor'.numeral = .ok x')

include ok ok'

private theorem le_of_value_le (le : Numeral.value cursor.run ≤ Numeral.value cursor'.run) : x ≤ x' := by
  obtain ⟨unsigned, near⟩ := nearest_of_ok ok
  obtain ⟨unsigned', near'⟩ := nearest_of_ok ok'
  exact le_of_magnitude_le unsigned unsigned' (near.mono near' le) near'.le_infinity

private theorem eq_of_value_eq (same : Numeral.value cursor.run = Numeral.value cursor'.run) : x = x' := by
  obtain ⟨unsigned, near⟩ := nearest_of_ok ok
  obtain ⟨unsigned', near'⟩ := nearest_of_ok ok'
  have magnitudes := near.unique (same ▸ near')
  rw [← ofMagnitude_magnitude x near.le_infinity, ← ofMagnitude_magnitude x' near'.le_infinity]
  congr 1
  rw [unsigned, unsigned']

end

end Cursor

/-- A numeral is the longest run of digits and points from the cursor on, wherever that is, and nothing else is passed
with it. An empty one is refused at the cursor, which stays, and one without a digit or with a second point is refused
as it stands, at its first character. Any other is read as the number it denotes, rounded to the nearest value, however
long it is, so that equal numbers are read as one value and greater ones as no smaller one. -/
theorem numeral_read (text : String) (k : Nat) (place : Place) :
    let cursor := (Cursor.ofText text).drop k
    let run := cursor.run
    let behind := (Cursor.ofText text).drop (k + run.length)
    let here := { place with cursor := cursor }
    (dense text).drop k = run ++ behind.chars ∧ (∀ c ∈ run, c.isDigit ∨ c = '.') ∧
      (∀ c ∈ behind.head?, ¬ c.isDigit ∧ c ≠ '.') ∧
    Marks text.toList (min k (dense text).length) cursor.position ∧
    (run = [] → here.takeNumeral = .stop (.error ⟨[cursor.position], .invalidNumber⟩) cursor none) ∧
    (run ≠ [] → (∃ c ∈ run, c.isDigit) → run.count '.' ≤ 1 → ∃ x, RoundsTo (Numeral.value run) x ∧
      here.takeNumeral = .next { place with cursor := behind, factor := some (.literal x) } none) ∧
    (run ≠ [] → ¬ ((∃ c ∈ run, c.isDigit) ∧ run.count '.' ≤ 1) → here.takeNumeral =
      .stop (.error ⟨[cursor.position], .malformedNumber (String.ofList run) .invalid⟩) behind none) ∧
    ∀ text' k' x x', cursor.numeral = .ok x → ((Cursor.ofText text').drop k').numeral = .ok x' →
      Numeral.value run ≤ Numeral.value ((Cursor.ofText text').drop k').run →
        x ≤ x' ∧ (Numeral.value run = Numeral.value ((Cursor.ofText text').drop k').run → x = x') := by
  intro cursor run behind here
  have passed : cursor.pastRun = behind := by rw [Cursor.pastRun_eq_drop, Cursor.drop_drop]
  refine ⟨?_, ?_, ?_, Cursor.marks_drop text k, ?_, ?_, ?_, ?_⟩
  · rw [← Cursor.chars_ofText, ← Cursor.chars_drop, ← passed]
    exact cursor.run_append_pastRun.symm
  · intro c member
    have part := Cursor.isNumeralPart_of_mem_run member
    rwa [isNumeralPart, Bool.or_eq_true, beq_iff_eq] at part
  · intro c next
    have stopped := cursor.not_part_of_head_pastRun (passed ▸ next)
    rwa [isNumeralPart, Bool.or_eq_false_iff, beq_eq_false_iff_ne, ← Bool.not_eq_true] at stopped
  · intro empty
    have stays : cursor.pastRun = cursor := by rw [Cursor.pastRun_eq_drop, show cursor.run = [] from empty]; rfl
    rw [Place.takeNumeral, Cursor.numeral, show here.cursor.run = [] from empty]
    exact congrArg (Move.stop _ · none) stays
  · intro nonempty digit points
    have formed : Numeral.wellFormed run := Numeral.wellFormed_iff.mpr ⟨digit, points⟩
    refine ⟨(Numeral.decimal run).toFloat, ?_, ?_⟩
    · rw [← Numeral.value_decimal (fun _ => Cursor.isNumeralPart_of_mem_run) points]
      exact (Numeral.decimal run).roundsTo_toFloat
    · rw [Place.takeNumeral, Cursor.numeral_eq nonempty, if_pos formed]
      exact congrArg (fun after => Move.next { place with cursor := after, factor := _ } none) passed
  · intro nonempty malformed
    rw [Place.takeNumeral, Cursor.numeral_eq nonempty, if_neg (malformed ∘ Numeral.wellFormed_iff.mp)]
    exact congrArg (Move.stop _ · none) passed
  · intro text' k' x x' ok ok' le
    exact ⟨Cursor.le_of_value_le ok ok' le, Cursor.eq_of_value_eq ok ok'⟩

end Abacus
