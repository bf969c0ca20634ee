import Abacus.Decimal
import Abacus.Token
import Mathlib.Data.List.DropRight
import Mathlib.Tactic.Ring

/-! Values are read back from their texts. What a decimal is read as depends on the number it stands
for, not on how it is written, and the shortest decimal of a value is chosen among those that are
read as it. -/
namespace Abacus

namespace Binary64

private theorem roundedQuotient_mul {k : Nat} (pos : 0 < k) (num den : Nat) :
    roundedQuotient (k * num) (k * den) = roundedQuotient num den := by
  have below : 2 * (k * (num % den)) < k * den ↔ 2 * (num % den) < den := by
    rw [Nat.mul_left_comm]
    exact Nat.mul_lt_mul_left pos
  have tie : 2 * (k * (num % den)) = k * den ↔ 2 * (num % den) = den := by
    rw [Nat.mul_left_comm]
    exact Nat.mul_right_inj (Nat.ne_of_gt pos)
  unfold roundedQuotient
  rw [Nat.mul_div_mul_left _ _ pos, Nat.mul_mod_mul_left]
  simp only [Bool.or_eq_true, Bool.and_eq_true, decide_eq_true_eq, beq_iff_eq, below, tie]

private theorem nearest_mul {k : Nat} (pos : 0 < k) (num den : Nat) :
    nearest (k * num) (k * den) = nearest num den := by
  unfold nearest
  simp only [Nat.shiftLeft_eq, Nat.mul_assoc, Nat.mul_div_mul_left _ _ pos, roundedQuotient_mul pos]

private theorem nearest_congr {num den num' den' : Nat} (pos : 0 < den) (pos' : 0 < den')
    (same : num * den' = num' * den) : nearest num den = nearest num' den' := by
  calc nearest num den = nearest (den' * num) (den' * den) := (nearest_mul pos' _ _).symm
    _ = nearest (den * num') (den * den') := by rw [Nat.mul_comm den' num, same, Nat.mul_comm num', Nat.mul_comm den']
    _ = nearest num' den' := nearest_mul pos _ _

private theorem roundedQuotient_exact {k : Nat} (pos : 0 < k) (n : Nat) : roundedQuotient (n * k) k = n := by
  unfold roundedQuotient
  rw [Nat.mul_div_cancel _ pos, Nat.mul_mod_left]
  simp [pos]

private theorem nearest_of_units {n binade significand : Nat} (exact : n = significand <<< binade)
    (scale : n.log2 - 52 = binade) (finite : binade * 0x10000000000000 + significand ≤ infinity) :
    nearest n (2 ^ 1074) = binade * 0x10000000000000 + significand := by
  unfold nearest
  -- the power of two is too large to be evaluated
  generalize 1074 = k
  rw [Nat.shiftLeft_eq] at exact
  have floor : n * 2 ^ k / 2 ^ k = n := Nat.mul_div_cancel _ (Nat.two_pow_pos _)
  have whole : roundedQuotient (n * 2 ^ k) (2 ^ k * 2 ^ binade) = significand := by
    rw [exact, Nat.mul_assoc, Nat.mul_comm (2 ^ binade), ← Nat.pow_add]
    exact roundedQuotient_exact (Nat.two_pow_pos _) significand
  simp only [Nat.shiftLeft_eq, floor, scale, whole]
  exact Nat.min_eq_right finite

private theorem log2_shiftLeft {n : Nat} (pos : n ≠ 0) (k : Nat) : (n <<< k).log2 = n.log2 + k := by
  induction k with
  | zero => rfl
  | succ k ih =>
    have shifted : n <<< k ≠ 0 := by
      rw [Nat.shiftLeft_eq]
      exact Nat.mul_ne_zero pos (Nat.ne_of_gt (Nat.two_pow_pos k))
    rw [Nat.shiftLeft_succ, Nat.log2_two_mul shifted, ih, Nat.add_assoc]

private theorem nearest_units {m : Nat} (finite : m < infinity) : nearest (units m) (2 ^ 1074) = m := by
  unfold units
  cases binade : m / 0x10000000000000 with
  | zero =>
    have small : m < 2 ^ 52 := by omega
    have scale : m.log2 - 52 = 0 := by
      rcases Nat.eq_zero_or_pos m with rfl | pos
      · rfl
      · have bound := (Nat.log2_lt (Nat.ne_of_gt pos)).mpr small
        omega
    have exact := @nearest_of_units m 0 m rfl scale (by omega)
    rwa [Nat.zero_mul, Nat.zero_add] at exact
  | succ b =>
    -- a normal significand has its highest bit, so that its binade is found again
    have log : (m % 0x10000000000000 + 0x10000000000000).log2 = 52 :=
      (Nat.log2_eq_iff (by omega)).mpr ⟨by omega, by omega⟩
    have scale : ((m % 0x10000000000000 + 0x10000000000000) <<< b).log2 - 52 = b := by
      rw [log2_shiftLeft (by omega), log]
      omega
    have sum : b * 0x10000000000000 + (m % 0x10000000000000 + 0x10000000000000) = m := by omega
    have exact := nearest_of_units rfl scale (by omega)
    rwa [sum] at exact

end Binary64

theorem Numeral.ofDigits_append (high low : List Char) :
    ofDigits (high ++ low) = ofDigits high * 10 ^ low.length + ofDigits low := by
  rw [ofDigits, Nat.ofDigitChars_append, Nat.ofDigitChars_eq_ofDigitChars_zero, Nat.mul_comm]
  rfl

namespace Decimal

theorem denominator_pos (d : Decimal) : 0 < d.denominator := Nat.pow_pos (by decide)

theorem numerator_neg (n k : Nat) : (Decimal.mk n (-k)).numerator = n := by
  rw [numerator, Int.toNat_neg_natCast]
  exact Nat.mul_one n

theorem denominator_neg (n k : Nat) : (Decimal.mk n (-k)).denominator = 10 ^ k := by
  rw [denominator, Int.neg_neg, Int.toNat_natCast]
  rfl

private theorem magnitude_congr {d d' : Decimal} (same : d.numerator * d'.denominator = d'.numerator * d.denominator) :
    d.magnitude = d'.magnitude :=
  Binary64.nearest_congr d.denominator_pos d'.denominator_pos same

private theorem toFloat_congr {d d' : Decimal} (same : d.magnitude = d'.magnitude) : d.toFloat = d'.toFloat := by
  unfold toFloat signed
  congr 1

theorem magnitude_toFloat (d : Decimal) : Binary64.magnitude d.toFloat = d.magnitude :=
  Binary64.magnitude_ofMagnitude false d.magnitude (Binary64.nearest_le_infinity _ _)

theorem isNegative_toFloat (d : Decimal) : Binary64.isNegative d.toFloat = false :=
  Binary64.isNegative_ofMagnitude false d.magnitude (Binary64.nearest_le_infinity _ _)

private theorem magnitude_of_multiple {m whole place n : Nat} (found : multiple? m whole place = some n) :
    (Decimal.mk n (place - 1074)).magnitude = m := by
  unfold multiple? at found
  dsimp only at found
  split at found
  · rename_i upper
    cases found
    rw [Bool.and_eq_true, beq_iff_eq] at upper
    exact upper.1
  · split at found
    · rename_i lower
      cases found
      exact beq_iff_eq.mp lower
    · cases found

/-- What holds of the whole number and of every multiple that is found holds of the decimal. -/
private theorem search_spec {P : Decimal → Prop} {found : Nat → Option Nat} {whole : Nat} (last : P ⟨whole, -1074⟩)
    (each : ∀ place n, found place = some n → P ⟨n, place - 1074⟩) (place : Nat) : P (search found whole place) := by
  induction place with
  | zero => exact last
  | succ place ih =>
    rw [search]
    split
    · rename_i n multiple
      exact each _ n multiple
    · exact ih

private theorem magnitude_fives (n k : Nat) :
    (Decimal.mk (n * Nat.pow 5 k) (-k)).magnitude = Binary64.nearest n (2 ^ k) := by
  rw [magnitude, numerator_neg, denominator_neg]
  refine Binary64.nearest_congr (Nat.pow_pos (by decide)) (Nat.two_pow_pos k) ?_
  rw [Nat.pow_eq, Nat.mul_assoc, ← Nat.mul_pow]

theorem magnitude_shortest {m : Nat} (finite : m < Binary64.infinity) : (shortest m).magnitude = m := by
  have last : (Decimal.mk (Binary64.units m * Nat.pow 5 1074) (-1074)).magnitude = m := by
    have read := Binary64.nearest_units finite
    have scale : (-1074 : Int) = -(1074 : Nat) := rfl
    rw [scale]
    -- the powers are too large to be evaluated
    generalize 1074 = k at read ⊢
    rw [magnitude_fives, read]
  exact search_spec (P := fun d => d.magnitude = m) last (fun _ _ found => magnitude_of_multiple found) _

theorem isDigit_of_mem_digits {n : Nat} {c : Char} (member : c ∈ digits n) : c.isDigit :=
  Nat.isDigit_of_mem_toDigits (by decide) (by decide) member

/-- The digits after the point with as many zeros as it takes to fill the places. -/
def padded (places n : Nat) : List Char := List.replicate (places - (digits n).length) '0' ++ digits n

theorem fraction_eq (places n : Nat) : fraction places n = (padded places n).rdropWhile (· == '0') := rfl

theorem ofDigits_zeros (k : Nat) : Numeral.ofDigits (List.replicate k '0') = 0 :=
  Nat.ofDigitChars_replicate_zero

private theorem ofDigits_padded (places n : Nat) : Numeral.ofDigits (padded places n) = n := by
  rw [padded, Numeral.ofDigits_append, ofDigits_zeros, Numeral.ofDigits_digits, Nat.zero_mul, Nat.zero_add]

private theorem isDigit_of_mem_fraction {places n : Nat} {c : Char} (member : c ∈ fraction places n) : c.isDigit := by
  rw [fraction_eq] at member
  rcases List.mem_append.mp (List.rdropWhile_prefix _ _ |>.subset member) with zero | digit
  · rw [List.eq_of_mem_replicate zero]
    rfl
  · exact isDigit_of_mem_digits digit

private theorem padded_split (places n : Nat) : ∃ k, padded places n = fraction places n ++ List.replicate k '0' := by
  refine ⟨((padded places n).rtakeWhile (· == '0')).length, ?_⟩
  have zeros := List.eq_replicate_of_mem (a := '0') (l := (padded places n).rtakeWhile (· == '0')) fun c member =>
    beq_iff_eq.mp (List.mem_rtakeWhile_imp (p := (· == '0')) member)
  rw [← zeros, fraction_eq]
  exact List.rdropWhile_append_rtakeWhile.symm

private theorem length_padded {places n : Nat} (below : n < 10 ^ places) (pos : 0 < places) :
    (padded places n).length = places := by
  have fits : (digits n).length ≤ places := (Nat.length_toDigits_le_iff (by decide) pos).mpr below
  rw [padded, List.length_append, List.length_replicate]
  omega

theorem ofDigits_fraction {places n : Nat} (below : n < 10 ^ places) :
    Numeral.ofDigits (fraction places n) * 10 ^ places = n * 10 ^ (fraction places n).length := by
  rcases Nat.eq_zero_or_pos places with rfl | pos
  · obtain rfl : n = 0 := by omega
    rfl
  · obtain ⟨k, split⟩ := padded_split places n
    have size := congrArg List.length split
    rw [length_padded below pos, List.length_append, List.length_replicate] at size
    have value := congrArg Numeral.ofDigits split
    rw [ofDigits_padded, Numeral.ofDigits_append, ofDigits_zeros, List.length_replicate, Nat.add_zero] at value
    calc Numeral.ofDigits (fraction places n) * 10 ^ places
      _ = Numeral.ofDigits (fraction places n) * 10 ^ k * 10 ^ (fraction places n).length := by
        rw [Nat.mul_assoc, ← Nat.pow_add, Nat.add_comm k, ← size]
      _ = n * 10 ^ (fraction places n).length := by rw [← value]

def places (d : Decimal) : List Char := fraction (-d.exponent).toNat (d.numerator % d.denominator)

theorem isDigit_of_mem_places {d : Decimal} {c : Char} (member : c ∈ d.places) : c.isDigit :=
  isDigit_of_mem_fraction member

/-- A point and the digits behind it, or nothing where there are none. -/
def pointed : List Char → List Char
  | [] => []
  | c :: rest => '.' :: c :: rest

theorem plain_eq (d : Decimal) : d.plain = digits (d.numerator / d.denominator) ++ pointed d.places := by
  unfold plain
  rw [← places]
  cases d.places with
  | nil => exact (List.append_nil _).symm
  | cons c rest => rfl

section

variable {run : List Char} (all : ∀ c ∈ run, c.isDigit)

include all

theorem filter_digits : run.filter Char.isDigit = run :=
  List.filter_eq_self.mpr all

theorem not_point {c : Char} (member : c ∈ run) : c ≠ '.' := by
  rintro rfl
  exact absurd (all _ member) (by decide)

private theorem filter_pointed : (pointed run).filter Char.isDigit = run := by
  cases run with
  | nil => rfl
  | cons c rest => exact filter_digits all

private theorem countP_pointed : ((pointed run).dropWhile (· != '.')).countP Char.isDigit = run.length := by
  cases run with
  | nil => rfl
  | cons c rest => exact List.countP_eq_length.mpr all

private theorem count_pointed : (pointed run).count '.' ≤ 1 := by
  cases run with
  | nil => exact Nat.zero_le 1
  | cons c rest =>
    have none : (c :: rest).count '.' = 0 := List.count_eq_zero.mpr fun member => not_point all member rfl
    rw [pointed, List.count_cons_self, none]

private theorem part_of_mem_pointed {c : Char} (member : c ∈ pointed run) : isNumeralPart c := by
  cases run with
  | nil => cases member
  | cons d rest =>
    rcases List.mem_cons.mp member with rfl | digit
    · rfl
    · rw [isNumeralPart, all _ digit, Bool.true_or]

end

end Decimal

namespace Numeral

open Decimal

private theorem decimal_plain (d : Decimal) :
    decimal d.plain = ⟨d.numerator / d.denominator * 10 ^ d.places.length + ofDigits d.places, -d.places.length⟩ := by
  have whole : ∀ c ∈ digits (d.numerator / d.denominator), c.isDigit := fun _ => isDigit_of_mem_digits
  have behind : ∀ c ∈ d.places, c.isDigit := fun _ => isDigit_of_mem_places
  have reach : (digits (d.numerator / d.denominator) ++ pointed d.places).dropWhile (· != '.') =
      (pointed d.places).dropWhile (· != '.') :=
    List.dropWhile_append_of_pos fun c member => bne_iff_ne.mpr (not_point whole member)
  rw [plain_eq, decimal, List.filter_append, filter_digits whole, filter_pointed behind, ofDigits_append,
    ofDigits_digits, reach, countP_pointed behind]

theorem plain_congr (d : Decimal) :
    (decimal d.plain).numerator * d.denominator = d.numerator * (decimal d.plain).denominator := by
  rw [decimal_plain]
  have shown : ofDigits d.places * d.denominator = d.numerator % d.denominator * 10 ^ d.places.length :=
    ofDigits_fraction (Nat.mod_lt _ d.denominator_pos)
  generalize d.places.length = k at shown ⊢
  rw [numerator_neg, denominator_neg]
  calc (d.numerator / d.denominator * 10 ^ k + ofDigits d.places) * d.denominator
    _ = d.numerator / d.denominator * 10 ^ k * d.denominator + ofDigits d.places * d.denominator := Nat.add_mul _ _ _
    _ = (d.denominator * (d.numerator / d.denominator) + d.numerator % d.denominator) * 10 ^ k := by
      rw [shown]
      ring
    _ = d.numerator * 10 ^ k := by rw [Nat.div_add_mod]

private theorem magnitude_plain (d : Decimal) :
    (decimal d.plain).magnitude = d.magnitude := magnitude_congr (plain_congr d)

/-- A numeral that is read as a given value. -/
structure Spells (run : List Char) (x : Float) : Prop where
  parts : ∀ c ∈ run, isNumeralPart c
  digit : ∃ c ∈ run, c.isDigit
  points : run.count '.' ≤ 1
  value : (decimal run).toFloat = x

theorem spells_plain (d : Decimal) : Spells d.plain d.toFloat := by
  have whole : ∀ c ∈ digits (d.numerator / d.denominator), c.isDigit := fun _ => isDigit_of_mem_digits
  have behind : ∀ c ∈ d.places, c.isDigit := fun _ => isDigit_of_mem_places
  rw [plain_eq]
  constructor
  · intro c member
    rcases List.mem_append.mp member with digit | pointed
    · rw [isNumeralPart, whole _ digit, Bool.true_or]
    · exact part_of_mem_pointed behind pointed
  · obtain ⟨c, member⟩ := List.exists_mem_of_ne_nil _ (Nat.toDigits_ne_nil (n := d.numerator / d.denominator) (b := 10))
    exact ⟨c, List.mem_append_left _ member, whole _ member⟩
  · have none : (digits (d.numerator / d.denominator)).count '.' = 0 :=
      List.count_eq_zero.mpr fun member => not_point whole member rfl
    rw [List.count_append, none, Nat.zero_add]
    exact count_pointed behind
  · rw [← plain_eq]
    exact toFloat_congr (magnitude_plain d)

end Numeral

/-- A finite value whose sign is positive is read back from its text. -/
theorem ValueNotation.spells_write {style : ValueNotation} {x : Float} (positive : Binary64.isNegative x = false)
    (finite : Binary64.isFinite x) : Numeral.Spells (style.write x).toList x := by
  have bound : Binary64.magnitude x < Binary64.infinity := of_decide_eq_true finite
  have spelt {d : Decimal} (same : d.magnitude = Binary64.magnitude x) : Numeral.Spells d.plain x := by
    have value : d.toFloat = x := by
      rw [← Binary64.ofMagnitude_magnitude x (Nat.le_of_lt bound), Decimal.toFloat, Decimal.signed]
      congr 1
      exact positive.symm
    rw [← value]
    exact Numeral.spells_plain d
  unfold write
  rcases Nat.eq_zero_or_pos (Binary64.magnitude x) with zero | pos
  · have naught : (Decimal.mk 0 0).magnitude = 0 := by decide +kernel
    simp only [zero, positive, if_true, Bool.false_eq_true, if_false]
    have text : "0".toList = (Decimal.mk 0 0).plain := by decide
    rw [text]
    exact spelt (naught.trans zero.symm)
  · simp only [Nat.ne_of_gt pos, bound, positive, if_true, Bool.false_eq_true, if_false]
    rw [String.toList_append, String.toList_empty, List.nil_append, String.toList_ofList]
    exact spelt (Decimal.magnitude_shortest bound)

end Abacus
