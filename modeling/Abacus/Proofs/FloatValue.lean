import Abacus.Proofs.Unpacked
import Mathlib.Algebra.Order.Field.Power

/-! The numbers that binary64 values stand for. Rounding as the standard has it is a relation of numbers and values,
which the value with the nearest magnitude satisfies, and no other one does. -/
namespace Abacus.Binary64

open Float.Model

def signed : UnpackedFloat.Sign → ℚ → ℚ
  | .positive, q => q
  | .negative, q => -q

/-- The number that sign, significand and exponent stand for. -/
def unpackedValue : UnpackedFloat → ℚ
  | .finite sign significand exponent _ => signed sign (significand * 2 ^ exponent)
  | _ => 0

/-- The number that a finite value stands for. -/
def value (x : Float) : ℚ := unpackedValue x.toModel.unpack

variable {x y : Float}

private theorem Unpacks.inUnits_value {s : UnpackedFloat.Sign} {m : Nat} {u : UnpackedFloat}
    (unpacks : Unpacks s m u) (finite : m < Binary64.infinity) : inUnits (unpackedValue u) = signed s (units m) := by
  have shift (b k r : Nat) : (r : ℚ) * 2 ^ ((b : Int) - k) * 2 ^ k = (r * 2 ^ b : Nat) := by
    rw [mul_assoc, ← zpow_natCast 2 k, ← zpow_add₀ two_ne_zero, sub_add_cancel, zpow_natCast]
    push_cast
    rfl
  cases unpacks with
  | zero none =>
    have naught : unpackedValue (.zero s) = 0 := rfl
    rw [naught, inUnits, zero_mul, none, units_of_subnormal (by decide)]
    cases s <;> simp [signed]
  | @finite b r pos split normal size =>
    rw [split, units_eq normal size.le, ← shift b 1074 r]
    cases s with
    | positive => rfl
    | negative => exact neg_mul _ _
  | infinity large => omega

private theorem inUnits_value (finite : magnitude x < infinity) :
    inUnits (value x) = if isNegative x then -(units (magnitude x) : ℚ) else units (magnitude x) := by
  rw [value, (unpacks finite.le).inUnits_value finite, sign]
  cases isNegative x <;> rfl

theorem integral_iff (finite : isFinite x) : (∃ n : Int, value x = n) ↔ 2 ^ 1074 ∣ units (magnitude x) := by
  have scaled (v : ℚ) (u k : Nat) (same : v * 2 ^ k = u) : (∃ n : Int, v = n) ↔ 2 ^ k ∣ u := by
    constructor
    · rintro ⟨n, rfl⟩
      have whole : n * 2 ^ k = (u : Int) := by exact_mod_cast same
      exact Int.natCast_dvd_natCast.mp ⟨n, by rw [← whole, mul_comm, Nat.cast_pow, Nat.cast_ofNat]⟩
    · rintro ⟨j, rfl⟩
      refine ⟨j, mul_right_cancel₀ (pow_ne_zero k two_ne_zero : (2 : ℚ) ^ k ≠ 0) ?_⟩
      rw [same, Nat.cast_mul, Nat.cast_pow, mul_comm]
      rfl
  have exact := inUnits_value (of_decide_eq_true finite)
  split at exact
  · have negated : (∃ n : Int, value x = n) ↔ ∃ n : Int, -value x = n := by
      constructor
      · rintro ⟨n, same⟩
        exact ⟨-n, by rw [same, Int.cast_neg]⟩
      · rintro ⟨n, same⟩
        exact ⟨-n, by rw [Int.cast_neg, ← same, neg_neg]⟩
    rw [negated]
    refine scaled _ _ 1074 ?_
    rw [neg_mul, neg_eq_iff_eq_neg]
    exact exact
  · exact scaled _ _ 1074 exact

private theorem parity_eq (x : Float) : x.toBits.toNat % 2 = magnitude x % 2 := by
  rw [magnitude]
  omega

/-- Rounding as IEEE 754 has it: to the nearest value, from two that are equally near to the even one, to zero up to
half the least value and to infinity from the middle between the greatest value and the next power of two on. -/
structure RoundsTo (q : ℚ) (x : Float) : Prop where
  unsigned : isNegative x = false
  finite_iff : isFinite x ↔ q < 2 ^ 1024 - 2 ^ 970
  infinite : ¬ isFinite x → x.toModel.unpack = .infinity .positive
  zero_iff : x.toModel.unpack = .zero .positive ↔ q ≤ 1 / 2 ^ 1075
  nearest : isFinite x → ∀ y, isFinite y → |value x - q| ≤ |value y - q|
  even : isFinite x → ∀ y, isFinite y → value y ≠ value x → |value y - q| = |value x - q| → x.toBits.toNat % 2 = 0

private theorem abs_value_sub (q : ℚ) (finite : isFinite x) :
    inUnits |value x - q| = if isNegative x then |(units (magnitude x) : ℚ) + inUnits q|
      else |units (magnitude x) - inUnits q| := by
  rw [← abs_inUnits, inUnits_sub, inUnits_value (of_decide_eq_true finite)]
  split
  · rw [← abs_neg, neg_sub, sub_neg_eq_add, add_comm]
  · rfl

private theorem abs_value_sub_of_unsigned (unsigned : isNegative x = false) (q : ℚ) (finite : isFinite x) :
    inUnits |value x - q| = |units (magnitude x) - inUnits q| := by
  rw [abs_value_sub q finite, unsigned, if_neg Bool.false_ne_true]

section

variable {q : ℚ} (nonneg : 0 ≤ q)

include nonneg

/-- Of the two values of one magnitude the unsigned one is nearer. -/
private theorem abs_units_sub_le (finite : isFinite x) : |units (magnitude x) - inUnits q| ≤ inUnits |value x - q| := by
  have nonneg' : 0 ≤ inUnits q := mul_nonneg nonneg (by positivity)
  have pos : (0 : ℚ) ≤ units (magnitude x) := Nat.cast_nonneg _
  rw [abs_value_sub q finite]
  split
  · rw [abs_of_nonneg (by linarith : 0 ≤ units (magnitude x) + inUnits q)]
    exact abs_le.mpr ⟨by linarith, by linarith⟩
  · exact le_rfl

/-- Where a value of the same magnitude is as near, that is zero. -/
private theorem value_eq_of_tie (unsigned : isNegative x = false) (near : Nearest q (magnitude x)) (finite : isFinite x)
    (finite' : isFinite y) (same : magnitude y = magnitude x) (tie : |value y - q| = |value x - q|) :
    value y = value x := by
  have tied := congrArg inUnits tie
  rw [abs_value_sub q finite, abs_value_sub q finite', unsigned, same, if_neg Bool.false_ne_true] at tied
  rw [← inUnits_inj, inUnits_value (of_decide_eq_true finite), inUnits_value (of_decide_eq_true finite'), unsigned, same]
  cases negative : isNegative y with
  | false => rfl
  | true =>
    have nonneg' : 0 ≤ inUnits q := mul_nonneg nonneg (by positivity)
    have pos : (0 : ℚ) ≤ units (magnitude x) := Nat.cast_nonneg _
    have zero : (units (magnitude x) : ℚ) = 0 := by
      rw [negative, if_pos rfl, abs_of_nonneg (by linarith)] at tied
      rcases abs_choice (units (magnitude x) - inUnits q) with choice | choice
      · have least : magnitude x = 0 := near.eq_zero_iff.mpr (by linarith)
        rw [least, units_of_subnormal (by decide), Nat.cast_zero]
      · linarith
    rw [zero]
    exact neg_zero

theorem RoundsTo.of_nearest (unsigned : isNegative x = false) (near : Nearest q (magnitude x)) : RoundsTo q x := by
  have bound := near.le_infinity
  have here := abs_value_sub_of_unsigned unsigned q
  refine ⟨unsigned, ?_, ?_, ?_, ?_, ?_⟩
  · rw [← not_le, ← near.eq_infinity_iff, isFinite, decide_eq_true_iff]
    omega
  · intro large
    rw [isFinite, decide_eq_true_iff] at large
    rw [unpack_of_infinity (by omega), sign_of_unsigned unsigned]
  · have scaled (k : Nat) : 2 * (q * 2 ^ k) ≤ 1 ↔ q ≤ 1 / 2 ^ (k + 1) := by
      rw [le_div_iff₀ (by positivity), pow_succ, mul_comm 2, mul_assoc]
    rw [← sign_of_unsigned unsigned, (unpacks bound).eq_zero_iff, near.eq_zero_iff, inUnits, scaled 1074]
  · intro finite y finite'
    rw [← inUnits_le_inUnits, here finite]
    exact (near.no_nearer (of_decide_eq_true finite) _).1.trans (abs_units_sub_le nonneg finite')
  · intro finite y finite' other tie
    have tied : inUnits |value y - q| = |units (magnitude x) - inUnits q| := by rw [tie, here finite]
    obtain ⟨le, even⟩ := near.no_nearer (of_decide_eq_true finite) (magnitude y)
    rw [parity_eq]
    by_cases same : magnitude y = magnitude x
    · exact absurd (value_eq_of_tie nonneg unsigned near finite finite' same tie) other
    · exact even same (le_antisymm ((abs_units_sub_le nonneg finite').trans tied.le) le)

end

namespace RoundsTo

variable {q : ℚ} (rounds : RoundsTo q x) (rounds' : RoundsTo q y)

include rounds

private theorem le_infinity : magnitude x ≤ infinity := by
  by_cases finite : isFinite x
  · exact (of_decide_eq_true finite : magnitude x < infinity).le
  · exact (magnitude_of_infinity (rounds.infinite finite)).le

/-- No magnitude is nearer. -/
private theorem no_nearer (finite : isFinite x) {k : Nat} (bound : k < infinity) :
    |(units (magnitude x) : ℚ) - inUnits q| ≤ |units k - inUnits q| := by
  let z := ofMagnitude false k bound.le
  have same : magnitude z = k := magnitude_ofMagnitude false k bound.le
  have unsigned : isNegative z = false := isNegative_ofMagnitude false k bound.le
  have finite' : isFinite z := decide_eq_true (same.trans_lt bound)
  have near := inUnits_le_inUnits.mpr (rounds.nearest finite z finite')
  rwa [abs_value_sub_of_unsigned rounds.unsigned q finite, abs_value_sub_of_unsigned unsigned q finite', same] at near

include rounds'

private theorem isFinite_iff : isFinite x ↔ isFinite y := rounds.finite_iff.trans rounds'.finite_iff.symm

private theorem even_of_ne (finite : isFinite x) (finite' : isFinite y) (other : magnitude y ≠ magnitude x) :
    magnitude x % 2 = 0 := by
  have apart : value y ≠ value x := by
    rw [ne_eq, ← inUnits_inj, inUnits_value (of_decide_eq_true finite), inUnits_value (of_decide_eq_true finite'),
      rounds.unsigned, rounds'.unsigned, if_neg Bool.false_ne_true, if_neg Bool.false_ne_true, Nat.cast_inj]
    exact fun same => other (units_strictMono.injective same)
  have tie := le_antisymm (rounds'.nearest finite' x finite) (rounds.nearest finite y finite')
  rw [← parity_eq]
  exact rounds.even finite y finite' apart tie

/-- Of two values that are equally near only one is even, or there is one between them that is nearer. -/
private theorem not_lt (finite : isFinite x) (finite' : isFinite y) : ¬ magnitude x < magnitude y := by
  intro less
  have bound : magnitude y < infinity := of_decide_eq_true finite'
  have even := rounds.even_of_ne rounds' finite finite' less.ne'
  have even' := rounds'.even_of_ne rounds finite' finite less.ne
  have tie := le_antisymm (rounds.no_nearer finite bound) (rounds'.no_nearer finite' (less.trans bound))
  have between := rounds.no_nearer finite (k := magnitude x + 1) (by omega)
  have below : (units (magnitude x) : ℚ) < units (magnitude x + 1) :=
    Nat.cast_lt.mpr (units_strictMono (magnitude x).lt_succ_self)
  have above : (units (magnitude x + 1) : ℚ) < units (magnitude y) := Nat.cast_lt.mpr (units_strictMono (by omega))
  grind

theorem unique : x = y := by
  refine eq_of_magnitude_eq rounds.le_infinity ?_ (rounds.unsigned.trans rounds'.unsigned.symm)
  by_cases finite : isFinite x
  · have finite' := (rounds.isFinite_iff rounds').mp finite
    exact le_antisymm (Nat.not_lt.mp (rounds'.not_lt rounds finite' finite))
      (Nat.not_lt.mp (rounds.not_lt rounds' finite finite'))
  · have infinite' := rounds'.infinite (finite ∘ (rounds.isFinite_iff rounds').mpr)
    exact (magnitude_of_infinity (rounds.infinite finite)).trans (magnitude_of_infinity infinite').symm

end RoundsTo

end Abacus.Binary64
