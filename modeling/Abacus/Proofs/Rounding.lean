import Abacus.Decimal
import Mathlib.Algebra.Order.Field.Rat
import Mathlib.Order.Monotone.Basic
import Mathlib.Tactic.Linarith
import Mathlib.Tactic.Positivity
import Mathlib.Tactic.Ring

/-! Rounding to the grid of magnitudes. A number is rounded to as many steps as it is beyond the middle of, where the
middle itself counts from an odd step on, so that ties go to the even neighbour. -/
namespace Abacus.Binary64

theorem units_of_subnormal {m : Nat} (binade : m / 0x10000000000000 = 0) : units m = m := by
  rw [units, binade]

private theorem units_of_normal {m b : Nat} (binade : m / 0x10000000000000 = b + 1) :
    units m = (m % 0x10000000000000 + 0x10000000000000) * 2 ^ b := by
  rw [units, binade]
  exact Nat.shiftLeft_eq _ _

theorem units_eq {b r : Nat} (normal : b = 0 ∨ 2 ^ 52 ≤ r) (bound : r ≤ 2 ^ 53) :
    units (b * 0x10000000000000 + r) = r * 2 ^ b := by
  by_cases small : r < 2 ^ 52
  · obtain rfl : b = 0 := by omega
    rw [units_of_subnormal (by omega), Nat.zero_mul, Nat.zero_add, Nat.pow_zero, Nat.mul_one]
  · by_cases carried : r = 2 ^ 53
    · -- the significand carries into the exponent
      have low : (b * 0x10000000000000 + r) % 0x10000000000000 + 0x10000000000000 = 2 ^ 52 := by omega
      have binade : (b * 0x10000000000000 + r) / 0x10000000000000 = b + 1 + 1 := by omega
      rw [units_of_normal binade, low, carried, ← Nat.pow_add, ← Nat.pow_add]
      congr 1
      omega
    · have low : (b * 0x10000000000000 + r) % 0x10000000000000 + 0x10000000000000 = r := by omega
      have binade : (b * 0x10000000000000 + r) / 0x10000000000000 = b + 1 := by omega
      rw [units_of_normal binade, low]

theorem exists_significand (m : Nat) :
    ∃ b r, m = b * 0x10000000000000 + r ∧ (b = 0 ∨ 2 ^ 52 ≤ r) ∧ r < 2 ^ 53 ∧ b = m / 0x10000000000000 - 1 :=
  ⟨m / 0x10000000000000 - 1, m - (m / 0x10000000000000 - 1) * 0x10000000000000, by omega, by omega, by omega, rfl⟩

theorem units_succ (m : Nat) : units (m + 1) = units m + 2 ^ (m / 0x10000000000000 - 1) := by
  obtain ⟨b, r, split, normal, bound, binade⟩ := exists_significand m
  rw [← binade, split, Nat.add_assoc, units_eq normal (by omega), units_eq (by omega) (by omega), Nat.succ_mul]

theorem units_strictMono : StrictMono units := by
  refine strictMono_nat_of_lt_succ fun m => ?_
  rw [units_succ]
  exact Nat.lt_add_of_pos_right (Nat.two_pow_pos _)

/-- A number of units that is rounded beyond this magnitude. -/
def Beyond (k : Nat) (q : ℚ) : Prop :=
  (units k + units (k + 1) : ℚ) < 2 * q ∨ (units k + units (k + 1) : ℚ) = 2 * q ∧ k % 2 = 1

private theorem Beyond.mono {k : Nat} {q q' : ℚ} (beyond : Beyond k q) (le : q ≤ q') : Beyond k q' := by
  rcases beyond with lt | ⟨eq, odd⟩
  · exact .inl (by linarith)
  · rcases le.lt_or_eq with lt | rfl
    · exact .inl (by linarith)
    · exact .inr ⟨eq, odd⟩

private theorem beyond_div {k num den : Nat} (pos : 0 < den) :
    Beyond k (num / den : ℚ) ↔
      (units k + units (k + 1)) * den < 2 * num ∨ (units k + units (k + 1)) * den = 2 * num ∧ k % 2 = 1 := by
  have pos' : (0 : ℚ) < den := Nat.cast_pos.mpr pos
  rw [Beyond, ← mul_div_assoc, lt_div_iff₀ pos', eq_div_iff pos'.ne']
  norm_cast

private theorem lt_roundedQuotient_iff {k num den : Nat} (pos : 0 < den) :
    k < roundedQuotient num den ↔
      (2 * k + 1) * den < 2 * num ∨ (2 * k + 1) * den = 2 * num ∧ k % 2 = 1 := by
  have split := Nat.div_add_mod num den
  have small := Nat.mod_lt num pos
  simp only [roundedQuotient, Bool.or_eq_true, Bool.and_eq_true, decide_eq_true_eq, beq_iff_eq]
  generalize num / den = floor at split ⊢
  generalize num % den = rest at split small ⊢
  subst split
  have expand : (2 * k + 1) * den = 2 * (den * k) + den := by ring
  rw [expand, Nat.mul_add]
  rcases Nat.lt_trichotomy k floor with below | rfl | above
  · have less : den * k + den ≤ den * floor := Nat.mul_le_mul_left den below
    refine iff_of_true ?_ (.inl (by omega))
    split <;> omega
  · split <;> omega
  · have less : den * floor + den ≤ den * k := Nat.mul_le_mul_left den above
    refine iff_of_false ?_ (by omega)
    split <;> omega

private theorem roundedQuotient_le {k num den : Nat} (pos : 0 < den) (le : num ≤ k * den) :
    roundedQuotient num den ≤ k := by
  rw [← Nat.not_lt, lt_roundedQuotient_iff pos, Nat.add_mul, Nat.mul_assoc]
  omega

private theorem le_roundedQuotient {k num den : Nat} (pos : 0 < den) (le : k * den ≤ num) :
    k ≤ roundedQuotient num den := by
  cases k with
  | zero => exact Nat.zero_le _
  | succ k =>
    refine (lt_roundedQuotient_iff pos).mpr (.inl ?_)
    rw [Nat.add_mul, Nat.mul_assoc]
    rw [Nat.add_mul] at le
    omega

theorem beyond_of_le {k : Nat} {q : ℚ} (le : (units (k + 1) : ℚ) ≤ q) : Beyond k q := by
  have lt : (units k : ℚ) < units (k + 1) := Nat.cast_lt.mpr (units_strictMono k.lt_succ_self)
  exact .inl (by linarith)

theorem not_beyond_of_le {k : Nat} {q : ℚ} (le : q ≤ units k) : ¬ Beyond k q := by
  have lt : (units k : ℚ) < units (k + 1) := Nat.cast_lt.mpr (units_strictMono k.lt_succ_self)
  rintro (beyond | ⟨beyond, -⟩) <;> linarith

private theorem beyond_of_binade {b k num den : Nat} (pos : 0 < den) (least : 2 ^ 52 * (den * 2 ^ b) ≤ num)
    (below : k < b * 0x10000000000000 + 2 ^ 52) : Beyond k (num / den : ℚ) := by
  have first : units (k + 1) ≤ 2 ^ 52 * 2 ^ b := by
    rw [← units_eq (.inr (Nat.le_refl _)) (by decide)]
    exact units_strictMono.monotone below
  refine beyond_of_le ((le_div_iff₀ (Nat.cast_pos.mpr pos)).mpr ?_)
  have scaled : units (k + 1) * den ≤ num :=
    calc units (k + 1) * den ≤ 2 ^ 52 * 2 ^ b * den := Nat.mul_le_mul_right _ first
      _ = 2 ^ 52 * (den * 2 ^ b) := by ring
      _ ≤ num := least
  exact_mod_cast scaled

private theorem not_beyond_of_binade {b k num den : Nat} (pos : 0 < den) (reach : num < 2 ^ 53 * (den * 2 ^ b))
    (above : b * 0x10000000000000 + 2 ^ 53 ≤ k) : ¬ Beyond k (num / den : ℚ) := by
  have next : 2 ^ 53 * 2 ^ b ≤ units k := by
    rw [← units_eq (.inr (by decide)) (Nat.le_refl _)]
    exact units_strictMono.monotone above
  refine not_beyond_of_le ((div_le_iff₀ (Nat.cast_pos.mpr pos)).mpr ?_)
  have scaled : num ≤ units k * den :=
    calc num ≤ 2 ^ 53 * (den * 2 ^ b) := reach.le
      _ = 2 ^ 53 * 2 ^ b * den := by ring
      _ ≤ units k * den := Nat.mul_le_mul_right _ next
  exact_mod_cast scaled

/-- A quotient in a binade is rounded to a whole number of the binade's steps. -/
private theorem lt_binade_iff {b k num den : Nat} (pos : 0 < den) (normal : b = 0 ∨ 2 ^ 52 * (den * 2 ^ b) ≤ num)
    (reach : num < 2 ^ 53 * (den * 2 ^ b)) :
    k < b * 0x10000000000000 + roundedQuotient num (den * 2 ^ b) ↔ Beyond k (num / den : ℚ) := by
  have step : 0 < den * 2 ^ b := Nat.mul_pos pos (Nat.two_pow_pos b)
  have highest := roundedQuotient_le step reach.le
  by_cases below : k < b * 0x10000000000000 + 2 ^ 52 ∧ b ≠ 0
  · have least : 2 ^ 52 * (den * 2 ^ b) ≤ num := normal.resolve_left below.2
    have lowest := le_roundedQuotient step least
    exact iff_of_true (by omega) (beyond_of_binade pos least below.1)
  · by_cases above : b * 0x10000000000000 + 2 ^ 53 ≤ k
    · exact iff_of_false (by omega) (not_beyond_of_binade pos reach above)
    · obtain ⟨j, rfl, inside, bound⟩ :
          ∃ j, k = b * 0x10000000000000 + j ∧ (b = 0 ∨ 2 ^ 52 ≤ j) ∧ j < 2 ^ 53 :=
        ⟨k - b * 0x10000000000000, by omega, by omega, by omega⟩
      have middle : (units (b * 0x10000000000000 + j) + units (b * 0x10000000000000 + j + 1)) * den =
          (2 * j + 1) * (den * 2 ^ b) := by
        rw [Nat.add_assoc, units_eq inside bound.le, units_eq (by omega) bound, Nat.succ_eq_add_one]
        ring
      have parity : (b * 0x10000000000000 + j) % 2 = j % 2 := by omega
      rw [beyond_div pos, middle, parity, ← lt_roundedQuotient_iff step]
      omega

/-- A number in units of the least subnormal value. -/
def inUnits (q : ℚ) : ℚ := q * 2 ^ 1074

theorem inUnits_sub (q q' : ℚ) : inUnits (q - q') = inUnits q - inUnits q' := sub_mul _ _ _

theorem inUnits_le_inUnits {q q' : ℚ} : inUnits q ≤ inUnits q' ↔ q ≤ q' := mul_le_mul_iff_left₀ (by positivity)

theorem inUnits_inj {q q' : ℚ} : inUnits q = inUnits q' ↔ q = q' := mul_left_inj' (by positivity)

theorem abs_inUnits (q : ℚ) : |inUnits q| = inUnits |q| := by
  rw [inUnits, abs_mul, abs_of_pos (by positivity : (0 : ℚ) < 2 ^ 1074)]
  rfl

/-- The magnitude to which a number is rounded, with ties to even, and at most to infinity. -/
def Nearest (q : ℚ) (m : Nat) : Prop := ∀ k, k < m ↔ k < infinity ∧ Beyond k (inUnits q)

/-- Dividing and rounding whole numbers gives the magnitude to which their quotient is rounded. -/
theorem nearest_spec {num den : Nat} (pos : 0 < den) : Nearest (num / den) (nearest num den) := by
  intro k
  have scaled : inUnits (num / den) = ((num <<< 1074 : ℕ) / den : ℚ) := by
    rw [inUnits, Nat.shiftLeft_eq]
    generalize 1074 = places
    push_cast
    ring
  rw [nearest, scaled]
  generalize num <<< 1074 = n
  rw [Nat.lt_min, Nat.shiftLeft_eq, lt_binade_iff pos]
  · by_cases binade : (n / den).log2 ≤ 52
    · exact .inl (Nat.sub_eq_zero_of_le binade)
    · refine .inr ?_
      have nonzero : n / den ≠ 0 := by
        intro zero
        rw [zero] at binade
        exact binade (by decide)
      have least := Nat.mul_le_of_le_div _ _ _ (Nat.log2_self_le nonzero)
      have power : (n / den).log2 = 52 + ((n / den).log2 - 52) := by omega
      calc 2 ^ 52 * (den * 2 ^ ((n / den).log2 - 52)) = 2 ^ (n / den).log2 * den := by
            conv_rhs => rw [power, Nat.pow_add]
            ring
        _ ≤ n := least
  · have most : n / den < 2 ^ 53 * 2 ^ ((n / den).log2 - 52) := by
      refine Nat.lt_log2_self.trans_le ?_
      rw [← Nat.pow_add]
      exact Nat.pow_le_pow_right (by decide) (by omega)
    calc n < 2 ^ 53 * 2 ^ ((n / den).log2 - 52) * den := (Nat.div_lt_iff_lt_mul pos).mp most
      _ = 2 ^ 53 * (den * 2 ^ ((n / den).log2 - 52)) := by ring

namespace Nearest

variable {q q' : ℚ} {m m' j : Nat}

theorem le_infinity (near : Nearest q m) : m ≤ infinity := by
  by_contra beyond
  exact absurd ((near infinity).mp (Nat.lt_of_not_le beyond)).1 (Nat.lt_irrefl _)

theorem mono (near : Nearest q m) (near' : Nearest q' m') (le : q ≤ q') : m ≤ m' := by
  by_contra less
  obtain ⟨finite, beyond⟩ := (near m').mp (Nat.lt_of_not_le less)
  exact absurd ((near' m').mpr ⟨finite, beyond.mono (inUnits_le_inUnits.mpr le)⟩) (Nat.lt_irrefl _)

theorem unique (near : Nearest q m) (near' : Nearest q m') : m = m' :=
  Nat.le_antisymm (near.mono near' le_rfl) (near'.mono near le_rfl)

theorem middle_le (near : Nearest q m) (less : j < m) :
    (units j + units m : ℚ) ≤ 2 * inUnits q ∧ ((units j + units m : ℚ) = 2 * inUnits q → m % 2 = 0) := by
  obtain ⟨n, rfl⟩ : ∃ n, m = n + 1 := ⟨m - 1, by omega⟩
  have below : (units j : ℚ) ≤ units n := Nat.cast_le.mpr (units_strictMono.monotone (Nat.le_of_lt_succ less))
  obtain ⟨-, lt | ⟨eq, odd⟩⟩ := (near n).mp n.lt_succ_self
  · exact ⟨by linarith, fun tie => by linarith⟩
  · exact ⟨by linarith, fun _ => by omega⟩

theorem le_middle (near : Nearest q m) (finite : m < infinity) (more : m < j) :
    2 * inUnits q ≤ (units m + units j : ℚ) ∧ (2 * inUnits q = (units m + units j : ℚ) → m % 2 = 0) := by
  have above : (units (m + 1) : ℚ) ≤ units j := Nat.cast_le.mpr (units_strictMono.monotone more)
  have within : ¬ Beyond m (inUnits q) := fun beyond => Nat.lt_irrefl _ ((near m).mpr ⟨finite, beyond⟩)
  rw [Beyond, not_or, not_and] at within
  constructor
  · linarith [within.1]
  · intro tie
    have even := within.2 (by linarith [within.1])
    omega

/-- No magnitude is nearer, and one that is as near leaves the even one. -/
theorem no_nearer (near : Nearest q m) (finite : m < infinity) (j : Nat) :
    |units m - inUnits q| ≤ |units j - inUnits q| ∧
      (j ≠ m → |units j - inUnits q| = |units m - inUnits q| → m % 2 = 0) := by
  rcases Nat.lt_trichotomy j m with less | rfl | more
  · obtain ⟨middle, even⟩ := near.middle_le less
    have lt : (units j : ℚ) < units m := Nat.cast_lt.mpr (units_strictMono less)
    rw [abs_of_nonpos (by linarith : units j - inUnits q ≤ 0)]
    refine ⟨abs_le.mpr ⟨by linarith, by linarith⟩, fun _ tie => even ?_⟩
    rcases abs_choice (units m - inUnits q) with same | same <;> rw [same] at tie <;> linarith
  · exact ⟨le_rfl, fun other => absurd rfl other⟩
  · obtain ⟨middle, even⟩ := near.le_middle finite more
    have lt : (units m : ℚ) < units j := Nat.cast_lt.mpr (units_strictMono more)
    rw [abs_of_nonneg (by linarith : 0 ≤ units j - inUnits q)]
    refine ⟨abs_le.mpr ⟨by linarith, by linarith⟩, fun _ tie => even ?_⟩
    rcases abs_choice (units m - inUnits q) with same | same <;> rw [same] at tie <;> linarith

theorem eq_zero_iff (near : Nearest q m) : m = 0 ↔ 2 * inUnits q ≤ 1 := by
  have least : (units 0 + units 1 : ℚ) = 1 := by
    rw [units_of_subnormal (by decide), units_of_subnormal (by decide)]
    norm_num
  have within : m = 0 ↔ ¬ Beyond 0 (inUnits q) := by
    rw [← Nat.not_lt.trans Nat.le_zero, near 0, and_iff_right (by decide)]
  rw [within, Beyond, least]
  simp

/-- A number is rounded to infinity from the middle between the greatest finite value and the next power of two on. -/
theorem eq_infinity_iff (near : Nearest q m) : m = infinity ↔ 2 ^ 1024 - 2 ^ 970 ≤ q := by
  have beyond : m = infinity ↔ Beyond (infinity - 1) (inUnits q) := by
    have reached := near (infinity - 1)
    rw [and_iff_right (by decide)] at reached
    have bound := near.le_infinity
    rw [← reached]
    unfold infinity at bound ⊢
    omega
  have greatest : units (infinity - 1) = (2 ^ 53 - 1) * 2 ^ 2045 := by
    have split : infinity - 1 = 2045 * 0x10000000000000 + (2 ^ 53 - 1) := by decide
    rw [split, units_eq (.inr (by decide)) (by decide)]
  have next : units (infinity - 1 + 1) = 2 ^ 53 * 2 ^ 2045 := by
    have split : infinity - 1 + 1 = 2045 * 0x10000000000000 + 2 ^ 53 := by decide
    rw [split, units_eq (.inr (by decide)) (by decide)]
  have middle : (units (infinity - 1) + units (infinity - 1 + 1) : ℚ) = (2 ^ 54 - 1) * 2 ^ 2045 := by
    rw [greatest, next]
    generalize 2045 = k
    push_cast
    ring
  have scaled (c : ℚ) (a k : Nat) : c * 2 ^ (a + k + 1) ≤ 2 * (q * 2 ^ k) ↔ c * 2 ^ a ≤ q := by
    rw [show c * 2 ^ (a + k + 1) = c * 2 ^ a * (2 * 2 ^ k) by ring, show 2 * (q * 2 ^ k) = q * (2 * 2 ^ k) by ring]
    exact mul_le_mul_iff_left₀ (by positivity)
  have power : (2 : ℚ) ^ 1024 - 2 ^ 970 = (2 ^ 54 - 1) * 2 ^ 970 := by
    rw [sub_mul, ← pow_add, one_mul]
  rw [beyond, Beyond, middle, power, inUnits, ← scaled _ 970 1074, le_iff_lt_or_eq, and_iff_left (by decide)]

end Nearest

end Abacus.Binary64
