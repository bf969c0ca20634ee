import Abacus.Proofs.NumeralValue

/-! The shortest decimal of a value is the one on the highest place. On no higher place a multiple is read as the
value, so that the coefficient has no zero at its end, and no decimal with fewer digits is read as the value: between
that decimal and this one there would be a power of ten. It is a whole number if and only if the value is one. -/
namespace Abacus

open Binary64

namespace Binary64

private theorem step_le_units {m : Nat} (nonzero : m ≠ 0) : 2 ^ (m / 0x10000000000000 - 1) ≤ units m := by
  obtain ⟨b, r, split, normal, bound, rfl⟩ := exists_significand m
  conv_rhs => rw [split, units_eq normal bound.le]
  exact Nat.le_mul_of_pos_left _ (by omega)

private theorem step_dvd_units (m : Nat) : 2 ^ (m / 0x10000000000000 - 1) ∣ units m := by
  obtain ⟨b, r, split, normal, bound, rfl⟩ := exists_significand m
  conv_rhs => rw [split, units_eq normal bound.le]
  exact Nat.dvd_mul_left _ _

private theorem eq_of_step_dvd {step n n' : Nat} (pos : 0 < step) (dvd : step ∣ n) (dvd' : step ∣ n')
    (below : 2 * n ≤ 2 * n' + step) (above : 2 * n' ≤ 2 * n + step) : n = n' := by
  obtain ⟨k, rfl⟩ := dvd
  obtain ⟨k', rfl⟩ := dvd'
  have le {a a' : Nat} (close : 2 * (step * a) ≤ 2 * (step * a') + step) : a ≤ a' := by
    by_contra more
    have steps : step * a' + step ≤ step * a := Nat.mul_le_mul_left step (Nat.lt_of_not_le more)
    omega
  rw [Nat.le_antisymm (le below) (le above)]

/-- A multiple of a power of two that is nearest to a value of its own binade, or beyond, is that value. -/
private theorem pow_dvd_units {m n k : Nat} (below : 2 * (n * 2 ^ k) ≤ units m + units (m + 1))
    (above : ∀ j, m = j + 1 → units j + units (j + 1) ≤ 2 * (n * 2 ^ k)) : 2 ^ k ∣ units m := by
  by_cases coarse : k ≤ m / 0x10000000000000 - 1
  · exact (Nat.pow_dvd_pow 2 coarse).trans (step_dvd_units m)
  · -- both the number and the value lie on the grid of the value's binade, nearer than one step
    have grid : 2 ^ (m / 0x10000000000000 - 1) ∣ n * 2 ^ k :=
      (Nat.pow_dvd_pow 2 (Nat.le_of_not_le coarse)).trans (Nat.dvd_mul_left _ _)
    suffices n * 2 ^ k = units m by
      rw [← this]
      exact Nat.dvd_mul_left _ _
    rw [units_succ] at below
    refine eq_of_step_dvd (Nat.two_pow_pos _) grid (step_dvd_units m) (by omega) ?_
    cases m with
    | zero => exact Nat.le_add_left _ _
    | succ j =>
      have above := above j rfl
      have smaller : 2 ^ (j / 0x10000000000000 - 1) ≤ 2 ^ ((j + 1) / 0x10000000000000 - 1) :=
        Nat.pow_le_pow_right (by decide) (by omega)
      have size := units_succ j
      omega

/-- A whole number that is rounded to a finite value is rounded to a whole number. -/
private theorem Nearest.dvd_units {n m : Nat} (near : Nearest n m) (finite : m < infinity) : 2 ^ 1074 ∣ units m := by
  have middle (a b k : Nat) : ((a : ℚ) + b ≤ 2 * (n * 2 ^ k) ↔ a + b ≤ 2 * (n * 2 ^ k)) ∧
      (2 * (n * 2 ^ k) ≤ (a : ℚ) + b ↔ 2 * (n * 2 ^ k) ≤ a + b) := by
    constructor <;> norm_cast
  refine pow_dvd_units ((middle _ _ 1074).2.mp (near.le_middle finite m.lt_succ_self).1) fun j last => ?_
  exact (middle _ _ 1074).1.mp (last ▸ (near.middle_le (last ▸ j.lt_succ_self : j < m)).1)

private theorem Nearest.of_units {q : ℚ} {m : Nat} (exact : inUnits q = units m) (bound : m ≤ infinity) :
    Nearest q m := by
  intro k
  rw [exact]
  constructor
  · intro less
    exact ⟨less.trans_le bound, beyond_of_le (Nat.cast_le.mpr (units_strictMono.monotone less))⟩
  · rintro ⟨-, beyond⟩
    by_contra more
    exact not_beyond_of_le (Nat.cast_le.mpr (units_strictMono.monotone (Nat.le_of_not_lt more))) beyond

/-- Ten times a finite value is rounded to a greater one. -/
private theorem Nearest.lt_of_ten {q : ℚ} {m m' : Nat} (exact : inUnits q = units m) (nonzero : m ≠ 0)
    (finite : m < infinity) (near : Nearest (10 * q) m') : m < m' := by
  have step := step_le_units nonzero
  have pos := Nat.two_pow_pos (m / 0x10000000000000 - 1)
  have scaled : inUnits (10 * q) = 10 * units m := by rw [← exact, inUnits, inUnits, mul_assoc]
  refine (near m).mpr ⟨finite, .inl ?_⟩
  rw [scaled, units_succ]
  have less : units m + (units m + 2 ^ (m / 0x10000000000000 - 1)) < 2 * (10 * units m) := by omega
  exact_mod_cast less

end Binary64

namespace Decimal

/-- What the multiples of `10 ^ -1074` are read as. -/
def reading (n : Nat) : Nat := (mk n (-1074)).magnitude

private theorem magnitude_le {d d' : Decimal} (le : d.value ≤ d'.value) : d.magnitude ≤ d'.magnitude :=
  d.nearest_magnitude.mono d'.nearest_magnitude le

private theorem reading_mono {n n' : Nat} (le : n ≤ n') : reading n ≤ reading n' := by
  refine magnitude_le (mul_le_mul_of_nonneg_right ?_ (by positivity))
  exact_mod_cast le

private theorem value_place (n place : Nat) : (mk n (place - 1074)).value = (mk (n * 10 ^ place) (-1074)).value := by
  have power (e : Int) : (n : ℚ) * 10 ^ (place + e) = (n * 10 ^ place : Nat) * 10 ^ e := by
    rw [zpow_add₀ (by decide), zpow_natCast, ← mul_assoc]
    push_cast
    rfl
  exact power (-1074)

private theorem magnitude_place (n place : Nat) : (mk n (place - 1074)).magnitude = reading (n * 10 ^ place) := by
  have near := (mk n (place - 1074)).nearest_magnitude
  rw [value_place] at near
  exact near.unique (nearest_magnitude _)

private theorem exists_search (found : Nat → Option Nat) (whole place : Nat) :
    ∃ n, ∃ p : Nat, search found whole place = ⟨n, p - 1074⟩ ∧ (p = 0 ∧ n = whole ∨ found p = some n) ∧
      ∀ q : Nat, p < q → q ≤ place → found q = none := by
  induction place with
  | zero => exact ⟨whole, 0, rfl, .inl ⟨rfl, rfl⟩, fun q more most => by omega⟩
  | succ place ih =>
    rw [search]
    cases multiple : found (place + 1) with
    | some n => exact ⟨n, place + 1, rfl, .inr multiple, fun q more most => by omega⟩
    | none =>
      obtain ⟨n, p, result, known, higher⟩ := ih
      refine ⟨n, p, result, known, fun q more most => ?_⟩
      rcases Nat.lt_or_eq_of_le most with lt | rfl
      · exact higher q more (Nat.le_of_lt_succ lt)
      · exact multiple

private theorem multiples_of_none {m whole place : Nat} (none : multiple? m whole place = none) :
    reading (whole / 10 ^ place * 10 ^ place) ≠ m ∧ reading ((whole / 10 ^ place + 1) * 10 ^ place) ≠ m := by
  unfold multiple? at none
  extract_lets low above reads at none
  have known (n : Nat) : reads n ↔ reading (n * 10 ^ place) = m := by
    rw [← magnitude_place]
    exact beq_iff_eq
  split at none
  · cases none
  · rename_i upper
    split at none
    · cases none
    · rename_i lower
      -- the lower multiple is not taken, so that the upper one was refused for its own sake
      rw [Bool.eq_false_iff.mpr lower, Bool.not_false, Bool.or_true, Bool.and_true] at upper
      exact ⟨lower ∘ (known low).mpr, upper ∘ (known (low + 1)).mpr⟩

/-- Where neither of the two multiples around the value is read as it, none is. -/
private theorem reading_ne_of_none {m whole place : Nat} (exact : reading whole = m)
    (none : multiple? m whole place = none) (n : Nat) : reading (n * 10 ^ place) ≠ m := by
  obtain ⟨lower, upper⟩ := multiples_of_none none
  intro found
  have pos : 0 < 10 ^ place := Nat.pow_pos (by decide)
  rcases Nat.lt_or_ge (whole / 10 ^ place) n with above | below
  · have more : whole ≤ (whole / 10 ^ place + 1) * 10 ^ place := (Nat.lt_mul_of_div_lt (Nat.lt_succ_self _) pos).le
    have least := reading_mono (Nat.mul_le_mul_right (10 ^ place) above)
    exact upper (Nat.le_antisymm (found ▸ least) (exact ▸ reading_mono more))
  · have less : whole / 10 ^ place * 10 ^ place ≤ whole := Nat.div_mul_le_self whole (10 ^ place)
    have most := reading_mono (Nat.mul_le_mul_right (10 ^ place) below)
    exact lower (Nat.le_antisymm (exact ▸ reading_mono less) (found ▸ most))

private theorem lt_digitBound (n : Nat) : n < 10 ^ digitBound n := by
  have log := Nat.lt_log2_self (n := n)
  rw [digitBound]
  generalize n.log2 + 1 = l at log ⊢
  refine log.trans_le ?_
  rw [← Nat.pow_le_pow_iff_left (n := 93) (by decide)]
  calc (2 ^ l) ^ 93 = (2 ^ 93) ^ l := by rw [← Nat.pow_mul, ← Nat.pow_mul, Nat.mul_comm]
    _ ≤ (10 ^ 28) ^ l := Nat.pow_le_pow_left (by decide) l
    _ = 10 ^ (28 * l) := (Nat.pow_mul ..).symm
    _ ≤ 10 ^ ((l * 28 / 93 + 1) * 93) := Nat.pow_le_pow_right (by decide) (by omega)
    _ = (10 ^ (l * 28 / 93 + 1)) ^ 93 := Nat.pow_mul ..

theorem magnitude_zero (e : Int) : (mk 0 e).magnitude = 0 := by
  refine (mk 0 e).nearest_magnitude.eq_zero_iff.mpr ?_
  rw [value, inUnits, Nat.cast_zero, zero_mul, zero_mul, mul_zero]
  exact zero_le_one

variable {m : Nat}

/-- The whole number with which a value is searched for, on the place from which it is exact. -/
structure Searched (m whole : Nat) : Prop where
  shortest_eq : shortest m = search (multiple? m whole) whole (digitBound whole)
  exact : inUnits (mk whole (-1074)).value = units m

private theorem exists_searched (m : Nat) : ∃ whole, Searched m whole := by
  have power (u k : Nat) : ((u * Nat.pow 5 k : Nat) : ℚ) * 10 ^ (-k : Int) * 2 ^ k = u := by
    rw [Nat.pow_eq, zpow_neg, zpow_natCast, show (10 : ℚ) = 5 * 2 by norm_num, mul_pow]
    push_cast
    field_simp
  refine ⟨units m * Nat.pow 5 1074, rfl, ?_⟩
  have scale : (-1074 : Int) = -(1074 : Nat) := rfl
  rw [inUnits, value, scale]
  -- the powers are too large to be evaluated
  generalize 1074 = k
  exact power (units m) k

private theorem Searched.reading_eq {whole : Nat} (searched : Searched m whole) (finite : m < infinity) :
    reading whole = m :=
  (Decimal.mk whole (-1074)).nearest_magnitude.unique (.of_units searched.exact finite.le)

private theorem Searched.lt_reading {whole : Nat} (searched : Searched m whole) (nonzero : m ≠ 0)
    (finite : m < infinity) : m < reading (10 * whole) := by
  have near := (Decimal.mk (10 * whole) (-1074)).nearest_magnitude
  refine Nearest.lt_of_ten searched.exact nonzero finite ?_
  have ten : (Decimal.mk (10 * whole) (-1074)).value = 10 * (Decimal.mk whole (-1074)).value := by
    rw [value, value, ← mul_assoc, Nat.cast_mul, Nat.cast_ofNat]
  rwa [← ten]

private theorem Searched.reading_ne {whole place : Nat} (searched : Searched m whole) (nonzero : m ≠ 0)
    (finite : m < infinity) (high : digitBound whole < place) (n : Nat) : reading (n * 10 ^ place) ≠ m := by
  intro found
  rcases Nat.eq_zero_or_pos n with rfl | pos
  · rw [Nat.zero_mul] at found
    exact nonzero (found.symm.trans (magnitude_zero (-1074)))
  · have bound := lt_digitBound whole
    have more : 10 * whole ≤ n * 10 ^ place :=
      calc 10 * whole ≤ 10 ^ (digitBound whole + 1) := by
            rw [Nat.pow_succ']
            exact Nat.mul_le_mul_left 10 bound.le
        _ ≤ 10 ^ place := Nat.pow_le_pow_right (by decide) high
        _ ≤ n * 10 ^ place := Nat.le_mul_of_pos_left _ pos
    exact absurd (found ▸ reading_mono more) (Nat.not_le_of_lt (searched.lt_reading nonzero finite))

/-- A decimal that is read as a value, when no multiple of a greater power of ten is. -/
structure Highest (m n p : Nat) : Prop where
  shortest_eq : shortest m = ⟨n, p - 1074⟩
  read : reading (n * 10 ^ p) = m
  highest : ∀ q, p < q → ∀ k, reading (k * 10 ^ q) ≠ m

theorem exists_highest (nonzero : m ≠ 0) (finite : m < infinity) : ∃ n p, Highest m n p := by
  obtain ⟨whole, searched⟩ := exists_searched m
  have read := magnitude_shortest finite
  obtain ⟨n, p, found, -, higher⟩ := exists_search (multiple? m whole) whole (digitBound whole)
  rw [searched.shortest_eq, found, magnitude_place] at read
  refine ⟨n, p, searched.shortest_eq.trans found, read, fun q more => ?_⟩
  rcases Nat.lt_or_ge (digitBound whole) q with high | low
  · exact searched.reading_ne nonzero finite high
  · exact reading_ne_of_none (searched.reading_eq finite) (higher q more low)

namespace Highest

variable {n p : Nat}

theorem mod_ten (highest : Highest m n p) : n % 10 ≠ 0 := by
  intro zero
  refine highest.highest (p + 1) p.lt_succ_self (n / 10) ?_
  have split : n / 10 * 10 ^ (p + 1) = n * 10 ^ p := by
    rw [Nat.pow_succ', ← Nat.mul_assoc, Nat.div_mul_cancel (Nat.dvd_of_mod_eq_zero zero)]
  rw [split, highest.read]

/-- A decimal with fewer digits on no higher place leaves a power of ten between it and this one. -/
private theorem magnitude_ne (highest : Highest m n p) {d : Decimal} {length : Nat} (pos : 0 < length)
    (lower : d.exponent ≤ p - 1074) (below : d.coefficient < 10 ^ length) (least : 10 ^ length ≤ n) :
    d.magnitude ≠ m := by
  intro read
  have power : (Decimal.mk 1 ((p + length : Nat) - 1074)).value = 10 ^ length * 10 ^ (p - 1074 : Int) := by
    rw [value, Nat.cast_add, add_sub_right_comm, zpow_add₀ (by decide), zpow_natCast, mul_comm, Nat.cast_one, mul_one,
      mul_comm]
  have lowest : d.value ≤ (Decimal.mk 1 ((p + length : Nat) - 1074)).value := by
    rw [power, value]
    have coefficient : (d.coefficient : ℚ) ≤ 10 ^ length := by exact_mod_cast below.le
    exact mul_le_mul coefficient (zpow_le_zpow_right₀ (by norm_num) lower) (by positivity) (by positivity)
  have most : (Decimal.mk 1 ((p + length : Nat) - 1074)).value ≤ (Decimal.mk n (p - 1074)).value := by
    rw [power, value]
    have coefficient : (10 ^ length : ℚ) ≤ n := by exact_mod_cast least
    exact mul_le_mul_of_nonneg_right coefficient (by positivity)
  have above := magnitude_le lowest
  have within := magnitude_le most
  rw [magnitude_place] at above within
  rw [magnitude_place, highest.read] at within
  exact highest.highest (p + length) (by omega) 1 (Nat.le_antisymm within (read ▸ above))

theorem length_le (highest : Highest m n p) (nonzero : m ≠ 0) {d : Decimal} (read : d.magnitude = m) {length : Nat}
    (below : d.coefficient < 10 ^ length) : (digits n).length ≤ length := by
  obtain ⟨a, e⟩ := d
  by_contra longer
  rcases Nat.eq_zero_or_pos length with rfl | pos
  · obtain rfl : a = 0 := by simpa using below
    exact nonzero (read.symm.trans (magnitude_zero e))
  · have least : 10 ^ length ≤ n := by
      by_contra less
      exact longer ((Nat.length_toDigits_le_iff (by decide) pos).mpr (Nat.lt_of_not_le less))
    rcases lt_or_ge (p - 1074 : Int) e with higher | lower
    · obtain ⟨q, rfl⟩ : ∃ q : Nat, e = q - 1074 := ⟨(e + 1074).toNat, by omega⟩
      rw [magnitude_place] at read
      exact highest.highest q (by omega) a read
    · exact highest.magnitude_ne pos lower below least read

theorem places_iff (highest : Highest m n p) (finite : m < infinity) : 1074 ≤ p ↔ 2 ^ 1074 ∣ units m := by
  constructor
  · intro whole
    have near := (Decimal.mk n (p - 1074)).nearest_magnitude
    have value : (Decimal.mk n (p - 1074)).value = (n * 10 ^ (p - 1074) : Nat) := by
      obtain ⟨j, rfl⟩ := Nat.exists_eq_add_of_le whole
      have exponent : ((1074 + j : Nat) - 1074 : Int) = j := by omega
      rw [Decimal.value, exponent, zpow_natCast, Nat.add_sub_cancel_left]
      push_cast
      rfl
    rw [magnitude_place, highest.read, value] at near
    exact near.dvd_units finite
  · rintro ⟨k, split⟩
    by_contra low
    refine highest.highest 1074 (by omega) k ?_
    rw [← magnitude_place]
    refine (nearest_magnitude _).unique (.of_units ?_ finite.le)
    have power (j : Nat) : (k : ℚ) * 2 ^ j = (2 ^ j * k : Nat) := by
      push_cast
      exact mul_comm _ _
    have exponent : ((1074 : Nat) - 1074 : Int) = 0 := rfl
    rw [Decimal.value, exponent, zpow_zero, mul_one, split]
    exact power 1074

end Highest

end Decimal

end Abacus
