import Abacus.Proofs.Rounding

/-! What a binary64 value is taken apart into: sign, significand and exponent. The magnitude counts the steps from zero
to the value, and it determines what all comparisons of values say and what a value without its sign is. -/
namespace Abacus.Binary64

open Float.Model

def sign (x : Float) : UnpackedFloat.Sign := if isNegative x then .negative else .positive

variable {x y : Float}

private theorem unpackExponent_eq (x : Float) :
    (@UnpackedFloat.unpackExponent .binary64 x.toBits.toBitVec).toNat = magnitude x / 0x10000000000000 := by
  simp [UnpackedFloat.unpackExponent, BitVec.extractLsb_toNat, Nat.shiftRight_eq_div_pow, magnitude]
  omega

private theorem unpackMantissa_eq (x : Float) :
    (@UnpackedFloat.unpackMantissa .binary64 x.toBits.toBitVec).toNat = magnitude x % 0x10000000000000 := by
  simp [UnpackedFloat.unpackMantissa, BitVec.extractLsb_toNat, Nat.shiftRight_eq_div_pow, magnitude]

private theorem unpackSign_eq (x : Float) :
    UnpackedFloat.Sign.ofBitVec (@UnpackedFloat.unpackSign .binary64 x.toBits.toBitVec) = sign x := by
  have bit : (@UnpackedFloat.unpackSign .binary64 x.toBits.toBitVec).toNat =
      x.toBits.toNat / 0x8000000000000000 := by
    delta UnpackedFloat.unpackSign
    simp [BitVec.extractLsb_toNat, Nat.shiftRight_eq_div_pow]
    have size := x.toBits.toNat_lt
    omega
  rw [sign, isNegative, ← bit]
  generalize @UnpackedFloat.unpackSign .binary64 x.toBits.toBitVec = v
  have known : v = 0#1 ∨ v = 1#1 := by bv_omega
  rcases known with rfl | rfl <;> rfl

private theorem unpackExponent_iff {n : Nat} (small : n < 2 ^ 11) :
    @UnpackedFloat.unpackExponent .binary64 x.toBits.toBitVec = BitVec.ofNat 11 n ↔
      magnitude x / 0x10000000000000 = n := by
  rw [← unpackExponent_eq, ← BitVec.toNat_inj, BitVec.toNat_ofNat]
  exact Iff.of_eq (congrArg _ (Nat.mod_eq_of_lt small))

private theorem unpackExponent_ones :
    @UnpackedFloat.unpackExponent .binary64 x.toBits.toBitVec = -1#11 ↔ magnitude x / 0x10000000000000 = 2047 :=
  unpackExponent_iff (n := 2047) (by decide)

private theorem unpackMantissa_iff :
    @UnpackedFloat.unpackMantissa .binary64 x.toBits.toBitVec = 0#52 ↔ magnitude x % 0x10000000000000 = 0 := by
  rw [← unpackMantissa_eq, ← BitVec.toNat_inj]
  rfl

private theorem unpack_eq (x : Float) : x.toModel.unpack = UnpackedFloat.unpack .binary64 x.toBits.toBitVec := rfl

private theorem unpack_of_zero (zero : magnitude x = 0) : x.toModel.unpack = .zero (sign x) := by
  have exponent := (unpackExponent_iff (x := x) (n := 0) (by decide)).mpr (by rw [zero])
  have mantissa := (unpackMantissa_iff (x := x)).mpr (by rw [zero])
  rw [unpack_eq]
  delta UnpackedFloat.unpack
  rw [if_neg (fun ones => absurd (exponent.symm.trans ones) (by decide)), if_pos exponent, dif_pos mantissa]
  exact congrArg _ (unpackSign_eq x)

theorem unpack_of_infinity (large : magnitude x = infinity) : x.toModel.unpack = .infinity (sign x) := by
  have exponent := (unpackExponent_ones (x := x)).mpr (by rw [large]; decide)
  have mantissa := (unpackMantissa_iff (x := x)).mpr (by rw [large]; decide)
  rw [unpack_eq]
  delta UnpackedFloat.unpack
  rw [if_pos exponent, if_pos mantissa]
  exact congrArg _ (unpackSign_eq x)

private theorem exists_finite {s : UnpackedFloat.Sign} {significand significand' : Nat} {exponent exponent' : Int}
    (pos : 0 < significand) (same : significand = significand') (scale : exponent = exponent') :
    ∃ pos', UnpackedFloat.finite s significand exponent pos = .finite s significand' exponent' pos' := by
  subst same scale
  exact ⟨pos, rfl⟩

private theorem unpack_of_finite {b r : Nat} (nonzero : magnitude x ≠ 0) (finite : magnitude x < infinity)
    (split : magnitude x = b * 0x10000000000000 + r) (normal : b = 0 ∨ 2 ^ 52 ≤ r) (bound : r < 2 ^ 53) :
    ∃ pos, x.toModel.unpack = .finite (sign x) r (b - 1074) pos := by
  unfold infinity at finite
  have low := unpackMantissa_eq x
  have high := unpackExponent_eq x
  rw [unpack_eq]
  delta UnpackedFloat.unpack
  rw [if_neg fun ones => absurd (unpackExponent_ones.mp ones) (by omega),
    unpackSign_eq]
  by_cases subnormal : magnitude x / 0x10000000000000 = 0
  · rw [if_pos ((unpackExponent_iff (n := 0) (by decide)).mpr subnormal),
      dif_neg fun none => absurd (unpackMantissa_iff.mp none) (by omega)]
    refine exists_finite _ ?_ ?_
    · omega
    · change (_ : Int) - (1023 + 52) + 1 = _
      omega
  · rw [if_neg fun none => subnormal ((unpackExponent_iff (n := 0) (by decide)).mp none)]
    refine exists_finite _ ?_ ?_
    · have size := (@UnpackedFloat.unpackMantissa .binary64 x.toBits.toBitVec).isLt
      rw [BitVec.toNat_append, ← Nat.shiftLeft_add_eq_or_of_lt size, low, Nat.shiftLeft_eq]
      change 1 * 0x10000000000000 + _ = _
      omega
    · change (_ : Int) - (1023 + 52) = _
      omega

private theorem toNat_packComponents (s : UnpackedFloat.Sign) (e : BitVec 11) (r : BitVec 52) :
    (UnpackedFloat.packComponents .binary64 s e r).toNat =
      s.toBitVec.toNat * 0x8000000000000000 + (e.toNat * 0x10000000000000 + r.toNat) := by
  change ((s.toBitVec ++ e) ++ r).toNat = _
  rw [BitVec.toNat_append, BitVec.toNat_append, ← Nat.shiftLeft_add_eq_or_of_lt r.isLt,
    ← Nat.shiftLeft_add_eq_or_of_lt e.isLt, Nat.shiftLeft_eq, Nat.shiftLeft_eq]
  omega

/-- What a value is taken apart into that is no NaN, from its sign and its magnitude. -/
inductive Unpacks (s : UnpackedFloat.Sign) (m : Nat) : UnpackedFloat → Prop
  | zero (none : m = 0) : Unpacks s m (.zero s)
  | finite {b r : Nat} {pos : 0 < r} (split : m = b * 0x10000000000000 + r) (normal : b = 0 ∨ 2 ^ 52 ≤ r)
      (size : r < 2 ^ 53) (bound : m < infinity) : Unpacks s m (.finite s r (b - 1074) pos)
  | infinity (large : m = infinity) : Unpacks s m (.infinity s)

theorem unpacks (bound : magnitude x ≤ infinity) : Unpacks (sign x) (magnitude x) x.toModel.unpack := by
  by_cases zero : magnitude x = 0
  · rw [unpack_of_zero zero]
    exact .zero zero
  · rcases bound.lt_or_eq with finite | large
    · obtain ⟨b, r, split, normal, size, -⟩ := exists_significand (magnitude x)
      obtain ⟨pos, unpacked⟩ := unpack_of_finite zero finite split normal size
      rw [unpacked]
      exact .finite split normal size finite
    · rw [unpack_of_infinity large]
      exact .infinity large

namespace Unpacks

variable {s s' : UnpackedFloat.Sign} {m m' : Nat} {u u' : UnpackedFloat}

private theorem abs (unpacks : Unpacks s m u) : Unpacks .positive m u.abs := by
  cases unpacks with
  | zero none => exact .zero none
  | finite split normal size bound => exact .finite split normal size bound
  | infinity large => exact .infinity large

private theorem neg (unpacks : Unpacks .positive m u) : Unpacks .negative m u.neg := by
  cases unpacks with
  | zero none => exact .zero none
  | finite split normal size bound => exact .finite split normal size bound
  | infinity large => exact .infinity large

private theorem unique (unpacks : Unpacks s m u) (unpacks' : Unpacks s m u') : u = u' := by
  cases unpacks with
  | zero none =>
    cases unpacks' with
    | zero => rfl
    | @finite b r pos split => omega
    | infinity large => cases none.symm.trans large
  | @finite b r pos split normal size bound =>
    cases unpacks' with
    | zero none => omega
    | @finite b' r' pos' split' normal' size' =>
      obtain rfl : b = b' := by omega
      obtain rfl : r = r' := by omega
      rfl
    | infinity large => omega
  | infinity large =>
    cases unpacks' with
    | zero none => cases none.symm.trans large
    | finite split normal size bound => omega
    | infinity => rfl

/-- The bits that a value is put together from again. -/
private theorem toNat_pack (unpacks : Unpacks s m u) :
    (UnpackedFloat.pack .binary64 u).toNat = s.toBitVec.toNat * 0x8000000000000000 + m := by
  cases unpacks with
  | zero none => exact (toNat_packComponents s 0 0).trans (by rw [none]; rfl)
  | @finite b r pos split normal size bound =>
    unfold Binary64.infinity at bound
    have width : Format.binary64.mantissaBits = 53 := rfl
    have biased : ((b : Int) - 1074 + Format.binary64.exponentBias + Format.binary64.mantissaBitsWithoutImplicit).toNat =
        b + 1 := by
      change ((b : Int) - 1074 + (1023 : Nat) + (52 : Nat)).toNat = b + 1
      omega
    have fits : ¬ 2 ^ Format.binary64.exponentBits ≤ b + 1 + 1 := by
      change ¬ 2 ^ 11 ≤ b + 1 + 1
      omega
    rw [UnpackedFloat.pack.eq_def]
    dsimp only
    rw [biased, if_neg fits, width]
    by_cases large : 2 ^ 52 ≤ r
    · have log : r.log2 = 52 := (Nat.log2_eq_iff pos.ne').mpr ⟨large, size⟩
      rw [if_pos (by omega)]
      refine (toNat_packComponents _ _ _).trans ?_
      rw [BitVec.toNat_ofNat, BitVec.toNat_ofNat]
      omega
    · have log : r.log2 < 52 := (Nat.log2_lt pos.ne').mpr (Nat.lt_of_not_le large)
      rw [if_neg (by omega)]
      refine (toNat_packComponents _ _ _).trans ?_
      rw [BitVec.toNat_ofNat, BitVec.toNat_ofNat]
      omega
  | infinity large => exact (toNat_packComponents s (-1) 0).trans (by rw [large]; rfl)

private theorem le (unpacks : Unpacks .positive m u) (unpacks' : Unpacks .positive m' u') (le : m ≤ m') : u.le u' := by
  cases unpacks with
  | zero => cases unpacks' <;> rfl
  | @finite b r pos split normal size bound =>
    cases unpacks' with
    | zero none => omega
    | @finite b' r' pos' split' normal' size' =>
      -- the significands decide between values of one binade
      have ordered : b < b' ∨ b = b' ∧ r ≤ r' := by omega
      refine Ordering.isLE_then_iff_or.mpr (ordered.imp (fun lt => ?_) fun ⟨same, le⟩ => ⟨?_, ?_⟩)
      · exact compare_lt_iff_lt.mpr (by omega)
      · exact compare_eq_iff_eq.mpr (by omega)
      · exact Nat.isLE_compare.mpr le
    | infinity => rfl
  | infinity large =>
    cases unpacks' with
    | zero none =>
      unfold Binary64.infinity at large
      omega
    | finite split normal size bound => omega
    | infinity => rfl

private theorem lt_zero_iff (unpacks : Unpacks s m u) : u.lt (.zero .positive) ↔ s = .negative ∧ m ≠ 0 := by
  cases unpacks with
  | zero none => exact iff_of_false Bool.false_ne_true fun both => both.2 none
  | @finite b r pos split =>
    rw [and_iff_left (by omega)]
    cases s with
    | positive => exact iff_of_false Bool.false_ne_true nofun
    | negative => exact iff_of_true rfl rfl
  | infinity large =>
    rw [and_iff_left (large ▸ by decide)]
    cases s with
    | positive => exact iff_of_false Bool.false_ne_true nofun
    | negative => exact iff_of_true rfl rfl

private theorem beq_iff (unpacks : Unpacks s m u) (unpacks' : Unpacks s' m' u') :
    u.beq u' ↔ m = m' ∧ (m ≠ 0 → s = s') := by
  have apart (known : u.beq u' = false) (other : m ≠ m') : u.beq u' ↔ m = m' ∧ (m ≠ 0 → s = s') :=
    iff_of_false (Bool.eq_false_iff.mp known) fun both => other both.1
  cases unpacks with
  | zero none =>
    cases unpacks' with
    | zero none' => exact iff_of_true rfl ⟨none.trans none'.symm, fun nonzero => absurd none nonzero⟩
    | @finite b' r' pos' split' => exact apart (by cases s' <;> rfl) (by omega)
    | infinity large' => exact apart (by cases s' <;> rfl) (none.trans_ne (large' ▸ by decide))
  | @finite b r pos split normal size bound =>
    have nonzero : m ≠ 0 := by omega
    cases unpacks' with
    | zero none' => exact apart (by cases s <;> rfl) (none' ▸ nonzero)
    | @finite b' r' pos' split' normal' size' =>
      have same : m = m' ↔ compare ((b : Int) - 1074) (b' - 1074) = .eq ∧ compare r r' = .eq := by
        rw [compare_eq_iff_eq, compare_eq_iff_eq]
        omega
      cases s with
      | positive =>
        cases s' with
        | positive =>
          change some _ == some Ordering.eq ↔ _
          rw [beq_iff_eq, Option.some_inj, Ordering.then_eq_eq, same, and_iff_left fun _ => rfl]
        | negative => exact iff_of_false Bool.false_ne_true fun both => nomatch both.2 nonzero
      | negative =>
        cases s' with
        | negative =>
          change some _ == some Ordering.eq ↔ _
          rw [beq_iff_eq, Option.some_inj, Ordering.swap_eq_eq, Ordering.then_eq_eq, same, and_iff_left fun _ => rfl]
        | positive => exact iff_of_false Bool.false_ne_true fun both => nomatch both.2 nonzero
    | infinity large' => exact apart (by cases s' <;> rfl) (by omega)
  | infinity large =>
    have nonzero : m ≠ 0 := large ▸ by decide
    cases unpacks' with
    | zero none' => exact apart (by cases s <;> rfl) (none' ▸ nonzero)
    | finite split' normal' size' bound' => exact apart (by cases s <;> rfl) (by omega)
    | infinity large' =>
      rw [and_iff_right (large.trans large'.symm), imp_iff_right nonzero]
      cases s <;> cases s' <;> first | exact iff_of_true rfl rfl | exact iff_of_false nofun nofun

theorem eq_zero_iff (unpacks : Unpacks s m u) : u = .zero s ↔ m = 0 := by
  constructor
  · rintro rfl
    cases unpacks
    assumption
  · exact fun none => unpacks.unique (.zero none)

end Unpacks

theorem sign_of_unsigned (positive : isNegative x = false) : sign x = .positive := by
  rw [sign, positive]
  rfl

theorem le_of_magnitude_le (positive : isNegative x = false) (positive' : isNegative y = false)
    (le : magnitude x ≤ magnitude y) (bound : magnitude y ≤ infinity) : x ≤ y := by
  have unpacked := unpacks (le.trans bound)
  have unpacked' := unpacks bound
  rw [sign_of_unsigned positive] at unpacked
  rw [sign_of_unsigned positive'] at unpacked'
  exact decide_eq_true (unpacked.le unpacked' le)

theorem eq_of_magnitude_eq (bound : magnitude x ≤ infinity) (same : magnitude x = magnitude y)
    (signs : isNegative x = isNegative y) : x = y := by
  rw [← ofMagnitude_magnitude x bound, ← ofMagnitude_magnitude y (same ▸ bound)]
  congr 1

private theorem eq_ofMagnitude {negative : Bool} {m : Nat} {u : UnpackedFloat} (bound : m ≤ infinity)
    (unpacked : Unpacks (if negative then .negative else .positive) m u)
    (packed : x.toBits.toBitVec = UnpackedFloat.pack .binary64 u) : x = ofMagnitude negative m bound := by
  apply toBits_injective
  apply UInt64.toNat_inj.mp
  rw [toNat_ofMagnitude, bits, ← UInt64.toNat_toBitVec, packed, unpacked.toNat_pack, add_comm]
  cases negative <;> rfl

theorem abs_eq (bound : magnitude x ≤ infinity) : x.abs = ofMagnitude false (magnitude x) bound :=
  eq_ofMagnitude bound (unpacks bound).abs rfl

theorem neg_ofMagnitude (m : Nat) (bound : m ≤ infinity) : -ofMagnitude false m bound = ofMagnitude true m bound := by
  have same := magnitude_ofMagnitude false m bound
  have unpacked := unpacks (same.le.trans bound)
  rw [same, sign_of_unsigned (isNegative_ofMagnitude false m bound)] at unpacked
  exact eq_ofMagnitude bound unpacked.neg rfl

theorem lt_zero_iff (bound : magnitude x ≤ infinity) : x < 0 ↔ isNegative x ∧ magnitude x ≠ 0 := by
  have naught : (0 : Float).toModel.unpack = .zero .positive := by
    rw [unpack_of_zero (by decide +kernel), sign_of_unsigned (by decide +kernel)]
  have compared : x < 0 ↔ x.toModel.unpack.lt (.zero .positive) := by
    rw [← naught]
    exact decide_eq_true_iff
  rw [compared, (unpacks bound).lt_zero_iff, sign]
  cases isNegative x <;> simp

theorem magnitude_le_of_number (number : x.isNaN = false) : magnitude x ≤ infinity := by
  by_contra large
  have size : magnitude x < 0x8000000000000000 := Nat.mod_lt _ (by decide)
  unfold infinity at large
  have exponent := (unpackExponent_ones (x := x)).mpr (by omega)
  have mantissa : ¬ magnitude x % 0x10000000000000 = 0 := by omega
  have unpacked : x.toModel.unpack = .notANumber := by
    rw [unpack_eq]
    delta UnpackedFloat.unpack
    rw [if_pos exponent, if_neg (mantissa ∘ unpackMantissa_iff.mp)]
  have other : x.isNaN = true := by
    change x.toModel.unpack.isNaN = true
    rw [unpacked]
    rfl
  rw [number] at other
  cases other

theorem beq_iff (bound : magnitude x ≤ infinity) (bound' : magnitude y ≤ infinity) :
    x == y ↔ magnitude x = magnitude y ∧ (magnitude x ≠ 0 → isNegative x = isNegative y) := by
  have signs : sign x = sign y ↔ isNegative x = isNegative y := by
    rw [sign, sign]
    cases isNegative x <;> cases isNegative y <;> simp
  rw [← signs]
  exact (unpacks bound).beq_iff (unpacks bound')

theorem magnitude_of_infinity {s : UnpackedFloat.Sign} (unpacked : x.toModel.unpack = .infinity s) :
    magnitude x = infinity := by
  have number : x.isNaN = false := by
    change x.toModel.unpack.isNaN = false
    rw [unpacked]
    rfl
  have known := unpacks (magnitude_le_of_number number)
  rw [unpacked] at known
  cases known
  assumption

end Abacus.Binary64
