import Abacus.Proofs.Shortest
import Mathlib.Tactic.IntervalCases

/-! Digits as texts. The digits of a number are the only ones without a zero at their beginning that denote it, and the
significant digits of a numeral are those of its number without the powers of ten in it. -/
namespace Abacus

namespace Numeral

open Decimal

private theorem exists_digitChar {c : Char} (isDigit : c.isDigit) : ∃ n < 10, c = n.digitChar ∧ digit c = n := by
  simp only [Char.isDigit, Bool.and_eq_true, decide_eq_true_eq, ge_iff_le, UInt32.le_iff_toNat_le] at isDigit
  have bounds : 48 ≤ c.toNat ∧ c.toNat ≤ 57 := isDigit
  obtain ⟨n, small, code⟩ : ∃ n < 10, c.toNat = 48 + n := ⟨c.toNat - 48, by omega, by omega⟩
  have char : c = Char.ofNat (48 + n) := by rw [← code, Char.ofNat_toNat]
  refine ⟨n, small, ?_⟩
  subst char
  interval_cases n <;> decide

private theorem digits_digit {c : Char} (isDigit : c.isDigit) : digits (digit c) = [c] := by
  obtain ⟨n, small, char, value⟩ := exists_digitChar isDigit
  rw [value, char]
  exact Nat.toDigits_of_lt_base small

private theorem digit_pos {c : Char} (isDigit : c.isDigit) (nonzero : c ≠ '0') : 0 < digit c := by
  obtain ⟨n, small, char, value⟩ := exists_digitChar isDigit
  rw [value, Nat.pos_iff_ne_zero]
  rintro rfl
  exact nonzero char

private theorem digit_lt {c : Char} (isDigit : c.isDigit) : digit c < 10 := by
  obtain ⟨n, small, -, value⟩ := exists_digitChar isDigit
  rwa [value]

private theorem ofDigits_cons (c : Char) (rest : List Char) :
    ofDigits (c :: rest) = digit c * 10 ^ rest.length + ofDigits rest := by
  rw [ofDigits, Nat.ofDigitChars_cons, Nat.ofDigitChars_eq_ofDigitChars_zero, Nat.mul_zero, Nat.zero_add, Nat.mul_comm]
  rfl

private theorem ofDigits_concat (run : List Char) (c : Char) : ofDigits (run ++ [c]) = 10 * ofDigits run + digit c := by
  rw [ofDigits, Nat.ofDigitChars_append, Nat.ofDigitChars_cons, Nat.ofDigitChars_nil]
  rfl

private theorem ofDigits_dropWhile (run : List Char) : ofDigits (run.dropWhile (· == '0')) = ofDigits run := by
  induction run with
  | nil => rfl
  | cons c rest ih =>
    by_cases zero : c = '0'
    · subst zero
      have none : digit '0' = 0 := rfl
      rw [List.dropWhile_cons_of_pos (by decide), ih, ofDigits_cons, none, Nat.zero_mul, Nat.zero_add]
    · rw [List.dropWhile_cons_of_neg (by simpa using zero)]

/-- The digits without the zeros at the beginning and at the end. -/
def significant (run : List Char) : List Char :=
  ((run.filter Char.isDigit).dropWhile (· == '0')).rdropWhile (· == '0')

section

variable {run : List Char} (all : ∀ c ∈ run, c.isDigit)

include all

theorem ofDigits_lt : ofDigits run < 10 ^ run.length := by
  induction run with
  | nil => exact Nat.one_pos
  | cons c rest ih =>
    have first := Nat.mul_le_mul_right (10 ^ rest.length) (Nat.le_of_lt_succ (digit_lt (all c List.mem_cons_self)))
    have behind := ih fun d member => all d (List.mem_cons_of_mem _ member)
    rw [ofDigits_cons, List.length_cons, Nat.pow_succ']
    omega

private theorem ofDigits_pos (leading : ∀ c ∈ run.head?, c ≠ '0') (nonempty : run ≠ []) : 0 < ofDigits run := by
  obtain ⟨c, rest, rfl⟩ := List.exists_cons_of_ne_nil nonempty
  rw [ofDigits_cons]
  have first := digit_pos (all c List.mem_cons_self) (leading c rfl)
  exact Nat.add_pos_left (Nat.mul_pos first (Nat.pow_pos (by decide))) _

private theorem digits_ofDigits (leading : ∀ c ∈ run.head?, c ≠ '0') (nonempty : run ≠ []) :
    digits (ofDigits run) = run := by
  induction run using List.reverseRecOn with
  | nil => exact absurd rfl nonempty
  | append_singleton run c ih =>
    have last : c.isDigit := all c (List.mem_append_right _ (List.mem_singleton_self c))
    have before : ∀ d ∈ run, d.isDigit := fun d member => all d (List.mem_append_left _ member)
    rw [ofDigits_concat]
    by_cases single : run = []
    · subst single
      exact (congrArg digits (Nat.zero_add _)).trans (digits_digit last)
    · have leading : ∀ d ∈ run.head?, d ≠ '0' := by
        intro d first
        refine leading d ?_
        rwa [List.head?_append_of_ne_nil _ single]
      have pos := ofDigits_pos before leading single
      rw [digits, ← Nat.toDigits_append_toDigits (by decide) pos (digit_lt last)]
      exact congrArg₂ _ (ih before leading single) (digits_digit last)

end

private theorem leading_dropWhile (run : List Char) : ∀ c ∈ (run.dropWhile (· == '0')).head?, c ≠ '0' := by
  intro c first
  have stopped := List.head?_dropWhile_not (· == '0') run
  rw [first] at stopped
  exact beq_eq_false_iff_ne.mp stopped

theorem head_digits {n : Nat} (pos : 0 < n) : ∀ c ∈ (digits n).head?, c ≠ '0' := by
  have stripped : (digits n).dropWhile (· == '0') = digits n := by
    have value : ofDigits ((digits n).dropWhile (· == '0')) = n := by rw [ofDigits_dropWhile, ofDigits_digits]
    have nonempty : (digits n).dropWhile (· == '0') ≠ [] := by
      intro empty
      rw [empty] at value
      exact absurd value (Nat.ne_of_lt pos)
    conv_rhs => rw [← value]
    refine (digits_ofDigits (fun c member => ?_) (leading_dropWhile _) nonempty).symm
    exact isDigit_of_mem_digits (List.dropWhile_subset _ member)
  rw [← stripped]
  exact leading_dropWhile _

/-- What the significant digits of a numeral are: digits that begin and end with another one than zero, and denote the
number of all its digits but for a power of ten. -/
structure Significant (run kept : List Char) : Prop where
  digits : ∀ c ∈ kept, c.isDigit
  leading : ∀ c ∈ kept.head?, c ≠ '0'
  mod_ten : kept ≠ [] → ofDigits kept % 10 ≠ 0
  value : ∃ zeros, ofDigits (run.filter Char.isDigit) = ofDigits kept * 10 ^ zeros

theorem significant_spec (run : List Char) : Significant run (significant run) := by
  have value := ofDigits_dropWhile (run.filter Char.isDigit)
  have all : ∀ c ∈ (run.filter Char.isDigit).dropWhile (· == '0'), c.isDigit := fun c member =>
    (List.mem_filter.mp (List.dropWhile_subset _ member)).2
  have leading := leading_dropWhile (run.filter Char.isDigit)
  have last := List.rdropWhile_last_not (· == '0') ((run.filter Char.isDigit).dropWhile (· == '0'))
  have split := List.rdropWhile_append_rtakeWhile (p := (· == '0')) (l := (run.filter Char.isDigit).dropWhile (· == '0'))
  have zeros := List.eq_replicate_of_mem (a := '0')
    (l := ((run.filter Char.isDigit).dropWhile (· == '0')).rtakeWhile (· == '0')) fun c member =>
      beq_iff_eq.mp (List.mem_rtakeWhile_imp (p := (· == '0')) member)
  rw [← significant] at last split
  generalize (run.filter Char.isDigit).dropWhile (· == '0') = rest at *
  rw [zeros] at split
  generalize (rest.rtakeWhile (· == '0')).length = k at split
  subst split
  generalize significant run = kept at *
  refine ⟨fun c member => all c (List.mem_append_left _ member), ?_, fun nonempty => ?_, k, ?_⟩
  · intro c first
    cases kept with
    | nil => cases first
    | cons d rest => exact leading c first
  · have shown := last nonempty
    obtain ⟨before, c, rfl⟩ : ∃ before c, kept = before ++ [c] := ⟨_, _, (List.dropLast_concat_getLast nonempty).symm⟩
    rw [List.getLast_append_singleton, beq_iff_eq] at shown
    have digit : c.isDigit := all c (List.mem_append_left _ (List.mem_append_right _ (List.mem_singleton_self c)))
    have pos := digit_pos digit shown
    have less := digit_lt digit
    rw [ofDigits_concat]
    omega
  · rw [← value, ofDigits_append, ofDigits_zeros, List.length_replicate, Nat.add_zero]

private theorem eq_of_mul_pow_ten {a b j k : Nat} (same : a * 10 ^ j = b * 10 ^ k) (last : a % 10 ≠ 0)
    (last' : b % 10 ≠ 0) : a = b := by
  have le {a b j k : Nat} (same : a * 10 ^ j = b * 10 ^ k) (last : a % 10 ≠ 0) : k ≤ j := by
    by_contra less
    obtain ⟨i, rfl⟩ : ∃ i, k = j + 1 + i := ⟨k - j - 1, by omega⟩
    have cancelled : a = 10 * (b * 10 ^ i) := by
      apply Nat.eq_of_mul_eq_mul_right (Nat.pow_pos (by decide) : 0 < 10 ^ j)
      rw [same]
      ring
    omega
  obtain rfl := Nat.le_antisymm (le same last) (le same.symm last')
  exact Nat.eq_of_mul_eq_mul_right (Nat.pow_pos (by decide)) same

/-- The significant digits are those of the number without the powers of ten in it. -/
theorem significant_eq {run : List Char} {n j k : Nat} (same : ofDigits (run.filter Char.isDigit) * 10 ^ j = n * 10 ^ k)
    (last : n % 10 ≠ 0) : significant run = digits n := by
  obtain ⟨all, leading, mod_ten, zeros, value⟩ := significant_spec run
  have nonempty : significant run ≠ [] := by
    intro empty
    have none : ofDigits (significant run) = 0 := by rw [empty]; rfl
    rw [value, none, Nat.zero_mul, Nat.zero_mul, eq_comm, Nat.mul_eq_zero] at same
    have zero : n = 0 := same.resolve_right (Nat.ne_of_gt (Nat.pow_pos (by decide)))
    exact last (by rw [zero])
  rw [value, Nat.mul_assoc, ← Nat.pow_add] at same
  rw [← eq_of_mul_pow_ten same (mod_ten nonempty) last, digits_ofDigits all leading nonempty]

end Numeral

end Abacus
