import Abacus.Proofs.Digits
import Abacus.Proofs.Shown

/-! The texts of values. A finite value is shown in plain notation: a minus if it is less than zero, its whole part and,
unless it is a whole number, a point and its fraction. No part has a zero that could be left out, and no numeral with
fewer significant digits is read as the value. -/
namespace Abacus

open Binary64 Numeral

namespace Decimal

private theorem places_eq_nil_iff (d : Decimal) : d.places = [] ↔ d.numerator % d.denominator = 0 := by
  constructor
  · intro none
    have value : ofDigits d.places * d.denominator = d.numerator % d.denominator * 10 ^ d.places.length :=
      ofDigits_fraction (Nat.mod_lt _ d.denominator_pos)
    rw [none, List.length_nil, Nat.pow_zero, Nat.mul_one] at value
    exact value.symm.trans (Nat.zero_mul _)
  · intro exact
    rw [places, exact, fraction_eq, List.rdropWhile_eq_nil_iff, padded, digits, Nat.toDigits_zero]
    intro c member
    rcases List.mem_append.mp member with zero | zero
    · exact beq_iff_eq.mpr (List.eq_of_mem_replicate zero)
    · exact beq_iff_eq.mpr (List.mem_singleton.mp zero)

private theorem last_places (d : Decimal) : ∀ c ∈ d.places.getLast?, c ≠ '0' := by
  intro c last
  rw [places, fraction_eq] at last
  obtain ⟨nonempty, rfl⟩ := List.mem_getLast?_eq_getLast last
  simpa using List.rdropWhile_last_not _ _ nonempty

namespace Highest

variable {m n p : Nat}

private theorem places_eq_nil_iff (highest : Highest m n p) : (shortest m).places = [] ↔ 1074 ≤ p := by
  rw [highest.shortest_eq, Decimal.places_eq_nil_iff]
  rcases Nat.lt_or_ge p 1074 with less | more
  · obtain ⟨k, exponent⟩ : ∃ k : Nat, (p : Int) - 1074 = -(k + 1 : Nat) := ⟨1074 - p - 1, by omega⟩
    rw [exponent, numerator_neg, denominator_neg]
    refine iff_of_false (fun exact => highest.mod_ten ?_) (by omega)
    have ten : 10 ∣ 10 ^ (k + 1) := Dvd.intro_left _ (Nat.pow_succ 10 k).symm
    exact Nat.mod_eq_zero_of_dvd (ten.trans (Nat.dvd_of_mod_eq_zero exact))
  · obtain ⟨k, exponent⟩ : ∃ k : Nat, (p : Int) - 1074 = k := ⟨p - 1074, by omega⟩
    have one : (Decimal.mk n k).denominator = 1 := by
      rw [denominator, Int.toNat_neg_natCast]
    rw [exponent, one, Nat.mod_one]
    exact iff_of_true rfl more

private theorem significant_plain (highest : Highest m n p) : significant (shortest m).plain = digits n := by
  have same := plain_congr (shortest m)
  rw [decimal, numerator_neg, denominator_neg, denominator, numerator, highest.shortest_eq, Nat.mul_assoc] at same
  rw [highest.shortest_eq]
  rw [Nat.pow_eq, Nat.pow_eq, ← Nat.pow_add] at same
  exact significant_eq same highest.mod_ten

end Highest

end Decimal

/-- What the text of a finite value is, its sign apart. -/
structure Rendered (x : Float) (whole fraction : List Char) : Prop where
  digits : ∀ c ∈ whole ++ fraction, c.isDigit
  leading : whole = ['0'] ∨ ∃ c ∈ whole.head?, c ≠ '0'
  last : ∀ c ∈ fraction.getLast?, c ≠ '0'
  integral : fraction = [] ↔ ∃ n : Int, value x = n
  read : Numeral.toFloat? (whole ++ Decimal.pointed fraction) = some x.abs
  fewest : ∀ run, Numeral.toFloat? run = some x.abs →
    (significant (whole ++ Decimal.pointed fraction)).length ≤ (significant run).length

private theorem magnitude_abs {x : Float} (bound : magnitude x ≤ infinity) : magnitude x.abs = magnitude x := by
  rw [abs_eq bound, magnitude_ofMagnitude]

private theorem toFloat?_of_spells {run : List Char} {x : Float} (spelt : Spells run x) :
    Numeral.toFloat? run = some x := by
  rw [Numeral.toFloat?, if_pos (wellFormed_iff.mpr ⟨spelt.digit, spelt.points⟩), spelt.value]

private theorem toFloat?_plain {d : Decimal} {x : Float} (same : d.magnitude = magnitude x) :
    Numeral.toFloat? d.plain = some x.abs := by
  have bound : magnitude x ≤ infinity := by
    rw [← same]
    exact d.nearest_magnitude.le_infinity
  have value : ∀ bound : d.magnitude ≤ infinity, ofMagnitude false d.magnitude bound = x.abs := by
    rw [same]
    exact fun _ => (abs_eq bound).symm
  exact (toFloat?_of_spells (spells_plain d)).trans (congrArg some (value d.nearest_magnitude.le_infinity))

/-- What is read as a value is so by its significant digits, on some place. -/
private theorem exists_significant_place {run : List Char} {y : Float} (read : Numeral.toFloat? run = some y) :
    ∃ e, (Decimal.mk (ofDigits (significant run)) e).magnitude = magnitude y := by
  rw [Numeral.toFloat?] at read
  split at read
  · obtain ⟨zeros, value⟩ := (significant_spec run).value
    cases read
    refine ⟨zeros + (decimal run).exponent, ?_⟩
    rw [Decimal.magnitude_toFloat]
    have near := (decimal run).nearest_magnitude
    have same : (decimal run).value = (Decimal.mk (ofDigits (significant run)) (zeros + (decimal run).exponent)).value := by
      rw [Decimal.value, Decimal.value, zpow_add₀ (by decide), zpow_natCast, ← mul_assoc]
      congr 1
      exact_mod_cast value
    exact (Decimal.nearest_magnitude _).unique (same ▸ near)
  · cases read

private theorem rendered_zero {x : Float} (zero : magnitude x = 0) : Rendered x ['0'] [] := by
  have naught : (Decimal.mk 0 0).magnitude = 0 := Decimal.magnitude_zero 0
  have text : (Decimal.mk 0 0).plain = ['0'] := by decide
  have finite : isFinite x := decide_eq_true (zero ▸ by decide)
  have none : (significant ['0']).length = 0 := rfl
  refine ⟨List.forall_mem_singleton.mpr rfl, .inl rfl, (fun _ last => nomatch last), iff_of_true rfl ?_, ?_, ?_⟩
  · rw [integral_iff finite, zero, units_of_subnormal (by decide)]
    exact dvd_zero _
  · rw [Decimal.pointed, List.append_nil, ← text]
    exact toFloat?_plain (naught.trans zero.symm)
  · intro run _
    rw [Decimal.pointed, List.append_nil, none]
    exact Nat.zero_le _

private theorem rendered_of_nonzero {x : Float} (nonzero : magnitude x ≠ 0) (finite : isFinite x) :
    let d := Decimal.shortest (magnitude x)
    Rendered x (Decimal.digits (d.numerator / d.denominator)) d.places := by
  intro d
  have bound := of_decide_eq_true finite
  obtain ⟨n, p, highest⟩ := Decimal.exists_highest nonzero bound
  have plain : Decimal.digits (d.numerator / d.denominator) ++ Decimal.pointed d.places = d.plain := d.plain_eq.symm
  refine ⟨?_, ?_, d.last_places, ?_, ?_, ?_⟩
  · intro c member
    rcases List.mem_append.mp member with before | behind
    · exact Decimal.isDigit_of_mem_digits before
    · exact Decimal.isDigit_of_mem_places behind
  · rcases Nat.eq_zero_or_pos (d.numerator / d.denominator) with zero | pos
    · exact .inl (by rw [zero, Decimal.digits, Nat.toDigits_zero])
    · obtain ⟨c, rest, shown⟩ := List.exists_cons_of_ne_nil (@Nat.toDigits_ne_nil (d.numerator / d.denominator) 10)
      have first : c ∈ (Decimal.digits (d.numerator / d.denominator)).head? := by
        rw [Decimal.digits, shown]
        rfl
      exact .inr ⟨c, first, head_digits pos c first⟩
  · rw [highest.places_eq_nil_iff, highest.places_iff bound, integral_iff finite]
  · rw [plain]
    exact toFloat?_plain (Decimal.magnitude_shortest bound)
  · intro run read
    obtain ⟨e, same⟩ := exists_significant_place read
    rw [magnitude_abs bound.le] at same
    rw [plain, highest.significant_plain]
    exact highest.length_le nonzero same (ofDigits_lt (significant_spec run).digits)

/-- The sign in front of a text. -/
def minus (x : Float) : List Char := if x < 0 then ['-'] else []

private theorem minus_eq {x : Float} (nonzero : magnitude x ≠ 0) (bound : magnitude x ≤ infinity) :
    minus x = (if isNegative x then "-" else "").toList := by
  rw [minus]
  cases negative : isNegative x with
  | false => exact if_neg fun below => absurd ((lt_zero_iff bound).mp below).1 (by simp [negative])
  | true => exact if_pos ((lt_zero_iff bound).mpr ⟨negative, nonzero⟩)

open ValueNotation

private theorem exists_rendered {x : Float} (finite : isFinite x) : ∃ whole fraction, Rendered x whole fraction ∧
    (display.write x).toList = minus x ++ (whole ++ Decimal.pointed fraction) := by
  have bound := of_decide_eq_true finite
  by_cases zero : magnitude x = 0
  · refine ⟨_, _, rendered_zero zero, ?_⟩
    rw [write_display_of_zero zero, minus, if_neg fun below => ((lt_zero_iff bound.le).mp below).2 zero]
    rfl
  · refine ⟨_, _, rendered_of_nonzero zero finite, ?_⟩
    rw [minus_eq zero bound.le, ← Decimal.plain_eq, write, if_neg zero, if_pos bound, String.toList_append,
      String.toList_ofList]

/-- What is shown behind the sign: digits that are read as the value, or the word for an infinity. -/
structure Unsigned (x : Float) (body : List Char) : Prop where
  first : ∃ c ∈ body.head?, c ≠ '-'
  finite : isFinite x → Numeral.toFloat? body = some x.abs
  infinite : ¬ isFinite x → body = "Infinity".toList

private theorem exists_unsigned {x : Float} (number : x.isNaN = false) :
    ∃ body, Unsigned x body ∧ (display.write x).toList = minus x ++ body := by
  have bound := magnitude_le_of_number number
  by_cases finite : isFinite x
  · obtain ⟨whole, fraction, rendered, text⟩ := exists_rendered finite
    refine ⟨_, ⟨?_, fun _ => rendered.read, fun infinite => absurd finite infinite⟩, text⟩
    have digits := rendered.digits
    have nonempty : whole ≠ [] := by
      rintro rfl
      rcases rendered.leading with zero | ⟨c, first, -⟩
      · cases zero
      · cases first
    obtain ⟨c, rest, rfl⟩ := List.exists_cons_of_ne_nil nonempty
    refine ⟨c, rfl, ?_⟩
    rintro rfl
    exact absurd (digits '-' List.mem_cons_self) (by decide)
  · have infinite : magnitude x = Binary64.infinity := by
      rw [isFinite, decide_eq_true_iff] at finite
      omega
    have nonzero : magnitude x ≠ 0 := infinite ▸ by decide
    refine ⟨_, ⟨⟨'I', rfl, by decide⟩, fun finite' => absurd finite' finite, fun _ => rfl⟩, ?_⟩
    rw [minus_eq nonzero bound, write, if_neg nonzero, if_neg (by omega), if_pos infinite, String.toList_append]
    rfl

private theorem eq_of_minus_append {x y : Float} {body body' : List Char} (first : ∃ c ∈ body.head?, c ≠ '-')
    (first' : ∃ c ∈ body'.head?, c ≠ '-') (same : minus x ++ body = minus y ++ body') :
    (x < 0 ↔ y < 0) ∧ body = body' := by
  obtain ⟨c, head, visible⟩ := first
  obtain ⟨c', head', visible'⟩ := first'
  unfold minus at same
  split at same <;> split at same
  · exact ⟨iff_of_true ‹_› ‹_›, List.append_cancel_left same⟩
  · rw [List.nil_append] at same
    rw [← same] at head'
    exact absurd (Option.some.inj head').symm visible'
  · rw [List.nil_append] at same
    rw [same] at head
    exact absurd (Option.some.inj head).symm visible
  · exact ⟨iff_of_false ‹_› ‹_›, same⟩

private theorem Unsigned.magnitude_eq {x y : Float} {body : List Char} (unsigned : Unsigned x body)
    (unsigned' : Unsigned y body) (bound : magnitude x ≤ Binary64.infinity) (bound' : magnitude y ≤ Binary64.infinity) :
    magnitude x = magnitude y := by
  have word : Numeral.toFloat? "Infinity".toList = none := rfl
  by_cases finite : isFinite x <;> by_cases finite' : isFinite y
  · have same := Option.some.inj ((unsigned.finite finite).symm.trans (unsigned'.finite finite'))
    rw [← magnitude_abs bound, same, magnitude_abs bound']
  · have read := unsigned.finite finite
    rw [unsigned'.infinite finite', word] at read
    cases read
  · have read := unsigned'.finite finite'
    rw [unsigned.infinite finite, word] at read
    cases read
  · rw [isFinite, decide_eq_true_iff] at finite finite'
    omega

private theorem beq_of_write_eq {x y : Float} (number : x.isNaN = false) (number' : y.isNaN = false)
    (same : display.write x = display.write y) : x == y := by
  obtain ⟨body, unsigned, text⟩ := exists_unsigned number
  obtain ⟨body', unsigned', text'⟩ := exists_unsigned number'
  rw [same, text'] at text
  obtain ⟨signs, rfl⟩ := eq_of_minus_append unsigned'.first unsigned.first text
  have bound := magnitude_le_of_number number
  have bound' := magnitude_le_of_number number'
  have magnitudes := unsigned.magnitude_eq unsigned' bound bound'
  refine (beq_iff bound bound').mpr ⟨magnitudes, fun nonzero => Bool.eq_iff_iff.mpr ?_⟩
  rw [lt_zero_iff bound, lt_zero_iff bound', ← magnitudes, and_iff_left nonzero, and_iff_left nonzero] at signs
  exact signs.symm

/-- Every finite value is shown in plain notation: a minus just if it is less than zero, a whole part and, just if it is
not a whole number, a fraction, with no zero that could be left out. Without its sign the text is read as the value's
magnitude, and no numeral with fewer significant digits is. So values are shown alike only if they are equal, and none is
shown as an error is. -/
theorem display_shortest :
    (∀ x : Float, isFinite x → ∃ whole fraction, Rendered x whole fraction ∧
      (display.write x).toList = (if x < 0 then ['-'] else []) ++ (whole ++ Decimal.pointed fraction)) ∧
    (∀ x y : Float, x.isNaN = false → y.isNaN = false → display.write x = display.write y → x == y) ∧
    ∀ x : Float, display.write x ≠ errorText :=
  ⟨fun _ => exists_rendered, fun _ _ => beq_of_write_eq, write_display_ne_errorText⟩

end Abacus
