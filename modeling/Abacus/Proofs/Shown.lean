import Abacus.Proofs.Printed

/-! What the display shows, given to a calculator again. A result that is shown by its digits alone is a numeral,
which is read as the result, but for the sign of a zero. Every other display begins with a character that no
expression begins with. -/
namespace Abacus

namespace Binary64

/-- The value is shown without a sign or a word: it is finite, and not negative unless it is a zero. -/
structure ByDigits (x : Float) : Prop where
  finite : isFinite x
  positive (negative : isNegative x) : magnitude x = 0

/-- The value, with 0 in place of -0. -/
def unsignedZero (x : Float) : Float :=
  if magnitude x = 0 then ofMagnitude false 0 (Nat.zero_le _) else x

private theorem ByDigits.unsignedZero {x : Float} (shown : ByDigits x) :
    isFinite (unsignedZero x) ∧ isNegative (Binary64.unsignedZero x) = false := by
  unfold Binary64.unsignedZero
  split
  · rw [isFinite, magnitude_ofMagnitude, isNegative_ofMagnitude]
    exact ⟨by decide, rfl⟩
  · rename_i nonzero
    exact ⟨shown.finite, Bool.eq_false_iff.mpr fun negative => nonzero (shown.positive negative)⟩

end Binary64

open Binary64 Grammar

/-- A character that no expression begins with. -/
structure NeverFirst (c : Char) : Prop where
  visible : Text.isBlank c = false
  digit : Token.ofChar c ≠ .number
  opening : Token.ofChar c ≠ .leftParenthesis

private theorem neverFirst_sign {c : Char} (sign : c = '-' ∨ c = 'I' ∨ c = 'N') : NeverFirst c := by
  rcases sign with rfl | rfl | rfl <;> exact ⟨by decide, by decide, by decide⟩

private theorem NeverFirst.not_digit {c : Char} (never : NeverFirst c) : ¬ c.isDigit := by
  intro digit
  refine never.digit (Token.ofChar_of_part ?_)
  rw [isNumeralPart, digit, Bool.true_or]

private theorem Decimal.head_plain (d : Decimal) : ∃ c ∈ d.plain.head?, c.isDigit := by
  let n := d.numerator / d.denominator
  obtain ⟨c, rest, whole⟩ := List.exists_cons_of_ne_nil (@Nat.toDigits_ne_nil n 10)
  have member : c ∈ digits n := by
    rw [digits, whole]
    exact List.mem_cons_self
  refine ⟨c, ?_, isDigit_of_mem_digits member⟩
  rw [plain_eq, digits, whole]
  rfl

namespace ValueNotation

theorem write_display_of_zero {x : Float} (zero : magnitude x = 0) : display.write x = "0" := by
  rw [write, if_pos zero]
  exact ite_self _

private theorem write_unsignedZero (x : Float) : display.write (unsignedZero x) = display.write x := by
  unfold unsignedZero
  split
  · rename_i zero
    rw [write_display_of_zero zero, write_display_of_zero (magnitude_ofMagnitude _ _ _)]
  · rfl

private theorem spells_display {x : Float} (shown : ByDigits x) :
    Numeral.Spells (display.write x).toList (unsignedZero x) := by
  obtain ⟨finite, positive⟩ := shown.unsignedZero
  have spelt : Numeral.Spells (display.write (unsignedZero x)).toList _ := spells_write positive finite
  rwa [write_unsignedZero] at spelt

private theorem head_of_finite {x : Float} (nonzero : magnitude x ≠ 0) (finite : magnitude x < Binary64.infinity) :
    ∃ c ∈ (display.write x).toList.head?, if isNegative x then c = '-' else c.isDigit := by
  rw [write, if_neg nonzero, if_pos finite]
  cases isNegative x with
  | false =>
    obtain ⟨c, first, digit⟩ := Decimal.head_plain (Decimal.shortest (magnitude x))
    exact ⟨c, by simpa using first, digit⟩
  | true => exact ⟨'-', by simp, rfl⟩

private theorem head_of_not_finite {x : Float} (large : ¬ magnitude x < Binary64.infinity) :
    ∃ c ∈ (display.write x).toList.head?, c = '-' ∨ c = 'I' ∨ c = 'N' := by
  have nonzero : magnitude x ≠ 0 := fun zero => large (zero ▸ by decide)
  rw [write, if_neg nonzero, if_neg large]
  split
  · cases isNegative x with
    | false => exact ⟨'I', rfl, .inr (.inl rfl)⟩
    | true => exact ⟨'-', rfl, .inl rfl⟩
  · exact ⟨'N', rfl, .inr (.inr rfl)⟩

/-- The first character tells whether a value is shown by its digits. -/
private theorem head_display (x : Float) :
    ByDigits x ∧ (∃ c ∈ (display.write x).toList.head?, c.isDigit) ∨
      ¬ ByDigits x ∧ ∃ c ∈ (display.write x).toList.head?, c = '-' ∨ c = 'I' ∨ c = 'N' := by
  by_cases zero : magnitude x = 0
  · have finite : isFinite x := decide_eq_true (zero ▸ by decide)
    refine .inl ⟨⟨finite, fun _ => zero⟩, '0', ?_, rfl⟩
    rw [write_display_of_zero zero]
    rfl
  · by_cases finite : magnitude x < Binary64.infinity
    · obtain ⟨c, first, known⟩ := head_of_finite zero finite
      split at known
      · rename_i negative
        exact .inr ⟨fun shown => zero (shown.positive negative), c, first, .inl known⟩
      · rename_i positive
        exact .inl ⟨⟨decide_eq_true finite, fun negative => absurd negative positive⟩, c, first, known⟩
    · exact .inr ⟨fun shown => finite (of_decide_eq_true shown.finite), head_of_not_finite finite⟩

theorem write_display_ne_errorText (x : Float) : display.write x ≠ errorText := by
  intro same
  have first : (display.write x).toList.head? = some 'E' := by
    rw [same]
    rfl
  rcases head_display x with ⟨-, c, head, digit⟩ | ⟨-, c, head, sign⟩
  · cases first.symm.trans head
    exact absurd digit (by decide)
  · cases first.symm.trans head
    exact absurd sign (by decide)

end ValueNotation

namespace Calculator

variable {calculator : Calculator} {text : String}

theorem evaluate_of_ok {e : Expr} (ok : (calculator.parse text).result = .ok e) :
    (calculator.evaluate text).result = .ok e.evaluate := by
  rw [evaluate, ok]

theorem evaluate_of_error {fault : ParseError} (failed : (calculator.parse text).result = .error fault) :
    (calculator.evaluate text).result = .error fault := by
  rw [evaluate, failed]

theorem display_of_ok {x : Float} (ok : (calculator.evaluate text).result = .ok x) :
    (calculator.display text).result = ValueNotation.display.write x := by
  rw [display, ok]

theorem display_of_error {fault : ParseError} (failed : (calculator.evaluate text).result = .error fault) :
    (calculator.display text).result = errorText := by
  rw [display, failed]

private theorem parse_of_spells {x : Float} (spelt : Numeral.Spells text.toList x) :
    calculator.parse text = ⟨.ok (.literal x), []⟩ := by
  have number := Operand.number spelt.parts spelt.digit spelt.points
  rw [spelt.value] at number
  have derived : Derives calculator.maxDepth text.toList (.literal x) :=
    ⟨0, Nat.zero_le _, .lone (.term (.lone number))⟩
  rw [← parse_ofList_of_derives derived, String.ofList_toList]

private theorem parse_of_neverFirst {c : Char} (first : c ∈ text.toList.head?) (never : NeverFirst c) :
    ∃ fault, (calculator.parse text).result = .error fault := by
  by_cases valid : Valid text
  · obtain ⟨rest, whole⟩ : ∃ rest, text.toList = c :: rest := ⟨_, (List.cons_head?_tail first).symm⟩
    have spelt : (Cursor.ofText text).chars = c :: nonBlank rest := by
      rw [Cursor.chars_ofText, dense, whole, nonBlank_cons never.visible]
    obtain ⟨-, digit, opening⟩ := never
    rw [← Cursor.token_of_cons spelt] at digit opening
    by_cases foreign : ∃ d, (Cursor.ofText text).token = .foreign d
    · obtain ⟨d, unknown⟩ := foreign
      rw [parse_of_run valid (.refl _) (.foreign rfl unknown)]
      exact ⟨_, rfl⟩
    · rw [parse_of_run valid (.refl _) (.missing rfl opening digit (not_exists.mp foreign))]
      exact ⟨_, rfl⟩
  · obtain ⟨fault, refused⟩ := exists_refused valid
    exact ⟨fault, by rw [parse_of_refused refused]⟩

private theorem display_of_neverFirst {c : Char} (first : c ∈ text.toList.head?) (never : NeverFirst c) :
    (calculator.display text).result = errorText := by
  obtain ⟨fault, failed⟩ := calculator.parse_of_neverFirst first never
  exact display_of_error (evaluate_of_error failed)

end Calculator

/-- What is shown is a numeral, or begins with a character that no expression begins with. -/
private theorem Calculator.display_cases (calculator : Calculator) (text : String) :
    (∃ x, (calculator.evaluate text).result = .ok x ∧ ByDigits x ∧
      (calculator.display text).result = ValueNotation.display.write x ∧
      ∃ c ∈ (calculator.display text).result.toList.head?, c.isDigit) ∨
    (¬ ∃ x, (calculator.evaluate text).result = .ok x ∧ ByDigits x) ∧
      ∃ c ∈ (calculator.display text).result.toList.head?, NeverFirst c := by
  cases outcome : (calculator.evaluate text).result with
  | ok x =>
    rw [display_of_ok outcome]
    rcases ValueNotation.head_display x with ⟨byDigits, digit⟩ | ⟨other, c, first, sign⟩
    · exact .inl ⟨x, rfl, byDigits, rfl, digit⟩
    · refine .inr ⟨?_, c, first, neverFirst_sign sign⟩
      rintro ⟨y, ⟨⟩, byDigits⟩
      exact other byDigits
  | error fault =>
    rw [display_of_error outcome]
    refine .inr ⟨?_, 'E', rfl, by decide, by decide, by decide⟩
    rintro ⟨y, ⟨⟩, -⟩

/-- What one calculator shows is shown by every other one that is given it as an expression, and its value is that
of the result, where it begins with a digit: that is, for finite results that are not negative. All else that a
calculator can show is an error to every other one. -/
theorem display_again (first second : Calculator) (text : String) :
    let shown := (first.display text).result
    ((∃ c ∈ shown.toList.head?, c.isDigit) → (second.display shown).result = shown ∧
      ∃ x, (first.evaluate text).result = .ok x ∧ (second.evaluate shown).result = .ok (unsignedZero x)) ∧
    ((¬ ∃ c ∈ shown.toList.head?, c.isDigit) → (second.display shown).result = errorText) ∧
    ((∃ c ∈ shown.toList.head?, c.isDigit) ↔ ∃ x, (first.evaluate text).result = .ok x ∧ ByDigits x) := by
  intro shown
  rcases first.display_cases text with ⟨x, value, byDigits, written, digit⟩ | ⟨other, c, head, never⟩
  · have parsed : second.parse shown = _ := second.parse_of_spells (written ▸ ValueNotation.spells_display byDigits)
    have again := second.evaluate_of_ok (congrArg Logged.result parsed)
    refine ⟨fun _ => ⟨?_, x, value, again⟩, fun none => absurd digit none, fun _ => ⟨x, value, byDigits⟩,
      fun _ => digit⟩
    rw [second.display_of_ok again]
    exact (ValueNotation.write_unsignedZero x).trans written.symm
  · have none : ¬ ∃ d ∈ shown.toList.head?, d.isDigit := by
      rintro ⟨d, head', digit⟩
      cases Option.some.inj (head.symm.trans head')
      exact never.not_digit digit
    have refused := second.display_of_neverFirst head never
    exact ⟨fun digit => absurd digit none, fun _ => refused, fun digit => absurd digit none,
      fun known => absurd known other⟩

end Abacus
