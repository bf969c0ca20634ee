import Abacus.Proofs.Calls
import Abacus.Proofs.Described
import Abacus.Proofs.Room
import Abacus.Proofs.Shown

/-! The check of a text before it is read. Whatever is done with a text begins with this check, and a text that passes
it holds nothing that a parser does not know, so that nothing of the kind is found later. -/
namespace Abacus

/-- Why a text is not read: it is empty, or a character in it is not allowed, of which the first is told. -/
inductive Invalid (text : String) : ParseError → Prop
  | empty (none : text = "") : Invalid text (.bare .empty)
  | foreign {p : Nat} {c : Char} (here : text.toList[p]? = some c) (other : isAllowed c = false)
      (first : ∀ d ∈ text.toList.take p, isAllowed d) : Invalid text ⟨[p], .invalidCharacter c⟩

private theorem isAllowed_iff (c : Char) :
    isAllowed c ↔ c.isDigit ∨ c ∈ ['.', '+', '-', '*', '/', '(', ')'] ∨ Text.isBlank c := by
  simp [isAllowed, or_assoc]

private theorem isValid_iff (text : String) : isValid text ↔ checkText text = .ok () := by
  rw [isValid]
  cases checkText text <;> simp [Except.isOk, Except.toBool]

private theorem checkText_eq_error_iff (text : String) (e : ParseError) :
    checkText text = .error e ↔ Invalid text e := by
  constructor
  · intro refused
    by_cases none : text = ""
    · subst none
      cases refused
      exact .empty rfl
    · have invalid : ¬ Valid text := by
        intro valid
        cases ((checkText_eq_ok_iff text).mpr valid).symm.trans refused
      obtain ⟨p, c, refused', here, other, first⟩ := checkText_of_invalid none invalid
      cases refused.symm.trans refused'
      exact .foreign here other first
  · intro invalid
    cases invalid with
    | empty none =>
      subst none
      rfl
    | @foreign p c here other first =>
      obtain ⟨inside, found⟩ := List.getElem?_eq_some_iff.mp here
      have parted : text.toList.take p ++ c :: text.toList.drop (p + 1) = text.toList := by
        rw [← found, List.getElem_cons_drop, List.take_append_drop]
      have refused : checkText (String.ofList (text.toList.take p ++ c :: text.toList.drop (p + 1))) =
          .error ⟨[(text.toList.take p).length], .invalidCharacter c⟩ := checkText_of_foreign first other
      rw [parted, String.ofList_toList, List.length_take, Nat.min_eq_left (Nat.le_of_lt inside)] at refused
      exact refused

private theorem Place.Halt.fault_of_known {calculator : Calculator} {room : Nat} {place : Place} {e : ParseError}
    {cursor : Cursor} {event : Option Event} (halt : place.Halt calculator room (.error e) cursor event)
    (known : ∀ c, place.cursor.token ≠ .foreign c) : e.fault ≠ .empty ∧ ∀ c, e.fault ≠ .invalidCharacter c := by
  cases halt with
  | malformed due token fault =>
    obtain ⟨rfl, -⟩ := Cursor.numeral_fault token fault
    simp
  | foreign due token => exact absurd token (known _)
  | full | missing | unclosed | trailing => simp [ParseError.bare]

namespace Parser

/-- A parser that knows all it meets: what it stands at, what its next call comes to, and what that call answers. -/
structure Clean (parser : Parser) : Prop where
  here : ∀ c, parser.cursor.token ≠ .foreign c
  within : ∀ events place, parser.Reaches events place → ∀ c, place.cursor.token ≠ .foreign c
  answer : ∀ e, parser.parse.outcome = .error e → e.fault ≠ .empty ∧ ∀ c, e.fault ≠ .invalidCharacter c

variable {calculator : Calculator} {text : String} {parser : Parser}

private theorem On.clean (on : parser.On calculator text) (valid : Valid text) : parser.Clean where
  here := on.known valid (.refl _)
  within _ _ reaches := on.known valid reaches
  answer e failed := by
    obtain ⟨last, events, outcome, cursor, event, reaches, halt, parsed⟩ := parser.exists_call
    rw [parsed] at failed
    cases outcome with
    | ok e' => cases failed
    | error e' =>
      cases failed
      simp only [halt.positions]
      exact halt.fault_of_known (on.known valid reaches)

end Parser

/-- The characters that are allowed are blanks and those with a meaning. A text is refused for being empty, or at the
first character that is not allowed, and whatever is done with it, under the default settings or others, that is the
answer: it makes no difference what would have been read of it. From a text that is not refused a parser is made, and
however often it is called, it meets no character it does not know. -/
theorem checked_up_front :
    (∀ c, (isAllowed c ↔ c.isDigit ∨ c ∈ ['.', '+', '-', '*', '/', '(', ')'] ∨ Text.isBlank c) ∧
      (isAllowed c ↔ Text.isBlank c ∨ Token.ofChar c ≠ .foreign c)) ∧
    (∀ text, (checkText text = .ok () ↔ text ≠ "" ∧ ∀ c ∈ text.toList, isAllowed c) ∧
      (∀ e, checkText text = .error e ↔ Invalid text e) ∧ (isValid text ↔ checkText text = .ok ())) ∧
    (∀ calculator text e, (Parser.ofText calculator text = .error e ↔ checkText text = .error e) ∧
      (checkText text = .error e →
        (calculator.parse text).result = .error e ∧ (calculator.evaluate text).result = .error e)) ∧
    (∀ text e, (Parser.new text = .error e ↔ checkText text = .error e) ∧
      (checkText text = .error e → (parse text).result = .error e ∧ (evaluate text).result = .error e)) ∧
    ∀ calculator text, checkText text = .ok () →
      ∃ parser, Parser.ofText calculator text = .ok parser ∧ ∀ n, (parser.after n).Clean := by
  have refused (calculator : Calculator) (text : String) (e : ParseError) :
      (Parser.ofText calculator text = .error e ↔ checkText text = .error e) ∧
      (checkText text = .error e →
        (calculator.parse text).result = .error e ∧ (calculator.evaluate text).result = .error e) := by
    refine ⟨map_eq_error_iff, fun refused => ?_⟩
    have parsed : calculator.parse text = ⟨.error e, []⟩ := Calculator.parse_of_refused refused
    have failed := congrArg Logged.result parsed
    exact ⟨failed, Calculator.evaluate_of_error failed⟩
  refine ⟨fun c => ⟨isAllowed_iff c, isAllowed_iff_ofChar c⟩,
    fun text => ⟨?_, checkText_eq_error_iff text, isValid_iff text⟩, refused, refused .default, ?_⟩
  · rw [checkText_eq_ok_iff]
    exact ⟨fun valid => ⟨valid.nonempty, valid.allowed⟩, fun ⟨nonempty, allowed⟩ => ⟨nonempty, allowed⟩⟩
  · intro calculator text checked
    have valid := (checkText_eq_ok_iff text).mp checked
    have made : Parser.ofText calculator text = .ok ⟨calculator, .ofText text, 0⟩ := Calculator.ofText_of_valid valid
    exact ⟨_, made, fun n => ((Parser.On.of_ofText made).after n).clean valid⟩

theorem checked_up_front_behind :
    let lenient : Calculator := ⟨.lenient, 1, by decide, by decide⟩
    checkText "1) x" = .error ⟨[3], .invalidCharacter 'x'⟩ ∧
      (lenient.parse "1) x").result = .error ⟨[3], .invalidCharacter 'x'⟩ ∧
      ((Calculator.default.under .strict).evaluate "1) x").result = .error ⟨[3], .invalidCharacter 'x'⟩ ∧
      (evaluate "1) x").result = .error ⟨[3], .invalidCharacter 'x'⟩ ∧
      ∃ parser, Parser.ofText lenient "1)\uFEFF(2" = .ok parser ∧ ∀ n, (parser.after n).Clean := by
  intro lenient
  obtain ⟨-, -, refused, refused', accepted⟩ := checked_up_front
  have found : checkText "1) x" = .error ⟨[3], .invalidCharacter 'x'⟩ := by decide +kernel
  exact ⟨found, ((refused lenient _ _).2 found).1, ((refused (Calculator.default.under .strict) _ _).2 found).2,
    ((refused' _ _).2 found).2, accepted lenient _ (by decide +kernel)⟩

end Abacus
