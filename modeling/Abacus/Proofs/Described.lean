import Abacus.Proofs.Entry
import Abacus.Proofs.Grammar
import Abacus.Proofs.Lookahead
import Abacus.Proofs.Offset
import Abacus.Proofs.Repair

/-! What stands where an error points. An operand can be missed only at the beginning, behind an
operator or behind an opening parenthesis; and where groups have to be closed, those that are open are
the parentheses without a counterpart. Every run keeps track of that, and each fault says the rest. -/
namespace Abacus

/-- An operand may begin behind this text. -/
def OperandDue (before : List Char) : Prop := ∀ c ∈ before.getLast?, c = '(' ∨ ∃ op : Operator, c = op.symbol

/-- An operand ends with this text. -/
def OperandRead (before : List Char) : Prop := ∃ c ∈ before.getLast?, isNumeralPart c ∨ c = ')'

structure Place.Behind (strictness : Strictness) (before : List Char) (place : Place) : Prop where
  due (empty : place.factor = none) : OperandDue before
  read (strict : strictness = .strict) (full : place.factor ≠ none) : OperandRead before
  nested (strict : strictness = .strict) : before.count '(' = before.count ')' + place.outer.length

private theorem operandDue_append (before : List Char) {c : Char} (opens : c = '(' ∨ ∃ op : Operator, c = op.symbol) :
    OperandDue (before ++ [c]) := by
  intro d last
  rw [List.getLast?_concat] at last
  cases last
  exact opens

private theorem operandRead_append (before : List Char) {w : List Char} (full : w ≠ [])
    (closes : ∀ c ∈ w, isNumeralPart c ∨ c = ')') : OperandRead (before ++ w) := by
  refine ⟨w.getLast full, ?_, closes _ (List.getLast_mem full)⟩
  rw [List.getLast?_append_of_ne_nil _ full, List.getLast?_eq_some_getLast full]
  rfl

private theorem count_parts {w : List Char} (parts : ∀ c ∈ w, isNumeralPart c) {c : Char}
    (other : isNumeralPart c = false) : w.count c = 0 := by
  apply List.count_eq_zero_of_not_mem
  intro member
  rw [parts c member] at other
  cases other

theorem Cursor.count_run (cursor : Cursor) : cursor.run.count '(' = 0 ∧ cursor.run.count ')' = 0 := by
  have parts (c : Char) (member : c ∈ cursor.run) : isNumeralPart c := isNumeralPart_of_mem_run member
  exact ⟨count_parts parts rfl, count_parts parts rfl⟩

theorem count_symbol (op : Operator) : [op.symbol].count '(' = 0 ∧ [op.symbol].count ')' = 0 := by
  cases op <;> decide

namespace Place

variable {strictness : Strictness} {room : Nat} {place after : Place}

private theorem Behind.start (cursor : Cursor) : (Place.start cursor).Behind strictness [] where
  due _ := by
    intro c last
    cases last
  read _ full := absurd rfl full
  nested _ := rfl

private theorem Advance.behind {event : Option Event} (advance : place.Advance strictness room after event) :
    ∃ passed, place.cursor.rest = passed ++ after.cursor.rest ∧
      ∀ before, place.Behind strictness before → after.Behind strictness (before ++ passed.map Glyph.char) := by
  cases advance with
  | opened due token fits =>
    obtain ⟨passed, rest, spelt⟩ := Cursor.rest_of_left token
    refine ⟨passed, rest, fun before behind => ?_⟩
    rw [spelt]
    refine ⟨fun _ => operandDue_append before (.inl rfl), fun _ full => absurd rfl full, fun strict => ?_⟩
    have nested := behind.nested strict
    simp [nested]
    omega
  | @numeral value due token ok =>
    obtain ⟨passed, rest, spelt⟩ := place.cursor.rest_of_run
    obtain ⟨left, right⟩ := place.cursor.count_run
    refine ⟨passed, rest, fun before behind => ?_⟩
    rw [spelt]
    refine ⟨by simp, fun _ _ => ?_, fun strict => ?_⟩
    · exact operandRead_append before (Cursor.run_ne_nil token) fun c member => .inl (Cursor.isNumeralPart_of_mem_run member)
    · have nested := behind.nested strict
      simp [nested, left, right]
  | @operator factor op read token =>
    obtain ⟨passed, rest, spelt⟩ := Cursor.rest_of_operator token
    refine ⟨passed, rest, fun before behind => ?_⟩
    rw [spelt]
    refine ⟨fun _ => operandDue_append before (.inr ⟨op, rfl⟩), fun _ full => absurd rfl full, fun strict => ?_⟩
    have nested := behind.nested strict
    obtain ⟨left, right⟩ := count_symbol op
    rw [List.count_append, List.count_append, left, right]
    exact nested
  | @closed factor level outer read inside token =>
    obtain ⟨passed, rest, spelt⟩ := Cursor.rest_of_right token
    refine ⟨passed, rest, fun before behind => ?_⟩
    rw [spelt]
    refine ⟨by simp, fun _ _ => ?_, fun strict => ?_⟩
    · exact operandRead_append before (by simp) (by simp)
    · have nested := behind.nested strict
      rw [inside] at nested
      simp at nested ⊢
      omega
  | replaced read inside lenient unclosed ended =>
    -- what closes a group instead may be any character, or none
    refine ⟨place.cursor.rest.take 1, ?_, fun before behind => ⟨by simp, ?_, ?_⟩⟩
    · rw [Cursor.tail, ← List.drop_one, List.take_append_drop]
    · intro strict
      cases lenient.symm.trans strict
    · intro strict
      cases lenient.symm.trans strict

private theorem Run.behind {events : List Event} (run : Run strictness room place events after) :
    ∃ passed, place.cursor.rest = passed ++ after.cursor.rest ∧
      ∀ before, place.Behind strictness before → after.Behind strictness (before ++ passed.map Glyph.char) := by
  induction run with
  | refl => exact ⟨[], rfl, fun before behind => by rwa [List.map_nil, List.append_nil]⟩
  | next advance _ ih =>
    obtain ⟨first, rest, step⟩ := advance.behind
    obtain ⟨later, rest', steps⟩ := ih
    refine ⟨first ++ later, ?_, fun before behind => ?_⟩
    · rw [rest, rest', List.append_assoc]
    · rw [List.map_append, ← List.append_assoc]
      exact steps _ (step before behind)

end Place

private theorem Token.ofChar_of_allowed {c : Char} (allowed : isAllowed c) (visible : Text.isBlank c = false) :
    isNumeralPart c ∧ ofChar c = .number ∨ (∃ op : Operator, c = op.symbol ∧ ofChar c = .operator op) ∨
      c = '(' ∧ ofChar c = .leftParenthesis ∨ c = ')' ∧ ofChar c = .rightParenthesis := by
  have known := ((isAllowed_iff_ofChar c).mp allowed).resolve_left (by simp [visible])
  cases found : ofChar c with
  | number => exact .inl ⟨part_of_ofChar found, rfl⟩
  | operator op => exact .inr (.inl ⟨op, eq_symbol_of_ofChar found, rfl⟩)
  | leftParenthesis => exact .inr (.inr (.inl ⟨eq_of_ofChar_left found, rfl⟩))
  | rightParenthesis => exact .inr (.inr (.inr ⟨eq_of_ofChar_right found, rfl⟩))
  | foreign d =>
    cases eq_of_ofChar_foreign found
    exact absurd found known
  | endOfText => exact absurd found (ofChar_ne_endOfText c)

theorem Cursor.Parts.here {text : String} (valid : Valid text) {passed : List Char} {cursor : Cursor}
    (parts : cursor.Parts text.toList passed) :
    cursor.position = text.toList.length ∧ cursor.token = .endOfText ∨
    ∃ c ∈ text.toList[cursor.position]?,
      isNumeralPart c ∧ cursor.token = .number ∨ (∃ op : Operator, c = op.symbol ∧ cursor.token = .operator op) ∨
        c = '(' ∧ cursor.token = .leftParenthesis ∨ c = ')' ∧ cursor.token = .rightParenthesis := by
  rw [parts.next]
  cases next : cursor.head? with
  | none =>
    left
    rw [parts.position_of_end next, token, next]
    exact ⟨rfl, rfl⟩
  | some c =>
    right
    have here := parts.next
    rw [next] at here
    have allowed := valid.allowed c (List.mem_of_getElem? here)
    refine ⟨c, rfl, ?_⟩
    rw [token, next]
    exact Token.ofChar_of_allowed allowed (parts.visible next)

/-- What a fault says of the text at the position where it is reported. -/
def Fault.Describes (calculator : Calculator) (w : List Char) (p : Nat) : Fault → Prop
  | empty => False
  | invalidCharacter c => w[p]? = some c ∧ isAllowed c = false ∧ ∀ d ∈ w.take p, isAllowed d
  | invalidNumber =>
    OperandDue (nonBlank (w.take p)) ∧ (p = w.length ∨ ∃ c ∈ w[p]?, c = ')' ∨ ∃ op : Operator, c = op.symbol)
  | malformedNumber literal cause =>
    OperandDue (nonBlank (w.take p)) ∧ cause = .invalid ∧ literal ≠ "" ∧
      literal.toList = (nonBlank (w.drop p)).takeWhile isNumeralPart ∧
      ((∀ c ∈ literal.toList, c.isDigit = false) ∨ 2 ≤ literal.toList.count '.')
  | nestingTooDeep limit => OperandDue (nonBlank (w.take p)) ∧ w[p]? = some '(' ∧ limit = calculator.maxDepth
  | unclosedParenthesis =>
    calculator.strictness = .strict ∧ OperandRead (nonBlank (w.take p)) ∧
      (nonBlank (w.take p)).count ')' < (nonBlank (w.take p)).count '(' ∧
      (p = w.length ∨ ∃ c ∈ w[p]?, isNumeralPart c ∨ c = '(')
  | trailingInput c =>
    calculator.strictness = .strict ∧ OperandRead (nonBlank (w.take p)) ∧
      (nonBlank (w.take p)).count '(' = (nonBlank (w.take p)).count ')' ∧
      w[p]? = some c ∧ (isNumeralPart c ∨ c = '(' ∨ c = ')')

private theorem Place.Halt.describes {calculator : Calculator} {room : Nat} {last : Place} {text : String}
    (valid : Valid text) {passed : List Char} (parts : last.cursor.Parts text.toList passed)
    (behind : last.Behind calculator.strictness passed) {e : ParseError} {cursor : Cursor} {event : Option Event}
    (halt : last.Halt calculator room (.error e) cursor event) :
    ∃ fault, e.atPosition cursor.position = ⟨[last.cursor.position], fault⟩ ∧
      fault.Describes calculator text.toList last.cursor.position := by
  have here := parts.here valid
  rw [← parts.before] at behind
  cases halt with
  | full due token full =>
    refine ⟨_, rfl, behind.due due, ?_, rfl⟩
    simpa [token] using here
  | malformed due token fault =>
    obtain ⟨rfl, illFormed⟩ := Cursor.numeral_fault token fault
    refine ⟨_, rfl, behind.due due, rfl, ?_, ?_, ?_⟩
    · rw [ne_eq, String.ofList_eq_empty_iff]
      exact Cursor.run_ne_nil token
    · rw [String.toList_ofList, parts.after, Cursor.run_eq]
    · rw [String.toList_ofList]
      simp only [Numeral.wellFormed, Bool.and_eq_false_iff, decide_eq_false_iff_not, Nat.not_le] at illFormed
      rcases illFormed with none | many
      · left
        simpa using none
      · exact .inr many
  | foreign due unknown => simp [unknown] at here
  | missing due opening digit known =>
    refine ⟨_, rfl, behind.due due, ?_⟩
    rcases here with ⟨done, -⟩ | ⟨c, here, ⟨-, token⟩ | ⟨op, symbol, -⟩ | ⟨-, token⟩ | ⟨right, -⟩⟩
    · exact .inl done
    · exact absurd token digit
    · exact .inr ⟨c, here, .inr ⟨op, symbol⟩⟩
    · exact absurd token opening
    · exact .inr ⟨c, here, .inl right⟩
  | unclosed read inside strict unclosed ended =>
    have nested := behind.nested strict
    rw [inside, List.length_cons] at nested
    refine ⟨_, rfl, strict, behind.read strict (by simp [read]), by omega, ?_⟩
    rcases here with ⟨done, -⟩ | ⟨c, here, ⟨part, -⟩ | ⟨op, -, token⟩ | ⟨left, -⟩ | ⟨-, token⟩⟩
    · exact .inl done
    · exact .inr ⟨c, here, .inl part⟩
    · exact absurd token (ended op)
    · exact .inr ⟨c, here, .inr left⟩
    · exact absurd token unclosed
  | trailing read outside strict more ended =>
    have nested := behind.nested strict
    rw [outside, List.length_nil, Nat.add_zero] at nested
    have next := parts.next.trans more
    refine ⟨_, rfl, strict, behind.read strict (by simp [read]), nested, next, ?_⟩
    rw [next] at here
    rcases here with ⟨-, token⟩ | ⟨_, ⟨⟩, ⟨part, -⟩ | ⟨op, -, token⟩ | ⟨left, -⟩ | ⟨right, -⟩⟩
    · simp [Cursor.token, more, Token.ofChar_ne_endOfText] at token
    · exact .inl part
    · exact absurd token (ended op)
    · exact .inr (.inl left)
    · exact .inr (.inr right)

private theorem exists_first_foreign {w : List Char} (other : ¬ ∀ c ∈ w, isAllowed c) :
    ∃ before c after, w = before ++ c :: after ∧ (∀ d ∈ before, isAllowed d) ∧ isAllowed c = false := by
  induction w with
  | nil => simp at other
  | cons c w ih =>
    cases allowed : isAllowed c with
    | false => exact ⟨[], c, w, rfl, by simp, allowed⟩
    | true =>
      obtain ⟨before, d, after, rfl, clean, foreign⟩ := ih (by simpa [allowed] using other)
      exact ⟨c :: before, d, after, rfl, by simpa [allowed] using clean, foreign⟩

theorem checkText_of_invalid {text : String} (full : text ≠ "") (invalid : ¬ Valid text) :
    ∃ p c, checkText text = .error ⟨[p], .invalidCharacter c⟩ ∧ text.toList[p]? = some c ∧ isAllowed c = false ∧
      ∀ d ∈ text.toList.take p, isAllowed d := by
  obtain ⟨before, c, after, whole, clean, foreign⟩ := exists_first_foreign fun allowed => invalid ⟨full, allowed⟩
  refine ⟨before.length, c, ?_, ?_, foreign, ?_⟩
  · rw [← text.ofList_toList, whole]
    exact checkText_of_foreign clean foreign
  · simp [whole]
  · simpa [whole] using clean

/-- An error is reported once, at a character or at the end, and it says what is there. -/
theorem parse_error_described (calculator : Calculator) (text : String) (e : ParseError)
    (failed : (calculator.parse text).result = .error e) :
    (text = "" → e = .bare .empty) ∧
    (text ≠ "" → ∃ p fault, e = ⟨[p], fault⟩ ∧ p ≤ text.length ∧ (∀ c ∈ text.toList[p]?, Text.isBlank c = false) ∧
      fault.Describes calculator text.toList p ∧
      ((∃ c, fault = .invalidCharacter c) ∨ ∀ c ∈ text.toList, isAllowed c)) := by
  constructor
  · rintro rfl
    cases failed
    rfl
  · intro full
    by_cases valid : Valid text
    · obtain ⟨last, events, outcome, cursor, event, run, halt⟩ :=
        @Place.exists_run calculator calculator.maxDepth (.start (.ofText text))
      obtain ⟨passed, rest, behind⟩ := run.behind
      have parts := Cursor.parts_of_rest rest run.stop_eq
      have behind := behind [] (.start _)
      rw [Calculator.parse_of_run valid run halt] at failed
      cases outcome with
      | ok e' => cases failed
      | error e' =>
        cases failed
        obtain ⟨fault, positioned, describes⟩ := halt.describes valid parts behind
        refine ⟨last.cursor.position, fault, positioned, parts.inside, ?_, describes, .inr valid.allowed⟩
        intro c here
        rw [parts.next] at here
        exact parts.visible here
    · obtain ⟨p, c, refused, here, foreign, allowed⟩ := checkText_of_invalid full valid
      rw [Calculator.parse_of_refused refused] at failed
      cases failed
      have inside := (List.getElem?_eq_some_iff.mp here).1
      refine ⟨p, _, rfl, Nat.le_of_lt inside, ?_, ⟨here, foreign, allowed⟩, .inl ⟨c, rfl⟩⟩
      intro d there
      cases here.symm.trans there
      rw [← Bool.not_eq_true] at foreign ⊢
      exact fun blank => foreign ((isAllowed_iff_ofChar c).mpr (.inl blank))

theorem parse_error_described_unclosed :
    ((Calculator.default.under .strict).parse "( (1) . 2").result = .error ⟨[6], .unclosedParenthesis⟩ ∧
      Fault.unclosedParenthesis.Describes (Calculator.default.under .strict) "( (1) . 2".toList 6 := by
  have refused : ((Calculator.default.under .strict).parse "( (1) . 2").result.map (fun _ => ()) =
      .error ⟨[6], .unclosedParenthesis⟩ := by decide +kernel
  have failed := map_eq_error_iff.mp refused
  obtain ⟨p, fault, same, -, -, describes, -⟩ := (parse_error_described _ _ _ failed).2 (by decide)
  cases same
  exact ⟨failed, describes⟩

end Abacus
