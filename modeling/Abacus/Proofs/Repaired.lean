import Abacus.Proofs.Accepted

/-! Lenient success is strict success on the repaired text: the text that was passed, in which each
group is closed by a parenthesis. -/
namespace Abacus

open Grammar

/-- What the next expression of a parser passes. -/
def Parser.passed (parser : Parser) : List Glyph :=
  parser.cursor.rest.take (parser.cursor.rest.length - parser.parse.parser.cursor.rest.length)

/-- The same with a closing parenthesis for each group that was closed by something else. -/
def Parser.repaired (parser : Parser) : String :=
  String.ofList (mend (closings parser.parse.events) parser.passed)

theorem Parser.eq_of_ofText {calculator : Calculator} {text : String} {parser : Parser}
    (made : Parser.ofText calculator text = .ok parser) : Valid text ∧ parser = ⟨calculator, .ofText text, 0⟩ := by
  unfold Parser.ofText at made
  cases checked : checkText text with
  | error e =>
    rw [checked] at made
    cases made
  | ok checked' =>
    rw [checked] at made
    cases made
    exact ⟨(checkText_eq_ok_iff text).mp checked, rfl⟩

theorem Parser.passed_eq {parser : Parser} {passed : List Glyph}
    (rest : parser.cursor.rest = passed ++ parser.parse.parser.cursor.rest) : parser.passed = passed := by
  rw [Parser.passed, rest, List.length_append, Nat.add_sub_cancel]
  exact List.take_left

private theorem Parser.derives_repaired {parser : Parser} {e : Expr} (ordered : parser.cursor.Ordered)
    (ok : parser.parse.outcome = .ok e) :
    Derives (parser.calculator.maxDepth - parser.nesting) (mend (closings parser.parse.events) parser.passed) e ∧
    replacements (closings parser.parse.events) parser.passed + endings (closings parser.parse.events) =
      (closings parser.parse.events).length := by
  obtain ⟨passed, text, rest, mended, derived⟩ := Place.read_ok (Parser.outcome_eq_ok_iff.mp ok)
  have whole : parser.passed = passed := Parser.passed_eq rest
  have ascending := ordered.ascending
  have inside := ordered.inside
  rw [rest] at ascending inside
  obtain ⟨rfl, count⟩ := mended.eq_mend (List.pairwise_append.mp ascending).1
    fun glyph member => inside glyph (List.mem_append_left _ member)
  rw [whole]
  exact ⟨derived, count⟩

/-- Whatever is parsed leniently, the repaired text is parsed under both strictnesses, silently and
with the same tree, and it has as many repairs as were told. -/
theorem parse_repaired (calculator : Calculator) (text : String) (parser : Parser) (e : Expr)
    (made : Parser.ofText (calculator.under .lenient) text = .ok parser) (ok : parser.parse.outcome = .ok e) :
    ((calculator.under .strict).parse parser.repaired).result = .ok e ∧
    (calculator.under .lenient).parse parser.repaired = ⟨.ok e, []⟩ ∧
    replacements (closings parser.parse.events) parser.passed + endings (closings parser.parse.events) =
      (closings parser.parse.events).length := by
  obtain ⟨-, rfl⟩ := Parser.eq_of_ofText made
  obtain ⟨derived, count⟩ := Parser.derives_repaired (Cursor.ordered_ofText text) ok
  obtain ⟨valid, solid⟩ := derived.valid
  rw [← solid] at derived
  have strictly : (calculator.under .strict).parse _ = ⟨.ok e, []⟩ := Calculator.parse_of_derives valid derived
  have leniently : (calculator.under .lenient).parse _ = ⟨.ok e, []⟩ := Calculator.parse_of_derives valid derived
  refine ⟨?_, leniently, count⟩
  exact congrArg Logged.result strictly

theorem parse_repaired_mixed :
    ∃ parser e, Parser.ofText (Calculator.default.under .lenient) "(1+((2(3" = .ok parser ∧
      parser.parse.outcome = .ok e ∧ parser.repaired = "(1+((2)))" ∧
      ((Calculator.default.under .strict).parse "(1+((2)))").result = .ok e := by
  let parser : Parser := ⟨Calculator.default.under .lenient, .ofText "(1+((2(3", 0⟩
  have made : Parser.ofText (Calculator.default.under .lenient) "(1+((2(3" = .ok parser := rfl
  have text : parser.repaired = "(1+((2)))" := by decide +kernel
  cases ok : parser.parse.outcome with
  | error fault =>
    have fine : parser.parse.outcome.isOk := by decide +kernel
    rw [ok] at fine
    cases fine
  | ok e =>
    have repaired := parse_repaired .default "(1+((2(3" parser e made ok
    rw [text] at repaired
    exact ⟨parser, e, made, ok, text, repaired.1⟩

end Abacus
