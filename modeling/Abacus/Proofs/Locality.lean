import Abacus.Proofs.Blanks
import Abacus.Proofs.Repaired

/-! What decides an outcome: the text up to the character where the parser stops, that one included. What
follows it may be replaced by anything, and no text that goes on from there repairs an error. -/
namespace Abacus

private theorem glyphsFrom_append (n : Nat) (w v : List Char) :
    glyphsFrom n (w ++ v) = glyphsFrom n w ++ glyphsFrom (n + w.length) v := by
  simp [glyphsFrom, List.zipIdx_append]

private theorem glyphs_take {w : List Char} {passed rest : List Glyph} {glyph : Glyph}
    (whole : glyphs w = passed ++ glyph :: rest) : glyphs (w.take (glyph.position + 1)) = passed ++ [glyph] := by
  obtain ⟨p, position, here, before, -⟩ := glyphsFrom_split (n := 0) whole
  rw [Nat.zero_add] at position
  have visible : Text.isBlank glyph.char = false := by
    apply isBlank_of_mem_nonBlank (w := w)
    rw [← map_char_glyphs, whole]
    simp
  have taken : nonBlank (w.take (p + 1)) = passed.map Glyph.char ++ [glyph.char] := by
    rw [List.take_add_one, here, nonBlank_append, before, Option.toList_some, nonBlank_cons visible]
    rfl
  have halves : glyphs w = glyphs (w.take (p + 1)) ++ glyphsFrom (0 + (w.take (p + 1)).length) (w.drop (p + 1)) := by
    have joined := glyphsFrom_append 0 (w.take (p + 1)) (w.drop (p + 1))
    rwa [List.take_append_drop] at joined
  rw [whole, List.append_cons] at halves
  have sizes : (passed ++ [glyph]).length = (glyphs (w.take (p + 1))).length := by
    rw [length_glyphs, taken]
    simp
  rw [position]
  exact (List.append_inj_left halves sizes).symm

namespace Cursor

variable {base base' : Cursor} {n : Nat}

private theorem Agree.min_length (agree : Agree (n + 1) base base') {k : Nat} (bound : k ≤ n) :
    min k base'.chars.length = min k base.chars.length := by
  have ended (i : Nat) (bound : i ≤ n) : base'.chars.length ≤ i ↔ base.chars.length ≤ i := by
    rw [← List.getElem?_eq_none_iff, ← List.getElem?_eq_none_iff, agree i (Nat.lt_succ_of_le bound)]
  have first := ended k
  have second := ended base.chars.length
  have third := ended base'.chars.length
  omega

private theorem agree_of_min (same : ∀ k ≤ min n base.chars.length, base'.chars[k]? = base.chars[k]?) :
    Agree (n + 1) base base' := by
  intro k bound
  by_cases inside : k ≤ base.chars.length
  · exact same k (by omega)
  · -- the one text has ended by then, and so has the other
    have ended := same base.chars.length (by omega)
    rw [List.getElem?_eq_none (Nat.le_refl _), List.getElem?_eq_none_iff] at ended
    rw [List.getElem?_eq_none (by omega), List.getElem?_eq_none (by omega)]

private theorem FacingWithin.sameCharacter {s t : String} (agree : Agree (n + 1) (ofText s) (ofText t)) {p q : Nat}
    (facing : FacingWithin n (ofText s) (ofText t) p q) : SameCharacter s t p q := by
  obtain ⟨k, bound, rfl, rfl⟩ := facing
  have lengths := agree.min_length bound
  rw [chars_ofText, chars_ofText] at lengths
  have first := marks_drop s k
  rw [← lengths] at first
  exact ⟨_, first, marks_drop t k⟩

private theorem FacingWithin.eq {p q : Nat} (facing : FacingWithin n base base' p q) (inside : n < base.rest.length)
    (same : ∀ k ≤ n, base'.rest[k]? = base.rest[k]?) : p = q := by
  obtain ⟨k, bound, rfl, rfl⟩ := facing
  have here : base.rest[k]? = some base.rest[k] := List.getElem?_eq_getElem (by omega)
  rw [position_drop here, position_drop ((same k bound).trans here)]

private theorem getElem?_ofText_take_append {text : String} (inside : n < (ofText text).rest.length)
    (tail : List Char) {k : Nat} (bound : k ≤ n) :
    (ofText (String.ofList (text.toList.take (((ofText text).drop n).position + 1) ++ tail))).rest[k]? =
      (ofText text).rest[k]? := by
  have here : (ofText text).rest[n]? = some (ofText text).rest[n] := List.getElem?_eq_getElem inside
  have whole : glyphs text.toList =
      (ofText text).rest.take n ++ (ofText text).rest[n] :: (ofText text).rest.drop (n + 1) := by
    rw [List.getElem_cons_drop, List.take_append_drop]
    rfl
  obtain ⟨later, same⟩ : ∃ later,
      (ofText (String.ofList (text.toList.take (((ofText text).drop n).position + 1) ++ tail))).rest =
        (ofText text).rest.take (n + 1) ++ later := by
    rw [position_drop here, ← List.take_append_getElem inside, ofText, String.toList_ofList]
    have joined := glyphsFrom_append 0 (text.toList.take ((ofText text).rest[n].position + 1)) tail
    rw [← glyphs_take whole]
    exact ⟨_, joined⟩
  rw [same, List.getElem?_append_left (by rw [List.length_take]; omega), List.getElem?_take_of_lt (by omega)]

end Cursor

private theorem OutcomeAlike.eq {outcome outcome' : Except ParseError Expr} (alike : OutcomeAlike Eq outcome outcome') :
    outcome' = outcome := by
  cases alike with
  | ok e => rfl
  | error fault same => rw [same]

private theorem Event.Alike.eq {event event' : Event} (alike : event.Alike Eq event') : event' = event := by
  cases alike with
  | closing same => rw [same]
  | trailing same => rw [same]

private theorem Event.eq_of_forall₂ {events events' : List Event}
    (alike : List.Forall₂ (Event.Alike Eq) events events') : events' = events := by
  induction alike with
  | nil => rfl
  | cons first _ ih => rw [first.eq, ih]

namespace Parser

private theorem length_passed {parser : Parser} {n : Nat}
    (reached : parser.parse.parser.cursor = parser.cursor.drop n) :
    parser.passed.length = min n parser.cursor.chars.length := by
  rw [passed, reached, List.length_take, Cursor.drop, List.length_drop, Cursor.chars, List.length_map]
  omega

variable {calculator : Calculator} {text : String} {parser : Parser}

/-- Parsers of texts that agree up to where the first one stops stop at the same place and report alike. -/
private theorem parse_agree (made : ofText calculator text = .ok parser) :
    ∃ n, parser.parse.parser.cursor = (Cursor.ofText text).drop n ∧ ∀ other next, ofText calculator other = .ok next →
      Cursor.Agree (n + 1) (.ofText text) (.ofText other) →
      next.parse.parser.cursor = (Cursor.ofText other).drop n ∧
      OutcomeAlike (Cursor.FacingWithin n (.ofText text) (.ofText other)) parser.parse.outcome next.parse.outcome ∧
      List.Forall₂ (Event.Alike (Cursor.FacingWithin n (.ofText text) (.ofText other))) parser.parse.events
        next.parse.events := by
  obtain ⟨-, rfl⟩ := eq_of_ofText made
  obtain ⟨n, reached, alike⟩ := @Place.read_agree_within calculator calculator.maxDepth (.ofText text)
  refine ⟨n, reached, fun other next made' agree => ?_⟩
  obtain ⟨-, rfl⟩ := eq_of_ofText made'
  obtain ⟨reached', -, outcomes, events⟩ := alike _ agree
  exact ⟨reached', outcomes, events⟩

private theorem parse_take_append (made : ofText calculator text = .ok parser) {c : Char}
    (more : parser.parse.parser.cursor.head? = some c) {tail : List Char} (allowed : ∀ d ∈ tail, isAllowed d) :
    calculator.parse (String.ofList (text.toList.take (parser.parse.parser.cursor.position + 1) ++ tail)) =
      calculator.parse text := by
  obtain ⟨valid, -⟩ := eq_of_ofText made
  obtain ⟨n, reached, alike⟩ := parse_agree made
  rw [reached] at more ⊢
  have inside : n < (Cursor.ofText text).rest.length := by
    by_contra beyond
    have ended : (Cursor.ofText text).rest.drop n = [] := List.drop_eq_nil_of_le (Nat.le_of_not_lt beyond)
    simp [Cursor.head?, Cursor.drop, ended] at more
  have same (k : Nat) (bound : k ≤ n) := Cursor.getElem?_ofText_take_append inside tail bound
  have valid' : Valid (String.ofList (text.toList.take (((Cursor.ofText text).drop n).position + 1) ++ tail)) := by
    constructor
    · intro empty
      have none := same n (Nat.le_refl n)
      rw [empty, List.getElem?_eq_getElem inside] at none
      cases none
    · intro d member
      rw [String.toList_ofList] at member
      rcases List.mem_append.mp member with before | after
      · exact valid.allowed d (List.mem_of_mem_take before)
      · exact allowed d after
  generalize String.ofList (text.toList.take (((Cursor.ofText text).drop n).position + 1) ++ tail) = other at same valid' ⊢
  have made' : ofText calculator other = .ok ⟨calculator, .ofText other, 0⟩ := Calculator.ofText_of_valid valid'
  have agree : Cursor.Agree (n + 1) (.ofText text) (.ofText other) := by
    intro k bound
    rw [Cursor.chars, Cursor.chars, List.getElem?_map, List.getElem?_map, same k (Nat.le_of_lt_succ bound)]
  obtain ⟨-, outcomes, events⟩ := alike _ _ made' agree
  rw [Calculator.parse_of_ofText made, Calculator.parse_of_ofText made']
  rw [(outcomes.imp fun _ _ facing => facing.eq inside same).eq,
    Event.eq_of_forall₂ (events.imp fun _ _ event => event.imp fun _ _ facing => facing.eq inside same)]

private theorem stop_of_trailing {p : Nat} (told : p ∈ trailings parser.parse.events) :
    parser.parse.parser.cursor.position = p ∧ ∃ c, parser.parse.parser.cursor.head? = some c := by
  obtain ⟨last, events, outcome, cursor, event, run, halt⟩ := @Place.exists_run parser.calculator
    (parser.calculator.maxDepth - parser.nesting) (.start parser.cursor)
  have read := run.read_of_halt halt
  have ignored : trailings parser.parse.events = trailings event.toList := run.trailings_read halt
  have stopped : parser.parse.parser.cursor = cursor := congrArg Reading.cursor read
  rw [ignored] at told
  rw [stopped]
  cases halt with
  | ignored read outside lenient more ended =>
    cases List.mem_singleton.mp told
    exact ⟨rfl, _, more⟩
  | full | malformed | foreign | missing | unclosed | finished | trailing => cases told

end Parser

/-- An outcome depends on the text up to the character where the parser stops, and on no more. A text that agrees
so far with another one, or has ended as well, stops it at the same character and gives the same tree there, or the
same fault at the same character. So what follows may be replaced by anything: no error is repaired by it, and what
is ignored is not looked at. -/
theorem parse_local (calculator : Calculator) (text : String) (parser : Parser)
    (made : Parser.ofText calculator text = .ok parser) :
    (∀ other next, Parser.ofText calculator other = .ok next →
      (∀ k ≤ parser.passed.length, (dense other)[k]? = (dense text)[k]?) →
      next.passed.length = parser.passed.length ∧
      OutcomeAlike (SameCharacter text other) parser.parse.outcome next.parse.outcome ∧
      List.Forall₂ (Event.Alike (SameCharacter text other)) parser.parse.events next.parse.events) ∧
    (∀ c tail, parser.parse.parser.cursor.head? = some c → (∀ d ∈ tail, isAllowed d) →
      calculator.parse (String.ofList (text.toList.take (parser.parse.parser.cursor.position + 1) ++ tail)) =
        calculator.parse text) ∧
    (∀ p tail, p ∈ trailings parser.parse.events → (∀ d ∈ tail, isAllowed d) →
      calculator.parse (String.ofList (text.toList.take (p + 1) ++ tail)) = calculator.parse text) := by
  obtain ⟨-, fresh⟩ := Parser.eq_of_ofText made
  have cursor : parser.cursor = .ofText text := by rw [fresh]
  refine ⟨?_, fun c tail more allowed => Parser.parse_take_append made more allowed, ?_⟩
  · intro other next made' same
    obtain ⟨n, reached, alike⟩ := Parser.parse_agree made
    obtain ⟨-, fresh'⟩ := Parser.eq_of_ofText made'
    have cursor' : next.cursor = .ofText other := by rw [fresh']
    rw [← cursor] at reached alike
    have passed := Parser.length_passed reached
    have agree : Cursor.Agree (n + 1) parser.cursor next.cursor := by
      apply Cursor.agree_of_min
      rw [← passed, cursor, cursor', Cursor.chars_ofText, Cursor.chars_ofText]
      exact same
    obtain ⟨reached', outcomes, events⟩ := alike other next made' (cursor' ▸ agree)
    rw [← cursor'] at reached' outcomes events
    have facing (p q : Nat) (facing : Cursor.FacingWithin n parser.cursor next.cursor p q) :
        SameCharacter text other p q := by
      rw [cursor, cursor'] at facing agree
      exact facing.sameCharacter agree
    refine ⟨?_, outcomes.imp facing, events.imp fun _ _ event => event.imp facing⟩
    rw [passed, Parser.length_passed reached', agree.min_length (Nat.le_refl n)]
  · intro p tail told allowed
    obtain ⟨rfl, c, more⟩ := Parser.stop_of_trailing told
    exact Parser.parse_take_append made more allowed

theorem parse_local_swallowed :
    let text := "( (1 (2 )5"
    let other := "((1(2)*(\t"
    ∃ parser next, Parser.ofText .default text = .ok parser ∧ Parser.ofText .default other = .ok next ∧
      parser.passed.length = 5 ∧ next.passed.length = 5 ∧
      OutcomeAlike (SameCharacter text other) parser.parse.outcome next.parse.outcome ∧
      trailings parser.parse.events = [8] ∧
      Calculator.default.parse "( (1 (2 )+" = Calculator.default.parse text := by
  intro text other
  let parser : Parser := ⟨.default, .ofText text, 0⟩
  let next : Parser := ⟨.default, .ofText other, 0⟩
  have valid : Valid "( (1 (2 )5" := (checkText_eq_ok_iff _).mp rfl
  have valid' : Valid "((1(2)*(\t" := (checkText_eq_ok_iff _).mp rfl
  have made : Parser.ofText .default text = .ok parser := Calculator.ofText_of_valid valid
  have made' : Parser.ofText .default other = .ok next := Calculator.ofText_of_valid valid'
  have passed : parser.passed.length = 5 := by decide +kernel
  have told : trailings parser.parse.events = [8] := by decide +kernel
  have agree : ∀ k ≤ 5, (dense other)[k]? = (dense text)[k]? := by decide +kernel
  obtain ⟨stops, -, ignored⟩ := parse_local .default text parser made
  obtain ⟨same, outcomes, -⟩ := stops other next made' (passed ▸ agree)
  have spelled : String.ofList ("( (1 (2 )5".toList.take 9 ++ ['+']) = "( (1 (2 )+" := by decide +kernel
  have replaced := ignored 8 ['+'] (told ▸ List.mem_singleton_self 8) (List.forall_mem_singleton.mpr (by decide))
  rw [spelled] at replaced
  exact ⟨parser, next, made, made', passed, same.trans passed, outcomes, told, replaced⟩

end Abacus
