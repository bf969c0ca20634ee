import Abacus.Proofs.Groups
import Abacus.Proofs.Repaired
import Mathlib.Logic.Function.Iterate

/-! One call after the other. A parser goes on where the last call stopped, whatever that came to, and the groups
that were left open count against its limit. Every call takes it further in its text, until one changes nothing:
from then on all calls are that call. -/
namespace Abacus

namespace Cursor

private theorem length_pastRun_of_token {cursor : Cursor} (token : cursor.token = .number) :
    cursor.pastRun.rest.length < cursor.rest.length := by
  have taken := List.length_pos_iff.mpr (run_ne_nil token)
  have more : cursor.token ≠ .endOfText := by simp [token]
  have full := List.length_pos_iff.mpr (rest_ne_nil more)
  rw [pastRun_eq_drop, drop, List.length_drop]
  omega

private theorem Parts.known {text : String} (valid : Valid text) {passed : List Char} {cursor : Cursor}
    (parts : cursor.Parts text.toList passed) (c : Char) : cursor.token ≠ .foreign c := by
  intro unknown
  have here := parts.here valid
  simp [unknown] at here

end Cursor

namespace Place

variable {calculator : Calculator} {strictness : Strictness} {room : Nat} {place after : Place}

private theorem Run.shorter {events : List Event} (run : Run strictness room place events after)
    (due : place.factor = none) :
    (after = place ∧ events = []) ∨ after.cursor.rest.length < place.cursor.rest.length := by
  cases run with
  | refl => exact .inl ⟨rfl, rfl⟩
  | @next _ middle _ event events advance rest =>
    right
    obtain ⟨passed, whole, -⟩ := rest.balance
    have later := congrArg List.length whole
    rw [List.length_append] at later
    have first : middle.cursor.rest.length < place.cursor.rest.length := by
      cases advance with
      | opened due token fits => exact Cursor.length_tail place.cursor (by simp [token])
      | numeral due token ok => exact Cursor.length_pastRun_of_token token
      | operator read | closed read | replaced read =>
        rw [due] at read
        cases read
    omega

private theorem Halt.of_due {outcome : Except ParseError Expr} {cursor : Cursor} {event : Option Event}
    (halt : place.Halt calculator room outcome cursor event) (due : place.factor = none)
    (known : ∀ c, place.cursor.token ≠ .foreign c) :
    cursor.rest.length < place.cursor.rest.length ∨ cursor = place.cursor ∧ event = none ∧
      ∃ fault, outcome = .error (.bare fault) ∧ (fault = .invalidNumber ∨ fault = .nestingTooDeep calculator.maxDepth) := by
  cases halt with
  | full due token full => exact .inr ⟨rfl, rfl, _, rfl, .inr rfl⟩
  | malformed due token fault => exact .inl (Cursor.length_pastRun_of_token token)
  | foreign due token => exact absurd token (known _)
  | missing due opening digit known => exact .inr ⟨rfl, rfl, _, rfl, .inl rfl⟩
  | unclosed read | finished read | ignored read | trailing read =>
    rw [due] at read
    cases read

private theorem Halt.ok_of_strict {e : Expr} {cursor : Cursor} {event : Option Event}
    (halt : place.Halt calculator room (.ok e) cursor event) (strict : calculator.strictness = .strict) :
    cursor.rest = [] := by
  cases halt with
  | finished read outside done => simpa [Cursor.head?] using done
  | ignored read outside lenient more ended =>
    rw [strict] at lenient
    cases lenient

end Place

namespace Parser

def after (parser : Parser) (calls : Nat) : Parser := (fun parser => parser.parse.parser)^[calls] parser

/-- The number of characters of the text that the parser has passed, blanks not counted. -/
def index (text : String) (parser : Parser) : Nat := (dense text).length - parser.cursor.rest.length

/-- A parser of the calculator at an index of the text, with no more groups open than it allows. -/
structure On (calculator : Calculator) (text : String) (parser : Parser) : Prop where
  same : parser.calculator = calculator
  here : parser.cursor = (Cursor.ofText text).drop (parser.index text)
  inside : parser.index text ≤ (dense text).length
  fits : parser.nesting ≤ calculator.maxDepth

/-- The next call comes to the place, and has told the events by then. -/
def Reaches (parser : Parser) (events : List Event) (place : Place) : Prop :=
  Place.Run parser.calculator.strictness (parser.calculator.maxDepth - parser.nesting) (.start parser.cursor) events place

/-- The groups that are open at a place the next call comes to, those that earlier calls left open among them. -/
def depth (parser : Parser) (place : Place) : Nat := parser.nesting + place.outer.length

/-- In the course of a call, the groups that are open are those from before, and those it has opened and not closed.
They never are too many, and where one is closed there is one. -/
structure Counts (parser : Parser) (events : List Event) (place : Place) : Prop where
  fits : parser.depth place ≤ parser.calculator.maxDepth
  opened : ∃ passed, parser.cursor.rest = passed ++ place.cursor.rest ∧
    closures (closings events) (passed.map Glyph.char) ≤ openings (closings events) (passed.map Glyph.char) ∧
    parser.depth place = parser.nesting + unclosed (closings events) (passed.map Glyph.char)
  steps : ∀ after event,
    place.Advance parser.calculator.strictness (parser.calculator.maxDepth - parser.nesting) after event →
      parser.depth after = parser.depth place ∨ parser.depth after = parser.depth place + 1 ∨
        parser.depth after + 1 = parser.depth place

/-- A call that changes nothing, since there is no numeral where the parser is, or no room for a group. -/
structure Stuck (parser : Parser) : Prop where
  unchanged : parser.parse.parser = parser
  silent : parser.parse.events = []
  refused : parser.parse.outcome = .error ⟨[parser.cursor.position], .invalidNumber⟩ ∨
    parser.parse.outcome = .error ⟨[parser.cursor.position], .nestingTooDeep parser.calculator.maxDepth⟩

structure Progress (text : String) (parser : Parser) : Prop where
  counts : ∀ events place, parser.Reaches events place → parser.Counts events place
  forward : parser.index text ≤ parser.parse.parser.index text
  closed : closures (closings parser.parse.events) (parser.passed.map Glyph.char) ≤
    openings (closings parser.parse.events) (parser.passed.map Glyph.char)
  left : parser.parse.parser.nesting =
    parser.nesting + unclosed (closings parser.parse.events) (parser.passed.map Glyph.char)
  ok : ∀ e, parser.parse.outcome = .ok e → parser.parse.parser.nesting = parser.nesting ∧
    parser.index text < parser.parse.parser.index text ∧
    (parser.calculator.strictness = .strict → parser.parse.parser.index text = (dense text).length)
  moves : parser.index text < parser.parse.parser.index text ∨ parser.Stuck

variable {calculator : Calculator} {text : String} {parser : Parser}

theorem exists_call (parser : Parser) :
    ∃ (last : Place) (events : List Event) (outcome : Except ParseError Expr) (cursor : Cursor) (event : Option Event),
      parser.Reaches events last ∧
      last.Halt parser.calculator (parser.calculator.maxDepth - parser.nesting) outcome cursor event ∧
      parser.parse = ⟨outcome.mapError fun e => e.atPosition cursor.position, events ++ event.toList,
        ⟨parser.calculator, cursor, parser.depth last⟩⟩ := by
  obtain ⟨last, events, outcome, cursor, event, run, halt⟩ := @Place.exists_run parser.calculator
    (parser.calculator.maxDepth - parser.nesting) (.start parser.cursor)
  refine ⟨last, events, outcome, cursor, event, run, halt, ?_⟩
  rw [parse, run.read_of_halt halt]
  rfl

private theorem index_of_drop {n : Nat} (here : parser.cursor = (Cursor.ofText text).drop n) :
    parser.index text = min n (dense text).length := by
  rw [index, here, Cursor.drop, List.length_drop, Cursor.length_rest_ofText]
  omega

private theorem on_of_drop {n : Nat} (same : parser.calculator = calculator)
    (here : parser.cursor = (Cursor.ofText text).drop n) (fits : parser.nesting ≤ calculator.maxDepth) :
    parser.On calculator text := by
  have index := index_of_drop here
  refine ⟨same, ?_, Nat.sub_le _ _, fits⟩
  rw [here, index, Cursor.drop, Cursor.drop, ← Cursor.length_rest_ofText, List.drop_eq_drop_min]

private theorem counts_of_reaches (fits : parser.nesting ≤ parser.calculator.maxDepth) {events : List Event}
    {place : Place} (reaches : parser.Reaches events place) : parser.Counts events place := by
  obtain ⟨passed, rest, balance, -⟩ := reaches.balance
  obtain ⟨closed, level⟩ := balance.of_none
  refine ⟨?_, ⟨passed, rest, closed, ?_⟩, fun after event advance => ?_⟩
  · have room := reaches.outer_le (Nat.zero_le _)
    rw [depth]
    omega
  · rw [depth, level]
  · cases advance with
    | opened due token fits => exact .inr (.inl rfl)
    | numeral | operator => exact .inl rfl
    | closed read inside | replaced read inside =>
      right; right
      rw [depth, depth, inside, List.length_cons, Nat.add_assoc]

theorem On.of_ofText (made : ofText calculator text = .ok parser) : parser.On calculator text := by
  obtain ⟨-, rfl⟩ := eq_of_ofText made
  exact on_of_drop (n := 0) rfl rfl (Nat.zero_le _)

private theorem On.index_lt (on : parser.On calculator text)
    (shorter : parser.parse.parser.cursor.rest.length < parser.cursor.rest.length) :
    parser.index text < parser.parse.parser.index text := by
  have whole := Cursor.length_rest_ofText text
  have here := congrArg (fun cursor => cursor.rest.length) on.here
  simp only [Cursor.drop, List.length_drop] at here
  rw [index, index]
  omega

private theorem On.parse (on : parser.On calculator text) :
    parser.parse.parser.On calculator text ∧ parser.index text ≤ parser.parse.parser.index text := by
  obtain ⟨last, events, outcome, cursor, event, reaches, halt, parsed⟩ := parser.exists_call
  obtain ⟨same, here, inside, fits⟩ := on
  have start : (Place.start parser.cursor).cursor = (Cursor.ofText text).drop (parser.index text) := here
  obtain ⟨m, later, middle, -⟩ := reaches.movedTo start
  obtain ⟨n, further, reached, -⟩ := halt.movedTo middle
  rw [← same] at fits
  have counts := counts_of_reaches fits reaches
  have stops : parser.parse.parser.cursor = (Cursor.ofText text).drop n := by rw [parsed, reached]
  refine ⟨on_of_drop ?_ stops ?_, ?_⟩
  · rw [parsed, same]
  · rw [parsed, ← same]
    exact counts.fits
  · rw [index_of_drop stops]
    exact Nat.le_min.mpr ⟨Nat.le_trans later further, inside⟩

theorem nesting_parse (parser : Parser) :
    closures (closings parser.parse.events) (parser.passed.map Glyph.char) ≤
      openings (closings parser.parse.events) (parser.passed.map Glyph.char) ∧
    parser.parse.parser.nesting =
      parser.nesting + unclosed (closings parser.parse.events) (parser.passed.map Glyph.char) := by
  obtain ⟨last, events, outcome, cursor, event, reaches, halt, parsed⟩ := parser.exists_call
  obtain ⟨before, rest, balance, -⟩ := reaches.balance
  obtain ⟨behind, rest', balance'⟩ := halt.balance
  have passed : parser.passed = before ++ behind := by
    apply passed_eq
    rw [parsed, List.append_assoc, ← rest']
    exact rest
  obtain ⟨closed, level⟩ := (balance.append balance').of_none
  rw [passed, parsed, List.map_append, closings_append]
  refine ⟨closed, ?_⟩
  rw [← level]
  rfl

private theorem shorter_or_stuck (parser : Parser) (known : ∀ c, parser.cursor.token ≠ .foreign c) :
    parser.parse.parser.cursor.rest.length < parser.cursor.rest.length ∨ parser.Stuck := by
  obtain ⟨last, events, outcome, cursor, event, reaches, halt, parsed⟩ := parser.exists_call
  have stops : parser.parse.parser.cursor = cursor := by rw [parsed]
  rw [stops]
  rcases reaches.shorter rfl with ⟨rfl, rfl⟩ | shorter
  · rcases halt.of_due rfl known with shorter | ⟨rfl, rfl, fault, rfl, refused⟩
    · exact .inl shorter
    · right
      constructor
      · rw [parsed]
        rfl
      · rw [parsed]
        rfl
      · rw [parsed]
        rcases refused with rfl | rfl
        · exact .inl rfl
        · exact .inr rfl
  · obtain ⟨passed, rest, -⟩ := halt.balance
    rw [rest, List.length_append] at shorter
    exact .inl (Nat.lt_of_le_of_lt (Nat.le_add_left _ _) shorter)

theorem parse_ok {e : Expr} (ok : parser.parse.outcome = .ok e) :
    parser.parse.parser.nesting = parser.nesting ∧
      (parser.calculator.strictness = .strict → parser.parse.parser.cursor.rest = []) := by
  obtain ⟨last, events, outcome, cursor, event, reaches, halt, parsed⟩ := parser.exists_call
  rw [parsed] at ok ⊢
  cases mapError_eq_ok_iff.mp ok
  obtain ⟨factor, read, outside, -⟩ := halt.ok
  refine ⟨?_, halt.ok_of_strict⟩
  rw [depth, outside]
  rfl

private theorem Stuck.failed (stuck : parser.Stuck) : ∃ e, parser.parse.outcome = .error e := by
  rcases stuck.refused with missing | deep
  · exact ⟨_, missing⟩
  · exact ⟨_, deep⟩

theorem On.known (on : parser.On calculator text) (valid : Valid text) {events : List Event} {place : Place}
    (reaches : parser.Reaches events place) (c : Char) : place.cursor.token ≠ .foreign c := by
  obtain ⟨n, -, reached, -⟩ := reaches.movedTo on.here
  rw [reached]
  exact (Cursor.parts_drop text n).known valid c

private theorem On.progress (on : parser.On calculator text) (valid : Valid text) : parser.Progress text := by
  have moves := (parser.shorter_or_stuck (on.known valid (.refl _))).imp_left on.index_lt
  have fits : parser.nesting ≤ parser.calculator.maxDepth := by
    rw [on.same]
    exact on.fits
  obtain ⟨closed, left⟩ := parser.nesting_parse
  refine ⟨fun _ _ reaches => counts_of_reaches fits reaches, on.parse.2, closed, left, fun e ok => ?_, moves⟩
  obtain ⟨kept, strictly⟩ := parse_ok ok
  refine ⟨kept, moves.resolve_right fun stuck => ?_, fun strict => ?_⟩
  · obtain ⟨fault, failed⟩ := stuck.failed
    cases ok.symm.trans failed
  · rw [index, strictly strict]
    rfl

private theorem after_succ (parser : Parser) (n : Nat) : parser.after (n + 1) = (parser.after n).parse.parser :=
  Function.iterate_succ_apply' _ _ _

private theorem Stuck.after_eq {n : Nat} (stuck : (parser.after n).Stuck) {m : Nat} (later : n ≤ m) :
    parser.after m = parser.after n := by
  induction later with
  | refl => rfl
  | step _ ih => rw [after_succ, ih, stuck.unchanged]

theorem On.after (on : parser.On calculator text) (n : Nat) : (parser.after n).On calculator text := by
  induction n with
  | zero => exact on
  | succ n ih =>
    rw [after_succ]
    exact ih.parse.1

private theorem On.le_index_or_stuck (on : parser.On calculator text) (valid : Valid text) (n : Nat) :
    n ≤ (parser.after n).index text ∨ (parser.after n).Stuck := by
  induction n with
  | zero => exact .inl (Nat.zero_le _)
  | succ n ih =>
    -- a call that is not stuck passes a character at least, and one that is stuck is repeated
    rw [after_succ]
    have progress := (on.after n).progress valid
    rcases progress.moves with further | stuck
    · rcases ih with passed | stuck
      · exact .inl (by omega)
      · rw [stuck.unchanged] at further
        exact absurd further (Nat.lt_irrefl _)
    · rw [stuck.unchanged]
      exact .inr stuck

private theorem On.stuck (on : parser.On calculator text) (valid : Valid text) :
    (parser.after (dense text).length).Stuck := by
  rcases on.le_index_or_stuck valid (dense text).length with ended | stuck
  · have later := (on.after (dense text).length).parse.1.inside
    exact ((on.after _).progress valid).moves.resolve_left (by omega)
  · exact stuck

end Parser

/-- However often a parser is called, it stays on its text, and each call goes further or changes nothing. A call
that changes nothing is repeated for ever, and as many calls as there are characters come to one. -/
theorem calls_progress (calculator : Calculator) (text : String) (parser : Parser)
    (made : Parser.ofText calculator text = .ok parser) :
    (∀ n, (parser.after n).On calculator text ∧ (parser.after n).Progress text) ∧
    (∀ n, (parser.after n).Stuck → ∀ m, n ≤ m → parser.after m = parser.after n) ∧
    ∃ e, ∀ n, (dense text).length ≤ n → (parser.after n).parse.outcome = .error e := by
  obtain ⟨valid, -⟩ := Parser.eq_of_ofText made
  have on := Parser.On.of_ofText made
  refine ⟨fun n => ⟨on.after n, (on.after n).progress valid⟩, fun n stuck m later => stuck.after_eq later, ?_⟩
  have stuck := on.stuck valid
  obtain ⟨e, failed⟩ := stuck.failed
  refine ⟨e, fun n later => ?_⟩
  rw [stuck.after_eq later, failed]

theorem calls_progress_left_open :
    let calculator : Calculator := ⟨.strict, 1, by decide, by decide⟩
    ∃ parser, Parser.ofText calculator "(1 (2)" = .ok parser ∧ (parser.after 1).nesting = 1 ∧
      (parser.after 1).index "(1 (2)" = 2 ∧ (parser.after 1).Stuck ∧
      ∀ n, 1 ≤ n → (parser.after n).parse.outcome = .error ⟨[3], .nestingTooDeep 1⟩ := by
  intro calculator
  let parser : Parser := ⟨calculator, .ofText "(1 (2)", 0⟩
  have valid : Valid "(1 (2)" := (checkText_eq_ok_iff _).mp rfl
  have made : Parser.ofText calculator "(1 (2)" = .ok parser := Calculator.ofText_of_valid valid
  obtain ⟨progress, repeated, -⟩ := calls_progress calculator "(1 (2)" parser made
  have index : (parser.after 1).index "(1 (2)" = 2 := by decide +kernel
  have index' : (parser.after 1).parse.parser.index "(1 (2)" = 2 := by decide +kernel
  have stuck : (parser.after 1).Stuck := (progress 1).2.moves.resolve_left (by rw [index, index']; decide)
  have refused : (parser.after 1).parse.outcome.map (fun _ => ()) = .error ⟨[3], .nestingTooDeep 1⟩ := by decide +kernel
  refine ⟨parser, made, by decide +kernel, index, stuck, fun n later => ?_⟩
  rw [repeated 1 stuck n later]
  exact map_eq_error_iff.mp refused

end Abacus
