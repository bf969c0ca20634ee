import Abacus.Proofs.Calls
import Abacus.Proofs.Simulation

/-! A parser that has been called before. The next call is the first call on the rest of the text, under a limit
lowered by the groups that were left open: they do nothing else. -/
namespace Abacus

namespace Descent

namespace State

variable {frame : Frame} (state : State frame)

/-- The frame of what is left, in the text and of the limit. -/
def rest : Frame :=
  { frame with maxDepth := frame.maxDepth - state.nesting, input := frame.input.drop state.cursor }

private theorem cursor_eq : state.cursor = frame.input.length - state.view.rest.length := by
  have left := state.left_eq
  have inside := state.inside
  rw [State.left] at left
  omega

/-- A call from any state is the first call on the rest. -/
private theorem parse_rest :
    state.parse.outcome = state.rest.first.parse.outcome.mapError (fun e => e.withLimit frame.maxDepth) ∧
    state.rest.first.parse.outcome =
      state.parse.outcome.mapError (fun e => e.withLimit (frame.maxDepth - state.nesting)) ∧
    state.parse.events = state.rest.first.parse.events ∧
    state.parse.state.cursor = state.cursor + state.rest.first.parse.state.cursor ∧
    state.parse.state.nesting = state.nesting + state.rest.first.parse.state.nesting := by
  let calculator := Calculator.default.under frame.strictness
  have call := @parse_matches frame calculator rfl state
  -- the machine reads the same text in the same room
  have first : state.rest.first.parse.Matches id 0
      ((Place.start state.view).read calculator (frame.maxDepth - state.nesting)) :=
    @parse_matches state.rest calculator rfl state.rest.first
  generalize (Place.start state.view).read calculator (frame.maxDepth - state.nesting) = reading at call first
  refine ⟨?_, ?_, ?_, ?_, ?_⟩
  · rw [call.outcome, first.outcome]
    cases reading.outcome with
    | ok e => rfl
    | error e => exact congrArg Except.error (ParseError.withLimit_withLimit _ _ _).symm
  · rw [call.outcome, first.outcome]
    cases reading.outcome with
    | ok e => rfl
    | error e => exact congrArg Except.error (ParseError.withLimit_withLimit _ _ _).symm
  · rw [call.events, first.events]
  · have length : state.rest.input.length = frame.input.length - state.cursor := List.length_drop
    have inside := state.rest.first.parse.state.inside
    have behind := state.rest.first.parse.state.cursor_eq
    have before := state.inside
    rw [state.parse.state.cursor_eq, call.view, ← first.view]
    rw [← State.left, State.left_eq]
    omega
  · rw [call.nesting, first.nesting, Nat.zero_add]

end State

end Descent

namespace Parser

open Descent

variable {calculator : Calculator} {text : String} {parser : Parser}

/-- The state of a parser on its text. -/
def state (calculator : Calculator) (text : String) (parser : Parser) : State (.ofText calculator text 0 0) where
  cursor := parser.index text
  nesting := parser.nesting
  inside := by
    have length := Cursor.length_rest_ofText text
    have within : parser.index text ≤ (dense text).length := Nat.sub_le _ _
    rwa [← length] at within

private theorem On.matches (on : parser.On calculator text) :
    (parser.state calculator text).parse.outcome = parser.parse.outcome ∧
    (parser.state calculator text).parse.events = parser.parse.events ∧
    (parser.state calculator text).parse.state.cursor = parser.parse.parser.index text ∧
    (parser.state calculator text).parse.state.nesting = parser.parse.parser.nesting := by
  obtain ⟨rfl, here, inside, fits⟩ := on
  have view : (parser.state parser.calculator text).view = parser.cursor := here.symm
  have call : (parser.state parser.calculator text).parse.Matches id parser.nesting parser.reading := by
    have call := @parse_matches (.ofText parser.calculator text 0 0) parser.calculator rfl (parser.state _ text)
    rwa [view] at call
  refine ⟨?_, call.events, ?_, call.nesting⟩
  · have reported : parser.parse.outcome =
        parser.reading.outcome.mapError fun e => e.atPosition parser.reading.cursor.position := rfl
    rw [call.outcome, reported]
    cases failed : parser.reading.outcome with
    | ok e => rfl
    | error e => exact congrArg Except.error (Place.read_withLimit failed _)
  · rw [State.cursor_eq, call.view, index, ← Cursor.length_rest_ofText]
    rfl

end Parser

/-- A parser goes on as a parser of the rest of the text would begin, with the groups that were left open taken from
its limit. It comes to the same tree or to the same error, which may tell of the limit; it tells the same, passes as
much, and leaves as many groups open. Reading by recursive descent, the open groups counted, is what says how a
parser works whose limit is 0. -/
theorem parse_resumed (calculator : Calculator) (text : String) (parser : Parser)
    (made : Parser.ofText calculator text = .ok parser) (n : Nat) :
    let resumed := parser.after n
    let state := resumed.state calculator text
    let fresh := (Descent.Frame.ofText calculator text (resumed.index text) resumed.nesting).first.parse
    resumed.nesting ≤ calculator.maxDepth ∧
    (state.parse.outcome = resumed.parse.outcome ∧ state.parse.events = resumed.parse.events ∧
      state.parse.state.cursor = resumed.parse.parser.index text ∧
      state.parse.state.nesting = resumed.parse.parser.nesting) ∧
    resumed.parse.outcome = fresh.outcome.mapError (fun e => e.withLimit calculator.maxDepth) ∧
    fresh.outcome = resumed.parse.outcome.mapError (fun e => e.withLimit (calculator.maxDepth - resumed.nesting)) ∧
    resumed.parse.events = fresh.events ∧
    resumed.parse.parser.index text = resumed.index text + fresh.state.cursor ∧
    resumed.parse.parser.nesting = resumed.nesting + fresh.state.nesting := by
  intro resumed state fresh
  have on := (Parser.On.of_ofText made).after n
  have call := on.matches
  refine ⟨on.fits, call, ?_⟩
  obtain ⟨outcome, events, cursor, nesting⟩ := call
  rw [← outcome, ← events, ← cursor, ← nesting]
  exact state.parse_rest

theorem parse_resumed_without_room :
    let calculator : Calculator := ⟨.strict, 1, by decide, by decide⟩
    let fresh := (Descent.Frame.ofText calculator "(1 (2)" 2 1).first.parse
    ∃ parser, Parser.ofText calculator "(1 (2)" = .ok parser ∧
      (parser.after 1).parse.outcome = .error ⟨[3], .nestingTooDeep 1⟩ ∧
      fresh.outcome = .error ⟨[3], .nestingTooDeep 0⟩ ∧ fresh.state.cursor = 0 := by
  intro calculator fresh
  let parser : Parser := ⟨calculator, .ofText "(1 (2)", 0⟩
  have valid : Valid "(1 (2)" := (checkText_eq_ok_iff _).mp rfl
  have made : Parser.ofText calculator "(1 (2)" = .ok parser := Calculator.ofText_of_valid valid
  have index : (parser.after 1).index "(1 (2)" = 2 := by decide +kernel
  have index' : (parser.after 1).parse.parser.index "(1 (2)" = 2 := by decide +kernel
  have nesting : (parser.after 1).nesting = 1 := by decide +kernel
  have refused : (parser.after 1).parse.outcome.map (fun _ => ()) = .error ⟨[3], .nestingTooDeep 1⟩ := by decide +kernel
  have failed := map_eq_error_iff.mp refused
  obtain ⟨-, -, -, outcome, -, cursor, -⟩ := parse_resumed calculator "(1 (2)" parser made 1
  rw [index, nesting] at outcome cursor
  rw [index'] at cursor
  refine ⟨parser, made, failed, ?_, Nat.add_left_cancel cursor.symm⟩
  rw [outcome, failed]
  rfl

end Abacus
