import Abacus.Parser

/-! Runs from place to place. What a step can do is said once, by `Advance` for the steps that go on
and by `Halt` for those that end; everything else about runs follows from these two. -/
namespace Abacus.Place

/-- The steps that go on, each with the place it leads to and what it tells. -/
inductive Advance (strictness : Strictness) (room : Nat) (place : Place) : Place → Option Event → Prop
  | opened (due : place.factor = none) (token : place.cursor.token = .leftParenthesis)
      (fits : place.outer.length < room) :
      Advance strictness room place ⟨place.cursor.tail, .fresh, place.level :: place.outer, none⟩ none
  | numeral {value : Float} (due : place.factor = none) (token : place.cursor.token = .number)
      (ok : place.cursor.numeral = .ok value) :
      Advance strictness room place ⟨place.cursor.pastRun, place.level, place.outer, some (.literal value)⟩ none
  | operator {factor : Expr} {op : Operator} (read : place.factor = some factor)
      (token : place.cursor.token = .operator op) :
      Advance strictness room place ⟨place.cursor.tail, place.level.await factor op, place.outer, none⟩ none
  | closed {factor : Expr} {level : Level} {outer : List Level} (read : place.factor = some factor)
      (inside : place.outer = level :: outer) (token : place.cursor.token = .rightParenthesis) :
      Advance strictness room place ⟨place.cursor.tail, level, outer, some (place.level.expr factor)⟩ none
  | replaced {factor : Expr} {level : Level} {outer : List Level} (read : place.factor = some factor)
      (inside : place.outer = level :: outer) (lenient : strictness = .lenient)
      (unclosed : place.cursor.token ≠ .rightParenthesis) (ended : ∀ op, place.cursor.token ≠ .operator op) :
      Advance strictness room place ⟨place.cursor.tail, level, outer, some (place.level.expr factor)⟩
        (some (.groupClosedBy place.cursor.token place.cursor.position))

/-- The steps that end, each with its outcome, the cursor it leaves and what it tells. -/
inductive Halt (calculator : Calculator) (room : Nat) (place : Place) :
    Except ParseError Expr → Cursor → Option Event → Prop
  | full (due : place.factor = none) (token : place.cursor.token = .leftParenthesis)
      (full : room ≤ place.outer.length) :
      Halt calculator room place (.error (.bare (.nestingTooDeep calculator.maxDepth))) place.cursor none
  | malformed {e : ParseError} (due : place.factor = none) (token : place.cursor.token = .number)
      (fault : place.cursor.numeral = .error e) : Halt calculator room place (.error e) place.cursor.pastRun none
  | foreign {c : Char} (due : place.factor = none) (token : place.cursor.token = .foreign c) :
      Halt calculator room place (.error (.bare (.invalidCharacter c))) place.cursor none
  | missing (due : place.factor = none) (opening : place.cursor.token ≠ .leftParenthesis)
      (digit : place.cursor.token ≠ .number) (known : ∀ c, place.cursor.token ≠ .foreign c) :
      Halt calculator room place (.error (.bare .invalidNumber)) place.cursor none
  | unclosed {factor : Expr} {level : Level} {outer : List Level} (read : place.factor = some factor)
      (inside : place.outer = level :: outer) (strict : calculator.strictness = .strict)
      (unclosed : place.cursor.token ≠ .rightParenthesis) (ended : ∀ op, place.cursor.token ≠ .operator op) :
      Halt calculator room place (.error (.bare .unclosedParenthesis)) place.cursor none
  | finished {factor : Expr} (read : place.factor = some factor) (outside : place.outer = [])
      (done : place.cursor.head? = none) : Halt calculator room place (.ok (place.level.expr factor)) place.cursor none
  | ignored {factor : Expr} {c : Char} (read : place.factor = some factor) (outside : place.outer = [])
      (lenient : calculator.strictness = .lenient) (more : place.cursor.head? = some c)
      (ended : ∀ op, place.cursor.token ≠ .operator op) :
      Halt calculator room place (.ok (place.level.expr factor)) place.cursor
        (some (.trailingIgnored place.cursor.position))
  | trailing {factor : Expr} {c : Char} (read : place.factor = some factor) (outside : place.outer = [])
      (strict : calculator.strictness = .strict) (more : place.cursor.head? = some c)
      (ended : ∀ op, place.cursor.token ≠ .operator op) :
      Halt calculator room place (.error (.bare (.trailingInput c))) place.cursor none

end Abacus.Place

namespace Abacus

def Place.Moves (calculator : Calculator) (room : Nat) (place : Place) : Move → Prop
  | .next after event => place.Advance calculator.strictness room after event
  | .stop outcome cursor event => place.Halt calculator room outcome cursor event

namespace Place

variable {calculator : Calculator} {room : Nat}

private theorem moves_beforeFactor {place : Place} (due : place.factor = none) :
    place.Moves calculator room (place.beforeFactor calculator room) := by
  unfold beforeFactor
  split
  · rename_i token
    unfold enter
    split
    · exact .full due token ‹_›
    · exact .opened due token (by omega)
  · rename_i token
    unfold takeNumeral
    split
    · exact .numeral due token ‹_›
    · exact .malformed due token ‹_›
  · exact .foreign due ‹_›
  · rename_i opening digit known
    exact .missing due opening digit known

private theorem moves_afterFactor {place : Place} {factor : Expr} (read : place.factor = some factor) :
    place.Moves calculator room (place.afterFactor calculator.strictness factor) := by
  unfold afterFactor
  split
  · exact .operator read ‹_›
  · rename_i ended
    split
    · rename_i level outer inside
      unfold leave
      split
      · exact .closed read inside ‹_›
      · rename_i lenient unclosed
        exact .replaced read inside lenient unclosed ended
      · rename_i strict unclosed
        exact .unclosed read inside strict unclosed ended
    · rename_i outside
      unfold conclude
      split
      · exact .finished read outside ‹_›
      · rename_i more lenient
        exact .ignored read outside lenient more ended
      · rename_i more strict
        exact .trailing read outside strict more ended

private theorem moves_step (place : Place) : place.Moves calculator room (place.step calculator room) := by
  unfold step
  split
  · exact moves_beforeFactor ‹_›
  · exact moves_afterFactor ‹_›

private theorem Advance.step_eq {place after : Place} {event : Option Event}
    (advance : place.Advance calculator.strictness room after event) :
    place.step calculator room = .next after event := by
  cases advance with
  | opened due token fits =>
    simp only [step, due, beforeFactor, token, enter, Nat.not_le.mpr fits, if_false]
  | numeral due token ok => simp only [step, due, beforeFactor, token, takeNumeral, ok]
  | operator read token => simp only [step, read, afterFactor, token]
  | closed read inside token => simp only [step, read, afterFactor, token, inside, leave]
  | replaced read inside lenient unclosed ended => simp only [step, read, afterFactor, inside, leave, lenient]

private theorem Halt.step_eq {place : Place} {outcome : Except ParseError Expr} {cursor : Cursor} {event : Option Event}
    (halt : place.Halt calculator room outcome cursor event) :
    place.step calculator room = .stop outcome cursor event := by
  cases halt with
  | full due token full => simp only [step, due, beforeFactor, token, enter, full, if_true]
  | malformed due token fault => simp only [step, due, beforeFactor, token, takeNumeral, fault]
  | foreign due token => simp only [step, due, beforeFactor, token]
  | missing due opening digit known => simp only [step, due, beforeFactor]
  | unclosed read inside strict unclosed ended => simp only [step, read, afterFactor, inside, leave, strict]
  | finished read outside done =>
    have token : place.cursor.token = .endOfText := by rw [Cursor.token, done]
    simp only [step, read, afterFactor, token, outside, conclude, done]
  | ignored read outside lenient more ended => simp only [step, read, afterFactor, outside, conclude, more, lenient]
  | trailing read outside strict more ended => simp only [step, read, afterFactor, outside, conclude, more, strict]

inductive Run (strictness : Strictness) (room : Nat) : Place → List Event → Place → Prop
  | refl (place : Place) : Run strictness room place [] place
  | next {place middle after : Place} {event : Option Event} {events : List Event}
      (advance : place.Advance strictness room middle event) (rest : Run strictness room middle events after) :
      Run strictness room place (event.toList ++ events) after

theorem Run.trans {strictness : Strictness} {place middle after : Place} {before later : List Event}
    (run : Run strictness room place before middle) (rest : Run strictness room middle later after) :
    Run strictness room place (before ++ later) after := by
  induction run with
  | refl => exact rest
  | next advance _ ih =>
    rw [List.append_assoc]
    exact .next advance (ih rest)

private theorem Run.read {place after : Place} {events : List Event}
    (run : Run calculator.strictness room place events after) :
    place.read calculator room =
      { after.read calculator room with events := events ++ (after.read calculator room).events } := by
  induction run with
  | refl => rfl
  | next advance _ ih =>
    rw [read_of_next advance.step_eq, ih, Reading.after, List.append_assoc]

theorem Run.read_of_halt {place last : Place} {events : List Event} {outcome : Except ParseError Expr}
    {cursor : Cursor} {event : Option Event} (run : Run calculator.strictness room place events last)
    (halt : last.Halt calculator room outcome cursor event) :
    place.read calculator room = ⟨outcome, cursor, last.outer.length, events ++ event.toList⟩ := by
  rw [run.read, read_of_stop halt.step_eq]

theorem exists_run (place : Place) :
    ∃ (last : Place) (events : List Event) (outcome : Except ParseError Expr) (cursor : Cursor) (event : Option Event),
      Run calculator.strictness room place events last ∧ last.Halt calculator room outcome cursor event := by
  -- every step that goes on leaves less to read
  induction size : place.size using Nat.strongRecOn generalizing place with
  | ind n ih =>
    have moves := @moves_step calculator room place
    cases move : place.step calculator room with
    | next after event =>
      rw [move] at moves
      obtain ⟨last, events, outcome, cursor, told, run, halt⟩ := ih after.size (size ▸ size_step move) after rfl
      exact ⟨last, event.toList ++ events, outcome, cursor, told, .next moves run, halt⟩
    | stop outcome cursor event =>
      rw [move] at moves
      exact ⟨place, [], outcome, cursor, event, .refl place, moves⟩

end Place

end Abacus
