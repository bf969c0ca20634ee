import Abacus.Place

/-! Parsers: texts on which expressions are parsed one after the other. A parser that has failed
goes on where it stopped, and the groups it left open count against the depth limit from then on. -/
namespace Abacus

/-- What reading an expression came to: the outcome, the cursor where it stopped, the number of
groups that were open there, and what was told on the way. -/
structure Reading where
  outcome : Except ParseError Expr
  cursor : Cursor
  unclosed : Nat
  events : List Event

def Reading.after (reading : Reading) (event : Option Event) : Reading :=
  { reading with events := event.toList ++ reading.events }

/-- Reads on from a place to where the parser stops, with `room` for that many open groups. -/
def Place.read (calculator : Calculator) (room : Nat) (place : Place) : Reading :=
  match _move : place.step calculator room with
  | .next after event => (after.read calculator room).after event
  | .stop outcome cursor event => ⟨outcome, cursor, place.outer.length, event.toList⟩
termination_by place.size
decreasing_by exact Place.size_step _move

theorem Place.read_of_next {calculator : Calculator} {room : Nat} {place after : Place} {event : Option Event}
    (move : place.step calculator room = .next after event) :
    place.read calculator room = (after.read calculator room).after event := by
  rw [Place.read]
  split <;> simp_all

theorem Place.read_of_stop {calculator : Calculator} {room : Nat} {place : Place}
    {outcome : Except ParseError Expr} {cursor : Cursor} {event : Option Event}
    (move : place.step calculator room = .stop outcome cursor event) :
    place.read calculator room = ⟨outcome, cursor, place.outer.length, event.toList⟩ := by
  rw [Place.read]
  split <;> simp_all

/-- A text in the course of being parsed. `nesting` counts the groups that failed expressions left open. -/
structure Parser where
  calculator : Calculator
  cursor : Cursor
  nesting : Nat

/-- The answer of a parser: the expression or why there is none, what was told, and the parser
that goes on from there. -/
structure Report where
  outcome : Except ParseError Expr
  events : List Event
  parser : Parser

namespace Parser

def ofText (calculator : Calculator) (text : String) : Except ParseError Parser :=
  (checkText text).map fun _ => ⟨calculator, .ofText text, 0⟩

/-- The parser of a text under the default settings. -/
def new (text : String) : Except ParseError Parser := ofText .default text

/-- Parses one expression. An error without a position gets that of the cursor. -/
def parse (parser : Parser) : Report :=
  let reading := (Place.start parser.cursor).read parser.calculator (parser.calculator.maxDepth - parser.nesting)
  { outcome := reading.outcome.mapError fun e => e.atPosition reading.cursor.position
    events := reading.events
    parser := { parser with cursor := reading.cursor, nesting := parser.nesting + reading.unclosed } }

end Parser

end Abacus
