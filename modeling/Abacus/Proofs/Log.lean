import Abacus.Proofs.Run

/-! What is told while an expression is read: the closing parentheses that something else took the
place of, and the position from which the rest was ignored. A run tells of the former alone, and
only the step that ends it can tell of the latter. -/
namespace Abacus

namespace Event

/-- What took the place of a closing parenthesis, and where. -/
def closing? : Event → Option (Token × Nat)
  | groupClosedBy found position => some (found, position)
  | _ => none

def closing (closing : Token × Nat) : Event := .groupClosedBy closing.1 closing.2

/-- Where the ignored rest of the text begins. -/
def trailing? : Event → Option Nat
  | trailingIgnored position => some position
  | _ => none

end Event

def closings (events : List Event) : List (Token × Nat) := events.filterMap Event.closing?

def trailings (events : List Event) : List Nat := events.filterMap Event.trailing?

theorem closings_append (before after : List Event) : closings (before ++ after) = closings before ++ closings after :=
  List.filterMap_append

private theorem trailings_append (before after : List Event) :
    trailings (before ++ after) = trailings before ++ trailings after :=
  List.filterMap_append

theorem closings_map_closing (taken : List (Token × Nat)) : closings (taken.map Event.closing) = taken := by
  rw [closings, List.filterMap_map]
  exact List.filterMap_some

private theorem trailings_map_closing (taken : List (Token × Nat)) : trailings (taken.map Event.closing) = [] := by
  rw [trailings, List.filterMap_map, List.filterMap_eq_nil_iff]
  intro closing _
  rfl

namespace Place

variable {calculator : Calculator} {strictness : Strictness} {room : Nat} {place after : Place}

theorem Advance.told {event : Event} (advance : place.Advance strictness room after (some event)) :
    strictness = .lenient ∧ place.cursor.token ≠ .rightParenthesis ∧ after.cursor = place.cursor.tail ∧
      event = .groupClosedBy place.cursor.token place.cursor.position := by
  cases advance with
  | replaced read inside lenient unclosed ended => exact ⟨lenient, unclosed, rfl, rfl⟩

theorem Run.events_of_strict {events : List Event} (run : Run .strict room place events after) : events = [] := by
  induction run with
  | refl => rfl
  | @next place middle _ event _ advance _ ih =>
    cases event with
    | none => exact ih
    | some event =>
      obtain ⟨lenient, -⟩ := advance.told
      cases lenient

theorem Run.events_eq {events : List Event} (run : Run strictness room place events after) :
    events = (closings events).map Event.closing := by
  induction run with
  | refl => rfl
  | @next place middle _ event _ advance _ ih =>
    rw [closings_append, List.map_append, ← ih]
    cases event with
    | none => rfl
    | some event =>
      obtain ⟨-, -, -, rfl⟩ := advance.told
      rfl

private theorem Run.trailings {events : List Event} (run : Run strictness room place events after) :
    trailings events = [] := by
  rw [run.events_eq]
  exact trailings_map_closing _

theorem Halt.closings {outcome : Except ParseError Expr} {cursor : Cursor} {event : Option Event}
    (halt : place.Halt calculator room outcome cursor event) : closings event.toList = [] := by
  cases halt <;> rfl

theorem Run.closings_read {events : List Event} {outcome : Except ParseError Expr} {cursor : Cursor}
    {event : Option Event} (run : Run calculator.strictness room place events after)
    (halt : after.Halt calculator room outcome cursor event) :
    Abacus.closings (place.read calculator room).events = Abacus.closings events := by
  rw [run.read_of_halt halt, closings_append, halt.closings, List.append_nil]

theorem Run.trailings_read {events : List Event} {outcome : Except ParseError Expr} {cursor : Cursor}
    {event : Option Event} (run : Run calculator.strictness room place events after)
    (halt : after.Halt calculator room outcome cursor event) :
    Abacus.trailings (place.read calculator room).events = Abacus.trailings event.toList := by
  rw [run.read_of_halt halt, trailings_append, run.trailings, List.nil_append]

end Place

end Abacus
