import Abacus.Text

/-! Why a text is not an expression, and where that was noticed. -/
namespace Abacus

inductive NumeralFault
  | invalid
  | empty
deriving DecidableEq, Repr

def NumeralFault.message : NumeralFault → String
  | invalid => "invalid float literal"
  | empty => "cannot parse float from empty string"

inductive Fault
  | empty
  | invalidCharacter (c : Char)
  | invalidNumber
  | malformedNumber (literal : String) (cause : NumeralFault)
  | unclosedParenthesis
  | trailingInput (c : Char)
  | nestingTooDeep (limit : Nat)
deriving DecidableEq, Repr

inductive FaultKind
  | invalidCharacter
  | invalidNumber
  | malformedStructure
  | nestingTooDeep
deriving DecidableEq, Repr

namespace Fault

def kind : Fault → FaultKind
  | empty | invalidCharacter _ => .invalidCharacter
  | invalidNumber | malformedNumber _ _ => .invalidNumber
  | unclosedParenthesis | trailingInput _ => .malformedStructure
  | nestingTooDeep _ => .nestingTooDeep

def message : Fault → String
  | empty => "Input string is empty"
  | invalidCharacter c => "Invalid character: " ++ Text.quoteChar c
  | invalidNumber => "Invalid number: expected a digit"
  | malformedNumber literal cause => "Malformed number " ++ Text.quote literal ++ ": " ++ cause.message
  | unclosedParenthesis => "Parenthesis was not closed"
  | trailingInput c => "Unexpected trailing input: " ++ Text.quoteChar c
  | nestingTooDeep limit => "Parentheses nest deeper than " ++ toString limit ++ " levels"

/-- The fault that lies beneath this one, which only a malformed number has. -/
def cause? : Fault → Option NumeralFault
  | malformedNumber _ cause => some cause
  | _ => none

end Fault

/-- A fault with the positions it was reported at, the outermost report first. -/
structure ParseError where
  positions : List Nat
  fault : Fault
deriving DecidableEq, Repr

namespace ParseError

def bare (fault : Fault) : ParseError := ⟨[], fault⟩

def kind (e : ParseError) : FaultKind := e.fault.kind

def position? (e : ParseError) : Option Nat := e.positions.head?

def inner (e : ParseError) : ParseError := ⟨e.positions.tail, e.fault⟩

/-- What lies beneath the error itself, which a report does not show. -/
def cause? (e : ParseError) : Option NumeralFault :=
  match e.positions with
  | [] => e.fault.cause?
  | _ :: _ => none

def reportedAt (e : ParseError) (position : Nat) : ParseError := ⟨position :: e.positions, e.fault⟩

/-- The error at a position, unless it has one already. -/
def atPosition (e : ParseError) (position : Nat) : ParseError :=
  match e.positions with
  | [] => e.reportedAt position
  | _ :: _ => e

/-- Each report puts its position in front of what it reports. -/
def message (e : ParseError) : String :=
  e.positions.foldr (fun position text => "At position " ++ toString position ++ " - " ++ text) e.fault.message

theorem atPosition_of_position {e : ParseError} {p : Nat} (known : e.position? = some p) (n : Nat) :
    e.atPosition n = e := by
  obtain ⟨positions, fault⟩ := e
  cases positions with
  | nil => simp [position?] at known
  | cons => rfl

theorem inner_reportedAt (e : ParseError) (n : Nat) : (e.reportedAt n).inner = e := rfl

theorem message_reportedAt (e : ParseError) (n : Nat) :
    (e.reportedAt n).message = "At position " ++ toString n ++ " - " ++ e.message := rfl

end ParseError

end Abacus
