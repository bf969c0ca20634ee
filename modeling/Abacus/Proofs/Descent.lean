import Abacus.Calculator
import Abacus.Proofs.Grammar

/-! Recursive descent with a counter. The text is a list of glyphs with an index into it, and open groups are
counted: one more from an opening parenthesis on, one less once the group has been read, and none less when that
fails. The limit may be anything, 0 included. What is made of what is read is left open: a tree of it, or a value with
no tree at all. -/
namespace Abacus

namespace Cursor

private theorem length_tail_le (cursor : Cursor) : cursor.tail.rest.length ≤ cursor.rest.length := by
  rw [tail, List.length_tail]
  exact Nat.sub_le _ _

theorem operator_eq_some_iff {cursor : Cursor} {p : Precedence} {op : Operator} :
    cursor.head?.bind (Grammar.operator? p) = some op ↔ cursor.token = .operator op ∧ op.precedence = p := by
  rw [token]
  cases cursor.head? with
  | none => simp
  | some c =>
    have sign : c = op.symbol ↔ Token.ofChar c = .operator op :=
      ⟨fun same => same ▸ Token.ofChar_symbol op, Token.eq_symbol_of_ofChar⟩
    rw [Option.bind_some, Grammar.operator_eq_some_iff, sign, and_comm]

end Cursor

namespace Descent

/-- What no call changes: the strictness, the limit, and the glyphs and the end of the text. -/
structure Frame where
  strictness : Strictness
  maxDepth : Nat
  input : List Glyph
  stop : Nat

/-- The index of the next glyph, and how many groups are open. -/
structure State (frame : Frame) where
  cursor : Nat
  nesting : Nat
  inside : cursor ≤ frame.input.length

/-- A calculator at a text from an index on, with that many groups open that are not to be closed. -/
def Frame.ofText (calculator : Calculator) (text : String) (passed nesting : Nat) : Frame :=
  ⟨calculator.strictness, calculator.maxDepth - nesting, (glyphs text.toList).drop passed, text.length⟩

def Frame.first (frame : Frame) : State frame := ⟨0, 0, Nat.zero_le _⟩

variable {frame : Frame}

namespace State

variable (state : State frame)

/-- The glyphs from the index on. -/
def view : Cursor := ⟨frame.input.drop state.cursor, frame.stop⟩

def left : Nat := state.view.rest.length

def advance : State frame :=
  if more : state.cursor < frame.input.length then ⟨state.cursor + 1, state.nesting, more⟩ else state

theorem left_eq : state.left = frame.input.length - state.cursor := List.length_drop

def pastRun : State frame where
  cursor := state.cursor + state.view.run.length
  nesting := state.nesting
  inside := by
    have taken := state.view.length_run_le
    have left := state.left_eq
    have inside := state.inside
    rw [State.left] at left
    omega

def enter : State frame := ⟨state.advance.cursor, state.nesting + 1, state.advance.inside⟩

def leave : State frame := ⟨state.advance.cursor, state.nesting - 1, state.advance.inside⟩

theorem view_advance : state.advance.view = state.view.tail := by
  unfold advance
  split
  · rw [view, view, Cursor.tail, List.tail_drop]
  · rename_i ended
    have empty : frame.input.drop state.cursor = [] := List.drop_eq_nil_of_le (Nat.le_of_not_lt ended)
    rw [view, Cursor.tail, empty, List.tail_nil]

theorem nesting_advance : state.advance.nesting = state.nesting := by
  unfold advance
  split <;> rfl

theorem view_pastRun : state.pastRun.view = state.view.pastRun := by
  rw [Cursor.pastRun_eq_drop, Cursor.drop, view, view, List.drop_drop]
  rfl

theorem view_enter : state.enter.view = state.view.tail := state.view_advance

theorem view_leave : state.leave.view = state.view.tail := state.view_advance

theorem left_advance_le : state.advance.left ≤ state.left := by
  rw [left, left, view_advance]
  exact state.view.length_tail_le

theorem left_advance_lt {state : State frame} (more : state.view.token ≠ .endOfText) :
    state.advance.left < state.left := by
  rw [left, left, view_advance]
  exact state.view.length_tail more

end State

/-- What is made of what is read: something of each number, and of operands with operators between them something
that grows with each further one. -/
structure Meaning (α β : Type) where
  literal : Float → α
  begin : α → β
  extend : β → Operator → α → β
  result : β → α

/-- Trees, which keep all operands of a phrase until its end. -/
def tree : Meaning Expr Operands where
  literal := .literal
  begin e := ⟨e, []⟩
  extend operands op e := ⟨operands.first, (op, e) :: operands.later⟩
  result := Operands.expr

/-- What has been read and the state behind it, with less left than there was before. -/
structure Read (frame : Frame) (α : Type) (bound : Nat) where
  value : α
  state : State frame
  shorter : state.left < bound

structure Failure (frame : Frame) where
  error : ParseError
  state : State frame

/-- A value, or an error with the state it was noticed in, and what was told by then. -/
def Answer (frame : Frame) (α : Type) := Logged (Except (Failure frame) α)

instance : Monad (Answer frame) where
  pure a := ⟨.ok a, []⟩
  bind answer next := match answer.result with
    | .ok a => ⟨(next a).result, answer.events ++ (next a).events⟩
    | .error failure => ⟨.error failure, answer.events⟩

def fail {α : Type} (fault : Fault) (state : State frame) : Answer frame α := ⟨.error ⟨.bare fault, state⟩, []⟩

variable {α β : Type}

namespace Read

variable {bound wider : Nat}

def within (read : Read frame α bound) (le : bound ≤ wider) : Read frame α wider :=
  ⟨read.value, read.state, Nat.lt_of_lt_of_le read.shorter le⟩

def map (f : α → β) (read : Read frame α bound) : Read frame β bound := ⟨f read.value, read.state, read.shorter⟩

def close (read : Read frame α bound) : Read frame α bound :=
  ⟨read.value, read.state.leave, Nat.lt_of_le_of_lt read.state.left_advance_le read.shorter⟩

def extend (meaning : Meaning α β) (left : Read frame β bound) (op : Operator)
    (right : Read frame α left.state.advance.left) : Read frame β bound where
  value := meaning.extend left.value op right.value
  state := right.state
  shorter := Nat.lt_trans right.shorter (Nat.lt_of_le_of_lt left.state.left_advance_le left.shorter)

end Read

def number (meaning : Meaning α β) (state : State frame) : Answer frame (Read frame α state.left) :=
  match ok : state.view.numeral with
  | .ok value => pure ⟨meaning.literal value, state.pastRun, by
      rw [State.left, state.view_pastRun]
      exact Cursor.length_pastRun ok⟩
  | .error e => ⟨.error ⟨e, state.pastRun⟩, []⟩

/-- Passes what closes a group. Only then is there one group less. -/
def close {bound : Nat} (inner : Read frame α bound) : Answer frame (Read frame α bound) :=
  match inner.state.view.token with
  | .rightParenthesis => pure inner.close
  | found => match frame.strictness with
    | .lenient => ⟨.ok inner.close, [.groupClosedBy found inner.state.view.position]⟩
    | .strict => fail .unclosedParenthesis inner.state

-- An operand of a sum is read as a product, and nothing has been passed by then.
def height : Precedence → Nat
  | .sum => 2
  | .product => 0

mutual

/-- Operands with the operators of one precedence between them. -/
def phrase (meaning : Meaning α β) (p : Precedence) (state : State frame) :
    Answer frame (Read frame α state.left) := do
  let first ← operand meaning p state
  steps meaning p (first.map meaning.begin)
termination_by (state.left, height p + 1)
decreasing_by
  · exact .right _ (Nat.lt_succ_self _)
  · exact .left _ _ first.shorter

/-- The operands of a sum are products, those of a product are groups and numbers. -/
def operand (meaning : Meaning α β) (p : Precedence) (state : State frame) :
    Answer frame (Read frame α state.left) :=
  match p with
  | .sum => phrase meaning .product state
  | .product =>
    match _token : state.view.token with
    | .leftParenthesis =>
      if frame.maxDepth ≤ state.nesting then fail (.nestingTooDeep frame.maxDepth) state
      else do
        let inner ← phrase meaning .sum state.enter
        let group ← close inner
        return group.within state.left_advance_le
    | .number => number meaning state
    | .foreign c => fail (.invalidCharacter c) state
    | _ => fail .invalidNumber state
termination_by (state.left, height p)
decreasing_by
  · exact .right _ (by decide)
  · exact .left _ _ (State.left_advance_lt (by simp [_token]))

/-- Goes on with each operator of one precedence as soon as its operand has been read. -/
def steps (meaning : Meaning α β) (p : Precedence) {bound : Nat} (left : Read frame β bound) :
    Answer frame (Read frame α bound) :=
  match _sign : left.state.view.head?.bind (Grammar.operator? p) with
  | some op => do
    let right ← operand meaning p left.state.advance
    steps meaning p (left.extend meaning op right)
  | none => pure (left.map meaning.result)
termination_by (left.state.left, 0)
decreasing_by
  · exact .left _ _ (State.left_advance_lt (by simp [(Cursor.operator_eq_some_iff.mp _sign).1]))
  · exact .left _ _ (Nat.lt_of_lt_of_le right.shorter left.state.left_advance_le)

end

def finish {bound : Nat} (whole : Read frame α bound) : Answer frame (Read frame α bound) :=
  match whole.state.view.head?, frame.strictness with
  | none, _ => pure whole
  | some _, .lenient => ⟨.ok whole, [.trailingIgnored whole.state.view.position]⟩
  | some c, .strict => fail (.trailingInput c) whole.state

/-- What a call returns, with the state it leaves. -/
structure Return (frame : Frame) (α : Type) where
  outcome : Except ParseError α
  state : State frame
  events : List Event

/-- An error without a position gets that of the state. -/
def Answer.toReturn {bound : Nat} (answer : Answer frame (Read frame α bound)) : Return frame α :=
  match answer.result with
  | .ok whole => ⟨.ok whole.value, whole.state, answer.events⟩
  | .error ⟨e, state⟩ => ⟨.error (e.atPosition state.view.position), state, answer.events⟩

def State.read (meaning : Meaning α β) (state : State frame) : Return frame α :=
  (phrase meaning .sum state >>= finish).toReturn

def State.parse (state : State frame) : Return frame Expr := state.read tree

end Descent

end Abacus
