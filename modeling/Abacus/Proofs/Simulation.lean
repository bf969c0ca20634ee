import Abacus.Proofs.Descent
import Abacus.Proofs.Entry
import Abacus.Proofs.Lookahead

/-! The machine that goes from place to place against recursive descent: from the same glyphs, with as much room, it
comes to the same state or stops with the same error, and what descent makes of the text is made of the machine's tree.
An operand and the steps behind it are followed by induction on what is left of the text. -/
namespace Abacus

namespace ParseError

/-- The error under another limit, which only an error of depth tells of. -/
def withLimit (e : ParseError) (limit : Nat) : ParseError :=
  match e.fault with
  | .nestingTooDeep _ => ⟨e.positions, .nestingTooDeep limit⟩
  | _ => e

private theorem atPosition_withLimit (e : ParseError) (limit position : Nat) :
    (e.withLimit limit).atPosition position = (e.atPosition position).withLimit limit := by
  obtain ⟨positions, fault⟩ := e
  cases positions <;> cases fault <;> rfl

theorem withLimit_withLimit (e : ParseError) (limit limit' : Nat) :
    (e.withLimit limit).withLimit limit' = e.withLimit limit' := by
  obtain ⟨positions, fault⟩ := e
  cases fault <;> rfl

end ParseError

namespace Place

variable {calculator : Calculator} {room : Nat} {place : Place}

private theorem Halt.withLimit {e : ParseError} {cursor : Cursor} {event : Option Event}
    (halt : place.Halt calculator room (.error e) cursor event) : e.withLimit calculator.maxDepth = e := by
  cases halt with
  | malformed due token fault =>
    obtain ⟨rfl, -⟩ := Cursor.numeral_fault token fault
    rfl
  | full | foreign | missing | unclosed | trailing => rfl

theorem read_withLimit {e : ParseError} (failed : (place.read calculator room).outcome = .error e) (position : Nat) :
    (e.atPosition position).withLimit calculator.maxDepth = e.atPosition position := by
  obtain ⟨last, events, outcome, cursor, event, run, halt⟩ := @exists_run calculator room place
  rw [run.read_of_halt halt] at failed
  cases failed
  rw [← ParseError.atPosition_withLimit, halt.withLimit]

end Place

namespace Descent

variable {frame : Frame} {α β : Type}

/-- A meaning that is one of trees: of a tree as a whole, and of the operands of a phrase so far. -/
structure Meaning.OfTrees (meaning : Meaning α β) (ofTree : Expr → α) (ofOperands : Operands → β) : Prop where
  literal (x : Float) : ofTree (.literal x) = meaning.literal x
  begin (e : Expr) : ofOperands ⟨e, []⟩ = meaning.begin (ofTree e)
  extend (operands : Operands) (op : Operator) (e : Expr) :
    ofOperands ⟨operands.first, (op, e) :: operands.later⟩ = meaning.extend (ofOperands operands) op (ofTree e)
  result (operands : Operands) : ofTree operands.expr = meaning.result (ofOperands operands)

private theorem tree_ofTrees : tree.OfTrees id id where
  literal _ := rfl
  begin _ := rfl
  extend _ _ _ := rfl
  result _ := rfl

/-- What stands behind a phrase is not one more of its operators, nor one that binds more. -/
def PhraseEnds : Precedence → Token → Prop
  | .sum, token => ∀ op, token ≠ .operator op
  | .product, token => ∀ op, token = .operator op → op.precedence = .sum

def OperandEnds : Precedence → Token → Prop
  | .sum, token => PhraseEnds .product token
  | .product, _ => True

private theorem phraseEnds_of_none {p : Precedence} {cursor : Cursor} (ends : OperandEnds p cursor.token)
    (none : cursor.head?.bind (Grammar.operator? p) = none) : PhraseEnds p cursor.token := by
  have other (op : Operator) (token : cursor.token = .operator op) : op.precedence ≠ p := by
    intro binds
    cases none.symm.trans (Cursor.operator_eq_some_iff.mpr ⟨token, binds⟩)
  cases p with
  | sum => exact fun op token => other op token (ends op token)
  | product =>
    intro op token
    cases binds : op.precedence with
    | sum => rfl
    | product => exact absurd binds (other op token)

open Place

variable {calculator : Calculator} {base : Nat}

/-- From a place the machine reaches the state behind what has been read, between the given levels and with a factor
just read, or it stops with the same error. The groups that were open at the beginning only take room from it. -/
inductive Follows (calculator : Calculator) (base : Nat) (outer : List Level) (place : Place) {bound : Nat}
    (reached : Level → Expr → Read frame α bound → Prop) : Answer frame (Read frame α bound) → Prop
  | reads {read : Read frame α bound} {events : List Event} {level : Level} {factor : Expr}
      (held : reached level factor read) (nested : read.state.nesting = base + outer.length)
      (run : Run frame.strictness (frame.maxDepth - base) place events ⟨read.state.view, level, outer, some factor⟩) :
      Follows calculator base outer place reached ⟨.ok read, events⟩
  | fails {state : State frame} {e : ParseError} {events : List Event} {last : Place} {event : Option Event}
      (nested : state.nesting = base + last.outer.length)
      (run : Run frame.strictness (frame.maxDepth - base) place events last)
      (halt : last.Halt calculator (frame.maxDepth - base) (.error e) state.view event) :
      Follows calculator base outer place reached ⟨.error ⟨e.withLimit frame.maxDepth, state⟩, events ++ event.toList⟩

namespace Follows

variable {outer outer' : List Level} {place middle : Place} {bound bound' : Nat}
  {reached reached' : Level → Expr → Read frame α bound → Prop}

private theorem of_halt {state : State frame} {e : ParseError} {event : Option Event}
    (nested : state.nesting = base + place.outer.length)
    (halt : place.Halt calculator (frame.maxDepth - base) (.error e) state.view event) :
    Follows calculator base outer place reached ⟨.error ⟨e.withLimit frame.maxDepth, state⟩, event.toList⟩ := by
  rw [← List.nil_append event.toList]
  exact .fails nested (.refl place) halt

private theorem of_fault {fault told : Fault} {state : State frame} (nested : state.nesting = base + place.outer.length)
    (halt : place.Halt calculator (frame.maxDepth - base) (.error (.bare fault)) state.view none)
    (same : (ParseError.bare fault).withLimit frame.maxDepth = .bare told) :
    Follows calculator base outer place reached (fail told state) := by
  have fails := @of_halt frame _ calculator base outer place bound reached state _ none nested halt
  rwa [same] at fails

private theorem of_run {events : List Event} {answer : Answer frame (Read frame α bound)}
    (run : Run frame.strictness (frame.maxDepth - base) place events middle)
    (follows : Follows calculator base outer middle reached answer) :
    Follows calculator base outer place reached ⟨answer.result, events ++ answer.events⟩ := by
  cases follows with
  | reads held nested rest => exact .reads held nested (run.trans rest)
  | fails nested rest halt =>
    rw [← List.append_assoc]
    exact .fails nested (run.trans rest) halt

private theorem of_advance {answer : Answer frame (Read frame α bound)}
    (advance : place.Advance frame.strictness (frame.maxDepth - base) middle none)
    (follows : Follows calculator base outer middle reached answer) : Follows calculator base outer place reached answer :=
  follows.of_run (.next advance (.refl middle))

private theorem bind {reached' : Level → Expr → Read frame α bound' → Prop}
    {answer : Answer frame (Read frame α bound)} {next : Read frame α bound → Answer frame (Read frame α bound')}
    (first : Follows calculator base outer place reached answer)
    (second : ∀ read level factor, reached level factor read → read.state.nesting = base + outer.length →
      Follows calculator base outer' ⟨read.state.view, level, outer, some factor⟩ reached' (next read)) :
    Follows calculator base outer' place reached' (answer >>= next) := by
  cases first with
  | reads held nested run => exact (second _ _ _ held nested).of_run run
  | fails nested run halt => exact .fails nested run halt

private theorem imp {answer : Answer frame (Read frame α bound)}
    (follows : Follows calculator base outer place reached answer)
    (weaker : ∀ level factor read, reached level factor read → reached' level factor read) :
    Follows calculator base outer place reached' answer := by
  cases follows with
  | reads held nested run => exact .reads (weaker _ _ _ held) nested run
  | fails nested run halt => exact .fails nested run halt

end Follows

/-- What a factor, an operand or a phrase adds to the level it begins at. -/
structure ReadFactor (ofTree : Expr → α) (level : Level) {bound : Nat} (after : Level) (factor : Expr)
    (read : Read frame α bound) : Prop where
  level : after = level
  value : ofTree factor = read.value

structure ReadOperand (ofTree : Expr → α) (p : Precedence) (level : Level) {bound : Nat} (after : Level)
    (factor : Expr) (read : Read frame α bound) : Prop where
  outside : after.outside p = level.outside p
  pending : after.pending p = level.pending p
  value : ofTree (after.operand factor p) = read.value
  ends : OperandEnds p read.state.view.token

structure ReadPhrase (ofTree : Expr → α) (p : Precedence) (level : Level) {bound : Nat} (after : Level)
    (factor : Expr) (read : Read frame α bound) : Prop where
  outside : after.outside p = level.outside p
  value : ofTree (after.operands factor p).expr = read.value
  ends : PhraseEnds p read.state.view.token

section

variable {ofTree : Expr → α} {level after : Level} {factor : Expr} {bound : Nat} {read : Read frame α bound}

private theorem ReadPhrase.of_outside {p : Precedence} {begun : Level}
    (whole : ReadPhrase ofTree p begun after factor read) (kept : begun.outside p = level.outside p) :
    ReadPhrase ofTree p level after factor read :=
  ⟨whole.outside.trans kept, whole.value, whole.ends⟩

private theorem ReadFactor.operand (found : ReadFactor ofTree level after factor read) :
    ReadOperand ofTree .product level after factor read := by
  obtain ⟨rfl, value⟩ := found
  exact ⟨rfl, rfl, value, trivial⟩

private theorem ReadPhrase.operand (found : ReadPhrase ofTree .product level after factor read) :
    ReadOperand ofTree .sum level after factor read :=
  ⟨rfl, found.outside, found.value, found.ends⟩

end

section

variable {meaning : Meaning α β} {ofTree : Expr → α} {ofOperands : Operands → β}

private theorem close_follows (same : calculator.strictness = frame.strictness) {bound : Nat}
    {inner : Read frame α bound} {inside : Level} {factor : Expr}
    (read : ReadPhrase ofTree .sum .fresh inside factor inner) (level : Level)
    {outer : List Level} (nested : inner.state.nesting = base + (level :: outer).length) :
    Follows calculator base outer ⟨inner.state.view, inside, level :: outer, some factor⟩ (ReadFactor ofTree level)
      (close inner) := by
  have closed : inner.state.leave.nesting = base + outer.length := by
    rw [State.leave, nested, List.length_cons, ← Nat.add_assoc, Nat.add_sub_cancel]
  have group : ReadFactor ofTree level level (inside.expr factor) inner.close := ⟨rfl, read.value⟩
  unfold close
  split
  · rename_i token
    refine .reads group closed ?_
    rw [Read.close, State.view_leave]
    exact .next (.closed rfl rfl token) (.refl _)
  · rename_i unclosed
    split
    · rename_i lenient
      have advance := @Advance.replaced frame.strictness (frame.maxDepth - base)
        ⟨inner.state.view, inside, level :: outer, some factor⟩ _ _ _ rfl rfl lenient unclosed read.ends
      refine .reads group closed ?_
      rw [Read.close, State.view_leave]
      exact .next advance (.refl _)
    · rename_i strict
      exact .of_fault nested (.unclosed rfl rfl (same.trans strict) unclosed read.ends) rfl

variable (trees : meaning.OfTrees ofTree ofOperands)

include trees

private theorem number_follows {state : State frame} {outer : List Level} (nested : state.nesting = base + outer.length)
    (level : Level) (token : state.view.token = .number) :
    Follows calculator base outer ⟨state.view, level, outer, none⟩ (ReadFactor ofTree level) (number meaning state) := by
  unfold number
  split
  · rename_i value ok
    refine .reads ⟨rfl, trees.literal value⟩ nested ?_
    rw [state.view_pastRun]
    exact .next (.numeral rfl token ok) (.refl _)
  · rename_i e fault
    -- a fault in a numeral comes with the position where the numeral begins
    obtain ⟨rfl, -⟩ := Cursor.numeral_fault token fault
    have halt := @Halt.malformed calculator (frame.maxDepth - base) ⟨state.view, level, outer, none⟩ _ rfl token fault
    rw [← state.view_pastRun] at halt
    exact Follows.of_halt nested halt

mutual

private theorem phrase_follows (same : calculator.strictness = frame.strictness) (p : Precedence) (state : State frame)
    (level : Level) {outer : List Level} (nested : state.nesting = base + outer.length) (ready : level.Ready p)
    (begins : level.pending p = none) :
    Follows calculator base outer ⟨state.view, level, outer, none⟩ (ReadPhrase ofTree p level)
      (phrase meaning p state) := by
  rw [phrase]
  refine (operand_follows same p state level nested ready).bind fun first middle factor read nested => ?_
  have value : ofOperands (middle.operands factor p) = (first.map meaning.begin).value := by
    rw [Level.operands, read.pending, begins, Operands.extend, trees.begin, read.value]
    rfl
  exact (steps_follows same p (first.map meaning.begin) middle factor nested value read.ends).imp
    fun _ _ _ whole => whole.of_outside read.outside
termination_by (state.left, height p + 1)
decreasing_by
  · exact .right _ (Nat.lt_succ_self _)
  · exact .left _ _ first.shorter

private theorem operand_follows (same : calculator.strictness = frame.strictness) (p : Precedence) (state : State frame)
    (level : Level) {outer : List Level} (nested : state.nesting = base + outer.length) (ready : level.Ready p) :
    Follows calculator base outer ⟨state.view, level, outer, none⟩ (ReadOperand ofTree p level)
      (operand meaning p state) := by
  match p, ready with
  | .sum, ready =>
    rw [operand]
    exact (phrase_follows same .product state level nested trivial ready).imp fun _ _ _ read => read.operand
  | .product, _ =>
    rw [operand]
    refine Follows.imp ?_ fun _ _ _ read => ReadFactor.operand read
    split
    · rename_i token
      split
      · rename_i full
        rw [nested] at full
        exact .of_fault nested (.full rfl token (Nat.sub_le_iff_le_add'.mpr full)) rfl
      · rename_i fits
        have shorter : state.enter.left < state.left := State.left_advance_lt (by simp [token])
        have deeper : state.enter.nesting = base + (level :: outer).length := by
          rw [State.enter, nested, List.length_cons, Nat.add_assoc]
        have room : outer.length < frame.maxDepth - base := by omega
        refine .of_advance (.opened rfl token room) ?_
        rw [← state.view_enter]
        refine (phrase_follows same .sum state.enter .fresh deeper rfl rfl).bind fun inner inside factor sum nested => ?_
        refine (close_follows same sum level nested).bind fun group after factor read nested => ?_
        exact .reads ⟨read.level, read.value⟩ nested (.refl _)
    · exact number_follows trees nested level ‹_›
    · exact .of_fault nested (.foreign rfl ‹_›) rfl
    · rename_i opening digit known
      exact .of_fault nested (.missing rfl opening digit known) rfl
termination_by (state.left, height p)
decreasing_by
  · exact .right _ (by decide)
  · exact .left _ _ shorter

private theorem steps_follows (same : calculator.strictness = frame.strictness) (p : Precedence) {bound : Nat}
    (left : Read frame β bound) (level : Level) {outer : List Level} (factor : Expr)
    (nested : left.state.nesting = base + outer.length) (value : ofOperands (level.operands factor p) = left.value)
    (ends : OperandEnds p left.state.view.token) :
    Follows calculator base outer ⟨left.state.view, level, outer, some factor⟩ (ReadPhrase ofTree p level)
      (steps meaning p left) := by
  rw [steps]
  split
  · rename_i op sign
    obtain ⟨token, binds⟩ := Cursor.operator_eq_some_iff.mp sign
    have shorter : left.state.advance.left < left.state.left := State.left_advance_lt (by simp [token])
    have kept : left.state.advance.nesting = base + outer.length := by rw [State.nesting_advance, nested]
    refine .of_advance (.operator rfl token) ?_
    rw [← State.view_advance]
    refine (operand_follows same p left.state.advance (level.await factor op) kept (level.ready_await factor binds)).bind
      fun right middle factor' read nested => ?_
    -- the operands that the machine keeps have grown by this one
    have value' : ofOperands (middle.operands factor' p) = (left.extend meaning op right).value := by
      rw [Level.operands, read.pending, level.pending_await factor binds, Operands.extend_some, trees.extend, value,
        read.value]
      rfl
    have kept := read.outside.trans (level.outside_await factor binds)
    exact (steps_follows same p (left.extend meaning op right) middle factor' nested value' read.ends).imp
      fun _ _ _ whole => whole.of_outside kept
  · rename_i none
    have joined : ofTree (level.operands factor p).expr = (left.map meaning.result).value := by
      rw [trees.result, value]
      rfl
    exact .reads ⟨rfl, joined, phraseEnds_of_none ends none⟩ nested (.refl _)
termination_by (left.state.left, 0)
decreasing_by
  · exact .left _ _ shorter
  · exact .left _ _ (Nat.lt_of_lt_of_le right.shorter left.state.left_advance_le)

end

end

/-- A call returns what the machine reads, but for the limit that an error of depth tells of. -/
structure Return.Matches (returned : Return frame α) (ofTree : Expr → α) (base : Nat) (reading : Reading) : Prop where
  outcome : returned.outcome =
    (reading.outcome.map ofTree).mapError fun e => (e.atPosition reading.cursor.position).withLimit frame.maxDepth
  view : returned.state.view = reading.cursor
  nesting : returned.state.nesting = base + reading.unclosed
  events : returned.events = reading.events

private theorem finish_matches (same : calculator.strictness = frame.strictness) {ofTree : Expr → α} {bound : Nat}
    {read : Read frame α bound} {level : Level} {factor : Expr} {cursor : Cursor} {events : List Event}
    (held : ReadPhrase ofTree .sum .fresh level factor read) (nested : read.state.nesting = base)
    (run : Run calculator.strictness (frame.maxDepth - base) (start cursor) events
      ⟨read.state.view, level, [], some factor⟩) :
    (Answer.toReturn ⟨(finish read).result, events ++ (finish read).events⟩).Matches ofTree base
      ((start cursor).read calculator (frame.maxDepth - base)) := by
  have value : (.ok read.value : Except ParseError α) = .ok (ofTree (level.expr factor)) :=
    congrArg Except.ok held.value.symm
  unfold finish
  split
  · rename_i done
    rw [run.read_of_halt (.finished rfl rfl done)]
    exact ⟨value, rfl, nested, rfl⟩
  · rename_i more lenient
    rw [run.read_of_halt (.ignored rfl rfl (same.trans lenient) more held.ends)]
    exact ⟨value, rfl, nested, rfl⟩
  · rename_i more strict
    rw [run.read_of_halt (.trailing rfl rfl (same.trans strict) more held.ends)]
    exact ⟨rfl, rfl, nested, rfl⟩

/-- Reading by recursive descent, with open groups counted, comes to what the machine comes to, whatever of it is made
of trees. -/
theorem read_matches (same : calculator.strictness = frame.strictness) {meaning : Meaning α β} {ofTree : Expr → α}
    {ofOperands : Operands → β} (trees : meaning.OfTrees ofTree ofOperands) (state : State frame) :
    (state.read meaning).Matches ofTree state.nesting
      ((start state.view).read calculator (frame.maxDepth - state.nesting)) := by
  have follows := @phrase_follows frame α β calculator state.nesting _ _ _ trees same .sum state .fresh [] rfl rfl rfl
  unfold State.read
  generalize phrase meaning .sum state = answer at follows
  cases follows with
  | reads held nested run =>
    rw [← same] at run
    exact finish_matches same held nested run
  | @fails state' e events last event nested run halt =>
    rw [← same] at run
    have reading : (start state.view).read calculator (frame.maxDepth - state.nesting) = _ := run.read_of_halt halt
    rw [reading]
    exact ⟨congrArg Except.error (e.atPosition_withLimit _ _), rfl, nested, rfl⟩

theorem parse_matches (same : calculator.strictness = frame.strictness) (state : State frame) :
    state.parse.Matches id state.nesting ((start state.view).read calculator (frame.maxDepth - state.nesting)) :=
  read_matches same tree_ofTrees state

end Descent

end Abacus
