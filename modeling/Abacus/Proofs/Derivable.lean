import Abacus.Proofs.Dense
import Abacus.Proofs.Grammar
import Abacus.Proofs.Run

/-! Derivable text is read, whatever follows it, as long as its groups fit into the room; otherwise
it is refused for its depth. Nothing is told on the way, so strictness makes no difference. -/
namespace Abacus

namespace Level

variable (level : Level) (factor : Expr)

def pending : Precedence → Option Pending
  | .sum => level.sum
  | .product => level.product

def outside : Precedence → Option Pending
  | .sum => none
  | .product => level.sum

def operand : Precedence → Expr
  | .sum => level.term factor
  | .product => factor

def operands (p : Precedence) : Operands := Operands.extend (level.pending p) (level.operand factor p)

/-- Where an operand of a sum may begin, no product has begun. -/
def Ready : Precedence → Prop
  | .sum => level.product = none
  | .product => True

variable {op : Operator} {p : Precedence}

theorem pending_await (binds : op.precedence = p) :
    (level.await factor op).pending p = some ⟨level.operands factor p, op⟩ := by
  subst binds
  cases op <;> rfl

theorem outside_await (binds : op.precedence = p) : (level.await factor op).outside p = level.outside p := by
  subst binds
  cases op <;> rfl

theorem ready_await (binds : op.precedence = p) : (level.await factor op).Ready p := by
  subst binds
  cases op <;> trivial

end Level

theorem Operands.extend_some (operands : Operands) (op : Operator) (operand : Expr) :
    Operands.extend (some ⟨operands, op⟩) operand = ⟨operands.first, (op, operand) :: operands.later⟩ := rfl

namespace Place

variable {calculator : Calculator} {room : Nat}

/-- A silent run leads to a group that does not fit. -/
def Refused (calculator : Calculator) (room : Nat) (place : Place) : Prop :=
  ∃ last, Run calculator.strictness room place [] last ∧
    last.Halt calculator room (.error (.bare (.nestingTooDeep calculator.maxDepth))) last.cursor none

/-- A text with groups nested to a depth leads from one place to the other, if that depth fits. -/
structure Passes (calculator : Calculator) (room depth : Nat) (place after : Place) : Prop where
  run (fits : place.outer.length + depth ≤ room) : Run calculator.strictness room place [] after
  refused (bound : place.outer.length ≤ room) (deep : room < place.outer.length + depth) : place.Refused calculator room

private theorem Refused.of_run {place middle : Place} (run : Run calculator.strictness room place [] middle)
    (refused : middle.Refused calculator room) : place.Refused calculator room := by
  obtain ⟨last, rest, halt⟩ := refused
  exact ⟨last, run.trans rest, halt⟩

private theorem Passes.of_run {place after : Place} (run : Run calculator.strictness room place [] after) :
    Passes calculator room 0 place after where
  run _ := run
  refused bound deep := by omega

private theorem Passes.trans {place middle after : Place} {depth depth' : Nat}
    (first : Passes calculator room depth place middle) (kept : middle.outer = place.outer)
    (second : Passes calculator room depth' middle after) : Passes calculator room (max depth depth') place after where
  run fits := (first.run (by omega)).trans (second.run (by rw [kept]; omega))
  refused bound deep := by
    by_cases fits : place.outer.length + depth ≤ room
    · exact (second.refused (by rwa [kept]) (by rw [kept]; omega)).of_run (first.run fits)
    · exact first.refused bound (by omega)

private theorem Passes.group {cursor : Cursor} {level : Level} {outer : List Level} {inside after : Place} {depth : Nat}
    (token : cursor.token = .leftParenthesis)
    (passes : Passes calculator room depth ⟨cursor.tail, .fresh, level :: outer, none⟩ inside)
    (close : inside.Advance calculator.strictness room after none) :
    Passes calculator room (depth + 1) ⟨cursor, level, outer, none⟩ after where
  run fits := by
    have inner := passes.run (by simp only [List.length_cons] at fits ⊢; omega)
    exact .next (.opened rfl token (by simp only at fits ⊢; omega)) (inner.trans (.next close (.refl after)))
  refused bound deep := by
    by_cases fits : outer.length < room
    · have inner := passes.refused fits (by simp only [List.length_cons] at deep ⊢; omega)
      exact inner.of_run (.next (.opened rfl token fits) (.refl _))
    · exact ⟨_, .refl _, .full rfl token (Nat.le_of_not_lt fits)⟩

end Place

namespace Grammar

open Place

variable {calculator : Calculator} {room : Nat}

private theorem numeral_of_number {cursor : Cursor} {run v : List Char} (parts : ∀ c ∈ run, isNumeralPart c)
    (digit : ∃ c ∈ run, c.isDigit) (points : run.count '.' ≤ 1) (spelt : cursor.chars = run ++ v)
    (ended : ∀ c ∈ v.head?, isNumeralPart c = false) :
    cursor.token = .number ∧ cursor.numeral = .ok (Numeral.decimal run).toFloat := by
  have whole := Cursor.run_of_append spelt parts ended
  obtain ⟨c, member, isDigit⟩ := digit
  obtain ⟨first, rest, rfl⟩ := List.exists_cons_of_ne_nil (List.ne_nil_of_mem member)
  have formed : Numeral.wellFormed (first :: rest) = true := by
    rw [Numeral.wellFormed, Bool.and_eq_true, decide_eq_true_eq]
    exact ⟨List.any_eq_true.mpr ⟨c, member, isDigit⟩, points⟩
  constructor
  · rw [Cursor.token_of_cons spelt, Token.ofChar_of_part (parts first (by simp))]
  · simp only [Cursor.numeral, whole, Numeral.toFloat?, formed, if_true]

mutual

/-- Reading an operand of one precedence leaves everything outside of it as it was. -/
private theorem Operand.passes {p : Precedence} {depth : Nat} {w v : List Char} {e : Expr}
    (operand : Operand p depth w e) {cursor : Cursor} {level : Level} (outer : List Level)
    (spelt : cursor.chars = w ++ v)
    (ended : ∀ c ∈ v.head?, isNumeralPart c = false) (ready : level.Ready p) :
    ∃ (after : Level) (factor : Expr), after.outside p = level.outside p ∧ after.pending p = level.pending p ∧
      after.operand factor p = e ∧
      Passes calculator room depth ⟨cursor, level, outer, none⟩ ⟨cursor.drop w.length, after, outer, some factor⟩ := by
  -- what follows is arbitrary, but it must not go on with a numeral that stands at the end
  match operand with
  | .term product =>
    obtain ⟨after, factor, kept, whole, passes⟩ := product.passes outer spelt ended trivial ready
    exact ⟨after, factor, rfl, kept, whole, passes⟩
  | @Operand.group depth w _ expression =>
    have inside : cursor.tail.chars = w ++ ')' :: v := by
      rw [Cursor.chars_tail, spelt]
      simp
    obtain ⟨after, factor, -, whole, passes⟩ := expression.passes (level :: outer) inside (by rintro c ⟨⟩; rfl)
      (show Level.fresh.Ready .sum from rfl) rfl
    have behind : (cursor.tail.drop w.length).chars = ')' :: v := by
      rw [Cursor.chars_drop, inside, List.drop_left]
    have close : Advance calculator.strictness room ⟨cursor.tail.drop w.length, after, level :: outer, some factor⟩
        ⟨(cursor.tail.drop w.length).tail, level, outer, some (after.expr factor)⟩ none :=
      .closed rfl rfl (Cursor.token_of_cons behind)
    -- the levels inside are gone once the group is closed
    refine ⟨level, e, rfl, rfl, rfl, ?_⟩
    have group := passes.group (Cursor.token_of_cons (by rw [spelt]; rfl)) close
    have reached : (cursor.tail.drop w.length).tail = cursor.drop ('(' :: w ++ [')']).length := by
      rw [Cursor.tail_eq_drop, Cursor.tail_eq_drop, Cursor.drop_drop, Cursor.drop_drop]
      congr 1
      simp only [List.length_append, List.length_cons, List.length_nil]
      omega
    rw [reached, show after.expr factor = e from whole] at group
    exact group
  | .number parts digit points =>
    obtain ⟨token, ok⟩ := numeral_of_number parts digit points spelt ended
    refine ⟨level, _, rfl, rfl, rfl, .of_run ?_⟩
    have advance : Advance calculator.strictness room ⟨cursor, level, outer, none⟩
        ⟨cursor.pastRun, level, outer, some (.literal (Numeral.decimal w).toFloat)⟩ none := .numeral rfl token ok
    rw [Cursor.pastRun_eq_drop, Cursor.run_of_append spelt parts ended] at advance
    exact .next advance (.refl _)

private theorem Phrase.passes {p : Precedence} {depth : Nat} {w v : List Char} {e : Expr} (phrase : Phrase p depth w e)
    {cursor : Cursor} {level : Level} (outer : List Level) (spelt : cursor.chars = w ++ v)
    (ended : ∀ c ∈ v.head?, isNumeralPart c = false) (ready : level.Ready p) (begins : level.pending p = none) :
    ∃ (after : Level) (factor : Expr), after.outside p = level.outside p ∧ (after.operands factor p).expr = e ∧
      Passes calculator room depth ⟨cursor, level, outer, none⟩ ⟨cursor.drop w.length, after, outer, some factor⟩ := by
  match phrase with
  | .lone operand =>
    obtain ⟨after, factor, kept, waiting, whole, passes⟩ := operand.passes outer spelt ended ready
    refine ⟨after, factor, kept, ?_, passes⟩
    rw [Level.operands, waiting, begins, whole]
    rfl
  | @Phrase.chain _ _ _ w v' e step rest first tail =>
    rw [List.append_assoc] at spelt
    obtain ⟨middle, factor, kept, waiting, whole, passes⟩ := first.passes outer spelt (tail.ended ended) ready
    have behind : (cursor.drop w.length).chars = v' ++ v := by
      rw [Cursor.chars_drop, spelt, List.drop_left]
    obtain ⟨after, factor', kept', chained, passes'⟩ := tail.passes outer factor behind ended
    refine ⟨after, factor', kept'.trans kept, ?_, ?_⟩
    · rw [chained, Level.operands, waiting, begins, whole, Operands.expr, Operands.extend, List.append_nil,
        List.reverse_reverse, Expr.join]
    · rw [List.length_append, ← Cursor.drop_drop]
      exact passes.trans rfl passes'

private theorem Tail.passes {p : Precedence} {depth : Nat} {w v : List Char} {steps : List (Operator × Expr)}
    (tail : Tail p depth w steps) {cursor : Cursor} {level : Level} (outer : List Level) (factor : Expr)
    (spelt : cursor.chars = w ++ v) (ended : ∀ c ∈ v.head?, isNumeralPart c = false) :
    ∃ (after : Level) (factor' : Expr), after.outside p = level.outside p ∧
      after.operands factor' p = ⟨(level.operands factor p).first, steps.reverse ++ (level.operands factor p).later⟩ ∧
      Passes calculator room depth ⟨cursor, level, outer, some factor⟩
        ⟨cursor.drop w.length, after, outer, some factor'⟩ := by
  match tail with
  | .nil => exact ⟨level, factor, rfl, rfl, .of_run (.refl _)⟩
  | @Tail.cons _ _ _ _ op w v' e rest sign operand tail =>
    obtain ⟨binds, rfl⟩ := operator_eq_some_iff.mp sign
    have behind : cursor.tail.chars = w ++ (v' ++ v) := by
      rw [Cursor.chars_tail, spelt]
      simp
    have token : cursor.token = .operator op := by
      rw [Cursor.token_of_cons (by rw [spelt]; rfl), Token.ofChar_symbol]
    have advance : Advance calculator.strictness room ⟨cursor, level, outer, some factor⟩
        ⟨cursor.tail, level.await factor op, outer, none⟩ none := .operator rfl token
    obtain ⟨middle, factor', kept, waiting, whole, passes⟩ :=
      operand.passes outer behind (tail.ended ended) (level.ready_await factor binds)
    have further : (cursor.tail.drop w.length).chars = v' ++ v := by
      rw [Cursor.chars_drop, behind, List.drop_left]
    obtain ⟨after, last, kept', chained, passes'⟩ := tail.passes outer factor' further ended
    refine ⟨after, last, ?_, ?_, ?_⟩
    · rw [kept', kept, Level.outside_await _ _ binds]
    · rw [chained, Level.operands, waiting, Level.pending_await _ _ binds, whole, Operands.extend_some]
      simp
    · have reached : (cursor.tail.drop w.length).drop v'.length = cursor.drop (op.symbol :: w ++ v').length := by
        rw [Cursor.tail_eq_drop, Cursor.drop_drop, Cursor.drop_drop]
        congr 1
        simp only [List.length_append, List.length_cons]
        omega
      rw [← reached, ← Nat.zero_max (max _ _)]
      exact (Passes.of_run (.next advance (.refl _))).trans rfl (passes.trans rfl passes')

end

theorem Phrase.passes_start {depth : Nat} {w : List Char} {e : Expr} (phrase : Phrase .sum depth w e)
    (calculator : Calculator) (room : Nat) {cursor : Cursor} (spelt : cursor.chars = w) :
    ∃ (after : Level) (factor : Expr), after.expr factor = e ∧
      Passes calculator room depth (start cursor) ⟨⟨[], cursor.stop⟩, after, [], some factor⟩ := by
  have alone : cursor.chars = w ++ [] := by rw [spelt, List.append_nil]
  obtain ⟨after, factor, -, whole, passes⟩ := phrase.passes [] alone (by simp) (show Level.fresh.Ready .sum from rfl) rfl
  have reached : cursor.drop w.length = ⟨[], cursor.stop⟩ := by
    rw [Cursor.drop, ← spelt, Cursor.chars, List.length_map, List.drop_length]
  rw [reached] at passes
  exact ⟨after, factor, whole, passes⟩

theorem Phrase.read {depth : Nat} {w : List Char} {e : Expr} (phrase : Phrase .sum depth w e) {cursor : Cursor}
    (spelt : cursor.chars = w) (fits : depth ≤ room) :
    (start cursor).read calculator room = ⟨.ok e, ⟨[], cursor.stop⟩, 0, []⟩ := by
  obtain ⟨after, factor, rfl, passes⟩ := phrase.passes_start calculator room spelt
  have run := passes.run (by simpa [start] using fits)
  have halt : Halt calculator room ⟨⟨[], cursor.stop⟩, after, [], some factor⟩ (.ok (after.expr factor))
      ⟨[], cursor.stop⟩ none := .finished rfl rfl rfl
  exact run.read_of_halt halt

theorem Phrase.read_deep {depth : Nat} {w : List Char} {e : Expr} (phrase : Phrase .sum depth w e) {cursor : Cursor}
    (spelt : cursor.chars = w) (deep : room < depth) :
    ((start cursor).read calculator room).outcome = .error (.bare (.nestingTooDeep calculator.maxDepth)) := by
  obtain ⟨after, factor, -, passes⟩ := phrase.passes_start calculator room spelt
  obtain ⟨last, run, halt⟩ := passes.refused (Nat.zero_le room) (by simpa [start] using deep)
  rw [run.read_of_halt halt]

end Grammar

end Abacus
