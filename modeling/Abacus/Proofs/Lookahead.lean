import Abacus.Proofs.Dense
import Abacus.Proofs.Run
import Mathlib.Data.List.Forall2

/-! A run looks at the character before it and no further. Two texts that agree up to the character at
which one of them stops are read alike: by the same steps, to the same outcome, with errors and events
at positions that face each other. -/
namespace Abacus

/-- The same event, told at positions that are related. -/
inductive Event.Alike (R : Nat → Nat → Prop) : Event → Event → Prop
  | closing {found : Token} {p q : Nat} (facing : R p q) : Alike R (.groupClosedBy found p) (.groupClosedBy found q)
  | trailing {p q : Nat} (facing : R p q) : Alike R (.trailingIgnored p) (.trailingIgnored q)

/-- The same tree, or the same fault reported once, at positions that are related. -/
inductive OutcomeAlike (R : Nat → Nat → Prop) : Except ParseError Expr → Except ParseError Expr → Prop
  | ok (e : Expr) : OutcomeAlike R (.ok e) (.ok e)
  | error {p q : Nat} (fault : Fault) (facing : R p q) : OutcomeAlike R (.error ⟨[p], fault⟩) (.error ⟨[q], fault⟩)

theorem Event.Alike.imp {R S : Nat → Nat → Prop} (weaker : ∀ p q, R p q → S p q) {event event' : Event}
    (alike : event.Alike R event') : event.Alike S event' := by
  cases alike with
  | closing facing => exact .closing (weaker _ _ facing)
  | trailing facing => exact .trailing (weaker _ _ facing)

theorem OutcomeAlike.imp {R S : Nat → Nat → Prop} (weaker : ∀ p q, R p q → S p q)
    {outcome outcome' : Except ParseError Expr} (alike : OutcomeAlike R outcome outcome') :
    OutcomeAlike S outcome outcome' := by
  cases alike with
  | ok e => exact .ok e
  | error fault facing => exact .error fault (weaker _ _ facing)

theorem OutcomeAlike.isOk {R : Nat → Nat → Prop} {outcome outcome' : Except ParseError Expr}
    (alike : OutcomeAlike R outcome outcome') : outcome'.isOk = outcome.isOk := by
  cases alike <;> rfl

/-- An outcome as it is reported: an error that has no position gets the one where reading stopped. -/
def reported (outcome : Except ParseError Expr) (position : Nat) : Except ParseError Expr :=
  outcome.mapError fun e => e.atPosition position

private theorem OutcomeAlike.bare {R : Nat → Nat → Prop} {p q : Nat} {fault : Fault} (facing : R p q) :
    OutcomeAlike R (reported (.error (.bare fault)) p) (reported (.error (.bare fault)) q) :=
  .error fault facing

namespace Cursor

/-- The same characters, or none, at the first `n` places. -/
def Agree (n : Nat) (cursor cursor' : Cursor) : Prop := ∀ k < n, cursor'.chars[k]? = cursor.chars[k]?

/-- Positions of two cursors after the same number of characters. -/
def Facing (base base' : Cursor) (p q : Nat) : Prop := ∃ k, p = (base.drop k).position ∧ q = (base'.drop k).position

/-- The same after at most `n` characters. -/
def FacingWithin (n : Nat) (base base' : Cursor) (p q : Nat) : Prop :=
  ∃ k ≤ n, p = (base.drop k).position ∧ q = (base'.drop k).position

theorem tail_drop (base : Cursor) (k : Nat) : (base.drop k).tail = base.drop (k + 1) := by
  rw [tail_eq_drop, drop_drop]

private theorem head?_drop (base : Cursor) (k : Nat) : (base.drop k).head? = base.chars[k]? := by
  rw [head?_eq, chars_drop, List.head?_drop]

variable {base base' : Cursor} {n k : Nat}

private theorem FacingWithin.mono {m p q : Nat} (facing : FacingWithin m base base' p q) (fewer : m ≤ n) :
    FacingWithin n base base' p q := by
  obtain ⟨k, bound, here, there⟩ := facing
  exact ⟨k, Nat.le_trans bound fewer, here, there⟩

private theorem FacingWithin.facing {p q : Nat} (facing : FacingWithin n base base' p q) : Facing base base' p q := by
  obtain ⟨k, -, here, there⟩ := facing
  exact ⟨k, here, there⟩

private theorem Agree.mono {m : Nat} (agree : Agree n base base') (fewer : m ≤ n) : Agree m base base' := by
  intro i bound
  exact agree i (by omega)

private theorem Agree.head? (agree : Agree n base base') (inside : k < n) :
    (base'.drop k).head? = (base.drop k).head? := by
  rw [head?_drop, head?_drop, agree k inside]

theorem Agree.token (agree : Agree n base base') (inside : k < n) : (base'.drop k).token = (base.drop k).token := by
  simp only [Cursor.token, agree.head? inside]

private theorem chars_of_head? {c : Char} (next : base.head? = some c) : base.chars = c :: (base.drop 1).chars := by
  rw [head?_eq] at next
  rw [chars_drop, List.drop_one]
  exact (List.cons_head?_tail next).symm

private theorem Agree.chars (agree : Agree n base base') {w v : List Char} (spelt : (base.drop k).chars = w ++ v)
    (inside : k + w.length ≤ n) : (base'.drop k).chars = w ++ (base'.drop (k + w.length)).chars := by
  induction w generalizing k with
  | nil => rfl
  | cons c w ih =>
    rw [List.length_cons] at inside
    have next : (base'.drop k).head? = some c := by
      rw [agree.head? (by omega), head?_eq, spelt]
      rfl
    have later : (base.drop (k + 1)).chars = w ++ v := by
      rw [← drop_drop, chars_drop, spelt]
      rfl
    rw [chars_of_head? next, drop_drop, ih later (by omega), List.cons_append, List.length_cons]
    congr 4
    omega

theorem length_of_drop {u v : List Char} (spelt : base.chars = u ++ v) (rest : (base.drop n).chars = v)
    (more : v ≠ []) : n = u.length := by
  have total := congrArg List.length rest
  have pos := List.length_pos_iff.mpr more
  rw [chars_drop, spelt, List.length_drop, List.length_append] at total
  omega

theorem agree_of_append {u v v' : List Char} (spelt : base.chars = u ++ v) (rest : (base.drop n).chars = v)
    (spelt' : base'.chars = u ++ v') (next : v'.head? = v.head?) : Agree (n + 1) base base' := by
  intro k bound
  rw [spelt, spelt']
  cases v with
  | nil =>
    rw [List.head?_nil, List.head?_eq_none_iff] at next
    rw [next]
  | cons c v =>
    obtain ⟨v', rfl⟩ : ∃ w, v' = c :: w := List.head?_eq_some_iff.mp next
    have length := length_of_drop spelt rest (List.cons_ne_nil c v)
    have inside : k < (u ++ [c]).length := by
      rw [List.length_append, List.length_singleton]
      omega
    rw [List.append_cons u c v, List.append_cons u c v', List.getElem?_append_left inside,
      List.getElem?_append_left inside]

private theorem Agree.run (agree : Agree n base base') (inside : k + (base.drop k).run.length < n) :
    (base'.drop k).run = (base.drop k).run := by
  have whole := run_append_pastRun (base.drop k)
  have spelt := agree.chars whole.symm (Nat.le_of_lt inside)
  apply run_of_append spelt
  · intro c member
    exact isNumeralPart_of_mem_run member
  · -- the character behind the run is still within what agrees
    intro c next
    rw [← head?_eq] at next
    have stopped := token_pastRun (base.drop k)
    rw [pastRun_eq_drop, drop_drop, ← agree.token inside, Cursor.token, next] at stopped
    by_contra part
    exact stopped (Token.ofChar_of_part (by simpa using part))

theorem run_ne_nil {cursor : Cursor} (token : cursor.token = .number) : cursor.run ≠ [] := by
  obtain ⟨glyph, part, rest⟩ := rest_of_token token (by simp)
  simp [run, rest, Token.part_of_ofChar part]

theorem numeral_fault {cursor : Cursor} {e : ParseError} (token : cursor.token = .number)
    (fault : cursor.numeral = .error e) :
    e = ⟨[cursor.position], .malformedNumber (String.ofList cursor.run) .invalid⟩ ∧
      Numeral.wellFormed cursor.run = false := by
  unfold numeral at fault
  split at fault
  · rename_i empty
    exact absurd empty (run_ne_nil token)
  · unfold Numeral.toFloat? at fault
    split at fault
    · cases fault
    · rename_i malformed
      split at malformed
      · cases malformed
      · rename_i illFormed
        cases fault
        exact ⟨rfl, by simpa using illFormed⟩

/-- What a numeral is read as depends on the run alone, and where a fault is reported on the position. -/
theorem numeral_of_run {cursor cursor' : Cursor} (same : cursor'.run = cursor.run) :
    cursor'.numeral = cursor.numeral.mapError fun e => ⟨[cursor'.position], e.fault⟩ := by
  unfold numeral
  rw [same]
  cases cursor.run with
  | nil => rfl
  | cons c run =>
    dsimp only
    cases Numeral.toFloat? (c :: run) <;> rfl

end Cursor

namespace Place

open Cursor

variable {calculator : Calculator} {strictness : Strictness} {room : Nat} {place after : Place} {base base' : Cursor}

/-- The place in another text. -/
def movedTo (place : Place) (cursor : Cursor) : Place := { place with cursor }

theorem Advance.movedTo {event : Option Event} (advance : place.Advance strictness room after event) {k : Nat}
    (here : place.cursor = base.drop k) :
    ∃ n, k ≤ n ∧ after.cursor = base.drop n ∧ ∀ base', Agree (n + 1) base base' →
      ∃ event', (place.movedTo (base'.drop k)).Advance strictness room (after.movedTo (base'.drop n)) event' ∧
        List.Forall₂ (Event.Alike (FacingWithin n base base')) event.toList event'.toList := by
  have passed : place.cursor.tail = base.drop (k + 1) := by rw [here, tail_drop]
  have token (base') (agree : Agree (k + 1) base base') : (base'.drop k).token = place.cursor.token := by
    rw [here, agree.token (Nat.lt_succ_self k)]
  cases advance with
  | opened due opening fits =>
    refine ⟨k + 1, Nat.le_succ k, passed, fun base' agree => ⟨none, ?_, .nil⟩⟩
    rw [← tail_drop]
    refine .opened due ?_ fits
    exact (token base' (agree.mono (Nat.le_succ _))).trans opening
  | numeral due digit ok =>
    rw [here] at ok
    refine ⟨k + (base.drop k).run.length, by omega, ?_, fun base' agree => ⟨none, ?_, .nil⟩⟩
    · rw [here, pastRun_eq_drop, drop_drop]
    · have run := agree.run (k := k) (by omega)
      rw [← run, ← drop_drop, ← pastRun_eq_drop]
      refine .numeral due ?_ ?_
      · exact (token base' (agree.mono (by omega))).trans digit
      · have same := numeral_of_run run
        rwa [ok] at same
  | operator read symbol =>
    refine ⟨k + 1, Nat.le_succ k, passed, fun base' agree => ⟨none, ?_, .nil⟩⟩
    rw [← tail_drop]
    refine .operator read ?_
    exact (token base' (agree.mono (Nat.le_succ _))).trans symbol
  | closed read inside closing =>
    refine ⟨k + 1, Nat.le_succ k, passed, fun base' agree => ⟨none, ?_, .nil⟩⟩
    rw [← tail_drop]
    refine .closed read inside ?_
    exact (token base' (agree.mono (Nat.le_succ _))).trans closing
  | replaced read inside lenient unclosed ended =>
    refine ⟨k + 1, Nat.le_succ k, passed, fun base' agree => ?_⟩
    have same := token base' (agree.mono (Nat.le_succ _))
    refine ⟨some (.groupClosedBy (base'.drop k).token (base'.drop k).position), ?_, ?_⟩
    · rw [← same] at unclosed ended
      rw [← tail_drop]
      exact .replaced read inside lenient unclosed ended
    · rw [same, here]
      exact .cons (.closing ⟨k, Nat.le_succ k, rfl, rfl⟩) .nil

theorem Run.movedTo {events : List Event} (run : Run strictness room place events after) {k : Nat}
    (here : place.cursor = base.drop k) :
    ∃ n, k ≤ n ∧ after.cursor = base.drop n ∧ ∀ base', Agree (n + 1) base base' →
      ∃ events', Run strictness room (place.movedTo (base'.drop k)) events' (after.movedTo (base'.drop n)) ∧
        List.Forall₂ (Event.Alike (FacingWithin n base base')) events events' := by
  induction run generalizing k with
  | refl place => exact ⟨k, Nat.le_refl k, here, fun base' _ => ⟨[], .refl _, .nil⟩⟩
  | next advance _ ih =>
    obtain ⟨m, before, middle, step⟩ := advance.movedTo here
    obtain ⟨n, later, reached, rest⟩ := ih middle
    refine ⟨n, Nat.le_trans before later, reached, fun base' agree => ?_⟩
    obtain ⟨event', advance', told⟩ := step base' (agree.mono (Nat.succ_le_succ later))
    obtain ⟨events', run', told'⟩ := rest base' agree
    have told := told.imp fun _ _ alike => alike.imp fun _ _ facing => facing.mono later
    exact ⟨_, .next advance' run', List.rel_append told told'⟩

theorem Halt.movedTo {outcome : Except ParseError Expr} {cursor : Cursor} {event : Option Event}
    (halt : place.Halt calculator room outcome cursor event) {k : Nat} (here : place.cursor = base.drop k) :
    ∃ n, k ≤ n ∧ cursor = base.drop n ∧ ∀ base', Agree (n + 1) base base' →
      ∃ outcome' event', (place.movedTo (base'.drop k)).Halt calculator room outcome' (base'.drop n) event' ∧
        OutcomeAlike (FacingWithin n base base') (reported outcome cursor.position) (reported outcome' (base'.drop n).position) ∧
        List.Forall₂ (Event.Alike (FacingWithin n base base')) event.toList event'.toList := by
  have head (base') (agree : Agree (k + 1) base base') : (base'.drop k).head? = place.cursor.head? := by
    rw [here, agree.head? (Nat.lt_succ_self k)]
  have token (base') (agree : Agree (k + 1) base base') : (base'.drop k).token = place.cursor.token := by
    rw [here, agree.token (Nat.lt_succ_self k)]
  have facing (base') : FacingWithin k base base' place.cursor.position (base'.drop k).position :=
    ⟨k, Nat.le_refl k, by rw [here], rfl⟩
  cases halt with
  | full due opening full =>
    refine ⟨k, Nat.le_refl k, here, fun base' agree => ⟨_, none, .full due ?_ full, .bare (facing base'), .nil⟩⟩
    exact (token base' agree).trans opening
  | malformed due digit fault =>
    obtain ⟨rfl, -⟩ := numeral_fault digit fault
    rw [here] at fault ⊢
    refine ⟨k + (base.drop k).run.length, by omega, by rw [pastRun_eq_drop, drop_drop], fun base' agree => ?_⟩
    have run := agree.run (k := k) (by omega)
    have fault' := numeral_of_run run
    rw [fault] at fault'
    rw [← run, ← drop_drop, ← pastRun_eq_drop]
    refine ⟨_, none, .malformed due ?_ fault', ?_, .nil⟩
    · exact (token base' (agree.mono (by omega))).trans digit
    · have same : FacingWithin (k + (base.drop k).run.length) base base' (base.drop k).position
          (base'.drop k).position := ⟨k, Nat.le_add_right k _, rfl, rfl⟩
      rw [run]
      exact .error _ same
  | @foreign c due unknown =>
    refine ⟨k, Nat.le_refl k, here, fun base' agree => ?_⟩
    refine ⟨.error (.bare (.invalidCharacter c)), none, .foreign due ?_, .bare (facing base'), .nil⟩
    exact (token base' agree).trans unknown
  | missing due opening digit known =>
    refine ⟨k, Nat.le_refl k, here, fun base' agree => ?_⟩
    rw [← token base' agree] at opening digit known
    exact ⟨_, none, .missing due opening digit known, .bare (facing base'), .nil⟩
  | unclosed read inside strict unclosed ended =>
    refine ⟨k, Nat.le_refl k, here, fun base' agree => ?_⟩
    rw [← token base' agree] at unclosed ended
    exact ⟨_, none, .unclosed read inside strict unclosed ended, .bare (facing base'), .nil⟩
  | finished read outside done =>
    refine ⟨k, Nat.le_refl k, here, fun base' agree => ?_⟩
    rw [← head base' agree] at done
    exact ⟨_, none, .finished read outside done, .ok _, .nil⟩
  | ignored read outside lenient more ended =>
    refine ⟨k, Nat.le_refl k, here, fun base' agree => ?_⟩
    rw [← head base' agree] at more
    rw [← token base' agree] at ended
    exact ⟨_, _, .ignored read outside lenient more ended, .ok _, .cons (.trailing (facing base')) .nil⟩
  | @trailing factor c read outside strict more ended =>
    refine ⟨k, Nat.le_refl k, here, fun base' agree => ?_⟩
    rw [← head base' agree] at more
    rw [← token base' agree] at ended
    exact ⟨.error (.bare (.trailingInput c)), none, .trailing read outside strict more ended, .bare (facing base'), .nil⟩

/-- Two texts that agree up to the character where the reading of one of them stops are read alike, and no
position that is told lies behind that character. -/
theorem read_agree_within (base : Cursor) :
    ∃ n, ((start base).read calculator room).cursor = base.drop n ∧ ∀ base', Agree (n + 1) base base' →
      ((start base').read calculator room).cursor = base'.drop n ∧
      ((start base').read calculator room).unclosed = ((start base).read calculator room).unclosed ∧
      OutcomeAlike (FacingWithin n base base')
        (reported ((start base).read calculator room).outcome ((start base).read calculator room).cursor.position)
        (reported ((start base').read calculator room).outcome ((start base').read calculator room).cursor.position) ∧
      List.Forall₂ (Event.Alike (FacingWithin n base base')) ((start base).read calculator room).events
        ((start base').read calculator room).events := by
  obtain ⟨last, events, outcome, cursor, event, run, halt⟩ := @exists_run calculator room (start base)
  have here : (start base).cursor = base.drop 0 := rfl
  obtain ⟨m, -, middle, runs⟩ := run.movedTo here
  obtain ⟨n, later, reached, halts⟩ := halt.movedTo middle
  refine ⟨n, by rw [run.read_of_halt halt, reached], fun base' agree => ?_⟩
  obtain ⟨events', run', told⟩ := runs base' (agree.mono (Nat.succ_le_succ later))
  obtain ⟨outcome', event', halt', alike, told'⟩ := halts base' agree
  have start' : (start base).movedTo (base'.drop 0) = start base' := rfl
  rw [start'] at run'
  rw [run.read_of_halt halt, run'.read_of_halt halt']
  have told := told.imp fun _ _ alike => alike.imp fun _ _ facing => facing.mono later
  exact ⟨rfl, rfl, alike, List.rel_append told told'⟩

theorem read_agree (base : Cursor) :
    ∃ n, ((start base).read calculator room).cursor = base.drop n ∧ ∀ base', Agree (n + 1) base base' →
      ((start base').read calculator room).cursor = base'.drop n ∧
      ((start base').read calculator room).unclosed = ((start base).read calculator room).unclosed ∧
      OutcomeAlike (Facing base base')
        (reported ((start base).read calculator room).outcome ((start base).read calculator room).cursor.position)
        (reported ((start base').read calculator room).outcome ((start base').read calculator room).cursor.position) ∧
      List.Forall₂ (Event.Alike (Facing base base')) ((start base).read calculator room).events
        ((start base').read calculator room).events := by
  obtain ⟨n, reached, alike⟩ := @read_agree_within calculator room base
  refine ⟨n, reached, fun base' agree => ?_⟩
  obtain ⟨reached', unclosed, outcomes, events⟩ := alike base' agree
  exact ⟨reached', unclosed, outcomes.imp fun _ _ => FacingWithin.facing,
    events.imp fun _ _ event => event.imp fun _ _ => FacingWithin.facing⟩

end Place

end Abacus
