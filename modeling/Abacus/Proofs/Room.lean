import Abacus.Proofs.Accepted
import Abacus.Proofs.Groups

/-! The depth limit. More room changes nothing where the reading did not stop for the lack of it, and takes it
further where it did. A derivable text needs as much room as its groups are nested, and with less it is refused at
the first parenthesis for which there is none. -/
namespace Abacus

open Grammar

/-- An opening parenthesis stands there, with exactly that many groups open before it. -/
def OpensAt (depth : Nat) (w : List Char) (p : Nat) : Prop :=
  w[p]? = some '(' ∧ (w.take p).count '(' = (w.take p).count ')' + depth

private theorem count_nonBlank {c : Char} (visible : Text.isBlank c = false) (w : List Char) :
    (nonBlank w).count c = w.count c :=
  List.count_filter (by rw [visible]; rfl)

private theorem exists_take_eq {α : Type} {w : List α} {q p : Nat} {c : α} (before : q < p) (here : w[q]? = some c) :
    ∃ later, w.take p = w.take q ++ c :: later := by
  have taken : (w.take p)[q]? = some c := by rw [List.getElem?_take_of_lt before, here]
  obtain ⟨inside, rfl⟩ := List.getElem?_eq_some_iff.mp taken
  have split := List.take_append_drop q (w.take p)
  rw [List.take_take, Nat.min_eq_left (Nat.le_of_lt before), List.drop_eq_getElem_cons inside] at split
  exact ⟨_, split.symm⟩

theorem Grammar.Phrase.valid {p : Precedence} {depth : Nat} {text : String} {e : Expr}
    (phrase : Phrase p depth (dense text) e) : Valid text := by
  constructor
  · rintro rfl
    exact phrase.ne_nil rfl
  · intro c member
    cases blank : Text.isBlank c with
    | true => exact (isAllowed_iff_ofChar c).mpr (.inl blank)
    | false => exact (phrase.solid c (List.mem_filter.mpr ⟨member, by rw [blank]; rfl⟩)).1

namespace Place

variable {strictness : Strictness} {calculator calculator' : Calculator} {room room' : Nat} {place after : Place}

private theorem Advance.widen {event : Option Event} (advance : place.Advance strictness room after event)
    (wider : room ≤ room') : place.Advance strictness room' after event := by
  cases advance with
  | opened due token fits => exact .opened due token (Nat.lt_of_lt_of_le fits wider)
  | numeral due token ok => exact .numeral due token ok
  | operator read token => exact .operator read token
  | closed read inside token => exact .closed read inside token
  | replaced read inside lenient unclosed ended => exact .replaced read inside lenient unclosed ended

private theorem Run.widen {events : List Event} (run : Run strictness room place events after) (wider : room ≤ room') :
    Run strictness room' place events after := by
  induction run with
  | refl => exact .refl _
  | next advance _ ih => exact .next (advance.widen wider) ih

private theorem Halt.of_deep {e : ParseError} {cursor : Cursor} {event : Option Event} {limit : Nat}
    (halt : place.Halt calculator room (.error e) cursor event) (deep : e.fault = .nestingTooDeep limit) :
    limit = calculator.maxDepth ∧ cursor = place.cursor ∧ place.factor = none ∧
      place.cursor.token = .leftParenthesis ∧ room ≤ place.outer.length := by
  cases halt with
  | full due token full =>
    cases deep
    exact ⟨rfl, rfl, due, token, full⟩
  | malformed due token fault =>
    obtain ⟨rfl, -⟩ := Cursor.numeral_fault token fault
    cases deep
  | foreign | missing | unclosed | trailing => cases deep

/-- Where reading does not stop for the lack of room, it stops like that in any room. -/
private theorem Halt.widen {outcome : Except ParseError Expr} {cursor : Cursor} {event : Option Event}
    (halt : place.Halt calculator room outcome cursor event) (same : calculator'.strictness = calculator.strictness)
    (room' : Nat) (shallow : ∀ e limit, outcome = .error e → e.fault ≠ .nestingTooDeep limit) :
    place.Halt calculator' room' outcome cursor event := by
  cases halt with
  | full due token full => exact absurd rfl (shallow _ _ rfl)
  | malformed due token fault => exact .malformed due token fault
  | foreign due token => exact .foreign due token
  | missing due opening digit known => exact .missing due opening digit known
  | unclosed read inside strict unclosed ended => exact .unclosed read inside (same.trans strict) unclosed ended
  | finished read outside done => exact .finished read outside done
  | ignored read outside lenient more ended => exact .ignored read outside (same.trans lenient) more ended
  | trailing read outside strict more ended => exact .trailing read outside (same.trans strict) more ended

theorem Halt.positions {e : ParseError} {cursor : Cursor} {event : Option Event}
    (halt : place.Halt calculator room (.error e) cursor event) :
    e.atPosition cursor.position = ⟨[place.cursor.position], e.fault⟩ := by
  cases halt with
  | malformed due token fault =>
    obtain ⟨rfl, -⟩ := Cursor.numeral_fault token fault
    rfl
  | full | foreign | missing | unclosed | trailing => rfl

end Place

variable {calculator calculator' : Calculator} {text : String}

private theorem Calculator.parse_of_more_room (same : calculator'.strictness = calculator.strictness)
    (le : calculator.maxDepth ≤ calculator'.maxDepth)
    (shallow : ∀ positions limit, (calculator.parse text).result ≠ .error ⟨positions, .nestingTooDeep limit⟩) :
    calculator'.parse text = calculator.parse text := by
  by_cases valid : Valid text
  · obtain ⟨last, events, outcome, cursor, event, run, halt⟩ :=
      @Place.exists_run calculator calculator.maxDepth (.start (.ofText text))
    rw [parse_of_run valid run halt] at shallow ⊢
    have run' := run.widen le
    rw [← same] at run'
    refine parse_of_run valid run' (halt.widen same _ ?_)
    rintro e limit rfl deep
    apply shallow [last.cursor.position] limit
    rw [← deep]
    exact congrArg Except.error halt.positions
  · obtain ⟨e, refused⟩ := exists_refused valid
    rw [parse_of_refused refused, parse_of_refused refused]

private theorem Calculator.valid_of_deep {positions : List Nat} {limit : Nat}
    (deep : (calculator.parse text).result = .error ⟨positions, .nestingTooDeep limit⟩) : Valid text := by
  by_contra invalid
  by_cases full : text = ""
  · subst full
    cases deep
  · obtain ⟨p, c, refused, -⟩ := checkText_of_invalid full invalid
    rw [parse_of_refused refused] at deep
    cases deep

private theorem Calculator.parse_past_deep (same : calculator'.strictness = calculator.strictness)
    (lt : calculator.maxDepth < calculator'.maxDepth) {positions : List Nat} {limit : Nat}
    (deep : (calculator.parse text).result = .error ⟨positions, .nestingTooDeep limit⟩) :
    limit = calculator.maxDepth ∧ ∃ p, positions = [p] ∧ ((∃ e, (calculator'.parse text).result = .ok e) ∨
      ∃ q fault, (calculator'.parse text).result = .error ⟨[q], fault⟩ ∧ p < q) := by
  have valid := valid_of_deep deep
  obtain ⟨last, events, outcome, cursor, event, run, halt⟩ :=
    @Place.exists_run calculator calculator.maxDepth (.start (.ofText text))
  rw [parse_of_run valid run halt] at deep
  cases outcome with
  | ok e => cases deep
  | error e =>
    have reported : e.atPosition cursor.position = _ := Except.error.inj deep
    rw [halt.positions] at reported
    obtain ⟨rfl, fault⟩ := ParseError.mk.inj reported
    obtain ⟨rfl, rfl, due, token, -⟩ := halt.of_deep fault
    have fits : last.outer.length < calculator'.maxDepth := Nat.lt_of_le_of_lt (run.outer_le (Nat.zero_le _)) lt
    -- with more room the reading goes on behind the parenthesis
    let inside : Place := ⟨last.cursor.tail, .fresh, last.level :: last.outer, none⟩
    obtain ⟨last', events', outcome', cursor', event', run', halt'⟩ :=
      @Place.exists_run calculator' calculator'.maxDepth inside
    have opened : last.Advance calculator'.strictness calculator'.maxDepth inside none := .opened due token fits
    have whole := (same ▸ run.widen (Nat.le_of_lt lt)).trans (.next opened run')
    rw [parse_of_run valid whole halt']
    refine ⟨rfl, last.cursor.position, rfl, ?_⟩
    cases outcome' with
    | ok tree => exact .inl ⟨tree, rfl⟩
    | error fault =>
      refine .inr ⟨last'.cursor.position, fault.fault, congrArg Except.error halt'.positions, ?_⟩
      have here : (Place.start (.ofText text)).cursor = (Cursor.ofText text).drop 0 := rfl
      obtain ⟨n, -, reached, -⟩ := run.movedTo here
      have behind : inside.cursor = (Cursor.ofText text).drop (n + 1) := by rw [← Cursor.tail_drop, ← reached]
      obtain ⟨m, later, reached', -⟩ := run'.movedTo behind
      rw [reached] at token ⊢
      rw [reached']
      refine (Cursor.ordered_ofText text).position_lt later ?_
      by_contra beyond
      have ended : ((Cursor.ofText text).drop n).rest = [] := List.drop_eq_nil_of_le (Nat.le_of_not_lt beyond)
      exact Cursor.rest_ne_nil (by simp [token]) ended

/-- A derivable text whose groups are nested too deep is refused at the first one for which there is no room. -/
theorem Grammar.Phrase.parse_deep {depth : Nat} {e : Expr} (phrase : Phrase .sum depth (dense text) e)
    (deep : calculator.maxDepth < depth) :
    ∃ p, (calculator.parse text).result = .error ⟨[p], .nestingTooDeep calculator.maxDepth⟩ ∧
      OpensAt calculator.maxDepth text.toList p ∧ ∀ q < p, ¬ OpensAt calculator.maxDepth text.toList q := by
  have left : Text.isBlank '(' = false := rfl
  have right : Text.isBlank ')' = false := rfl
  obtain ⟨after, factor, -, passes⟩ := phrase.passes_start calculator calculator.maxDepth (Cursor.chars_ofText text)
  obtain ⟨last, run, halt⟩ := passes.refused (Nat.zero_le _) (by simpa [Place.start] using deep)
  obtain ⟨-, -, -, token, full⟩ := halt.of_deep rfl
  have level : last.outer.length = calculator.maxDepth := Nat.le_antisymm (run.outer_le (Nat.zero_le _)) full
  obtain ⟨passed, rest, balance, roomy⟩ := run.balance
  have parts := Cursor.parts_of_rest rest run.stop_eq
  refine ⟨last.cursor.position, ?_, ⟨?_, ?_⟩, ?_⟩
  · rw [Calculator.parse_of_run phrase.valid run halt]
    rfl
  · obtain ⟨glyph, found, rest⟩ := Cursor.rest_of_token token (by simp)
    rw [parts.next, Cursor.head?, rest, List.head?_cons, Option.map_some, Token.eq_of_ofChar_left found]
  · have count := balance.silent
    rw [← parts.before, count_nonBlank left, count_nonBlank right, level, Nat.add_comm] at count
    simpa [Place.start] using count.symm
  · rintro q before ⟨here, opened⟩
    obtain ⟨later, split⟩ := exists_take_eq before here
    have fits := roomy rfl (nonBlank (text.toList.take q)) (nonBlank later)
      (by rw [← parts.before, split, nonBlank_append, nonBlank_cons left])
    rw [count_nonBlank left, count_nonBlank right, opened] at fits
    simp only [Place.start, List.length_nil] at fits
    omega

/-- The depth limit is exact and only cuts. Unless the limit is what ends the reading, a greater one gives the same
result and the same events; if it is, a greater one gives a tree or an error further on. A derivable text is parsed
if and only if its groups are not nested deeper than the limit, and otherwise refused at the first parenthesis with
as many groups open before it as the limit allows. -/
theorem depth_limit_exact (calculator calculator' : Calculator) (text : String)
    (same : calculator'.strictness = calculator.strictness) (le : calculator.maxDepth ≤ calculator'.maxDepth) :
    ((∀ positions limit, (calculator.parse text).result ≠ .error ⟨positions, .nestingTooDeep limit⟩) →
      calculator'.parse text = calculator.parse text) ∧
    (∀ positions limit, (calculator.parse text).result = .error ⟨positions, .nestingTooDeep limit⟩ →
      calculator.maxDepth < calculator'.maxDepth →
      limit = calculator.maxDepth ∧ ∃ p, positions = [p] ∧ ((∃ e, (calculator'.parse text).result = .ok e) ∨
        ∃ q fault, (calculator'.parse text).result = .error ⟨[q], fault⟩ ∧ p < q)) ∧
    ∀ depth e, Phrase .sum depth (dense text) e →
      ((∃ e', (calculator.parse text).result = .ok e') ↔ depth ≤ calculator.maxDepth) ∧
      (calculator.maxDepth < depth →
        ∃ p, (calculator.parse text).result = .error ⟨[p], .nestingTooDeep calculator.maxDepth⟩ ∧
          OpensAt calculator.maxDepth text.toList p ∧ ∀ q < p, ¬ OpensAt calculator.maxDepth text.toList q) := by
  refine ⟨Calculator.parse_of_more_room same le, fun _ _ deep lt => Calculator.parse_past_deep same lt deep, ?_⟩
  intro depth e phrase
  refine ⟨⟨?_, ?_⟩, phrase.parse_deep⟩
  · rintro ⟨e', ok⟩
    by_contra deep
    obtain ⟨p, refused, -⟩ := phrase.parse_deep (Nat.lt_of_not_le deep)
    rw [ok] at refused
    cases refused
  · intro fits
    have parsed := Calculator.parse_of_derives phrase.valid ⟨depth, fits, phrase⟩
    exact ⟨e, by rw [parsed]⟩

theorem depth_limit_exact_nested :
    let shallow : Calculator := ⟨.strict, 1, by decide, by decide⟩
    let deep : Calculator := ⟨.strict, 2, by decide, by decide⟩
    let text := "(1) * ((2))+"
    (shallow.parse text).result = .error ⟨[7], .nestingTooDeep 1⟩ ∧
      ((∃ e, (deep.parse text).result = .ok e) ∨
        ∃ q fault, (deep.parse text).result = .error ⟨[q], fault⟩ ∧ 7 < q) ∧
      (∃ e, Phrase .sum 2 (dense "( (1))") e) ∧
      ∃ p, (shallow.parse "( (1))").result = .error ⟨[p], .nestingTooDeep 1⟩ ∧ OpensAt 1 "( (1))".toList p := by
  intro shallow deep text
  have refused : (shallow.parse text).result.map (fun _ => ()) = .error ⟨[7], .nestingTooDeep 1⟩ := by decide +kernel
  have failed := map_eq_error_iff.mp refused
  have one : Phrase .sum 0 ['1'] (.literal (Numeral.decimal ['1']).toFloat) :=
    .lone (.term (.lone (.number (List.forall_mem_singleton.mpr rfl) ⟨'1', List.mem_singleton_self _, rfl⟩ (by decide))))
  have nested : Phrase .sum 2 (dense "( (1))") _ := .lone (.term (.lone (.group (.lone (.term (.lone (.group one)))))))
  obtain ⟨-, further, -⟩ := depth_limit_exact shallow deep text rfl (by decide)
  obtain ⟨-, p, same, further⟩ := further _ _ failed (by decide)
  cases same
  obtain ⟨-, -, exact⟩ := depth_limit_exact shallow deep "( (1))" rfl (by decide)
  obtain ⟨q, deepest, opens, -⟩ := (exact 2 _ nested).2 (by decide)
  exact ⟨failed, further, ⟨_, nested⟩, q, deepest, opens⟩

end Abacus
