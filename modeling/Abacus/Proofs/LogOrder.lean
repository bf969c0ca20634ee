import Abacus.Proofs.Calls
import Abacus.Proofs.Room
import Abacus.Proofs.Shown

/-! The order of what is told about a text. Groups closed by a character come first, in the order of the text, then
those closed by its end, or the rest that is ignored, and last the outcome. After the end of the text has closed a
group nothing can fail, so that such a group is told of in successes alone. -/
namespace Abacus

private theorem Cursor.Ordered.position_le {cursor : Cursor} (ordered : cursor.Ordered) {m n : Nat} (later : m ≤ n) :
    (cursor.drop m).position ≤ (cursor.drop n).position := by
  by_cases inside : m < cursor.rest.length
  · rcases Nat.eq_or_lt_of_le later with rfl | further
    · exact Nat.le_refl _
    · exact Nat.le_of_lt (ordered.position_lt further inside)
  · have ended (k : Nat) (beyond : m ≤ k) : (cursor.drop k).position = cursor.stop :=
      position_of_nil (List.drop_eq_nil_of_le (Nat.le_trans (Nat.le_of_not_lt inside) beyond))
    rw [ended m (Nat.le_refl m), ended n later]

/-- Closings by characters, in the order of the text and before a position of it. -/
structure InOrder (inner : List (Token × Nat)) (position : Nat) : Prop where
  tokens : ∀ closing ∈ inner, closing.1 = .number ∨ closing.1 = .leftParenthesis
  ascending : inner.Pairwise fun before after => before.2 < after.2
  before : ∀ closing ∈ inner, closing.2 < position

private theorem InOrder.nil (position : Nat) : InOrder [] position := ⟨by simp, .nil, by simp⟩

private theorem InOrder.mono {inner : List (Token × Nat)} {position position' : Nat} (inOrder : InOrder inner position)
    (le : position ≤ position') : InOrder inner position' :=
  ⟨inOrder.tokens, inOrder.ascending, fun closing member => Nat.lt_of_lt_of_le (inOrder.before closing member) le⟩

private theorem InOrder.concat {inner : List (Token × Nat)} {position position' : Nat} {found : Token}
    (inOrder : InOrder inner position) (token : found = .number ∨ found = .leftParenthesis)
    (lt : position < position') : InOrder (inner ++ [(found, position)]) position' := by
  obtain ⟨tokens, ascending, before⟩ := inOrder
  refine ⟨?_, ?_, ?_⟩
  · exact List.forall_mem_append.mpr ⟨tokens, List.forall_mem_singleton.mpr token⟩
  · refine List.pairwise_append.mpr ⟨ascending, List.pairwise_singleton _ _, fun closing member last same => ?_⟩
    rw [List.mem_singleton.mp same]
    exact before closing member
  · refine List.forall_mem_append.mpr ⟨fun closing member => ?_, List.forall_mem_singleton.mpr lt⟩
    exact Nat.lt_trans (before closing member) lt

/-- The closings by characters, and as many by the end of a text. -/
def withEnds (stop : Nat) (inner : List (Token × Nat)) (ends : Nat) : List (Token × Nat) :=
  inner ++ List.replicate ends (.endOfText, stop)

private theorem withEnds_concat (stop : Nat) (inner : List (Token × Nat)) (ends : Nat) :
    withEnds stop inner ends ++ [(.endOfText, stop)] = withEnds stop inner (ends + 1) := by
  rw [withEnds, withEnds, List.replicate_succ', List.append_assoc]

private theorem withEnds_eq_nil {stop ends : Nat} {inner : List (Token × Nat)} (none : withEnds stop inner ends = []) :
    inner = [] ∧ ends = 0 := by
  rw [withEnds, List.append_eq_nil_iff, List.replicate_eq_nil_iff] at none
  exact none

/-- What has been told up to a place in a text. Where its end has closed a group, no operand is due. -/
structure Place.Told (text : String) (inner : List (Token × Nat)) (ends : Nat) (place : Place) : Prop where
  here : ∃ k, place.cursor = (Cursor.ofText text).drop k
  inOrder : InOrder inner place.cursor.position
  ended (some : 0 < ends) : place.cursor.rest = [] ∧ place.factor ≠ none

namespace Place

variable {strictness : Strictness} {calculator : Calculator} {room : Nat} {place after : Place} {text : String}
  {inner : List (Token × Nat)} {ends : Nat}

private theorem Told.start (text : String) : (Place.start (.ofText text)).Told text [] 0 where
  here := ⟨0, rfl⟩
  inOrder := .nil _
  ended some := absurd some (Nat.lt_irrefl 0)

private theorem Told.ends_eq_zero (told : place.Told text inner ends)
    (more : place.cursor.rest ≠ [] ∨ place.factor = none) : ends = 0 := by
  rcases Nat.eq_zero_or_pos ends with zero | some
  · exact zero
  · obtain ⟨ended, read⟩ := told.ended some
    exact absurd more (by simp [ended, read])

private theorem Told.stop (told : place.Told text inner ends) : place.cursor.stop = text.length := by
  obtain ⟨k, here⟩ := told.here
  rw [here]
  rfl

private theorem Advance.more_of_silent (advance : place.Advance strictness room after none) :
    place.cursor.rest ≠ [] ∨ place.factor = none := by
  cases advance with
  | opened due token fits => exact .inr due
  | numeral due token ok => exact .inr due
  | operator read token => exact .inl (Cursor.rest_ne_nil (by simp [token]))
  | closed read inside token => exact .inl (Cursor.rest_ne_nil (by simp [token]))

private theorem Advance.told_of_silent (advance : place.Advance strictness room after none)
    (told : place.Told text inner ends) : after.Told text inner ends := by
  obtain ⟨k, here⟩ := told.here
  obtain ⟨n, later, reached, -⟩ := advance.movedTo here
  have none := told.ends_eq_zero advance.more_of_silent
  refine ⟨⟨n, reached⟩, ?_, fun some => by omega⟩
  have inOrder := told.inOrder
  rw [here] at inOrder
  rw [reached]
  exact inOrder.mono ((Cursor.ordered_ofText text).position_le later)

private theorem Told.past_end (told : place.Told text inner ends) (empty : place.cursor.rest = [])
    (moved : after.cursor = place.cursor.tail) (read : after.factor ≠ none) : after.Told text inner (ends + 1) := by
  have stays : place.cursor.tail = place.cursor := by rw [Cursor.tail, empty, List.tail_nil, ← empty]
  rw [stays] at moved
  refine ⟨?_, ?_, fun _ => ⟨?_, read⟩⟩
  · rw [moved]
    exact told.here
  · rw [moved]
    exact told.inOrder
  · rw [moved, empty]

private theorem Told.past_character (told : place.Told text inner ends) (more : place.cursor.rest ≠ [])
    (token : place.cursor.token = .number ∨ place.cursor.token = .leftParenthesis)
    (moved : after.cursor = place.cursor.tail) :
    after.Told text (inner ++ [(place.cursor.token, place.cursor.position)]) 0 := by
  obtain ⟨k, here⟩ := told.here
  have reached : place.cursor.tail = (Cursor.ofText text).drop (k + 1) := by
    rw [here, Cursor.tail_eq_drop, Cursor.drop_drop]
  have further : place.cursor.position < place.cursor.tail.position := by
    rw [here] at more
    rw [reached, here]
    exact (Cursor.ordered_ofText text).position_lt (Nat.lt_succ_self k) (List.length_lt_of_drop_ne_nil more)
  refine ⟨⟨k + 1, moved.trans reached⟩, ?_, fun some => absurd some (Nat.lt_irrefl 0)⟩
  rw [moved]
  exact told.inOrder.concat token further

private theorem Told.token_of_more (told : place.Told text inner ends) (valid : Valid text)
    (more : place.cursor.rest ≠ []) (unclosed : place.cursor.token ≠ .rightParenthesis)
    (ended : ∀ op, place.cursor.token ≠ .operator op) :
    place.cursor.token = .number ∨ place.cursor.token = .leftParenthesis := by
  obtain ⟨k, here⟩ := told.here
  have parts := Cursor.parts_drop text k
  rw [← here] at parts
  rcases parts.here valid with ⟨-, done⟩ | ⟨c, -, ⟨-, digit⟩ | ⟨op, -, operator⟩ | ⟨-, left⟩ | ⟨-, right⟩⟩
  · obtain ⟨glyph, rest, whole⟩ := List.exists_cons_of_ne_nil more
    rw [Cursor.token_of_rest_cons whole] at done
    exact absurd done (Token.ofChar_ne_endOfText _)
  · exact .inl digit
  · exact absurd operator (ended op)
  · exact .inr left
  · exact absurd right unclosed

private theorem Advance.told_of_closing (valid : Valid text) {event : Event}
    (advance : place.Advance strictness room after (some event)) (told : place.Told text inner ends) :
    ∃ inner' ends', withEnds text.length inner ends ++ closings [event] = withEnds text.length inner' ends' ∧
      after.Told text inner' ends' := by
  cases advance with
  | replaced read inside lenient unclosed ended =>
    by_cases empty : place.cursor.rest = []
    · refine ⟨inner, ends + 1, ?_, told.past_end empty rfl (Option.some_ne_none _)⟩
      rw [← withEnds_concat, Cursor.token_of_rest_nil empty, Cursor.position_of_nil empty, told.stop]
      rfl
    · have token := told.token_of_more valid empty unclosed ended
      obtain rfl := told.ends_eq_zero (.inl empty)
      refine ⟨inner ++ [(place.cursor.token, place.cursor.position)], 0, ?_, told.past_character empty token rfl⟩
      simp [withEnds, closings, Event.closing?]

private theorem Run.told {events : List Event} (run : Run strictness room place events after) (valid : Valid text)
    (told : place.Told text inner ends) :
    ∃ inner' ends', withEnds text.length inner ends ++ closings events = withEnds text.length inner' ends' ∧
      after.Told text inner' ends' := by
  induction run generalizing inner ends with
  | refl => exact ⟨inner, ends, List.append_nil _, told⟩
  | @next place middle after event events advance _ ih =>
    cases event with
    | none => exact ih (advance.told_of_silent told)
    | some event =>
      obtain ⟨inner', ends', first, told'⟩ := advance.told_of_closing valid told
      obtain ⟨inner'', ends'', whole, told''⟩ := ih told'
      refine ⟨inner'', ends'', ?_, told''⟩
      rw [closings_append, ← List.append_assoc, Option.toList_some, first, whole]

private theorem Halt.told {e : Expr} {cursor : Cursor} {event : Option Event}
    (halt : place.Halt calculator room (.ok e) cursor event) (told : place.Told text inner ends) :
    ∃ trailing : Option Nat, event = trailing.map Event.trailingIgnored ∧ (ends = 0 ∨ trailing = none) ∧
      (calculator.strictness = .strict → trailing = none) := by
  cases halt with
  | finished read outside done => exact ⟨none, rfl, .inr rfl, fun _ => rfl⟩
  | ignored read outside lenient more ended =>
    have full : place.cursor.rest ≠ [] := by
      intro empty
      simp [Cursor.head?, empty] at more
    refine ⟨some place.cursor.position, rfl, .inl (told.ends_eq_zero (.inl full)), fun strict => ?_⟩
    cases lenient.symm.trans strict

private theorem Halt.told_of_error {e : ParseError} {cursor : Cursor} {event : Option Event}
    (halt : place.Halt calculator room (.error e) cursor event) :
    event = none ∧ (place.factor = none ∨ calculator.strictness = .strict) := by
  cases halt with
  | full due | malformed due | foreign due | missing due => exact ⟨rfl, .inl due⟩
  | unclosed read inside strict | trailing read outside strict => exact ⟨rfl, .inr strict⟩

private theorem Told.inside (told : place.Told text inner ends) : place.cursor.position ≤ text.length := by
  obtain ⟨k, here⟩ := told.here
  rw [here, ← text.length_toList]
  exact (Cursor.parts_drop text k).inside

private theorem Run.exists_told {events : List Event} (run : Run strictness room (.start (.ofText text)) events after)
    (valid : Valid text) :
    ∃ inner ends, events = (withEnds text.length inner ends).map Event.closing ∧ after.Told text inner ends ∧
      (strictness = .strict → inner = [] ∧ ends = 0) := by
  obtain ⟨inner, ends, whole, told⟩ := run.told valid (.start text)
  have whole : closings events = withEnds text.length inner ends := whole
  refine ⟨inner, ends, by rw [← whole]; exact run.events_eq, told, ?_⟩
  rintro rfl
  rw [run.events_of_strict] at whole
  exact withEnds_eq_nil whole.symm

end Place

/-- What is told before the outcome, and how it goes with the outcome. -/
structure Calculator.Tells (calculator : Calculator) (text : String) (inner : List (Token × Nat)) (ends : Nat)
    (trailing : Option Nat) : Prop where
  events : (calculator.parse text).events =
    (withEnds text.length inner ends).map Event.closing ++ trailing.toList.map Event.trailingIgnored
  inOrder : InOrder inner text.length
  silent (reason : calculator.strictness = .strict ∨ ¬ Valid text) : inner = [] ∧ ends = 0 ∧ trailing = none
  ok {e : Expr} (ok : (calculator.parse text).result = .ok e) : ends = 0 ∨ trailing = none
  failed {e : ParseError} (failed : (calculator.parse text).result = .error e) :
    ends = 0 ∧ trailing = none ∧ ∀ closing ∈ inner, ∃ p ∈ e.position?, closing.2 < p

namespace Calculator

variable {calculator : Calculator} {text : String} {events : List Event} {last : Place} {cursor : Cursor}
  {event : Option Event}

private theorem tells_of_ok {e : Expr} (valid : Valid text)
    (run : Place.Run calculator.strictness calculator.maxDepth (.start (.ofText text)) events last)
    (halt : last.Halt calculator calculator.maxDepth (.ok e) cursor event) :
    ∃ inner ends trailing, calculator.Tells text inner ends trailing := by
  obtain ⟨inner, ends, written, told, silent⟩ := run.exists_told valid
  obtain ⟨trailing, rfl, either, kept⟩ := halt.told told
  have parsed := parse_of_run valid run halt
  refine ⟨inner, ends, trailing, ?_, told.inOrder.mono told.inside, ?_, fun _ => either, fun failed => ?_⟩
  · rw [parsed, written]
    cases trailing <;> rfl
  · rintro (strict | invalid)
    · exact ⟨(silent strict).1, (silent strict).2, kept strict⟩
    · exact absurd valid invalid
  · rw [parsed] at failed
    cases failed

private theorem tells_of_error {e : ParseError} (valid : Valid text)
    (run : Place.Run calculator.strictness calculator.maxDepth (.start (.ofText text)) events last)
    (halt : last.Halt calculator calculator.maxDepth (.error e) cursor event) :
    ∃ inner ends trailing, calculator.Tells text inner ends trailing := by
  obtain ⟨inner, ends, written, told, silent⟩ := run.exists_told valid
  obtain ⟨rfl, reason⟩ := halt.told_of_error
  have zero : ends = 0 := reason.elim (fun due => told.ends_eq_zero (.inr due)) fun strict => (silent strict).2
  have parsed := parse_of_run valid run halt
  refine ⟨inner, ends, none, ?_, told.inOrder.mono told.inside, ?_, fun _ => .inr rfl, fun failed => ⟨zero, rfl, ?_⟩⟩
  · rw [parsed, written]
    rfl
  · rintro (strict | invalid)
    · exact ⟨(silent strict).1, zero, rfl⟩
    · exact absurd valid invalid
  · intro closing member
    rw [parsed] at failed
    cases failed
    simp only [halt.positions]
    exact ⟨_, rfl, told.inOrder.before closing member⟩

private theorem exists_tells (calculator : Calculator) (text : String) :
    ∃ inner ends trailing, calculator.Tells text inner ends trailing := by
  by_cases valid : Valid text
  · obtain ⟨last, events, outcome, cursor, event, run, halt⟩ :=
      @Place.exists_run calculator calculator.maxDepth (.start (.ofText text))
    cases outcome with
    | ok e => exact tells_of_ok valid run halt
    | error e => exact tells_of_error valid run halt
  · obtain ⟨e, refused⟩ := exists_refused valid
    have parsed := @parse_of_refused calculator text e refused
    have events : (calculator.parse text).events = [] := by rw [parsed]
    exact ⟨[], 0, none, events, .nil _, fun _ => ⟨rfl, rfl, rfl⟩, fun _ => .inl rfl, fun _ => ⟨rfl, rfl, by simp⟩⟩

private theorem events_of_ok {e : Expr} (ok : (calculator.parse text).result = .ok e) :
    (calculator.display text).events = (calculator.parse text).events ++ [.parsed e, .evaluated text e.evaluate] := by
  rw [display, evaluate, ok]

private theorem events_of_error {e : ParseError} (failed : (calculator.parse text).result = .error e) :
    (calculator.display text).events = (calculator.parse text).events ++ [.rejected text e] := by
  rw [display, evaluate, failed]

/-- In a text that is parsed, every group that is opened is closed, by a closing parenthesis or by what is told of. -/
private theorem openings_of_ok {e : Expr} (ok : (calculator.parse text).result = .ok e) :
    ∃ parser, Parser.ofText calculator text = .ok parser ∧
      openings (closings (calculator.parse text).events) (parser.passed.map Glyph.char) =
        (parser.passed.map Glyph.char).count ')' + (closings (calculator.parse text).events).length := by
  obtain ⟨valid, -⟩ := (parse_eq_ok_iff e).mp ok
  let parser : Parser := ⟨calculator, .ofText text, 0⟩
  have made : Parser.ofText calculator text = .ok parser := ofText_of_valid valid
  have events : (calculator.parse text).events = parser.parse.events := by rw [parse_of_ofText made]
  rw [parse_of_ofText made] at ok
  obtain ⟨kept, -⟩ := Parser.parse_ok ok
  obtain ⟨closed, left⟩ := parser.nesting_parse
  refine ⟨parser, made, ?_⟩
  rw [events, ← closures]
  rw [unclosed] at left
  omega

end Calculator

/-- The events of one display are the groups closed by characters, those closed by the end of the text, the ignored
rest if there is one, and the outcome, in this order. Groups closed by the end and an ignored rest exclude each other,
and neither goes with an error, which lies behind all that closed a group. The text of an error is shown exactly if
the last event is the rejection. -/
theorem display_log (calculator : Calculator) (text : String) :
    ∃ inner ends trailing outcome,
      (calculator.display text).events = (withEnds text.length inner ends).map Event.closing ++
        trailing.toList.map Event.trailingIgnored ++ outcome ∧
      InOrder inner text.length ∧
      (calculator.strictness = .strict ∨ ¬ Valid text → inner = [] ∧ ends = 0 ∧ trailing = none) ∧
      ((∃ e, (calculator.parse text).result = .ok e ∧ outcome = [.parsed e, .evaluated text e.evaluate] ∧
          (calculator.display text).result = ValueNotation.display.write e.evaluate ∧ (ends = 0 ∨ trailing = none) ∧
          ∃ parser, Parser.ofText calculator text = .ok parser ∧
            openings (withEnds text.length inner ends) (parser.passed.map Glyph.char) =
              (parser.passed.map Glyph.char).count ')' + (withEnds text.length inner ends).length) ∨
        ∃ e, (calculator.parse text).result = .error e ∧ outcome = [.rejected text e] ∧
          (calculator.display text).result = errorText ∧ ends = 0 ∧ trailing = none ∧
          ∀ closing ∈ inner, ∃ p ∈ e.position?, closing.2 < p) ∧
      ((calculator.display text).result = errorText ↔
        ∃ input e, (calculator.display text).events.getLast? = some (.rejected input e)) := by
  obtain ⟨inner, ends, trailing, tells⟩ := calculator.exists_tells text
  have told : closings (calculator.parse text).events = withEnds text.length inner ends := by
    rw [tells.events, closings_append, closings_map_closing]
    cases trailing <;> exact List.append_nil _
  cases parsed : (calculator.parse text).result with
  | ok e =>
    have events := Calculator.events_of_ok parsed
    have shown := Calculator.display_of_ok (Calculator.evaluate_of_ok parsed)
    refine ⟨inner, ends, trailing, _, by rw [events, tells.events], tells.inOrder, tells.silent, .inl ?_, ?_⟩
    · have opened := Calculator.openings_of_ok parsed
      rw [told] at opened
      exact ⟨e, rfl, rfl, shown, tells.ok parsed, opened⟩
    · rw [events, shown]
      simp [ValueNotation.write_display_ne_errorText]
  | error e =>
    have events := Calculator.events_of_error parsed
    have shown := Calculator.display_of_error (Calculator.evaluate_of_error parsed)
    obtain ⟨zero, none, before⟩ := tells.failed parsed
    refine ⟨inner, ends, trailing, _, by rw [events, tells.events], tells.inOrder, tells.silent, .inr ?_, ?_⟩
    · exact ⟨e, rfl, rfl, shown, zero, none, before⟩
    · rw [events, shown]
      simp

end Abacus
