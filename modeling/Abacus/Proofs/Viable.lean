import Abacus.Proofs.Accepted
import Abacus.Proofs.Lookahead
import Abacus.Proofs.Offset

/-! Prefixes of accepted texts. Strict parsing fails at the first character that no accepted text has
there: what stands before can be completed, by an operand where one is due and by the parentheses that
are open, and no accepted text goes on as this one does. -/
namespace Abacus

open Grammar

/-- A text without blanks that is parsed strictly. -/
def Accepted (calculator : Calculator) (w : List Char) : Prop :=
  (∀ c ∈ w, Text.isBlank c = false) ∧ ∃ e, ((calculator.under .strict).parse (String.ofList w)).result = .ok e

/-- A beginning of an accepted text. -/
def Viable (calculator : Calculator) (u : List Char) : Prop := ∃ v, Accepted calculator (u ++ v)

variable {calculator : Calculator}

private theorem accepted_of_derives {w : List Char} {e : Expr} (derived : Derives calculator.maxDepth w e) :
    Accepted calculator w := by
  obtain ⟨-, solid⟩ := derived.valid
  constructor
  · intro c member
    rw [← solid] at member
    exact isBlank_of_mem_nonBlank member
  · have parsed : (calculator.under .strict).parse (String.ofList w) = ⟨.ok e, []⟩ :=
      Calculator.parse_ofList_of_derives derived
    exact ⟨e, by rw [parsed]⟩

private theorem Accepted.read {w : List Char} (accepted : Accepted calculator w) :
    ∃ cursor e, cursor.chars = w ∧
      ((Place.start cursor).read (calculator.under .strict) calculator.maxDepth).outcome = .ok e := by
  obtain ⟨visible, e, ok⟩ := accepted
  obtain ⟨-, ok⟩ := (Calculator.parse_eq_ok_iff e).mp ok
  refine ⟨.ofText (String.ofList w), e, ?_, ok⟩
  rw [Cursor.chars_ofText, dense, String.toList_ofList, nonBlank, List.filter_eq_self]
  intro c member
  rw [visible c member]
  rfl

namespace Place

variable {room : Nat} {place : Place} {w : List Char}

private theorem Spelled.fill (spelled : place.Spelled room w) (due : place.factor = none) :
    ∃ operand, (Place.mk place.cursor place.level place.outer (some operand)).Spelled room (w ++ ['0']) := by
  obtain ⟨around, begun, last, fits⟩ := spelled
  rw [due] at last
  cases last
  have zero : Operand .product 0 ['0'] (.literal (Numeral.decimal ['0']).toFloat) :=
    .number (by simp [isNumeralPart]) (by simp) (by decide)
  rw [List.append_nil]
  exact ⟨_, .mk around begun (.read zero) fits⟩

/-- Behind an operand, closing the groups that are open completes the text. -/
private theorem Spelled.closed {factor : Expr} (spelled : place.Spelled room w) (read : place.factor = some factor) :
    ∃ e, Derives room (w ++ List.replicate place.outer.length ')') e := by
  generalize around : place.outer = outer
  induction outer generalizing place factor w with
  | nil =>
    rw [List.length_nil, List.replicate_zero, List.append_nil]
    exact ⟨_, spelled.derives read around⟩
  | cons level outer ih =>
    obtain ⟨e, derived⟩ := ih (spelled.close read around place.cursor) rfl rfl
    rw [List.length_cons, List.replicate_succ]
    rw [List.append_assoc] at derived
    exact ⟨e, derived⟩

private theorem Spelled.viable (spelled : place.Spelled calculator.maxDepth w) : Viable calculator w := by
  cases read : place.factor with
  | some factor =>
    obtain ⟨e, derived⟩ := spelled.closed read
    exact ⟨_, accepted_of_derives derived⟩
  | none =>
    obtain ⟨operand, filled⟩ := spelled.fill read
    obtain ⟨e, derived⟩ := filled.closed rfl
    rw [List.append_assoc] at derived
    exact ⟨_, accepted_of_derives derived⟩

private theorem Halt.error_cases {room : Nat} {e : ParseError} {cursor : Cursor} {event : Option Event}
    (halt : place.Halt calculator room (.error e) cursor event) :
    (cursor = place.cursor ∧ ∃ fault, e = .bare fault ∧ ∀ literal cause, fault ≠ .malformedNumber literal cause) ∨
      (place.factor = none ∧ place.cursor.token = .number ∧ place.cursor.numeral = .error e) := by
  cases halt with
  | malformed due token fault => exact .inr ⟨due, token, fault⟩
  | full | foreign | missing | unclosed | trailing =>
    left
    exact ⟨rfl, _, rfl, by simp⟩

/-- A text that agrees with one that fails, up to the character where that one fails, is not read. -/
private theorem read_error_agree {base base' : Cursor} {u v v' : List Char} {e : ParseError}
    (failed : ((start base).read calculator room).outcome = .error e) (spelt : base.chars = u ++ v)
    (rest : ((start base).read calculator room).cursor.chars = v) (spelt' : base'.chars = u ++ v')
    (next : v'.head? = v.head?) (e' : Expr) : ((start base').read calculator room).outcome ≠ .ok e' := by
  obtain ⟨n, reached, alike⟩ := @read_agree calculator room base
  rw [reached] at rest
  obtain ⟨-, -, outcomes, -⟩ := alike base' (Cursor.agree_of_append spelt rest spelt' next)
  intro ok
  have same := outcomes.isOk
  rw [failed, ok] at same
  cases same

/-- A text with the same malformed numeral at the same place is not read either, whatever follows. -/
private theorem Run.read_malformed {base base' : Cursor} {last : Place} {events : List Event}
    {e : ParseError} {u v : List Char} (run : Run calculator.strictness room (start base) events last)
    (due : last.factor = none) (token : last.cursor.token = .number) (fault : last.cursor.numeral = .error e)
    (spelt : base.chars = u ++ last.cursor.chars) (spelt' : base'.chars = u ++ (last.cursor.run ++ v))
    (ended : ∀ c ∈ v.head?, isNumeralPart c = false) (e' : Expr) :
    ((start base').read calculator room).outcome ≠ .ok e' := by
  have here : (start base).cursor = base.drop 0 := rfl
  obtain ⟨n, -, reached, moved⟩ := run.movedTo here
  have full : last.cursor.run ≠ [] := Cursor.run_ne_nil token
  have whole : last.cursor.chars = last.cursor.run ++ last.cursor.pastRun.chars := (Cursor.run_append_pastRun _).symm
  have next : (last.cursor.run ++ v).head? = last.cursor.chars.head? := by
    rw [whole, List.head?_append_of_ne_nil _ full, List.head?_append_of_ne_nil _ full]
  have rest : (base.drop n).chars = last.cursor.chars := by rw [reached]
  have agree := Cursor.agree_of_append spelt rest spelt' next
  have length := Cursor.length_of_drop spelt rest (by simp [whole, full])
  have behind : (base'.drop n).chars = last.cursor.run ++ v := by
    rw [Cursor.chars_drop, spelt', length, List.drop_left]
  have same := Cursor.run_of_append behind (fun c => Cursor.isNumeralPart_of_mem_run) ended
  have fault' := Cursor.numeral_of_run same
  rw [fault] at fault'
  have token' : (base'.drop n).token = .number := by
    rw [agree.token (Nat.lt_succ_self n), ← reached, token]
  obtain ⟨events', run', -⟩ := moved base' agree
  have read := run'.read_of_halt (.malformed due token' fault')
  intro ok
  have start' : (start base).movedTo (base'.drop 0) = start base' := rfl
  rw [← start', read] at ok
  cases ok

private theorem Run.spelled_of_strict {text : String} {last : Place} {events : List Event}
    (run : Run .strict room (start (.ofText text)) events last) :
    ∃ passed, last.cursor.Parts text.toList passed ∧ last.Spelled room passed := by
  obtain ⟨passed, spelling, rest, mended, spells⟩ := run.mended
  have spelled := spells [] (Spelled.start (.ofText text))
  rw [run.events_of_strict] at mended
  rw [List.nil_append, mended.text_of_none] at spelled
  exact ⟨_, Cursor.parts_of_rest rest run.stop_eq, spelled⟩

end Place

/-- Strict parsing fails as early as possible. What stands before the position of an error is the
beginning of an accepted text, and nothing accepted begins with that and the character there, or with
that and a malformed numeral, or is that alone where the text ends. -/
theorem strict_error_earliest (calculator : Calculator) (text : String) (e : ParseError) (valid : Valid text)
    (failed : ((calculator.under .strict).parse text).result = .error e) :
    ∃ p fault, e = ⟨[p], fault⟩ ∧ p ≤ text.length ∧ Viable calculator (nonBlank (text.toList.take p)) ∧
      match fault with
      | .malformedNumber literal _ => ∀ v, (∀ c ∈ v.head?, isNumeralPart c = false) →
          ¬ Accepted calculator (nonBlank (text.toList.take p) ++ (literal.toList ++ v))
      | _ => (∀ c, text.toList[p]? = some c → ¬ Viable calculator (nonBlank (text.toList.take p) ++ [c])) ∧
          (p = text.length → ¬ Accepted calculator (nonBlank (text.toList.take p))) := by
  obtain ⟨last, events, outcome, cursor, event, run, halt⟩ :=
    @Place.exists_run (calculator.under .strict) calculator.maxDepth (.start (.ofText text))
  have read := run.read_of_halt halt
  obtain ⟨passed, parts, spelled⟩ := Place.Run.spelled_of_strict run
  have spelt := (Cursor.chars_ofText text).trans parts.whole
  have stops : (calculator.under .strict).parse text = ⟨_, _⟩ := Calculator.parse_of_run valid run halt
  rw [stops] at failed
  cases outcome with
  | ok tree => cases failed
  | error inner =>
    cases failed
    rcases halt.error_cases with ⟨rfl, fault, rfl, other⟩ | ⟨due, token, fault⟩
    · refine ⟨last.cursor.position, fault, rfl, parts.inside, by rw [parts.before]; exact spelled.viable, ?_⟩
      have refused (v : List Char) (next : v.head? = last.cursor.chars.head?) : ¬ Accepted calculator (passed ++ v) := by
        intro accepted
        obtain ⟨cursor', e', spelt', ok⟩ := accepted.read
        exact Place.read_error_agree (by rw [read]) spelt (by rw [read]) spelt' next e' ok
      rw [parts.before]
      split
      · exact absurd rfl (other _ _)
      · constructor
        · rintro c here ⟨v, accepted⟩
          rw [parts.next, Cursor.head?_eq] at here
          rw [List.append_assoc] at accepted
          exact refused (c :: v) here.symm accepted
        · intro ended
          have done : last.cursor.chars = [] := by
            rw [← parts.after, ended, ← String.length_toList, List.drop_length]
            rfl
          have alone := refused [] (by rw [done])
          rwa [List.append_nil] at alone
    · obtain ⟨rfl, -⟩ := Cursor.numeral_fault token fault
      refine ⟨last.cursor.position, _, rfl, parts.inside, by rw [parts.before]; exact spelled.viable, ?_⟩
      intro v ended accepted
      obtain ⟨cursor', e', spelt', ok⟩ := accepted.read
      rw [String.toList_ofList, parts.before] at spelt'
      exact run.read_malformed due token fault spelt spelt' ended e' ok

theorem strict_error_earliest_trailing :
    Valid "(1 + 2) )3" ∧
      ((Calculator.default.under .strict).parse "(1 + 2) )3").result = .error ⟨[8], .trailingInput ')'⟩ ∧
      Viable .default "(1+2)".toList ∧ ¬ Viable .default "(1+2))".toList := by
  have valid : Valid "(1 + 2) )3" := (checkText_eq_ok_iff _).mp rfl
  have refused : ((Calculator.default.under .strict).parse "(1 + 2) )3").result.map (fun _ => ()) =
      .error ⟨[8], .trailingInput ')'⟩ := by decide +kernel
  have failed := map_eq_error_iff.mp refused
  obtain ⟨p, fault, same, -, viable, final⟩ := strict_error_earliest .default _ _ valid failed
  cases same
  have before : nonBlank ("(1 + 2) )3".toList.take 8) = "(1+2)".toList := by decide +kernel
  rw [before] at viable final
  exact ⟨valid, failed, viable, final.1 ')' (by decide +kernel)⟩

end Abacus
