import Abacus.Proofs.Accepted

/-! One text under both strictnesses. The two readings go the same way until the lenient one tells
something; there the strict one ends, at the position that is told. So the lenient reading and what
it tells determine the strict one. -/
namespace Abacus

namespace Place

variable {calculator : Calculator} {strictness : Strictness} {room : Nat} {place after : Place}

private theorem Advance.of_silent {other : Strictness} (advance : place.Advance strictness room after none) :
    place.Advance other room after none := by
  cases advance with
  | opened due token fits => exact .opened due token fits
  | numeral due token ok => exact .numeral due token ok
  | operator read token => exact .operator read token
  | closed read inside token => exact .closed read inside token

private theorem Advance.strict_halt {event : Event} (advance : place.Advance strictness room after (some event)) :
    place.Halt (calculator.under .strict) room (.error (.bare .unclosedParenthesis)) place.cursor none := by
  cases advance with
  | replaced read inside lenient unclosed ended => exact .unclosed read inside rfl unclosed ended

/-- A lenient run is strict as well, or the strict run ends where the first group is closed by
something else. -/
private theorem Run.strict {events : List Event} (run : Run .lenient room place events after) :
    (closings events = [] ∧ Run .strict room place [] after) ∨
      ∃ found later middle, closings events = (found, middle.cursor.position) :: later ∧
        Run .strict room place [] middle ∧
        middle.Halt (calculator.under .strict) room (.error (.bare .unclosedParenthesis)) middle.cursor none := by
  induction run with
  | refl place => exact .inl ⟨rfl, .refl place⟩
  | @next place middle after event events advance _ ih =>
    cases event with
    | none =>
      have first : Advance .strict room place middle none := advance.of_silent
      rcases ih with ⟨silent, run⟩ | ⟨found, later, last, told, run, halt⟩
      · exact .inl ⟨silent, .next first run⟩
      · exact .inr ⟨found, later, last, told, .next first run, halt⟩
    | some event =>
      obtain ⟨-, -, -, rfl⟩ := advance.told
      -- the strict run ends here, whatever the lenient one does from here on
      exact .inr ⟨_, closings events, place, rfl, .refl place, advance.strict_halt⟩

private theorem Halt.strict {outcome : Except ParseError Expr} {cursor : Cursor} {event : Option Event}
    (halt : place.Halt (calculator.under .lenient) room outcome cursor event) :
    (event = none ∧ place.Halt (calculator.under .strict) room outcome cursor none) ∨
      ∃ c, event = some (.trailingIgnored cursor.position) ∧ cursor = place.cursor ∧ cursor.head? = some c ∧
        place.Halt (calculator.under .strict) room (.error (.bare (.trailingInput c))) cursor none := by
  cases halt with
  | full due token full => exact .inl ⟨rfl, .full due token full⟩
  | malformed due token fault => exact .inl ⟨rfl, .malformed due token fault⟩
  | foreign due token => exact .inl ⟨rfl, .foreign due token⟩
  | missing due opening digit known => exact .inl ⟨rfl, .missing due opening digit known⟩
  | unclosed read inside strict unclosed ended => cases strict
  | finished read outside done => exact .inl ⟨rfl, .finished read outside done⟩
  | ignored read outside lenient more ended =>
    exact .inr ⟨_, rfl, rfl, more, .trailing read outside rfl more ended⟩
  | trailing read outside strict more ended => cases strict

private theorem Run.getElem?_position {text : String} {events : List Event} {c : Char}
    (run : Run strictness room (start (.ofText text)) events after) (next : after.cursor.head? = some c) :
    text.toList[after.cursor.position]? = some c := by
  obtain ⟨passed, -, rest, -, -⟩ := run.mended
  cases glyphs : after.cursor.rest with
  | nil => simp [Cursor.head?, glyphs] at next
  | cons glyph later =>
    have member : glyph ∈ Abacus.glyphs text.toList := by
      have whole : Abacus.glyphs text.toList = passed ++ after.cursor.rest := rest
      simp [whole, glyphs]
    have char : glyph.char = c := by simpa [Cursor.head?, glyphs] using next
    rw [Cursor.position_of_cons glyphs, Abacus.getElem?_position member, char]

end Place

namespace Calculator

private theorem reading_strict (calculator : Calculator) (text : String) :
    let lenient := (calculator.under .lenient).reading text
    let strict := (calculator.under .strict).reading text
    (∃ found later, closings lenient.events = (found, strict.cursor.position) :: later ∧
      strict.outcome = .error (.bare .unclosedParenthesis)) ∨
    (∃ c, closings lenient.events = [] ∧ trailings lenient.events = [strict.cursor.position] ∧
      text.toList[strict.cursor.position]? = some c ∧ strict.outcome = .error (.bare (.trailingInput c))) ∨
    (closings lenient.events = [] ∧ trailings lenient.events = [] ∧ strict.outcome = lenient.outcome ∧
      strict.cursor = lenient.cursor) := by
  intro lenient strict
  obtain ⟨last, events, outcome, behind, event, run, halt⟩ :=
    @Place.exists_run (calculator.under .lenient) calculator.maxDepth (.start (.ofText text))
  have told : closings lenient.events = closings events := run.closings_read halt
  have ignored : trailings lenient.events = trailings event.toList := run.trailings_read halt
  rw [told, ignored]
  rcases Place.Run.strict run with ⟨silent, strictly⟩ | ⟨found, later, middle, closed, strictly, strictHalt⟩
  · rcases halt.strict with ⟨rfl, strictHalt⟩ | ⟨c, rfl, rfl, next, strictHalt⟩
    · have ends : strict = ⟨outcome, behind, _, _⟩ := strictly.read_of_halt strictHalt
      have same : lenient = ⟨outcome, behind, _, _⟩ := run.read_of_halt halt
      rw [ends, same]
      exact .inr (.inr ⟨silent, rfl, rfl, rfl⟩)
    · have ends : strict = ⟨_, _, _, _⟩ := strictly.read_of_halt strictHalt
      rw [ends]
      exact .inr (.inl ⟨c, silent, rfl, run.getElem?_position next, rfl⟩)
  · have ends : strict = ⟨_, _, _, _⟩ := strictly.read_of_halt strictHalt
    rw [ends]
    exact .inl ⟨found, later, closed, rfl⟩

end Calculator

private theorem Calculator.parse_strict (calculator : Calculator) (text : String) :
    match closings ((calculator.under .lenient).parse text).events,
        trailings ((calculator.under .lenient).parse text).events with
      | (_, position) :: _, _ =>
        ((calculator.under .strict).parse text).result = .error ⟨[position], .unclosedParenthesis⟩
      | [], position :: _ => ∃ c, text.toList[position]? = some c ∧
        ((calculator.under .strict).parse text).result = .error ⟨[position], .trailingInput c⟩
      | [], [] =>
        ((calculator.under .strict).parse text).result = ((calculator.under .lenient).parse text).result := by
  rcases Classical.em (Valid text) with valid | invalid
  · rw [parse_of_valid valid, parse_of_valid valid]
    rcases calculator.reading_strict text with ⟨found, later, told, ends⟩ | ⟨c, silent, told, next, ends⟩ |
      ⟨silent, silent', same, reached⟩
    · rw [told, ends]
      rfl
    · rw [silent, told, ends]
      exact ⟨c, next, rfl⟩
    · rw [silent, silent', same, reached]
  · obtain ⟨fault, refused⟩ := exists_refused invalid
    rw [parse_of_refused refused, parse_of_refused refused]
    rfl

/-- What lenient parsing gives and tells determines what strict parsing gives. Where a group is closed
by something else, the first such place is where strict parsing fails; otherwise it fails where the
rest is ignored; otherwise the results are the same. So trees never differ, and a tree that is parsed
strictly is parsed leniently without anything being told. -/
theorem strict_parse_of_lenient (calculator : Calculator) (text : String) :
    (match closings ((calculator.under .lenient).parse text).events,
        trailings ((calculator.under .lenient).parse text).events with
      | (_, position) :: _, _ =>
        ((calculator.under .strict).parse text).result = .error ⟨[position], .unclosedParenthesis⟩
      | [], position :: _ => ∃ c, text.toList[position]? = some c ∧
        ((calculator.under .strict).parse text).result = .error ⟨[position], .trailingInput c⟩
      | [], [] =>
        ((calculator.under .strict).parse text).result = ((calculator.under .lenient).parse text).result) ∧
    (∀ e, ((calculator.under .strict).parse text).result = .ok e →
      ((calculator.under .lenient).parse text).result = .ok e ∧
      closings ((calculator.under .lenient).parse text).events = [] ∧
      trailings ((calculator.under .lenient).parse text).events = []) ∧
    (∀ e e', ((calculator.under .strict).parse text).result = .ok e →
      ((calculator.under .lenient).parse text).result = .ok e' → e = e') := by
  have decided := calculator.parse_strict text
  have agreed (e : Expr) (ok : ((calculator.under .strict).parse text).result = .ok e) :
      ((calculator.under .lenient).parse text).result = .ok e ∧
      closings ((calculator.under .lenient).parse text).events = [] ∧
      trailings ((calculator.under .lenient).parse text).events = [] := by
    rw [ok] at decided
    split at decided
    · cases decided
    · obtain ⟨c, -, failed⟩ := decided
      cases failed
    · rename_i silent silent'
      exact ⟨decided.symm, silent, silent'⟩
  refine ⟨decided, agreed, fun e e' ok ok' => ?_⟩
  obtain ⟨same, -, -⟩ := agreed e ok
  exact Except.ok.inj (same.symm.trans ok')

end Abacus
