import Abacus.Proofs.Described

/-! Groups that are opened and closed. What has been passed and what has been told say how many there are of
each, and the levels around a place are the groups that have been opened and not closed. No more of them are ever
open than there is room for. -/
namespace Abacus

/-- The groups opened in a text: its opening parentheses, but for those that closed a group. -/
def openings (taken : List (Token × Nat)) (w : List Char) : Nat :=
  w.count '(' - taken.countP fun closing => closing.1 = .leftParenthesis

/-- The groups closed in a text, by a closing parenthesis or by what took its place. -/
def closures (taken : List (Token × Nat)) (w : List Char) : Nat := w.count ')' + taken.length

/-- The groups that stay open, where each one closed has been opened in the text. -/
def unclosed (taken : List (Token × Nat)) (w : List Char) : Nat := openings taken w - closures taken w

/-- The number of open groups before and after a text with these closings. -/
structure Balance (before after : Nat) (taken : List (Token × Nat)) (w : List Char) : Prop where
  swallowed : taken.countP (fun closing => closing.1 = .leftParenthesis) ≤ w.count '('
  level : after + closures taken w = before + openings taken w

namespace Balance

variable {before middle after : Nat} {taken taken' : List (Token × Nat)} {w v : List Char}

private theorem nil (level : Nat) : Balance level level [] [] := ⟨Nat.le_refl 0, rfl⟩

theorem append (first : Balance before middle taken w) (second : Balance middle after taken' v) :
    Balance before after (taken ++ taken') (w ++ v) := by
  have swallowed := first.swallowed
  have swallowed' := second.swallowed
  have level := first.level
  have level' := second.level
  constructor
  · rw [List.countP_append, List.count_append]
    omega
  · simp only [openings, closures, List.countP_append, List.count_append, List.length_append] at level level' ⊢
    omega

theorem silent (balance : Balance before after [] w) : after + w.count ')' = before + w.count '(' := balance.level

theorem of_none (balance : Balance 0 after taken w) : closures taken w ≤ openings taken w ∧ after = unclosed taken w := by
  have level := balance.level
  rw [unclosed]
  omega

private theorem of_plain (level : Nat) (left : w.count '(' = 0) (right : w.count ')' = 0) :
    Balance level level [] w := by
  constructor
  · exact Nat.zero_le _
  · rw [openings, closures, left, right]
    rfl

/-- Of all characters that can close a group in place of the right one, only a parenthesis would open one. -/
private theorem of_replaced (level : Nat) {c : Char} (other : Token.ofChar c ≠ .rightParenthesis) (position : Nat) :
    Balance (level + 1) level [(.ofChar c, position)] [c] := by
  have right : c ≠ ')' := by
    rintro rfl
    exact other rfl
  by_cases left : c = '('
  · subst left
    exact ⟨Nat.le_refl 1, rfl⟩
  · have token : Token.ofChar c ≠ .leftParenthesis := fun found => left (Token.eq_of_ofChar_left found)
    constructor
    · simp [token]
    · simp [openings, closures, left, right, token]

end Balance

/-- Every parenthesis of a text opens a group within the room, where so many groups are open at its beginning. -/
def Roomy (room before : Nat) (w : List Char) : Prop :=
  ∀ u v, w = u ++ '(' :: v → before + u.count '(' < u.count ')' + room

theorem roomy_of_plain {room before : Nat} {w : List Char} (left : w.count '(' = 0) : Roomy room before w := by
  intro u v whole
  rw [whole, List.count_append, List.count_cons_self] at left
  omega

theorem roomy_of_opening {room before : Nat} (fits : before < room) : Roomy room before ['('] := by
  intro u v whole
  cases u with
  | nil => simpa using fits
  | cons c u => simp at whole

theorem Roomy.append {room before middle : Nat} {w v : List Char} (first : Roomy room before w)
    (balance : Balance before middle [] w) (second : Roomy room middle v) : Roomy room before (w ++ v) := by
  intro u x whole
  have level := balance.silent
  rcases List.append_eq_append_iff.mp whole with ⟨rest, rfl, later⟩ | ⟨rest, rfl, later⟩
  · -- the parenthesis stands in the second part
    have fits := second rest x later
    rw [List.count_append, List.count_append]
    omega
  · cases rest with
    | nil =>
      have fits := second [] x later.symm
      rw [List.append_nil] at level
      rw [List.count_nil, List.count_nil] at fits
      omega
    | cons c rest =>
      cases later
      exact first u rest rfl

namespace Place

variable {strictness : Strictness} {room : Nat} {place after : Place}

private theorem Advance.balance {event : Option Event} (advance : place.Advance strictness room after event) :
    ∃ passed, place.cursor.rest = passed ++ after.cursor.rest ∧
      Balance place.outer.length after.outer.length (closings event.toList) (passed.map Glyph.char) ∧
      (event = none → Roomy room place.outer.length (passed.map Glyph.char)) := by
  cases advance with
  | opened due token fits =>
    obtain ⟨passed, rest, spelt⟩ := Cursor.rest_of_left token
    refine ⟨passed, rest, ?_⟩
    rw [spelt]
    exact ⟨⟨by decide, rfl⟩, fun _ => roomy_of_opening fits⟩
  | numeral due token ok =>
    obtain ⟨passed, rest, spelt⟩ := place.cursor.rest_of_run
    obtain ⟨left, right⟩ := place.cursor.count_run
    refine ⟨passed, rest, ?_⟩
    rw [spelt]
    exact ⟨.of_plain _ left right, fun _ => roomy_of_plain left⟩
  | @operator factor op read token =>
    obtain ⟨passed, rest, spelt⟩ := Cursor.rest_of_operator token
    obtain ⟨left, right⟩ := count_symbol op
    refine ⟨passed, rest, ?_⟩
    rw [spelt]
    exact ⟨.of_plain _ left right, fun _ => roomy_of_plain left⟩
  | closed read inside token =>
    obtain ⟨passed, rest, spelt⟩ := Cursor.rest_of_right token
    refine ⟨passed, rest, ?_⟩
    rw [spelt, inside]
    exact ⟨⟨by decide, rfl⟩, fun _ => roomy_of_plain rfl⟩
  | @replaced factor level outer read inside lenient unclosed ended =>
    cases next : place.cursor.rest with
    | nil =>
      refine ⟨[], by rw [Cursor.tail, next]; rfl, ?_, by simp⟩
      rw [inside, Cursor.token_of_rest_nil next]
      exact ⟨Nat.le_refl 0, rfl⟩
    | cons glyph rest =>
      refine ⟨[glyph], by rw [Cursor.tail, next]; rfl, ?_, by simp⟩
      rw [Cursor.token_of_rest_cons next] at unclosed ⊢
      rw [inside]
      exact .of_replaced outer.length unclosed place.cursor.position

theorem Run.balance {events : List Event} (run : Run strictness room place events after) :
    ∃ passed, place.cursor.rest = passed ++ after.cursor.rest ∧
      Balance place.outer.length after.outer.length (closings events) (passed.map Glyph.char) ∧
      (events = [] → Roomy room place.outer.length (passed.map Glyph.char)) := by
  induction run with
  | refl place =>
    refine ⟨[], rfl, .nil _, fun _ => ?_⟩
    exact roomy_of_plain rfl
  | @next place middle after event events advance _ ih =>
    obtain ⟨first, rest, balance, roomy⟩ := advance.balance
    obtain ⟨later, rest', balance', roomy'⟩ := ih
    refine ⟨first ++ later, by rw [rest, rest', List.append_assoc], ?_, fun silent => ?_⟩
    · rw [List.map_append, closings_append]
      exact balance.append balance'
    · obtain ⟨none, silent⟩ := List.append_eq_nil_iff.mp silent
      rw [Option.toList_eq_nil_iff] at none
      subst none silent
      rw [List.map_append]
      exact (roomy rfl).append balance (roomy' rfl)

theorem Halt.balance {calculator : Calculator} {outcome : Except ParseError Expr} {cursor : Cursor} {event : Option Event}
    (halt : place.Halt calculator room outcome cursor event) :
    ∃ passed, place.cursor.rest = passed ++ cursor.rest ∧
      Balance place.outer.length place.outer.length (Abacus.closings event.toList) (passed.map Glyph.char) := by
  rw [halt.closings]
  cases halt with
  | malformed due token fault =>
    obtain ⟨passed, rest, spelt⟩ := place.cursor.rest_of_run
    obtain ⟨left, right⟩ := place.cursor.count_run
    refine ⟨passed, rest, ?_⟩
    rw [spelt]
    exact .of_plain _ left right
  | full | foreign | missing | unclosed | finished | ignored | trailing => exact ⟨[], rfl, .nil _⟩

private theorem Advance.outer_le {event : Option Event} (advance : place.Advance strictness room after event)
    (bound : place.outer.length ≤ room) : after.outer.length ≤ room := by
  cases advance with
  | opened due token fits => exact fits
  | numeral | operator => exact bound
  | closed read inside token | replaced read inside lenient unclosed ended =>
    rw [inside, List.length_cons] at bound
    exact Nat.le_of_succ_le bound

theorem Run.outer_le {events : List Event} (run : Run strictness room place events after)
    (bound : place.outer.length ≤ room) : after.outer.length ≤ room := by
  induction run with
  | refl => exact bound
  | next advance _ ih => exact ih (advance.outer_le bound)

end Place

end Abacus
