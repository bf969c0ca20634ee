import Abacus.Cursor
import Abacus.Event
import Abacus.Level
import Abacus.Settings

/-! Places in an expression, and the steps from one to the next. All operators associate to the
left, and those of products bind tighter than those of sums:

    expression := term followed by any number of ('+' or '-') term
    term       := factor followed by any number of ('*' or '/') factor
    factor     := '(' expression ')' or a numeral

The levels of parentheses that are open are kept as a list, so that each step looks at one glyph
and passes it, or a numeral as a whole. Every step leaves less to do: `size_step`. -/
namespace Abacus

/-- A place in an expression: the levels of parentheses around it, the innermost first, and the
factor just read, or none where one is due. -/
structure Place where
  cursor : Cursor
  level : Level
  outer : List Level
  factor : Option Expr

inductive Move
  | next (place : Place) (event : Option Event)
  | stop (outcome : Except ParseError Expr) (cursor : Cursor) (event : Option Event)

namespace Place

def start (cursor : Cursor) : Place := ⟨cursor, .fresh, [], none⟩

def enter (calculator : Calculator) (room : Nat) (place : Place) : Move :=
  if room ≤ place.outer.length then .stop (.error (.bare (.nestingTooDeep calculator.maxDepth))) place.cursor none
  else .next ⟨place.cursor.tail, .fresh, place.level :: place.outer, none⟩ none

def takeNumeral (place : Place) : Move :=
  match place.cursor.numeral with
  | .ok value => .next { place with cursor := place.cursor.pastRun, factor := some (.literal value) } none
  | .error e => .stop (.error e) place.cursor.pastRun none

def beforeFactor (calculator : Calculator) (room : Nat) (place : Place) : Move :=
  match place.cursor.token with
  | .leftParenthesis => place.enter calculator room
  | .number => place.takeNumeral
  | .foreign c => .stop (.error (.bare (.invalidCharacter c))) place.cursor none
  | _ => .stop (.error (.bare .invalidNumber)) place.cursor none

def leave (strictness : Strictness) (place : Place) (group : Expr) (level : Level) (outer : List Level) : Move :=
  let closed : Place := ⟨place.cursor.tail, level, outer, some group⟩
  match place.cursor.token, strictness with
  | .rightParenthesis, _ => .next closed none
  | found, .lenient => .next closed (some (.groupClosedBy found place.cursor.position))
  | _, .strict => .stop (.error (.bare .unclosedParenthesis)) place.cursor none

def conclude (strictness : Strictness) (place : Place) (expr : Expr) : Move :=
  match place.cursor.head?, strictness with
  | none, _ => .stop (.ok expr) place.cursor none
  | some _, .lenient => .stop (.ok expr) place.cursor (some (.trailingIgnored place.cursor.position))
  | some c, .strict => .stop (.error (.bare (.trailingInput c))) place.cursor none

/-- After a factor: an operator goes on with the level, anything else ends it. -/
def afterFactor (strictness : Strictness) (place : Place) (factor : Expr) : Move :=
  match place.cursor.token with
  | .operator op => .next ⟨place.cursor.tail, place.level.await factor op, place.outer, none⟩ none
  | _ => match place.outer with
    | level :: outer => place.leave strictness (place.level.expr factor) level outer
    | [] => place.conclude strictness (place.level.expr factor)

def step (calculator : Calculator) (room : Nat) (place : Place) : Move :=
  match place.factor with
  | none => place.beforeFactor calculator room
  | some factor => place.afterFactor calculator.strictness factor

/-- A measure of what is left to do: every glyph is read once and may open a group, and every
group is closed once. -/
def size (place : Place) : Nat := 2 * place.cursor.rest.length + place.outer.length

private theorem size_beforeFactor {calculator : Calculator} {room : Nat} {place after : Place} {event : Option Event}
    (move : place.beforeFactor calculator room = .next after event) : after.size < place.size := by
  unfold beforeFactor at move
  split at move
  · rename_i token
    have shorter := Cursor.length_tail place.cursor (by simp [token])
    unfold enter at move
    split at move
    · simp at move
    · obtain ⟨rfl, -⟩ := Move.next.inj move
      simp only [size, List.length_cons]
      omega
  · unfold takeNumeral at move
    split at move
    · rename_i ok
      have shorter := Cursor.length_pastRun ok
      obtain ⟨rfl, -⟩ := Move.next.inj move
      simp only [size]
      omega
    · simp at move
  · simp at move
  · simp at move

private theorem size_leave {strictness : Strictness} {place after : Place} {group : Expr} {level : Level}
    {outer : List Level} {event : Option Event} (opened : place.outer = level :: outer)
    (move : place.leave strictness group level outer = .next after event) : after.size < place.size := by
  have reached : after = ⟨place.cursor.tail, level, outer, some group⟩ := by
    unfold leave at move
    split at move <;> simp_all
  subst reached
  simp only [size, Cursor.tail, List.length_tail, opened, List.length_cons]
  omega

private theorem size_afterFactor {strictness : Strictness} {place after : Place} {factor : Expr} {event : Option Event}
    (move : place.afterFactor strictness factor = .next after event) : after.size < place.size := by
  unfold afterFactor at move
  split at move
  · rename_i token
    have shorter := Cursor.length_tail place.cursor (by simp [token])
    obtain ⟨rfl, -⟩ := Move.next.inj move
    simp only [size]
    omega
  · split at move
    · exact size_leave (by assumption) move
    · unfold conclude at move
      split at move <;> simp at move

theorem size_step {calculator : Calculator} {room : Nat} {place after : Place} {event : Option Event}
    (move : place.step calculator room = .next after event) : after.size < place.size := by
  unfold step at move
  split at move
  · exact size_beforeFactor move
  · exact size_afterFactor move

end Place

end Abacus
