import Abacus.Proofs.Log
import Abacus.Proofs.Spelling

/-! The text that has been passed, with the closing parentheses that something else took the place
of. It is this text that a place spells, so that an expression read from any text, with whatever
repairs, is derivable from the repaired one. -/
namespace Abacus

/-- The character, or a closing parenthesis where a group was closed by it. -/
def Glyph.mended (taken : List (Token × Nat)) (glyph : Glyph) : Char :=
  if glyph.position ∈ taken.map Prod.snd then ')' else glyph.char

/-- How many groups were closed by the end of the text. -/
def endings (taken : List (Token × Nat)) : Nat := taken.countP fun closing => closing.1 = .endOfText

/-- The passed text with a closing parenthesis for each group that was closed by something else. -/
def mend (taken : List (Token × Nat)) (passed : List Glyph) : List Char :=
  passed.map (Glyph.mended taken) ++ List.replicate (endings taken) ')'

def replacements (taken : List (Token × Nat)) (passed : List Glyph) : Nat :=
  passed.countP fun glyph => glyph.mended taken ≠ glyph.char

/-- The same glyph by glyph: each is kept, or replaced where it closed a group, and behind the last
one there may be parentheses that were never there. -/
inductive Mended (stop : Nat) : List Glyph → List (Token × Nat) → List Char → Prop
  | nil : Mended stop [] [] []
  | kept {glyph : Glyph} {passed : List Glyph} {taken : List (Token × Nat)} {text : List Char}
      (rest : Mended stop passed taken text) : Mended stop (glyph :: passed) taken (glyph.char :: text)
  | replaced {glyph : Glyph} {passed : List Glyph} {taken : List (Token × Nat)} {text : List Char}
      (other : glyph.char ≠ ')') (rest : Mended stop passed taken text) :
      Mended stop (glyph :: passed) ((.ofChar glyph.char, glyph.position) :: taken) (')' :: text)
  | appended {taken : List (Token × Nat)} {text : List Char} (rest : Mended stop [] taken text) :
      Mended stop [] ((.endOfText, stop) :: taken) (')' :: text)

namespace Mended

variable {stop : Nat} {passed : List Glyph} {taken : List (Token × Nat)} {text : List Char}

private theorem keep (glyphs : List Glyph) (mended : Mended stop passed taken text) :
    Mended stop (glyphs ++ passed) taken (glyphs.map Glyph.char ++ text) := by
  induction glyphs with
  | nil => exact mended
  | cons glyph glyphs ih => exact .kept ih

theorem text_of_none (mended : Mended stop passed [] text) : text = passed.map Glyph.char := by
  generalize none : ([] : List (Token × Nat)) = taken at mended
  induction mended with
  | nil => rfl
  | kept _ ih => rw [ih none, List.map_cons]
  | replaced => cases none
  | appended => cases none

private theorem position_mem (mended : Mended stop passed taken text) {closing : Token × Nat}
    (member : closing ∈ taken) : closing.2 = stop ∨ ∃ glyph ∈ passed, glyph.position = closing.2 := by
  induction mended with
  | nil => cases member
  | kept _ ih =>
    rcases ih member with ended | ⟨glyph, inside, same⟩
    · exact .inl ended
    · exact .inr ⟨glyph, List.mem_cons_of_mem _ inside, same⟩
  | replaced _ _ ih =>
    rcases List.mem_cons.mp member with rfl | later
    · exact .inr ⟨_, List.mem_cons_self, rfl⟩
    · rcases ih later with ended | ⟨glyph, inside, same⟩
      · exact .inl ended
      · exact .inr ⟨glyph, List.mem_cons_of_mem _ inside, same⟩
  | appended _ ih =>
    rcases List.mem_cons.mp member with rfl | later
    · exact .inl rfl
    · exact ih later

end Mended

private theorem Glyph.mended_of_before {stop : Nat} {passed : List Glyph} {taken : List (Token × Nat)}
    {text : List Char} {glyph : Glyph} (mended : Mended stop passed taken text) (inside : glyph.position < stop)
    (before : ∀ other ∈ passed, glyph.position < other.position) : glyph.mended taken = glyph.char := by
  rw [Glyph.mended, if_neg]
  intro member
  obtain ⟨closing, found, same⟩ := List.mem_map.mp member
  rcases mended.position_mem found with ended | ⟨other, passedBy, at_⟩
  · omega
  · have := before other passedBy
    omega

private theorem Glyph.mended_cons_of_ne {taken : List (Token × Nat)} {closing : Token × Nat} {glyph : Glyph}
    (elsewhere : glyph.position ≠ closing.2) : glyph.mended (closing :: taken) = glyph.mended taken := by
  simp only [Glyph.mended, List.map_cons, List.mem_cons, elsewhere, false_or]

theorem Mended.eq_mend {stop : Nat} {passed : List Glyph} {taken : List (Token × Nat)} {text : List Char}
    (mended : Mended stop passed taken text)
    (ascending : passed.Pairwise fun before after => before.position < after.position)
    (inside : ∀ glyph ∈ passed, glyph.position < stop) :
    text = mend taken passed ∧ replacements taken passed + endings taken = taken.length := by
  induction mended with
  | nil => exact ⟨rfl, rfl⟩
  | @kept glyph passed taken text rest ih =>
    obtain ⟨first, later⟩ := List.pairwise_cons.mp ascending
    obtain ⟨whole, count⟩ := ih later fun other member => inside other (List.mem_cons_of_mem _ member)
    have same := Glyph.mended_of_before rest (inside glyph List.mem_cons_self) first
    constructor
    · rw [whole, mend, mend, List.map_cons, same, List.cons_append]
    · rw [replacements, List.countP_cons_of_neg (by simp [same])]
      exact count
  | @replaced glyph passed taken text other rest ih =>
    obtain ⟨first, later⟩ := List.pairwise_cons.mp ascending
    obtain ⟨whole, count⟩ := ih later fun other member => inside other (List.mem_cons_of_mem _ member)
    have here : glyph.mended ((.ofChar glyph.char, glyph.position) :: taken) = ')' := by simp [Glyph.mended]
    -- the later glyphs are elsewhere, and the later closings as well
    have there : ∀ other ∈ passed, other.mended ((.ofChar glyph.char, glyph.position) :: taken) = other.mended taken :=
      fun other member => Glyph.mended_cons_of_ne (Nat.ne_of_gt (first other member))
    have ends : endings ((.ofChar glyph.char, glyph.position) :: taken) = endings taken :=
      List.countP_cons_of_neg (by simpa using Token.ofChar_ne_endOfText glyph.char)
    constructor
    · rw [whole, mend, mend, List.map_cons, here, ends, List.map_congr_left there, List.cons_append]
    · have counted : replacements ((.ofChar glyph.char, glyph.position) :: taken) passed = replacements taken passed :=
        List.countP_congr fun other member => by rw [there other member]
      rw [replacements, List.countP_cons_of_pos (by simpa [here] using other.symm), ends, List.length_cons, ← count,
        ← counted, replacements]
      omega
  | @appended taken text rest ih =>
    obtain ⟨whole, count⟩ := ih .nil (by simp)
    have ends : endings ((.endOfText, stop) :: taken) = endings taken + 1 := List.countP_cons_of_pos (by simp)
    constructor
    · rw [whole, mend, mend, ends, List.replicate_succ]
      rfl
    · rw [ends, List.length_cons, ← count]
      rfl

namespace Place

variable {calculator : Calculator} {strictness : Strictness} {room : Nat} {place after : Place}

private theorem Advance.stop_eq {event : Option Event} (advance : place.Advance strictness room after event) :
    after.cursor.stop = place.cursor.stop := by
  cases advance <;> rfl

theorem Run.stop_eq {events : List Event} (run : Run strictness room place events after) :
    after.cursor.stop = place.cursor.stop := by
  induction run with
  | refl => rfl
  | next advance _ ih => exact ih.trans advance.stop_eq

private theorem Advance.spells_right {event : Event} (advance : place.Advance strictness room after (some event))
    {w : List Char} (spelled : place.Spelled room w) : after.Spelled room (w ++ [')']) := by
  cases advance with
  | replaced read inside lenient unclosed ended => exact spelled.close read inside _

/-- A run passes a text that is mended as it tells, and spells the mended text. -/
theorem Run.mended {events : List Event} (run : Run strictness room place events after) :
    ∃ passed text, place.cursor.rest = passed ++ after.cursor.rest ∧
      Mended place.cursor.stop passed (closings events) text ∧
      ∀ w, place.Spelled room w → after.Spelled room (w ++ text) := by
  induction run with
  | refl => exact ⟨[], [], rfl, .nil, fun w spelled => by rwa [List.append_nil]⟩
  | @next place middle after event events advance _ ih =>
    obtain ⟨passed, text, rest, mended, spells⟩ := ih
    rw [advance.stop_eq] at mended
    cases event with
    | none =>
      obtain ⟨glyphs, before, step⟩ := advance.spells
      refine ⟨glyphs ++ passed, glyphs.map Glyph.char ++ text, ?_, mended.keep glyphs, ?_⟩
      · rw [before, rest, List.append_assoc]
      · intro w spelled
        rw [← List.append_assoc]
        exact spells _ (step w spelled)
    | some event =>
      obtain ⟨-, other, moved, rfl⟩ := advance.told
      have spelled (w : List Char) (spelled : place.Spelled room w) : after.Spelled room (w ++ ')' :: text) := by
        rw [List.append_cons]
        exact spells _ (advance.spells_right spelled)
      rw [moved] at rest
      -- the parenthesis takes the place of the next glyph, or stands at the end
      cases next : place.cursor.rest with
      | nil =>
        have ended : passed = [] := by
          rw [Cursor.tail, next] at rest
          exact (List.append_eq_nil_iff.mp rest.symm).1
        subst ended
        refine ⟨[], ')' :: text, ?_, ?_, spelled⟩
        · rw [← rest, Cursor.tail, next, List.tail_nil]
        · rw [Cursor.token_of_rest_nil next, Cursor.position_of_nil next]
          exact .appended mended
      | cons glyph glyphs =>
        have token := Cursor.token_of_rest_cons next
        refine ⟨glyph :: passed, ')' :: text, ?_, ?_, spelled⟩
        · rw [List.cons_append, ← rest, Cursor.tail, next, List.tail_cons]
        · rw [token, Cursor.position_of_cons next]
          refine .replaced ?_ mended
          rintro right
          rw [token, right] at other
          exact other rfl

theorem Halt.ok {e : Expr} {cursor : Cursor} {event : Option Event}
    (halt : place.Halt calculator room (.ok e) cursor event) :
    ∃ factor, place.factor = some factor ∧ place.outer = [] ∧ e = place.level.expr factor ∧ cursor = place.cursor := by
  cases halt with
  | finished read outside done => exact ⟨_, read, outside, rfl, rfl⟩
  | ignored read outside lenient more ended => exact ⟨_, read, outside, rfl, rfl⟩

theorem read_ok {cursor : Cursor} {e : Expr} (ok : ((start cursor).read calculator room).outcome = .ok e) :
    ∃ passed text, cursor.rest = passed ++ ((start cursor).read calculator room).cursor.rest ∧
      Mended cursor.stop passed (closings ((start cursor).read calculator room).events) text ∧
      Grammar.Derives room text e := by
  obtain ⟨last, events, outcome, behind, event, run, halt⟩ := @exists_run calculator room (start cursor)
  obtain ⟨passed, text, rest, mended, spells⟩ := run.mended
  have spelled : last.Spelled room text := spells [] (Spelled.start cursor)
  rw [run.closings_read halt]
  rw [run.read_of_halt halt] at ok ⊢
  cases ok
  obtain ⟨factor, read, outside, rfl, rfl⟩ := halt.ok
  exact ⟨passed, text, rest, mended, spelled.derives read outside⟩

end Place

end Abacus
