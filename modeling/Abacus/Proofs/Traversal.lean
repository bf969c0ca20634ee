import Abacus.Proofs.Offset

/-! Cursors on their way through a text. The characters that are not blank are numbered, and the cursor of a number
stands at that character and tells its offset. To advance is to go from one number to the next, until the end, where
a cursor stays. -/
namespace Abacus

/-- The number of characters before an offset, blanks not counted. -/
def rank (w : List Char) (p : Nat) : Nat := (nonBlank (w.take p)).length

private theorem mem_glyphs {w : List Char} {p : Nat} {c : Char} (here : w[p]? = some c)
    (visible : Text.isBlank c = false) : ⟨p, c⟩ ∈ glyphs w := by
  apply List.mem_map.mpr
  refine ⟨(c, p), ?_, rfl⟩
  rw [List.mem_filter, List.mem_zipIdx_iff_getElem?]
  exact ⟨here, by simp [visible]⟩

namespace Cursor

/-- Gives the next character and passes it. At the end there is none to give. -/
def advance (cursor : Cursor) : Option Char × Cursor :=
  match cursor.head? with
  | none => (none, cursor)
  | some c => (some c, cursor.tail)

/-- What so many calls of `advance` answer, one after the other, and the cursor they come to. -/
def advances (cursor : Cursor) : Nat → List (Option Char) × Cursor
  | 0 => ([], cursor)
  | n + 1 =>
    let (answer, next) := cursor.advance
    let (answers, last) := next.advances n
    (answer :: answers, last)

/-- The cursor of a text that has passed so many characters, blanks not counted. -/
def past (text : String) (k : Nat) : Cursor := (ofText text).drop k

/-- The cursor stands at a character of the text, and that is the character with this number. -/
structure StandsAt (w : List Char) (k : Nat) (c : Char) (cursor : Cursor) : Prop where
  next : cursor.head? = some c
  here : w[cursor.position]? = some c
  inside : cursor.position < w.length
  visible : Text.isBlank c = false
  before : rank w cursor.position = k

private theorem advance_eq (cursor : Cursor) : cursor.advance = (cursor.head?, cursor.tail) := by
  obtain ⟨rest, stop⟩ := cursor
  cases rest <;> rfl

private theorem advances_eq (cursor : Cursor) (n : Nat) :
    cursor.advances n = ((cursor.chars.take n).map some ++ List.replicate (n - cursor.chars.length) none, cursor.drop n) := by
  induction n generalizing cursor with
  | zero => simp [advances, drop]
  | succ n ih =>
    rw [advances, advance_eq]
    dsimp only
    rw [ih, chars_tail, head?_eq, tail_eq_drop, drop_drop, Nat.add_comm 1 n]
    cases cursor.chars with
    | nil => simp [List.replicate_succ]
    | cons c rest => simp

variable {text : String} {j k p : Nat} {c : Char}

private theorem chars_past (text : String) (k : Nat) : (past text k).chars = (dense text).drop k := by
  rw [past, chars_drop, chars_ofText]

private theorem drop_past (text : String) (k n : Nat) : (past text k).drop n = past text (k + n) := drop_drop ..

private theorem past_of_le (ended : (dense text).length ≤ k) : past text k = past text (dense text).length := by
  have whole := length_rest_ofText text
  rw [past, past, drop, drop, List.drop_eq_nil_of_le (by omega), List.drop_eq_nil_of_le (by omega)]

private theorem standsAt_past (text : String) (more : k < (dense text).length) :
    (past text k).StandsAt text.toList k (dense text)[k] := by
  have parts := parts_drop text k
  have next : (past text k).head? = some (dense text)[k] := by
    rw [head?_eq, chars_past, List.head?_drop, List.getElem?_eq_getElem more]
  have here := parts.next.trans next
  refine ⟨next, here, (List.getElem?_eq_some_iff.mp here).1, parts.visible next, ?_⟩
  rw [rank, past, parts.before, List.length_take]
  omega

private theorem past_end (text : String) :
    (past text (dense text).length).head? = none ∧ (past text (dense text).length).position = text.length := by
  have parts := parts_drop text (dense text).length
  have done : (past text (dense text).length).head? = none := by
    rw [head?_eq, chars_past, List.drop_length, List.head?_nil]
  refine ⟨done, ?_⟩
  rw [← String.length_toList]
  exact parts.position_of_end done

private theorem position_past_lt (later : j < k) (inside : k ≤ (dense text).length) :
    (past text j).position < (past text k).position := by
  apply (ordered_ofText text).position_lt later
  rw [length_rest_ofText]
  omega

private theorem position_past_lt_iff (inside : j ≤ (dense text).length) (inside' : k ≤ (dense text).length) :
    (past text j).position < (past text k).position ↔ j < k := by
  refine ⟨fun before => ?_, fun later => position_past_lt later inside'⟩
  rcases Nat.lt_trichotomy j k with later | rfl | earlier
  · exact later
  · exact absurd before (Nat.lt_irrefl _)
  · exact absurd before (Nat.lt_asymm (position_past_lt earlier inside))

private theorem position_past_rank (here : text.toList[p]? = some c) (visible : Text.isBlank c = false) :
    rank text.toList p < (dense text).length ∧ (past text (rank text.toList p)).position = p := by
  obtain ⟨k, inside, found⟩ := List.mem_iff_getElem.mp (mem_glyphs here visible)
  have more : k < (dense text).length := by rwa [← length_rest_ofText]
  have there : (ofText text).rest[k]? = some ⟨p, c⟩ := List.getElem?_eq_some_iff.mpr ⟨inside, found⟩
  have position : (past text k).position = p := position_drop there
  have number := (standsAt_past text more).before
  rw [position] at number
  rw [number]
  exact ⟨more, position⟩

private theorem blank_between (more : k < (dense text).length) (after : (past text k).position < p)
    (before : p < (past text (k + 1)).position) : ∃ d ∈ text.toList[p]?, Text.isBlank d := by
  have inside : p < text.toList.length := Nat.lt_of_lt_of_le before (parts_drop text (k + 1)).inside
  refine ⟨text.toList[p], List.getElem?_eq_getElem inside, ?_⟩
  by_contra solid
  rw [Bool.not_eq_true] at solid
  -- a character that is not blank has a number, and that would lie between two successive ones
  obtain ⟨numbered, position⟩ := position_past_rank (List.getElem?_eq_getElem inside) solid
  rw [← position] at after before
  rw [position_past_lt_iff (by omega) (by omega)] at after before
  omega

private theorem advance_past (more : k < (dense text).length) :
    (past text k).advance = (some (dense text)[k], past text (k + 1)) := by
  rw [advance_eq, (standsAt_past text more).next, tail_eq_drop, drop_past]

private theorem advances_past (inside : k ≤ (dense text).length) (n : Nat) :
    (past text k).advances n =
      ((((dense text).drop k).take n).map some ++ List.replicate (k + n - (dense text).length) none,
        past text (min (k + n) (dense text).length)) := by
  have left : n - ((dense text).drop k).length = k + n - (dense text).length := by
    rw [List.length_drop]
    omega
  rw [advances_eq, chars_past, drop_past, left]
  rcases Nat.le_total (k + n) (dense text).length with within | beyond
  · rw [Nat.min_eq_left within]
  · rw [Nat.min_eq_right beyond, past_of_le beyond]

end Cursor

open Cursor in
/-- A cursor tells the offset of the character it stands at, whose number is that of the characters passed, or the
length of the text once all are passed. Offsets ascend with the numbers, every character that is not blank has its
number, and what lies between two successive ones is blank. So to advance again and again gives every character once,
in the order of the text, and then nothing any more, the cursor staying where it is. -/
theorem offsets_faithful (text : String) :
    (∀ k, k < (dense text).length → ∃ c, (past text k).StandsAt text.toList k c ∧
      (past text k).advance = (some c, past text (k + 1)) ∧
      ∀ p, (past text k).position < p → p < (past text (k + 1)).position → ∃ d ∈ text.toList[p]?, Text.isBlank d) ∧
    ((past text (dense text).length).head? = none ∧ (past text (dense text).length).position = text.length) ∧
    (∀ j k, j ≤ (dense text).length → k ≤ (dense text).length →
      ((past text j).position < (past text k).position ↔ j < k)) ∧
    (∀ p c, text.toList[p]? = some c → Text.isBlank c = false →
      rank text.toList p < (dense text).length ∧ (past text (rank text.toList p)).position = p) ∧
    ∀ k n, k ≤ (dense text).length → (past text k).advances n =
      ((((dense text).drop k).take n).map some ++ List.replicate (k + n - (dense text).length) none,
        past text (min (k + n) (dense text).length)) :=
  ⟨fun _ more => ⟨_, standsAt_past text more, advance_past more, fun _ => blank_between more⟩, past_end text,
    fun _ _ => position_past_lt_iff, fun _ _ => position_past_rank, fun _ n inside => advances_past inside n⟩

open Cursor in
theorem offsets_faithful_spaced :
    let text := " 1\u3000+\uFEFF2 "
    (past text 1).StandsAt text.toList 1 '+' ∧ (past text 1).position < (past text 3).position ∧
      (past text 2).position = 5 ∧ (past text 2).advances 3 = ([some '2', none, none], past text 3) := by
  intro text
  have all : dense text = ['1', '+', '2'] := by decide +kernel
  obtain ⟨stands, -, ascending, numbered, onward⟩ := offsets_faithful text
  rw [all] at stands ascending onward
  obtain ⟨c, standing, -⟩ := stands 1 (by decide)
  have plus : c = '+' := Option.some.inj (standing.next.symm.trans (by decide +kernel))
  have third : rank text.toList 5 = 2 := by decide +kernel
  have found := (numbered 5 '2' (by decide +kernel) (by decide +kernel)).2
  rw [third] at found
  exact ⟨plus ▸ standing, (ascending 1 3 (by decide) (by decide)).mpr (by decide), found, onward 2 3 (by decide)⟩

end Abacus
