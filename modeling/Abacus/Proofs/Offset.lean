import Abacus.Proofs.Dense

/-! Offsets in a whole text, and places in it without its blanks. The position of a cursor parts the
text: the characters that have been passed stand before it, those still to be read from it on. -/
namespace Abacus

/-- Where in the text its character number `k` stands, blanks not counted. The place behind the last
character is the end of the text. -/
inductive Marks (w : List Char) (k : Nat) : Nat → Prop
  | char {p : Nat} {c : Char} (here : w[p]? = some c) (visible : Text.isBlank c = false)
      (before : (nonBlank (w.take p)).length = k) : Marks w k p
  | stop (all : (nonBlank w).length = k) : Marks w k w.length

private theorem glyphsFrom_blank {c : Char} (blank : Text.isBlank c) (n : Nat) (w : List Char) :
    glyphsFrom n (c :: w) = glyphsFrom (n + 1) w := by
  simp [glyphsFrom, blank]

private theorem glyphsFrom_visible {c : Char} (visible : Text.isBlank c = false) (n : Nat) (w : List Char) :
    glyphsFrom n (c :: w) = ⟨n, c⟩ :: glyphsFrom (n + 1) w := by
  simp [glyphsFrom, visible]

private theorem nonBlank_blank {c : Char} (blank : Text.isBlank c) (w : List Char) :
    nonBlank (c :: w) = nonBlank w := by
  simp [nonBlank, blank]

theorem isBlank_of_mem_nonBlank {w : List Char} {c : Char} (member : c ∈ nonBlank w) : Text.isBlank c = false := by
  simpa using (List.mem_filter.mp member).2

theorem glyphsFrom_split {w : List Char} {n : Nat} {passed rest : List Glyph} {glyph : Glyph}
    (whole : glyphsFrom n w = passed ++ glyph :: rest) :
    ∃ p, glyph.position = n + p ∧ w[p]? = some glyph.char ∧ nonBlank (w.take p) = passed.map Glyph.char ∧
      nonBlank (w.drop p) = (glyph :: rest).map Glyph.char := by
  induction w generalizing n passed with
  | nil => simp [glyphsFrom] at whole
  | cons c w ih =>
    cases visible : Text.isBlank c with
    | true =>
      rw [glyphsFrom_blank visible] at whole
      obtain ⟨p, position, here, before, after⟩ := ih whole
      refine ⟨p + 1, by omega, here, ?_, after⟩
      rw [List.take_succ_cons, nonBlank_blank visible, before]
    | false =>
      rw [glyphsFrom_visible visible] at whole
      cases passed with
      | nil =>
        obtain ⟨rfl, rfl⟩ := List.cons.inj whole
        refine ⟨0, rfl, rfl, rfl, ?_⟩
        rw [List.drop_zero, nonBlank_cons visible, List.map_cons, map_char_glyphsFrom]
      | cons first passed =>
        obtain ⟨rfl, later⟩ := List.cons.inj whole
        obtain ⟨p, position, here, before, after⟩ := ih later
        refine ⟨p + 1, by omega, here, ?_, after⟩
        rw [List.take_succ_cons, nonBlank_cons visible, before, List.map_cons]

/-- The cursor stands in the text behind what has been passed: its position parts the text there. -/
structure Cursor.Parts (w : List Char) (passed : List Char) (cursor : Cursor) : Prop where
  before : nonBlank (w.take cursor.position) = passed
  after : nonBlank (w.drop cursor.position) = cursor.chars
  next : w[cursor.position]? = cursor.head?
  inside : cursor.position ≤ w.length

namespace Cursor

theorem parts_of_rest {text : String} {cursor : Cursor} {passed : List Glyph}
    (rest : (ofText text).rest = passed ++ cursor.rest) (stop : cursor.stop = text.length) :
    cursor.Parts text.toList (passed.map Glyph.char) := by
  cases next : cursor.rest with
  | nil =>
    rw [next, List.append_nil] at rest
    have whole : nonBlank text.toList = passed.map Glyph.char := by rw [← rest, ← map_char_glyphs]; rfl
    have position : cursor.position = text.toList.length := by
      rw [position_of_nil next, stop, String.length_toList]
    refine ⟨?_, ?_, ?_, Nat.le_of_eq position⟩
    · rw [position, List.take_length, whole]
    · rw [position, List.drop_length, chars, next]
      rfl
    · rw [position, head?, next]
      simp
  | cons glyph later =>
    rw [next] at rest
    obtain ⟨p, position, here, before, after⟩ := glyphsFrom_split rest
    rw [Nat.zero_add] at position
    have position : cursor.position = p := by rw [position_of_cons next, position]
    refine ⟨?_, ?_, ?_, ?_⟩
    · rw [position, before]
    · rw [position, after, chars, next]
    · rw [position, here, head?, next]
      rfl
    · rw [position]
      exact Nat.le_of_lt (List.getElem?_eq_some_iff.mp here).1

theorem parts_drop (text : String) (k : Nat) : ((ofText text).drop k).Parts text.toList ((dense text).take k) := by
  have parts := @parts_of_rest text ((ofText text).drop k) ((ofText text).rest.take k)
    (List.take_append_drop k _).symm rfl
  rwa [List.map_take, ← chars, chars_ofText] at parts

theorem Parts.whole {w passed : List Char} {cursor : Cursor} (parts : cursor.Parts w passed) :
    nonBlank w = passed ++ cursor.chars := by
  rw [← parts.before, ← parts.after, ← nonBlank_append, List.take_append_drop]

theorem Parts.visible {w passed : List Char} {cursor : Cursor} (parts : cursor.Parts w passed) {c : Char}
    (next : cursor.head? = some c) : Text.isBlank c = false := by
  apply isBlank_of_mem_nonBlank (w := w.drop cursor.position)
  rw [parts.after]
  rw [head?_eq] at next
  exact List.mem_of_head? next

theorem Parts.position_of_end {w passed : List Char} {cursor : Cursor} (parts : cursor.Parts w passed)
    (done : cursor.head? = none) : cursor.position = w.length := by
  apply Nat.le_antisymm parts.inside
  rw [← List.getElem?_eq_none_iff, parts.next, done]

private theorem Parts.marks {w passed : List Char} {cursor : Cursor} (parts : cursor.Parts w passed) :
    Marks w passed.length cursor.position := by
  cases next : cursor.head? with
  | none =>
    have position := parts.position_of_end next
    have whole := parts.before
    rw [position, List.take_length] at whole
    rw [position, ← whole]
    exact .stop rfl
  | some c =>
    have here := parts.next
    rw [next] at here
    exact .char here (parts.visible next) (by rw [parts.before])

theorem marks_drop (text : String) (k : Nat) :
    Marks text.toList (min k (dense text).length) ((ofText text).drop k).position := by
  rw [← List.length_take]
  exact (parts_drop text k).marks

end Cursor

end Abacus
