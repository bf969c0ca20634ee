import Abacus.Cursor
import Mathlib.Data.List.Basic

/-! Texts without their blanks, and cursors in them. The parser sees a text only through the
characters still to be read; their offsets matter to errors and events alone. -/
namespace Abacus

/-- A text without its blanks. -/
def nonBlank (w : List Char) : List Char := w.filter fun c => !Text.isBlank c

def dense (text : String) : List Char := nonBlank text.toList

theorem nonBlank_append (w v : List Char) : nonBlank (w ++ v) = nonBlank w ++ nonBlank v := List.filter_append ..

theorem nonBlank_cons {c : Char} (known : Text.isBlank c = false) (w : List Char) :
    nonBlank (c :: w) = c :: nonBlank w := by
  rw [nonBlank, List.filter_cons, known]
  rfl

theorem nonBlank_space (w : List Char) : nonBlank (' ' :: w) = nonBlank w := rfl

namespace Token

theorem ofChar_of_part {c : Char} (part : isNumeralPart c) : ofChar c = .number := by
  rw [ofChar, if_pos part]

theorem part_of_ofChar {c : Char} (found : ofChar c = .number) : isNumeralPart c := by
  by_contra other
  rw [ofChar, if_neg other] at found
  split_ifs at found

theorem eq_symbol_of_ofChar {c : Char} {op : Operator} (found : ofChar c = .operator op) : c = op.symbol := by
  unfold ofChar at found
  split_ifs at found <;> cases found <;> assumption

theorem eq_of_ofChar_left {c : Char} (found : ofChar c = .leftParenthesis) : c = '(' := by
  unfold ofChar at found
  split_ifs at found
  assumption

theorem eq_of_ofChar_right {c : Char} (found : ofChar c = .rightParenthesis) : c = ')' := by
  unfold ofChar at found
  split_ifs at found
  assumption

theorem eq_of_ofChar_foreign {c d : Char} (found : ofChar c = .foreign d) : c = d := by
  unfold ofChar at found
  split_ifs at found
  cases found
  rfl

theorem ofChar_ne_endOfText (c : Char) : ofChar c ≠ .endOfText := by
  unfold ofChar
  split_ifs <;> simp

end Token

/-- The glyphs of a text that begins at an offset. -/
def glyphsFrom (n : Nat) (w : List Char) : List Glyph :=
  ((w.zipIdx n).filter fun (c, _) => !Text.isBlank c).map fun (c, i) => ⟨i, c⟩

theorem map_char_glyphsFrom (n : Nat) (w : List Char) : (glyphsFrom n w).map Glyph.char = nonBlank w := by
  have pairs : ((w.zipIdx n).filter fun pair => !Text.isBlank pair.1).map Prod.fst =
      ((w.zipIdx n).map Prod.fst).filter fun c => !Text.isBlank c := by
    rw [List.filter_map]
    rfl
  rw [glyphsFrom, List.map_map]
  rw [List.zipIdx_map_fst] at pairs
  exact pairs

theorem map_char_glyphs (text : List Char) : (glyphs text).map Glyph.char = nonBlank text :=
  map_char_glyphsFrom 0 text

theorem length_glyphs (w : List Char) : (glyphs w).length = (nonBlank w).length := by
  rw [← map_char_glyphs, List.length_map]

theorem getElem?_position {text : List Char} {glyph : Glyph} (member : glyph ∈ glyphs text) :
    text[glyph.position]? = some glyph.char := by
  obtain ⟨⟨c, i⟩, kept, rfl⟩ := List.mem_map.mp member
  exact List.mem_zipIdx_iff_getElem?.mp (List.mem_filter.mp kept).1

private theorem ascending_glyphs (text : List Char) :
    (glyphs text).Pairwise fun before after => before.position < after.position := by
  have indices : text.zipIdx.Pairwise fun before after => before.2 < after.2 := by
    apply List.pairwise_map.mp
    rw [List.zipIdx_map_snd]
    exact List.pairwise_lt_range'
  exact List.pairwise_map.mpr (indices.filter _)

namespace Cursor

def chars (cursor : Cursor) : List Char := cursor.rest.map Glyph.char

def drop (cursor : Cursor) (n : Nat) : Cursor := ⟨cursor.rest.drop n, cursor.stop⟩

theorem chars_ofText (text : String) : (ofText text).chars = dense text := map_char_glyphs _

theorem length_rest_ofText (text : String) : (ofText text).rest.length = (dense text).length := length_glyphs _

theorem chars_drop (cursor : Cursor) (n : Nat) : (cursor.drop n).chars = cursor.chars.drop n :=
  List.map_drop

theorem drop_drop (cursor : Cursor) (m n : Nat) : (cursor.drop m).drop n = cursor.drop (m + n) := by
  simp only [drop, List.drop_drop]

theorem tail_eq_drop (cursor : Cursor) : cursor.tail = cursor.drop 1 := by
  rw [tail, drop, List.drop_one]

theorem chars_tail (cursor : Cursor) : cursor.tail.chars = cursor.chars.tail := by
  rw [tail_eq_drop, chars_drop, List.drop_one]

theorem head?_eq (cursor : Cursor) : cursor.head? = cursor.chars.head? := by
  rw [head?, chars, List.head?_map]

private theorem token_of_nil {cursor : Cursor} (spelt : cursor.chars = []) : cursor.token = .endOfText := by
  rw [token, head?_eq, spelt, List.head?_nil]

theorem token_of_cons {cursor : Cursor} {c : Char} {v : List Char} (spelt : cursor.chars = c :: v) :
    cursor.token = .ofChar c := by
  rw [token, head?_eq, spelt, List.head?_cons]

theorem position_of_cons {cursor : Cursor} {glyph : Glyph} {rest : List Glyph} (next : cursor.rest = glyph :: rest) :
    cursor.position = glyph.position := by
  rw [position, next]

theorem position_of_nil {cursor : Cursor} (ended : cursor.rest = []) : cursor.position = cursor.stop := by
  rw [position, ended]

theorem position_drop {cursor : Cursor} {k : Nat} {glyph : Glyph} (here : cursor.rest[k]? = some glyph) :
    (cursor.drop k).position = glyph.position := by
  rw [← List.head?_drop] at here
  exact position_of_cons (List.cons_head?_tail here).symm

theorem token_of_rest_nil {cursor : Cursor} (ended : cursor.rest = []) : cursor.token = .endOfText := by
  apply token_of_nil
  rw [chars, ended, List.map_nil]

theorem token_of_rest_cons {cursor : Cursor} {glyph : Glyph} {rest : List Glyph} (next : cursor.rest = glyph :: rest) :
    cursor.token = .ofChar glyph.char := by
  rw [token, head?, next]
  rfl

theorem rest_of_token {cursor : Cursor} {t : Token} (found : cursor.token = t) (more : t ≠ .endOfText) :
    ∃ glyph, .ofChar glyph.char = t ∧ cursor.rest = glyph :: cursor.tail.rest := by
  cases rest : cursor.rest with
  | nil =>
    exact absurd (found.symm.trans (token_of_rest_nil rest)) more
  | cons glyph glyphs =>
    exact ⟨glyph, (token_of_rest_cons rest).symm.trans found, by rw [tail, rest, List.tail_cons]⟩

theorem rest_of_left {cursor : Cursor} (found : cursor.token = .leftParenthesis) :
    ∃ passed, cursor.rest = passed ++ cursor.tail.rest ∧ passed.map Glyph.char = ['('] := by
  obtain ⟨glyph, same, rest⟩ := rest_of_token found (by simp)
  exact ⟨[glyph], rest, by rw [List.map_singleton, Token.eq_of_ofChar_left same]⟩

theorem rest_of_right {cursor : Cursor} (found : cursor.token = .rightParenthesis) :
    ∃ passed, cursor.rest = passed ++ cursor.tail.rest ∧ passed.map Glyph.char = [')'] := by
  obtain ⟨glyph, same, rest⟩ := rest_of_token found (by simp)
  exact ⟨[glyph], rest, by rw [List.map_singleton, Token.eq_of_ofChar_right same]⟩

theorem rest_of_operator {cursor : Cursor} {op : Operator} (found : cursor.token = .operator op) :
    ∃ passed, cursor.rest = passed ++ cursor.tail.rest ∧ passed.map Glyph.char = [op.symbol] := by
  obtain ⟨glyph, same, rest⟩ := rest_of_token found (by simp)
  exact ⟨[glyph], rest, by rw [List.map_singleton, Token.eq_symbol_of_ofChar same]⟩

theorem rest_of_run (cursor : Cursor) :
    ∃ passed, cursor.rest = passed ++ cursor.pastRun.rest ∧ passed.map Glyph.char = cursor.run :=
  ⟨_, List.takeWhile_append_dropWhile.symm, rfl⟩

theorem run_eq (cursor : Cursor) : cursor.run = cursor.chars.takeWhile isNumeralPart := by
  rw [run, chars, List.takeWhile_map]
  rfl

theorem pastRun_eq_drop (cursor : Cursor) : cursor.pastRun = cursor.drop cursor.run.length := by
  have whole := List.takeWhile_append_dropWhile (p := fun glyph : Glyph => isNumeralPart glyph.char) (l := cursor.rest)
  have behind := congrArg (List.drop (cursor.rest.takeWhile fun glyph => isNumeralPart glyph.char).length) whole
  rw [List.drop_left] at behind
  rw [pastRun, drop, run, List.length_map, behind]

theorem length_run_le (cursor : Cursor) : cursor.run.length ≤ cursor.rest.length := by
  have whole := congrArg List.length cursor.run_append_pastRun
  rw [List.length_append, List.length_map, List.length_map] at whole
  omega

theorem run_of_append {cursor : Cursor} {w v : List Char} (spelt : cursor.chars = w ++ v)
    (parts : ∀ c ∈ w, isNumeralPart c) (ended : ∀ c ∈ v.head?, isNumeralPart c = false) : cursor.run = w := by
  have rest : v.takeWhile isNumeralPart = [] := by
    cases v with
    | nil => rfl
    | cons c v => exact List.takeWhile_cons_of_neg (by simp [ended c rfl])
  rw [run_eq, spelt, List.takeWhile_append_of_pos parts, rest, List.append_nil]

/-- The offsets ascend, up to the end of the text. -/
structure Ordered (cursor : Cursor) : Prop where
  ascending : cursor.rest.Pairwise fun before after => before.position < after.position
  inside : ∀ glyph ∈ cursor.rest, glyph.position < cursor.stop

theorem ordered_ofText (text : String) : (ofText text).Ordered where
  ascending := ascending_glyphs _
  inside glyph member := by
    have found := getElem?_position member
    exact (List.getElem?_eq_some_iff.mp found).1

theorem Ordered.position_lt {cursor : Cursor} (ordered : cursor.Ordered) {m n : Nat} (later : m < n)
    (inside : m < cursor.rest.length) : (cursor.drop m).position < (cursor.drop n).position := by
  rw [position_drop (List.getElem?_eq_getElem inside)]
  by_cases more : n < cursor.rest.length
  · rw [position_drop (List.getElem?_eq_getElem more)]
    exact List.pairwise_iff_getElem.mp ordered.ascending m n inside more later
  · have ended : (cursor.drop n).rest = [] := List.drop_eq_nil_of_le (Nat.le_of_not_lt more)
    rw [position_of_nil ended]
    exact ordered.inside _ (List.getElem_mem inside)

end Cursor

end Abacus
