import Abacus.Decimal
import Abacus.ParseError
import Abacus.Token

/-! Texts of allowed characters, read from left to right without their blanks. Every character
keeps its offset in the whole text, so that errors and events can point at it. -/
namespace Abacus

/-- A character that is not blank, with its offset in the whole text. -/
structure Glyph where
  position : Nat
  char : Char
deriving DecidableEq, Repr

def glyphs (text : List Char) : List Glyph :=
  (text.zipIdx.filter fun (c, _) => !Text.isBlank c).map fun (c, i) => ⟨i, c⟩

/-- Refuses the empty text, and a text with a character that is not allowed at the first of them. -/
def checkText (text : String) : Except ParseError Unit :=
  if text.isEmpty then .error (.bare .empty)
  else match text.toList.zipIdx.find? fun (c, _) => !isAllowed c with
    | some (c, i) => .error ((ParseError.bare (.invalidCharacter c)).atPosition i)
    | none => .ok ()

def isValid (text : String) : Bool := (checkText text).isOk

/-- The glyphs still to be read, and the length of the whole text, which is the position of its end. -/
structure Cursor where
  rest : List Glyph
  stop : Nat
deriving DecidableEq, Repr

namespace Cursor

def ofText (text : String) : Cursor := ⟨glyphs text.toList, text.length⟩

def head? (cursor : Cursor) : Option Char := cursor.rest.head?.map Glyph.char

/-- The offset of the next glyph, or the length of the text after the last one. -/
def position (cursor : Cursor) : Nat :=
  match cursor.rest with
  | [] => cursor.stop
  | glyph :: _ => glyph.position

def token (cursor : Cursor) : Token :=
  match cursor.head? with
  | none => .endOfText
  | some c => .ofChar c

/-- Passes the next glyph. At the end nothing changes. -/
def tail (cursor : Cursor) : Cursor := { cursor with rest := cursor.rest.tail }

def run (cursor : Cursor) : List Char :=
  (cursor.rest.takeWhile fun glyph => isNumeralPart glyph.char).map Glyph.char

def pastRun (cursor : Cursor) : Cursor :=
  { cursor with rest := cursor.rest.dropWhile fun glyph => isNumeralPart glyph.char }

/-- The value of the numeral from here on. A fault in it is reported where it begins. -/
def numeral (cursor : Cursor) : Except ParseError Float :=
  match cursor.run with
  | [] => .error ((ParseError.bare .invalidNumber).atPosition cursor.position)
  | run => match Numeral.toFloat? run with
    | some value => .ok value
    | none =>
      .error ((ParseError.bare (.malformedNumber (String.ofList run) .invalid)).atPosition cursor.position)

theorem run_append_pastRun (cursor : Cursor) :
    cursor.run ++ cursor.pastRun.rest.map Glyph.char = cursor.rest.map Glyph.char := by
  rw [run, pastRun, ← List.map_append, List.takeWhile_append_dropWhile]

theorem isNumeralPart_of_mem_run {cursor : Cursor} {c : Char} (member : c ∈ cursor.run) : isNumeralPart c := by
  obtain ⟨glyph, taken, rfl⟩ := List.mem_map.mp member
  exact List.all_eq_true.mp List.all_takeWhile glyph taken

theorem token_pastRun (cursor : Cursor) : cursor.pastRun.token ≠ .number := by
  have stopped := List.head?_dropWhile_not (fun glyph : Glyph => isNumeralPart glyph.char) cursor.rest
  unfold token head? pastRun
  cases next : (cursor.rest.dropWhile fun glyph => isNumeralPart glyph.char).head? with
  | none => simp
  | some glyph =>
    rw [next] at stopped
    simp only [Option.map_some, Token.ofChar]
    split
    · simp_all
    · repeat' split
      all_goals simp

theorem rest_ne_nil {cursor : Cursor} (more : cursor.token ≠ .endOfText) : cursor.rest ≠ [] := by
  intro empty
  simp [token, head?, empty] at more

theorem length_tail (cursor : Cursor) (more : cursor.token ≠ .endOfText) :
    cursor.tail.rest.length < cursor.rest.length := by
  have := List.length_pos_iff.mpr (rest_ne_nil more)
  simp only [tail, List.length_tail]
  omega

theorem length_pastRun {cursor : Cursor} {value : Float} (ok : cursor.numeral = .ok value) :
    cursor.pastRun.rest.length < cursor.rest.length := by
  have whole := congrArg List.length
    (List.takeWhile_append_dropWhile (p := fun glyph : Glyph => isNumeralPart glyph.char) (l := cursor.rest))
  simp only [List.length_append] at whole
  have taken : 0 < cursor.run.length := by
    unfold numeral at ok
    split at ok
    · simp at ok
    · rename_i nonempty
      exact List.length_pos_iff.mpr nonempty
  simp only [run, List.length_map] at taken
  simp only [pastRun]
  omega

end Cursor

end Abacus
