import Abacus.Proofs.Entry
import Abacus.Proofs.Repair

/-! Strict parsing and the grammar. What is parsed strictly is what can be derived, with the tree of
the derivation; and since reading is a function, a text has at most one tree. -/
namespace Abacus

open Grammar

namespace Place

variable {calculator : Calculator} {room : Nat} {cursor : Cursor} {e : Expr}

private theorem read_ok_of_strict (strict : calculator.strictness = .strict)
    (ok : ((start cursor).read calculator room).outcome = .ok e) :
    ((start cursor).read calculator room).cursor.rest = [] ∧ ((start cursor).read calculator room).events = [] := by
  obtain ⟨last, events, outcome, behind, event, run, halt⟩ := @exists_run calculator room (start cursor)
  rw [run.read_of_halt halt] at ok ⊢
  cases ok
  cases halt with
  | finished read outside done =>
    rw [strict] at run
    rw [Cursor.head?_eq, List.head?_eq_none_iff, Cursor.chars, List.map_eq_nil_iff] at done
    exact ⟨done, by rw [run.events_of_strict]; rfl⟩
  | ignored read outside lenient more ended =>
    rw [strict] at lenient
    cases lenient

theorem derives_of_read (strict : calculator.strictness = .strict)
    (ok : ((start cursor).read calculator room).outcome = .ok e) : Derives room cursor.chars e := by
  obtain ⟨passed, text, rest, mended, derived⟩ := read_ok ok
  obtain ⟨ended, silent⟩ := read_ok_of_strict strict ok
  rw [silent] at mended
  rw [ended, List.append_nil] at rest
  rwa [mended.text_of_none, ← rest] at derived

end Place

private theorem Grammar.Derives.unique {limit limit' : Nat} {w : List Char} {e e' : Expr} (derived : Derives limit w e)
    (derived' : Derives limit' w e') : e = e' := by
  obtain ⟨depth, -, phrase⟩ := derived
  obtain ⟨depth', -, phrase'⟩ := derived'
  let cursor : Cursor := ⟨w.map (Glyph.mk 0), 0⟩
  have spelt : cursor.chars = w := by simp [cursor, Cursor.chars, Function.comp_def]
  have read := @Phrase.read .default (max depth depth') _ _ _ phrase _ spelt (Nat.le_max_left _ _)
  rw [phrase'.read spelt (Nat.le_max_right _ _)] at read
  cases read
  rfl

theorem Grammar.Derives.valid {limit : Nat} {w : List Char} {e : Expr} (derived : Derives limit w e) :
    Valid (String.ofList w) ∧ dense (String.ofList w) = w := by
  obtain ⟨depth, -, phrase⟩ := derived
  refine ⟨⟨?_, ?_⟩, ?_⟩
  · intro empty
    exact phrase.ne_nil (String.ofList_eq_empty_iff.mp empty)
  · intro c member
    rw [String.toList_ofList] at member
    exact (phrase.solid c member).1
  · rw [dense, String.toList_ofList, phrase.solid.nonBlank]

theorem Calculator.parse_of_derives {calculator : Calculator} {text : String} {e : Expr} (valid : Valid text)
    (derived : Derives calculator.maxDepth (dense text) e) : calculator.parse text = ⟨.ok e, []⟩ := by
  obtain ⟨depth, fits, phrase⟩ := derived
  rw [parse_of_valid valid, reading, phrase.read (Cursor.chars_ofText text) fits]
  rfl

theorem Calculator.parse_ofList_of_derives {calculator : Calculator} {w : List Char} {e : Expr}
    (derived : Derives calculator.maxDepth w e) : calculator.parse (String.ofList w) = ⟨.ok e, []⟩ := by
  obtain ⟨valid, solid⟩ := derived.valid
  rw [← solid] at derived
  exact parse_of_derives valid derived

/-- Strict parsing accepts what the grammar derives and gives the tree of the derivation, of which
there is only one. -/
theorem strict_parse_eq_ok_iff (calculator : Calculator) (text : String) :
    (∀ e, ((calculator.under .strict).parse text).result = .ok e ↔
      Valid text ∧ Derives calculator.maxDepth (dense text) e) ∧
    ∀ limit limit' e e', Derives limit (dense text) e → Derives limit' (dense text) e' → e = e' := by
  refine ⟨fun e => ⟨fun ok => ?_, fun ⟨valid, derived⟩ => ?_⟩, fun limit limit' e e' first second => first.unique second⟩
  · obtain ⟨valid, read⟩ := (Calculator.parse_eq_ok_iff e).mp ok
    rw [← Cursor.chars_ofText]
    exact ⟨valid, Place.derives_of_read rfl read⟩
  · have parsed : (calculator.under .strict).parse text = ⟨.ok e, []⟩ := Calculator.parse_of_derives valid derived
    rw [parsed]

end Abacus
