import Abacus.Proofs.Entry
import Abacus.Proofs.Lookahead
import Abacus.Proofs.Offset

/-! Blanks make no difference but to positions. Texts with the same characters apart from blanks are
parsed alike, and where an error or an event of one points at a character, that of the other points at
the same character, wherever it stands there. -/
namespace Abacus

/-- Offsets in two texts where the same character stands, counted without blanks, or the ends of both. -/
def SameCharacter (s t : String) (p q : Nat) : Prop := ∃ k, Marks s.toList k p ∧ Marks t.toList k q

private theorem Cursor.agree_of_dense_eq {s t : String} (same : dense s = dense t) (n : Nat) :
    Agree n (ofText s) (ofText t) := by
  intro k _
  rw [chars_ofText, chars_ofText, same]

private theorem Cursor.Facing.sameCharacter {s t : String} (same : dense s = dense t) {p q : Nat}
    (facing : Facing (ofText s) (ofText t) p q) : SameCharacter s t p q := by
  obtain ⟨k, rfl, rfl⟩ := facing
  have first := marks_drop s k
  rw [same] at first
  exact ⟨_, first, marks_drop t k⟩

/-- Texts that differ in blanks alone are parsed to the same tree, or fail with the same fault at the
same character, and the same events are told in the same order, each at the same character. -/
theorem parse_of_dense_eq (calculator : Calculator) (s t : String) (valid : Valid s) (valid' : Valid t)
    (same : dense s = dense t) :
    OutcomeAlike (SameCharacter s t) (calculator.parse s).result (calculator.parse t).result ∧
    List.Forall₂ (Event.Alike (SameCharacter s t)) (calculator.parse s).events (calculator.parse t).events := by
  obtain ⟨n, -, alike⟩ := @Place.read_agree calculator calculator.maxDepth (.ofText s)
  obtain ⟨-, -, outcomes, events⟩ := alike (.ofText t) (Cursor.agree_of_dense_eq same (n + 1))
  have facing (p q : Nat) (facing : Cursor.Facing (.ofText s) (.ofText t) p q) : SameCharacter s t p q :=
    facing.sameCharacter same
  rw [Calculator.parse_of_valid valid, Calculator.parse_of_valid valid']
  exact ⟨outcomes.imp facing, events.imp fun _ _ event => event.imp facing⟩

theorem parse_of_dense_eq_unclosed :
    let s := " (1\t2 * 3"
    let t := "(12*3 \u3000"
    Valid s ∧ Valid t ∧ dense s = dense t ∧
      OutcomeAlike (SameCharacter s t) (Calculator.default.parse s).result (Calculator.default.parse t).result ∧
      List.Forall₂ (Event.Alike (SameCharacter s t)) (Calculator.default.parse s).events
        (Calculator.default.parse t).events := by
  intro s t
  have valid : Valid " (1\t2 * 3" := (checkText_eq_ok_iff _).mp rfl
  have valid' : Valid "(12*3 \u3000" := (checkText_eq_ok_iff _).mp rfl
  have same : dense s = dense t := by decide +kernel
  exact ⟨valid, valid', same, parse_of_dense_eq .default s t valid valid' same⟩

end Abacus
