import Abacus.Proofs.Dense
import Abacus.Proofs.Grammar
import Abacus.Proofs.Run

/-! What has been read up to a place. A place spells a text if that text falls into the groups still
open, the phrases that wait for operands, and the factor just read. Each step appends to that text
what the grammar has at its place, which is the text passed, or the closing parenthesis it should
have been. Hence what is read as an expression is derivable as one. -/
namespace Abacus

open Grammar

inductive Operands.Spelled (p : Precedence) : Nat → List Char → Operands → Prop
  | mk {depth depth' : Nat} {w v : List Char} {operands : Operands} (first : Operand p depth w operands.first)
      (tail : Tail p depth' v operands.later.reverse) : Spelled p (max depth depth') (w ++ v) operands

inductive Pending.Spelled (p : Precedence) : Nat → List Char → Option Pending → Prop
  | absent : Spelled p 0 [] none
  | waiting {depth : Nat} {c : Char} {w : List Char} {operands : Operands} {op : Operator}
      (sign : operator? p c = some op) (spelled : operands.Spelled p depth w) :
      Spelled p depth (w ++ [c]) (some ⟨operands, op⟩)

inductive Level.Spelled : Nat → List Char → Level → Prop
  | mk {depth depth' : Nat} {w v : List Char} {level : Level} (sum : Pending.Spelled .sum depth w level.sum)
      (product : Pending.Spelled .product depth' v level.product) : Spelled (max depth depth') (w ++ v) level

/-- Open groups, each begun within the room. -/
inductive Level.AllSpelled (room : Nat) : List Char → List Level → Prop
  | nil : AllSpelled room [] []
  | cons {depth : Nat} {w v : List Char} {level : Level} {outer : List Level} (rest : AllSpelled room w outer)
      (spelled : level.Spelled depth v) (fits : outer.length + depth ≤ room) :
      AllSpelled room (w ++ v ++ ['(']) (level :: outer)

inductive FactorSpelled : Nat → List Char → Option Expr → Prop
  | due : FactorSpelled 0 [] none
  | read {depth : Nat} {w : List Char} {e : Expr} (operand : Operand .product depth w e) :
      FactorSpelled depth w (some e)

inductive Place.Spelled (room : Nat) : List Char → Place → Prop
  | mk {depth depth' : Nat} {w v u : List Char} {place : Place} (outer : Level.AllSpelled room w place.outer)
      (level : place.level.Spelled depth v) (factor : FactorSpelled depth' u place.factor)
      (fits : place.outer.length + max depth depth' ≤ room) : Spelled room (w ++ v ++ u) place

private theorem Operands.Spelled.phrase {p : Precedence} {depth : Nat} {w : List Char} {operands : Operands}
    (spelled : operands.Spelled p depth w) : Phrase p depth w operands.expr := by
  obtain ⟨first, tail⟩ := spelled
  rw [Operands.expr]
  cases steps : operands.later.reverse with
  | nil =>
    rw [steps] at tail
    cases tail
    rw [Nat.max_zero, List.append_nil]
    exact .lone first
  | cons step rest =>
    rw [steps] at tail
    exact .chain first tail

private theorem Pending.Spelled.extend {p : Precedence} {depth depth' : Nat} {w v : List Char}
    {pending : Option Pending} {e : Expr} (spelled : Pending.Spelled p depth w pending)
    (operand : Operand p depth' v e) :
    (Operands.extend pending e).Spelled p (max depth depth') (w ++ v) := by
  cases spelled with
  | absent =>
    have spelled : (Operands.extend none e).Spelled p (max depth' 0) (v ++ []) := .mk operand .nil
    rwa [Nat.max_zero, List.append_nil, ← Nat.zero_max depth', ← List.nil_append v] at spelled
  | @waiting _ _ _ operands op sign spelled =>
    obtain ⟨first, tail⟩ := spelled
    have longer := tail.append (.single sign operand)
    rw [← List.reverse_cons] at longer
    have spelled : (Operands.extend (some ⟨operands, op⟩) e).Spelled p _ _ := .mk first longer
    simpa [Nat.max_assoc] using spelled

namespace Level.Spelled

variable {level : Level} {factor : Expr} {depth depth' : Nat} {v u : List Char}

private theorem expr (spelled : level.Spelled depth v) (operand : Operand .product depth' u factor) :
    Phrase .sum (max depth depth') (v ++ u) (level.expr factor) := by
  obtain ⟨sum, product⟩ := spelled
  rw [Nat.max_assoc, List.append_assoc]
  exact (sum.extend (.term (product.extend operand).phrase)).phrase

private theorem await (spelled : level.Spelled depth v) (operand : Operand .product depth' u factor) (op : Operator) :
    (level.await factor op).Spelled (max depth depth') (v ++ u ++ [op.symbol]) := by
  obtain ⟨sum, product⟩ := spelled
  rw [Nat.max_assoc, List.append_assoc, List.append_assoc, ← List.append_assoc _ u]
  unfold Level.await
  split
  · rename_i binds
    exact .mk sum (.waiting (operator_eq_some_iff.mpr ⟨binds, rfl⟩) (product.extend operand))
  · rename_i binds
    have waiting := Pending.Spelled.waiting (operator_eq_some_iff.mpr ⟨binds, rfl⟩)
      (sum.extend (.term (product.extend operand).phrase))
    have spelled : Level.Spelled _ _ ⟨some ⟨Operands.extend level.sum (level.term factor), op⟩, none⟩ := .mk waiting .absent
    rwa [Nat.max_zero, List.append_nil, List.append_assoc] at spelled

end Level.Spelled

private theorem Grammar.number_of_numeral {cursor : Cursor} {value : Float} (ok : cursor.numeral = .ok value) :
    Operand .product 0 cursor.run (.literal value) := by
  unfold Cursor.numeral at ok
  split at ok
  · cases ok
  · split at ok
    · rename_i found
      cases ok
      unfold Numeral.toFloat? at found
      split at found
      · rename_i formed
        cases found
        rw [Numeral.wellFormed, Bool.and_eq_true, decide_eq_true_eq] at formed
        exact .number (fun c => Cursor.isNumeralPart_of_mem_run) (List.any_eq_true.mp formed.1) formed.2
      · cases found
    · cases ok

namespace Place.Spelled

variable {room : Nat} {place : Place} {w : List Char}

theorem start (cursor : Cursor) : (Place.start cursor).Spelled room [] := by
  have spelled : (Place.start cursor).Spelled room ([] ++ ([] ++ []) ++ []) :=
    .mk .nil (.mk .absent .absent) .due (Nat.zero_le room)
  exact spelled

/-- Whatever ends a group, the group is spelled as it should have ended. -/
theorem close {factor : Expr} {level : Level} {outer : List Level} (spelled : place.Spelled room w)
    (read : place.factor = some factor) (inside : place.outer = level :: outer) (cursor : Cursor) :
    (Place.mk cursor level outer (some (place.level.expr factor))).Spelled room (w ++ [')']) := by
  obtain ⟨around, inner, last, fits⟩ := spelled
  rw [read] at last
  rw [inside] at around fits
  rcases last with _ | operand
  rcases around with _ | ⟨rest, begun, within⟩
  have group := Operand.group (inner.expr operand)
  rw [List.length_cons] at fits
  have closed : (Place.mk cursor level outer (some (place.level.expr factor))).Spelled room _ :=
    .mk rest begun (.read group) (by simp only; omega)
  simpa using closed

theorem derives {factor : Expr} (spelled : place.Spelled room w) (read : place.factor = some factor)
    (outside : place.outer = []) : Derives room w (place.level.expr factor) := by
  obtain ⟨around, inner, last, fits⟩ := spelled
  rw [read] at last
  rw [outside] at around fits
  rcases last with _ | operand
  cases around
  rw [List.length_nil, Nat.zero_add] at fits
  exact ⟨_, fits, inner.expr operand⟩

end Place.Spelled

theorem Place.Advance.spells {strictness : Strictness} {room : Nat} {place after : Place}
    (advance : place.Advance strictness room after none) :
    ∃ passed, place.cursor.rest = passed ++ after.cursor.rest ∧
      ∀ w, place.Spelled room w → after.Spelled room (w ++ passed.map Glyph.char) := by
  cases advance with
  | opened due token fits =>
    obtain ⟨passed, rest, spelt⟩ := Cursor.rest_of_left token
    refine ⟨passed, rest, ?_⟩
    rw [spelt]
    rintro _ ⟨around, begun, last, deep⟩
    rw [due] at last
    cases last
    have entered : (Place.mk place.cursor.tail .fresh (place.level :: place.outer) none).Spelled room _ :=
      .mk (.cons around begun (by omega)) (.mk .absent .absent) .due (by simp only [List.length_cons]; omega)
    simpa using entered
  | @numeral value due token ok =>
    obtain ⟨passed, rest, spelt⟩ := place.cursor.rest_of_run
    refine ⟨passed, rest, ?_⟩
    rw [spelt]
    rintro _ ⟨around, begun, last, deep⟩
    rw [due] at last
    cases last
    rw [List.append_nil]
    exact .mk around begun (.read (number_of_numeral ok)) deep
  | @operator factor op read token =>
    obtain ⟨passed, rest, spelt⟩ := Cursor.rest_of_operator token
    refine ⟨passed, rest, ?_⟩
    rw [spelt]
    rintro _ ⟨around, begun, last, deep⟩
    rw [read] at last
    rcases last with _ | operand
    have awaiting : (Place.mk place.cursor.tail (place.level.await factor op) place.outer none).Spelled room _ :=
      .mk around (begun.await operand op) .due (by simpa using deep)
    simpa using awaiting
  | closed read inside token =>
    obtain ⟨passed, rest, spelt⟩ := Cursor.rest_of_right token
    refine ⟨passed, rest, ?_⟩
    rw [spelt]
    exact fun w spelled => spelled.close read inside _

end Abacus
