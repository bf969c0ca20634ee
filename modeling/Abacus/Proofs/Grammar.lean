import Abacus.Expr.Basic
import Abacus.Proofs.Dense

/-! The grammar of expressions over texts without blanks:

    expression := term { ('+' | '-') term }
    term       := factor { ('*' | '/') factor }
    factor     := '(' expression ')' | number
    number     := a run of digits and points with at least one digit and at most one point

An expression and a term differ only in their operators, so both are phrases: an expression is a phrase
of sums, a term is a phrase of products. Each judgment carries the depth to which groups are nested in its
text, and the tree that the text stands for. -/
namespace Abacus.Grammar

/-- The operators by their signs: `+` and `-` in sums, `*` and `/` in products. -/
def operator? : Precedence → Char → Option Operator
  | .sum, '+' => some .add
  | .sum, '-' => some .subtract
  | .product, '*' => some .multiply
  | .product, '/' => some .divide
  | _, _ => none

/-- What the operators stand for in IEEE 754 arithmetic. -/
def operate : Operator → Float → Float → Float
  | .add, x, y => x + y
  | .subtract, x, y => x - y
  | .multiply, x, y => x * y
  | .divide, x, y => x / y

theorem operate_eq (op : Operator) (x y : Float) : operate op x y = op.apply x y := by
  cases op <;> rfl

theorem operator_of_symbol (op : Operator) : operator? op.precedence op.symbol = some op := by
  cases op <;> rfl

theorem operator_eq_some_iff {p : Precedence} {c : Char} {op : Operator} :
    operator? p c = some op ↔ op.precedence = p ∧ c = op.symbol := by
  constructor
  · intro sign
    unfold operator? at sign
    split at sign <;> cases sign <;> exact ⟨rfl, rfl⟩
  · rintro ⟨rfl, rfl⟩
    exact operator_of_symbol op

mutual

/-- Operands with the operators of one precedence between them. One operand alone stands for itself. -/
inductive Phrase : Precedence → Nat → List Char → Expr → Prop
  | lone {p : Precedence} {depth : Nat} {w : List Char} {e : Expr} (operand : Operand p depth w e) :
      Phrase p depth w e
  | chain {p : Precedence} {depth depth' : Nat} {w v : List Char} {e : Expr} {step : Operator × Expr}
      {rest : List (Operator × Expr)} (first : Operand p depth w e) (tail : Tail p depth' v (step :: rest)) :
      Phrase p (max depth depth') (w ++ v) (.chain e (step :: rest))

/-- The operands of a sum are terms, those of a product are factors. -/
inductive Operand : Precedence → Nat → List Char → Expr → Prop
  | term {depth : Nat} {w : List Char} {e : Expr} (product : Phrase .product depth w e) : Operand .sum depth w e
  | group {depth : Nat} {w : List Char} {e : Expr} (expression : Phrase .sum depth w e) :
      Operand .product (depth + 1) ('(' :: w ++ [')']) e
  | number {run : List Char} (parts : ∀ c ∈ run, isNumeralPart c) (digit : ∃ c ∈ run, c.isDigit)
      (points : run.count '.' ≤ 1) : Operand .product 0 run (.literal (Numeral.decimal run).toFloat)

inductive Tail : Precedence → Nat → List Char → List (Operator × Expr) → Prop
  | nil {p : Precedence} : Tail p 0 [] []
  | cons {p : Precedence} {depth depth' : Nat} {c : Char} {op : Operator} {w v : List Char} {e : Expr}
      {rest : List (Operator × Expr)} (sign : operator? p c = some op) (operand : Operand p depth w e)
      (tail : Tail p depth' v rest) : Tail p (max depth depth') (c :: w ++ v) ((op, e) :: rest)

end

/-- The text is an expression whose groups are nested at most that deep, and the tree is what it stands for. -/
def Derives (limit : Nat) (w : List Char) (e : Expr) : Prop := ∃ depth ≤ limit, Phrase .sum depth w e

theorem Tail.append {p : Precedence} {depth depth' : Nat} {w v : List Char} {before after : List (Operator × Expr)}
    (tail : Tail p depth w before) (more : Tail p depth' v after) :
    Tail p (max depth depth') (w ++ v) (before ++ after) := by
  match tail with
  | .nil => rwa [Nat.zero_max]
  | .cons sign operand tail =>
    rw [Nat.max_assoc, List.append_assoc]
    exact .cons sign operand (tail.append more)

theorem Tail.single {p : Precedence} {depth : Nat} {c : Char} {op : Operator} {w : List Char} {e : Expr}
    (sign : operator? p c = some op) (operand : Operand p depth w e) : Tail p depth (c :: w) [(op, e)] := by
  have tail := Tail.cons sign operand .nil
  rwa [Nat.max_zero, List.append_nil] at tail

private theorem symbol_not_part (op : Operator) : isNumeralPart op.symbol = false := by
  cases op <;> rfl

theorem Tail.ended {p : Precedence} {depth : Nat} {w v : List Char} {steps : List (Operator × Expr)}
    (tail : Tail p depth w steps) (ended : ∀ c ∈ v.head?, isNumeralPart c = false) :
    ∀ c ∈ (w ++ v).head?, isNumeralPart c = false := by
  cases tail with
  | nil => exact ended
  | @cons _ _ _ _ op _ _ _ _ sign =>
    obtain ⟨-, rfl⟩ := operator_eq_some_iff.mp sign
    rintro c ⟨⟩
    exact symbol_not_part op

mutual

theorem Phrase.ne_nil {p : Precedence} {depth : Nat} {w : List Char} {e : Expr} : Phrase p depth w e → w ≠ []
  | .lone operand => operand.ne_nil
  | .chain first _ => List.append_ne_nil_of_left_ne_nil first.ne_nil _

private theorem Operand.ne_nil {p : Precedence} {depth : Nat} {w : List Char} {e : Expr} : Operand p depth w e → w ≠ []
  | .term product => product.ne_nil
  | .group _ => List.cons_ne_nil _ _
  | .number _ digit _ => by
    obtain ⟨c, member, -⟩ := digit
    exact List.ne_nil_of_mem member

end

def Solid (w : List Char) : Prop := ∀ c ∈ w, isAllowed c ∧ Text.isBlank c = false

private theorem Solid.append {w v : List Char} (first : Solid w) (second : Solid v) : Solid (w ++ v) := by
  intro c member
  rcases List.mem_append.mp member with before | after
  · exact first c before
  · exact second c after

private theorem Solid.cons {c : Char} {w : List Char} (first : isAllowed c ∧ Text.isBlank c = false) (rest : Solid w) :
    Solid (c :: w) := by
  rintro _ (_ | ⟨_, member⟩)
  · exact first
  · exact rest _ member

theorem Solid.nonBlank {w : List Char} (solid : Solid w) : nonBlank w = w := by
  rw [Abacus.nonBlank, List.filter_eq_self]
  intro c member
  rw [(solid c member).2]
  rfl

theorem solid_part {c : Char} (part : isNumeralPart c) : isAllowed c ∧ Text.isBlank c = false := by
  constructor
  · refine (isAllowed_iff_ofChar c).mpr (.inr ?_)
    simp [Token.ofChar_of_part part]
  · rw [isNumeralPart, Bool.or_eq_true, beq_iff_eq] at part
    rcases part with digit | rfl
    · simp only [Char.isDigit, Bool.and_eq_true, decide_eq_true_eq, ge_iff_le, UInt32.le_iff_toNat_le] at digit
      have bounds : 48 ≤ c.toNat ∧ c.toNat ≤ 57 := digit
      simp only [Text.isBlank, Bool.or_eq_false_iff, Bool.and_eq_false_iff, decide_eq_false_iff_not, beq_eq_false_iff_ne]
      omega
    · decide

theorem solid_symbol (op : Operator) : isAllowed op.symbol ∧ Text.isBlank op.symbol = false := by
  cases op <;> decide

mutual

theorem Phrase.solid {p : Precedence} {depth : Nat} {w : List Char} {e : Expr} : Phrase p depth w e → Solid w
  | .lone operand => operand.solid
  | .chain first tail => first.solid.append tail.solid

theorem Operand.solid {p : Precedence} {depth : Nat} {w : List Char} {e : Expr} : Operand p depth w e → Solid w
  | .term product => product.solid
  | .group expression =>
    have right : Solid [')'] := .cons (by decide) fun _ member => nomatch member
    .append (.cons (by decide) expression.solid) right
  | .number parts _ _ => fun c member => solid_part (parts c member)

private theorem Tail.solid {p : Precedence} {depth : Nat} {w : List Char} {steps : List (Operator × Expr)} :
    Tail p depth w steps → Solid w
  | .nil => fun _ member => nomatch member
  | .cons sign operand tail => by
    obtain ⟨-, rfl⟩ := operator_eq_some_iff.mp sign
    exact .append (.cons (solid_symbol _) operand.solid) tail.solid

end

end Abacus.Grammar
