import Abacus.Proofs.Calls
import Abacus.Proofs.Printed
import Mathlib.Order.Lattice.Nat

/-! The trees that parsing gives. Their height is bounded by the greatest number of groups that are open at once,
however many operands there are: each group adds the two levels of a sum and of a product to what is inside of it.
Their chains are uniform and their literals have no minus sign. -/
namespace Abacus

namespace Grammar

/-- The greatest height of the tree of a phrase whose groups are nested to a depth. -/
def heightBound : Precedence → Nat → Nat
  | .sum, depth => 2 * depth + 3
  | .product, depth => 2 * depth + 2

private theorem heightBound_max (p : Precedence) (depth depth' : Nat) :
    heightBound p (max depth depth') = max (heightBound p depth) (heightBound p depth') := by
  cases p <;> simp only [heightBound] <;> omega

mutual

private theorem Phrase.depth_le {p : Precedence} {depth : Nat} {w : List Char} {e : Expr} :
    Phrase p depth w e → e.depth ≤ heightBound p depth
  | .lone operand => Nat.le_of_lt operand.depth_lt
  | .chain first tail => by
    have head := first.depth_lt
    have steps := tail.deepest_lt
    rw [Expr.depth, heightBound_max]
    omega

private theorem Operand.depth_lt {p : Precedence} {depth : Nat} {w : List Char} {e : Expr} :
    Operand p depth w e → e.depth < heightBound p depth
  | .term product => Nat.lt_succ_of_le product.depth_le
  | .group expression => Nat.lt_succ_of_le expression.depth_le
  | .number _ _ _ => Nat.one_lt_two

private theorem Tail.deepest_lt {p : Precedence} {depth : Nat} {w : List Char} {steps : List (Operator × Expr)} :
    Tail p depth w steps → Expr.deepest steps < heightBound p depth
  | .nil => by cases p <;> exact Nat.succ_pos _
  | .cons _ operand tail => by
    have head := operand.depth_lt
    have steps := tail.deepest_lt
    rw [Expr.deepest, heightBound_max]
    omega

end

mutual

private theorem Phrase.uniform {p : Precedence} {depth : Nat} {w : List Char} {e : Expr} :
    Phrase p depth w e → e.Uniform
  | .lone operand => operand.uniform
  | .chain first tail => .chain first.uniform tail.uniform

private theorem Operand.uniform {p : Precedence} {depth : Nat} {w : List Char} {e : Expr} :
    Operand p depth w e → e.Uniform
  | .term product => product.uniform
  | .group expression => expression.uniform
  | .number _ _ _ => .literal _

private theorem Tail.uniform {p : Precedence} {depth : Nat} {w : List Char} {steps : List (Operator × Expr)} :
    Tail p depth w steps → Expr.UniformSteps p steps
  | .nil => .nil
  | .cons sign operand tail => .cons sign operand.uniform tail.uniform

end

mutual

theorem Phrase.unsigned {p : Precedence} {depth : Nat} {w : List Char} {e : Expr} :
    Phrase p depth w e → ∀ x ∈ e.literals, Expr.Unsigned x
  | .lone operand => operand.unsigned
  | .chain first tail => List.forall_mem_append.mpr ⟨first.unsigned, tail.unsigned⟩

private theorem Operand.unsigned {p : Precedence} {depth : Nat} {w : List Char} {e : Expr} :
    Operand p depth w e → ∀ x ∈ e.literals, Expr.Unsigned x
  | .term product => product.unsigned
  | .group expression => expression.unsigned
  | .number _ _ _ => List.forall_mem_singleton.mpr (Expr.unsigned_toFloat _)

private theorem Tail.unsigned {p : Precedence} {depth : Nat} {w : List Char} {steps : List (Operator × Expr)} :
    Tail p depth w steps → ∀ x ∈ Expr.operandLiterals steps, Expr.Unsigned x
  | .nil => fun _ member => nomatch member
  | .cons _ operand tail => List.forall_mem_append.mpr ⟨operand.unsigned, tail.unsigned⟩

end

private theorem Phrase.canonical {p : Precedence} {depth : Nat} {w : List Char} {e : Expr}
    (phrase : Phrase p depth w e) : e.Canonical :=
  ⟨phrase.unsigned, phrase.uniform⟩

private theorem operand_one : Operand .product 0 ['1'] (.literal (Numeral.decimal ['1']).toFloat) :=
  .number (List.forall_mem_singleton.mpr rfl) ⟨'1', List.mem_singleton_self _, rfl⟩ (by decide)

/-- A factor in a product in a sum. -/
def within (w : List Char) : List Char := '1' :: '+' :: '1' :: '*' :: w

private theorem Operand.within {depth : Nat} {w : List Char} {e : Expr} (factor : Operand .product depth w e) :
    ∃ e', Phrase .sum depth (Grammar.within w) e' ∧ e'.depth = e.depth + 2 := by
  have times : operator? .product '*' = some .multiply := rfl
  have plus : operator? .sum '+' = some .add := rfl
  have product := Phrase.chain operand_one (Tail.single times factor)
  have sum := Phrase.chain (operand_one.factor .sum) (Tail.single plus (.term product))
  rw [Nat.zero_max, Nat.zero_max] at sum
  refine ⟨_, sum, ?_⟩
  have pos := e.depth_pos
  simp only [Expr.depth, Expr.deepest]
  omega

/-- Groups in products in sums, one inside the other. -/
def tower : Nat → List Char
  | 0 => ['1']
  | n + 1 => '(' :: within (tower n) ++ [')']

private theorem operand_tower (n : Nat) : ∃ e, Operand .product n (tower n) e ∧ e.depth = 2 * n + 1 := by
  induction n with
  | zero => exact ⟨_, operand_one, rfl⟩
  | succ n ih =>
    obtain ⟨e, factor, depth⟩ := ih
    obtain ⟨e', sum, higher⟩ := factor.within
    exact ⟨e', .group sum, by omega⟩

private theorem derives_tower (n : Nat) : ∃ e, Derives n (within (tower n)) e ∧ e.depth = 2 * n + 3 := by
  obtain ⟨e, factor, depth⟩ := operand_tower n
  obtain ⟨e', sum, higher⟩ := factor.within
  exact ⟨e', ⟨n, Nat.le_refl n, sum⟩, by omega⟩

end Grammar

namespace Place

variable {strictness : Strictness} {room peak : Nat} {place after : Place}

private theorem Advance.narrow {event : Option Event} (advance : place.Advance strictness room after event)
    (fits : after.outer.length ≤ peak) : place.Advance strictness peak after event := by
  cases advance with
  | opened due token _ => exact .opened due token fits
  | numeral due token ok => exact .numeral due token ok
  | operator read token => exact .operator read token
  | closed read inside token => exact .closed read inside token
  | replaced read inside lenient unclosed ended => exact .replaced read inside lenient unclosed ended

/-- A run needs no more room than the groups that are open at the places on its way. -/
private theorem Run.narrow {events : List Event} (run : Run strictness room place events after)
    (fits : ∀ events middle, Run strictness room place events middle → middle.outer.length ≤ peak) :
    Run strictness peak place events after := by
  induction run with
  | refl => exact .refl _
  | next advance _ ih =>
    have first := advance.narrow (fits _ _ (.next advance (.refl _)))
    exact .next first (ih fun events middle run => fits _ middle (.next advance run))

end Place

namespace Parser

/-- The greatest number of groups that the next call has open at once, not counting those that were open before. -/
def Peak (parser : Parser) (peak : Nat) : Prop :=
  IsGreatest {depth | ∃ events place, parser.Reaches events place ∧ place.outer.length = depth} peak

variable {parser : Parser}

theorem exists_peak (parser : Parser) :
    ∃ peak, parser.Peak peak ∧ peak ≤ parser.calculator.maxDepth - parser.nesting := by
  let depths := {depth | ∃ events place, parser.Reaches events place ∧ place.outer.length = depth}
  have bound : parser.calculator.maxDepth - parser.nesting ∈ upperBounds depths := by
    rintro _ ⟨events, place, reaches, rfl⟩
    exact reaches.outer_le (Nat.zero_le _)
  have start : depths.Nonempty := ⟨0, [], .start parser.cursor, .refl _, rfl⟩
  have greatest : sSup depths ∈ depths := Nat.sSup_mem start ⟨_, bound⟩
  exact ⟨sSup depths, ⟨greatest, fun _ member => le_csSup ⟨_, bound⟩ member⟩, bound greatest⟩

/-- What a call gives is derivable with its groups nested no deeper than the call had them open. -/
theorem Peak.derives {peak : Nat} (greatest : parser.Peak peak) {e : Expr} (ok : parser.parse.outcome = .ok e) :
    ∃ w, Grammar.Derives peak w e := by
  obtain ⟨last, events, outcome, cursor, event, reaches, halt, parsed⟩ := parser.exists_call
  rw [parsed] at ok
  cases mapError_eq_ok_iff.mp ok
  obtain ⟨factor, read, outside, rfl, -⟩ := halt.ok
  have run := reaches.narrow fun _ middle reached => greatest.2 ⟨_, middle, reached, rfl⟩
  obtain ⟨passed, text, -, -, spells⟩ := run.mended
  exact ⟨text, (spells [] (.start _)).derives read outside⟩

end Parser

/-- Whatever is parsed, in the first call or in a later one: every chain of the tree has operators, all of one
precedence, no literal has a minus sign or is a NaN, and the height is bounded by the number of groups that the
call had open at once. The bound is attained for every number of groups that a calculator allows. -/
theorem parsed_tree_bounded (calculator : Calculator) (text : String) (parser : Parser)
    (made : Parser.ofText calculator text = .ok parser) :
    (∀ n e, (parser.after n).parse.outcome = .ok e →
      e.Canonical ∧ ∃ peak, (parser.after n).Peak peak ∧ (parser.after n).nesting + peak ≤ calculator.maxDepth ∧
        e.depth ≤ 2 * peak + 3) ∧
    ∀ peak ≤ calculator.maxDepth, ∃ highest e, calculator.parse highest = ⟨.ok e, []⟩ ∧ e.depth = 2 * peak + 3 := by
  refine ⟨fun n e ok => ?_, fun peak fits => ?_⟩
  · obtain ⟨same, -, -, nested⟩ := (Parser.On.of_ofText made).after n
    obtain ⟨peak, greatest, bound⟩ := (parser.after n).exists_peak
    obtain ⟨w, depth, fits, phrase⟩ := greatest.derives ok
    have height : e.depth ≤ 2 * depth + 3 := phrase.depth_le
    rw [same] at bound
    exact ⟨phrase.canonical, peak, greatest, by omega, by omega⟩
  · obtain ⟨e, ⟨depth, within, phrase⟩, height⟩ := Grammar.derives_tower peak
    exact ⟨_, e, Calculator.parse_ofList_of_derives ⟨depth, Nat.le_trans within fits, phrase⟩, height⟩

theorem parsed_tree_bounded_left_open :
    let calculator : Calculator := ⟨.strict, 2, by decide, by decide⟩
    ∃ parser e, Parser.ofText calculator "(1 (2)*(3+4)" = .ok parser ∧ (parser.after 1).nesting = 1 ∧
      (parser.after 1).parse.outcome = .ok e ∧ e.depth = 3 ∧ e.Canonical ∧
      ∃ peak, (parser.after 1).Peak peak ∧ 1 + peak ≤ 2 ∧ 3 ≤ 2 * peak + 3 := by
  intro calculator
  let parser : Parser := ⟨calculator, .ofText "(1 (2)*(3+4)", 0⟩
  have valid : Valid "(1 (2)*(3+4)" := (checkText_eq_ok_iff _).mp rfl
  have made : Parser.ofText calculator "(1 (2)*(3+4)" = .ok parser := Calculator.ofText_of_valid valid
  have nested : (parser.after 1).nesting = 1 := by decide +kernel
  have parsed : (parser.after 1).parse.outcome.map Expr.depth = .ok 3 := by decide +kernel
  cases ok : (parser.after 1).parse.outcome with
  | error fault =>
    rw [ok] at parsed
    cases parsed
  | ok e =>
    rw [ok] at parsed
    have height : e.depth = 3 := Except.ok.inj parsed
    obtain ⟨canonical, peak, greatest, fits, bound⟩ := (parsed_tree_bounded calculator _ parser made).1 1 e ok
    rw [nested] at fits
    rw [height] at bound
    exact ⟨parser, e, made, nested, ok, height, canonical, peak, greatest, fits, bound⟩

end Abacus
