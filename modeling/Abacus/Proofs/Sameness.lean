import Abacus.Proofs.Unpacked
import Abacus.Proofs.Height

/-! Equality of trees by their literals as numbers. In general it is no equality: a NaN differs from itself, and the
two zeros do not while what they are divided into does. Parsing gives neither a NaN nor a zero with a minus sign, so
among parsed trees only a tree itself is equal to it. -/
namespace Abacus

namespace Expr

private theorem Unsigned.beq_iff_eq {x y : Float} (unsigned : Unsigned x) (unsigned' : Unsigned y) :
    x == y ↔ x = y := by
  have signs : Binary64.isNegative x = Binary64.isNegative y := unsigned.positive.trans unsigned'.positive.symm
  rw [Binary64.beq_iff unsigned.bound unsigned'.bound]
  constructor
  · rintro ⟨same, -⟩
    exact Binary64.eq_of_magnitude_eq unsigned.bound same signs
  · rintro rfl
    exact ⟨rfl, fun _ => rfl⟩

mutual

private theorem same_iff_eq {a b : Expr} (unsigned : ∀ x ∈ a.literals, Unsigned x)
    (unsigned' : ∀ x ∈ b.literals, Unsigned x) : a.same b ↔ a = b := by
  match a, b with
  | literal x, literal y =>
    have left := unsigned x (List.mem_singleton_self x)
    have right := unsigned' y (List.mem_singleton_self y)
    rw [same, left.beq_iff_eq right, literal.injEq]
  | literal x, chain first rest => simp [same]
  | chain first rest, literal y => simp [same]
  | chain first rest, chain first' rest' =>
    obtain ⟨head, steps⟩ := List.forall_mem_append.mp unsigned
    obtain ⟨head', steps'⟩ := List.forall_mem_append.mp unsigned'
    rw [same, Bool.and_eq_true, same_iff_eq head head', sameAll_iff_eq steps steps', chain.injEq]

private theorem sameAll_iff_eq {rest rest' : List (Operator × Expr)} (unsigned : ∀ x ∈ operandLiterals rest, Unsigned x)
    (unsigned' : ∀ x ∈ operandLiterals rest', Unsigned x) : sameAll rest rest' ↔ rest = rest' := by
  match rest, rest' with
  | [], [] => simp [sameAll]
  | [], _ :: _ => simp [sameAll]
  | _ :: _, [] => simp [sameAll]
  | (op, operand) :: rest, (op', operand') :: rest' =>
    obtain ⟨head, steps⟩ := List.forall_mem_append.mp unsigned
    obtain ⟨head', steps'⟩ := List.forall_mem_append.mp unsigned'
    rw [sameAll, Bool.and_eq_true, Bool.and_eq_true, beq_iff_eq, same_iff_eq head head',
      sameAll_iff_eq steps steps', List.cons.injEq, Prod.mk.injEq]

end

/-- A tree that some call has given, the first one on its text or a later one. -/
inductive Parsed (e : Expr) : Prop
  | mk {calculator : Calculator} {text : String} {parser : Parser} (made : Parser.ofText calculator text = .ok parser)
      (n : Nat) (ok : (parser.after n).parse.outcome = .ok e) : Parsed e

private theorem Parsed.unsigned {e : Expr} (parsed : e.Parsed) : ∀ x ∈ e.literals, Unsigned x := by
  cases parsed with
  | @mk calculator text parser made n ok =>
    obtain ⟨peak, greatest, -⟩ := (parser.after n).exists_peak
    obtain ⟨w, depth, -, phrase⟩ := greatest.derives ok
    exact phrase.unsigned

private theorem Parsed.beq_iff_eq {a b : Expr} (parsed : a.Parsed) (parsed' : b.Parsed) : a == b ↔ a = b :=
  same_iff_eq parsed.unsigned parsed'.unsigned

end Expr

/-- Two trees that were parsed, in whatever calls, are equal if and only if they are one tree, node for node and bit
for bit. So this is an equivalence among them, and equal ones are written alike, are of one height and have one value.
Of trees in general neither holds: one may differ from itself, and equal ones may have different values. -/
theorem parsed_beq_iff_eq :
    (∀ a b : Expr, a.Parsed → b.Parsed → (a == b ↔ a = b)) ∧
    Equivalence (fun a b : {e : Expr // e.Parsed} => a.val == b.val) ∧
    (∀ a b : Expr, a.Parsed → b.Parsed → a == b →
      a.text = b.text ∧ a.depth = b.depth ∧ a.evaluate = b.evaluate) ∧
    (∃ a : Expr, ¬ a == a) ∧ ∃ a b : Expr, a == b ∧ ¬ a.evaluate == b.evaluate := by
  have iff (a b : {e : Expr // e.Parsed}) : a.val == b.val ↔ a.val = b.val := a.property.beq_iff_eq b.property
  refine ⟨fun a b parsed parsed' => parsed.beq_iff_eq parsed',
    ⟨fun a => ?_, fun {a b} same => ?_, fun {a b c} same same' => ?_⟩, fun a b parsed parsed' same => ?_,
    ⟨.literal (0 / 0), ?_⟩,
    .binary .divide (.literal 1) (.literal 0), .binary .divide (.literal 1) (.literal (-0)), ?_⟩
  · exact (iff a a).mpr rfl
  · exact (iff b a).mpr ((iff a b).mp same).symm
  · exact (iff a c).mpr (((iff a b).mp same).trans ((iff b c).mp same'))
  · obtain rfl := (parsed.beq_iff_eq parsed').mp same
    exact ⟨rfl, rfl, rfl⟩
  · decide +kernel
  · decide +kernel

theorem parsed_beq_iff_eq_later :
    let calculator : Calculator := ⟨.strict, 2, by decide, by decide⟩
    ∃ parser first later, Parser.ofText calculator "(1 (8-0.50*00)" = .ok parser ∧
      (Calculator.default.parse " 8 - .5*0").result = .ok first ∧ (parser.after 1).parse.outcome = .ok later ∧
      first.Parsed ∧ later.Parsed ∧ first == later ∧ first = later := by
  intro calculator
  let start : Parser := ⟨.default, .ofText " 8 - .5*0", 0⟩
  let parser : Parser := ⟨calculator, .ofText "(1 (8-0.50*00)", 0⟩
  have made : Parser.ofText .default " 8 - .5*0" = .ok start :=
    Calculator.ofText_of_valid ((checkText_eq_ok_iff _).mp rfl)
  have made' : Parser.ofText calculator "(1 (8-0.50*00)" = .ok parser :=
    Calculator.ofText_of_valid ((checkText_eq_ok_iff _).mp rfl)
  -- the first call of the strict parser stops where a group is not closed, and the second reads another one there
  have compared : (do return (← start.parse.outcome) == (← (parser.after 1).parse.outcome)) = Except.ok true := by
    decide +kernel
  cases ok : start.parse.outcome with
  | error e =>
    rw [ok] at compared
    cases compared
  | ok first =>
    cases ok' : (parser.after 1).parse.outcome with
    | error e =>
      rw [ok, ok'] at compared
      cases compared
    | ok later =>
      rw [ok, ok'] at compared
      have same : first == later := Except.ok.inj compared
      have parsed : first.Parsed := .mk made 0 ok
      have parsed' : later.Parsed := .mk made' 1 ok'
      refine ⟨parser, first, later, made', ?_, ok', parsed, parsed', same, ?_⟩
      · rw [Calculator.parse_of_ofText made]
        exact ok
      · exact (parsed_beq_iff_eq.1 first later parsed parsed').mp same

end Abacus
