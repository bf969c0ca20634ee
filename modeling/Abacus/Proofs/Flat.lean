import Abacus.Proofs.Room
import Abacus.Proofs.Shown

/-! Sequences of factors with operators between them. Such a sequence is cut at the operators of sums into terms, and
its value is that of the terms, each evaluated from left to right, then taken together from left to right. -/
namespace Abacus

open Grammar

/-- Operands with an operator in front of each but the first. -/
structure Flat (α : Type) where
  first : α
  rest : List (Operator × α)

namespace Flat

variable {α β γ : Type}

def map (f : α → β) (flat : Flat α) : Flat β := ⟨f flat.first, flat.rest.map fun step => (step.1, f step.2)⟩

def operands (flat : Flat α) : List α := flat.first :: flat.rest.map Prod.snd

/-- The operators applied one after the other, from left to right. -/
def value (flat : Flat Float) : Float := flat.rest.foldl (fun x step => operate step.1 x step.2) flat.first

/-- An operator as its sign, and the text behind it. -/
def stepText : Operator × List Char → List Char
  | (.add, w) => '+' :: w
  | (.subtract, w) => '-' :: w
  | (.multiply, w) => '*' :: w
  | (.divide, w) => '/' :: w

def text (flat : Flat (List Char)) : List Char := flat.first ++ flat.rest.flatMap stepText

def tree (flat : Flat Expr) : Expr := .join flat.first flat.rest

def cutFrom (first : α) : List (Operator × α) → Flat (Flat α)
  | [] => ⟨⟨first, []⟩, []⟩
  | (op, second) :: rest =>
    let later := cutFrom second rest
    match op with
    | .add | .subtract => ⟨⟨first, []⟩, (op, later.first) :: later.rest⟩
    | .multiply | .divide => ⟨⟨first, (op, second) :: later.first.rest⟩, later.rest⟩

/-- The terms of a sequence, which is cut at `+` and `-`. -/
def cut (flat : Flat α) : Flat (Flat α) := cutFrom flat.first flat.rest

private theorem stepText_eq (step : Operator × List Char) : stepText step = step.1.symbol :: step.2 := by
  obtain ⟨op, w⟩ := step
  cases op <;> rfl

private theorem cutFrom_cons (first : α) (op : Operator) (second : α) (rest : List (Operator × α)) :
    cutFrom first ((op, second) :: rest) = match op.precedence with
      | .sum => ⟨⟨first, []⟩, (op, (cutFrom second rest).first) :: (cutFrom second rest).rest⟩
      | .product => ⟨⟨first, (op, second) :: (cutFrom second rest).first.rest⟩, (cutFrom second rest).rest⟩ := by
  cases op <;> rfl

private theorem first_cutFrom (first : α) (rest : List (Operator × α)) : (cutFrom first rest).first.first = first := by
  cases rest with
  | nil => rfl
  | cons step rest =>
    obtain ⟨op, second⟩ := step
    cases op <;> rfl

private theorem map_map (g : β → γ) (f : α → β) (flat : Flat α) : (flat.map f).map g = flat.map (g ∘ f) := by
  rw [map, map, map, List.map_map]
  rfl

private theorem map_congr {f g : α → β} {flat : Flat α} (same : ∀ x ∈ flat.operands, f x = g x) :
    flat.map f = flat.map g := by
  rw [map, map, same _ List.mem_cons_self]
  congr 1
  refine List.map_congr_left fun step member => ?_
  rw [same _ (List.mem_cons_of_mem _ (List.mem_map_of_mem member))]

private theorem map_cutFrom (f : α → β) (first : α) (rest : List (Operator × α)) :
    (cutFrom first rest).map (map f) = cutFrom (f first) (rest.map fun step => (step.1, f step.2)) := by
  induction rest generalizing first with
  | nil => rfl
  | cons step rest ih =>
    obtain ⟨op, second⟩ := step
    rw [List.map_cons, cutFrom_cons, cutFrom_cons, ← ih]
    cases op.precedence <;> rfl

private theorem cut_map (f : α → β) (flat : Flat α) : (flat.map f).cut = flat.cut.map (map f) :=
  (map_cutFrom f flat.first flat.rest).symm

private theorem text_cons (first second : List Char) (op : Operator) (rest : List (Operator × List Char)) :
    text ⟨first, (op, second) :: rest⟩ = first ++ op.symbol :: text ⟨second, rest⟩ := by
  simp only [text, List.flatMap_cons, stepText_eq, List.cons_append]

private theorem text_cutFrom (first : List Char) (rest : List (Operator × List Char)) :
    ((cutFrom first rest).map text).text = text ⟨first, rest⟩ := by
  induction rest generalizing first with
  | nil => simp [cutFrom, map, text]
  | cons step rest ih =>
    obtain ⟨op, second⟩ := step
    rw [text_cons, ← ih second, cutFrom_cons]
    have begun := first_cutFrom second rest
    generalize cutFrom second rest = later at begun
    obtain ⟨⟨_, inside⟩, behind⟩ := later
    cases begun
    cases op.precedence <;> simp only [map, List.map_cons, text, List.flatMap_cons, stepText_eq, List.flatMap_nil,
      List.append_nil, List.append_assoc, List.cons_append]

private theorem text_cut (flat : Flat (List Char)) :
    (flat.cut.map text).text = flat.text := text_cutFrom flat.first flat.rest

private theorem product_of_mem_cut {first : α} {rest : List (Operator × α)} {term : Flat α}
    (member : term ∈ (cutFrom first rest).operands) : ∀ step ∈ term.rest, step.1.precedence = .product := by
  induction rest generalizing first term with
  | nil =>
    rw [List.mem_singleton.mp member]
    exact fun _ inside => nomatch inside
  | cons step rest ih =>
    obtain ⟨op, second⟩ := step
    rw [cutFrom_cons] at member
    cases binds : op.precedence with
    | product =>
      rw [binds] at member
      rcases List.mem_cons.mp member with rfl | later
      · rintro _ (_ | ⟨_, inside⟩)
        · exact binds
        · exact ih List.mem_cons_self _ inside
      · exact ih (List.mem_cons_of_mem _ later)
    | sum =>
      rw [binds] at member
      rcases List.mem_cons.mp member with rfl | later
      · simp
      · exact ih later

private theorem sum_of_mem_cut {first : α} {rest : List (Operator × α)} :
    ∀ step ∈ (cutFrom first rest).rest, step.1.precedence = .sum := by
  induction rest generalizing first with
  | nil => simp [cutFrom]
  | cons step rest ih =>
    obtain ⟨op, second⟩ := step
    rw [cutFrom_cons]
    cases binds : op.precedence with
    | product => exact ih
    | sum =>
      rintro _ (_ | ⟨_, later⟩)
      · exact binds
      · exact ih _ later

private theorem mem_of_mem_cut {first : α} {rest : List (Operator × α)} {term : Flat α} {x : α}
    (member : term ∈ (cutFrom first rest).operands) (inside : x ∈ term.operands) : x ∈ operands ⟨first, rest⟩ := by
  induction rest generalizing first term with
  | nil => rwa [List.mem_singleton.mp member] at inside
  | cons step rest ih =>
    obtain ⟨op, second⟩ := step
    rw [cutFrom_cons] at member
    cases binds : op.precedence with
    | product =>
      rw [binds] at member
      rcases List.mem_cons.mp member with rfl | later
      · rcases List.mem_cons.mp inside with rfl | behind
        · exact List.mem_cons_self
        · refine List.mem_cons_of_mem _ (ih List.mem_cons_self ?_)
          rwa [operands, first_cutFrom]
      · exact List.mem_cons_of_mem _ (ih (List.mem_cons_of_mem _ later) inside)
    | sum =>
      rw [binds] at member
      rcases List.mem_cons.mp member with rfl | later
      · rw [List.mem_singleton.mp inside]
        exact List.mem_cons_self
      · exact List.mem_cons_of_mem _ (ih later inside)

private theorem evaluate_tree (flat : Flat Expr) : flat.tree.evaluate = (flat.map Expr.evaluate).value := by
  simp only [tree, Expr.evaluate_join, Expr.applyAll_eq_foldl, value, map, List.foldl_map, operate_eq]

/-- Operands that are derived within a limit, with operators of one precedence between them, are a phrase within it. -/
private theorem phrase {p : Precedence} {limit : Nat} (flat : Flat α) (spell : α → List Char) (tree : α → Expr)
    (binds : ∀ step ∈ flat.rest, step.1.precedence = p)
    (derived : ∀ x ∈ flat.operands, ∃ depth ≤ limit, Operand p depth (spell x) (tree x)) :
    ∃ depth ≤ limit, Phrase p depth (flat.map spell).text (flat.map tree).tree := by
  obtain ⟨first, rest⟩ := flat
  have tail : ∃ depth ≤ limit, Tail p depth ((rest.map fun step => (step.1, spell step.2)).flatMap stepText)
      (rest.map fun step => (step.1, tree step.2)) := by
    have derived : ∀ step ∈ rest, ∃ depth ≤ limit, Operand p depth (spell step.2) (tree step.2) := fun step member =>
      derived _ (List.mem_cons_of_mem _ (List.mem_map_of_mem member))
    clear * - derived binds
    induction rest with
    | nil => exact ⟨0, Nat.zero_le _, .nil⟩
    | cons step rest ih =>
      obtain ⟨depth, fits, operand⟩ := derived _ List.mem_cons_self
      obtain ⟨depth', fits', tail⟩ := ih (fun _ member => binds _ (List.mem_cons_of_mem _ member))
        fun _ member => derived _ (List.mem_cons_of_mem _ member)
      have sign := operator_eq_some_iff.mpr ⟨binds _ List.mem_cons_self, rfl⟩
      rw [List.map_cons, List.flatMap_cons, stepText_eq]
      exact ⟨_, Nat.max_le.mpr ⟨fits, fits'⟩, .cons sign operand tail⟩
  obtain ⟨depth, fits, operand⟩ := derived first List.mem_cons_self
  obtain ⟨depth', fits', tail⟩ := tail
  cases rest with
  | nil => exact ⟨depth, fits, by simpa [map, text] using .lone operand⟩
  | cons step rest => exact ⟨_, Nat.max_le.mpr ⟨fits, fits'⟩, .chain operand tail⟩

/-- Factors that are derived within a limit are, cut into terms, a sum within it. -/
private theorem phrase_cut {limit : Nat} (flat : Flat α) (spell : α → List Char) (tree : α → Expr)
    (derived : ∀ x ∈ flat.operands, ∃ depth ≤ limit, Operand .product depth (spell x) (tree x)) :
    ∃ depth ≤ limit, Phrase .sum depth (flat.map spell).text (flat.cut.map fun term => (term.map tree).tree).tree := by
  have terms : ∀ term ∈ flat.cut.operands, ∃ depth ≤ limit,
      Operand .sum depth (term.map spell).text (term.map tree).tree := by
    intro term member
    obtain ⟨depth, fits, phrase⟩ := term.phrase spell tree (product_of_mem_cut member)
      fun x inside => derived x (mem_of_mem_cut member inside)
    exact ⟨depth, fits, .term phrase⟩
  have whole : (flat.cut.map fun term => (term.map spell).text).text = (flat.map spell).text := by
    rw [← text_cut (flat.map spell), cut_map, map_map]
    rfl
  rw [← whole]
  exact flat.cut.phrase (fun term => (term.map spell).text) (fun term => (term.map tree).tree) sum_of_mem_cut terms

private theorem evaluate_cut (flat : Flat α) (tree : α → Expr) :
    (flat.cut.map fun term => (term.map tree).tree).tree.evaluate =
      ((flat.map fun x => (tree x).evaluate).cut.map value).value := by
  rw [evaluate_tree, cut_map, map_map, map_map]
  congr 2
  funext term
  rw [Function.comp_apply, Function.comp_apply, evaluate_tree, map_map]
  rfl

end Flat

/-- The text of one factor without an operator outside of parentheses: a numeral, or an expression that is accepted
in parentheses, in which groups are not nested deeper than the calculator allows. -/
inductive FactorText (calculator : Calculator) : String → Prop
  | numeral {text : String} (parts : ∀ c ∈ text.toList, isNumeralPart c) (digit : ∃ c ∈ text.toList, c.isDigit)
      (points : text.toList.count '.' ≤ 1) : FactorText calculator text
  | group {strict : Calculator} {text : String} {e : Expr} (accepted : (strict.parse text).result = .ok e)
      (plain : strict.strictness = .strict) (fits : Roomy calculator.maxDepth 0 ("(" ++ text ++ ")").toList) :
      FactorText calculator ("(" ++ text ++ ")")

variable {calculator : Calculator} {text : String}

private theorem dense_of_parts (parts : ∀ c ∈ text.toList, isNumeralPart c) : dense text = text.toList :=
  Solid.nonBlank fun c member => solid_part (parts c member)

private theorem dense_group (text : String) : dense ("(" ++ text ++ ")") = '(' :: dense text ++ [')'] := by
  simp only [dense, String.toList_append, nonBlank_append]
  rfl

private theorem Grammar.Phrase.depth_le_of_roomy {depth : Nat} {e : Expr} (phrase : Phrase .sum depth (dense text) e)
    (fits : Roomy calculator.maxDepth 0 text.toList) : depth ≤ calculator.maxDepth := by
  by_contra deep
  obtain ⟨p, -, ⟨here, level⟩, -⟩ := phrase.parse_deep (Nat.lt_of_not_le deep)
  obtain ⟨inside, found⟩ := List.getElem?_eq_some_iff.mp here
  have room := fits (text.toList.take p) (text.toList.drop (p + 1)) (by
    rw [← found, ← List.drop_eq_getElem_cons inside, List.take_append_drop])
  omega

private theorem FactorText.of_wellFormed (parts : text.toList.all isNumeralPart)
    (formed : Numeral.wellFormed text.toList) : FactorText calculator text := by
  rw [Numeral.wellFormed, Bool.and_eq_true, List.any_eq_true, decide_eq_true_iff] at formed
  exact .numeral (List.all_eq_true.mp parts) formed.1 formed.2

private theorem FactorText.derived (written : FactorText calculator text) :
    ∃ e, (∃ depth ≤ calculator.maxDepth, Operand .product depth (dense text) e) ∧
      (calculator.evaluate text).result = .ok e.evaluate := by
  suffices ∃ depth e, Operand .product depth (dense text) e ∧ Roomy calculator.maxDepth 0 text.toList by
    obtain ⟨depth, e, operand, fits⟩ := this
    have phrase : Phrase .sum depth (dense text) e := .lone (.term (.lone operand))
    have fits := phrase.depth_le_of_roomy fits
    have parsed := Calculator.parse_of_derives phrase.valid ⟨depth, fits, phrase⟩
    exact ⟨e, ⟨depth, fits, operand⟩, Calculator.evaluate_of_ok (congrArg Logged.result parsed)⟩
  cases written with
  | numeral parts digit points =>
    refine ⟨0, _, (dense_of_parts parts).symm ▸ Operand.number parts digit points, roomy_of_plain ?_⟩
    rw [List.count_eq_zero]
    intro opening
    cases parts _ opening
  | @group strict inner e accepted plain fits =>
    obtain ⟨-, read⟩ := (Calculator.parse_eq_ok_iff e).mp accepted
    obtain ⟨depth, -, phrase⟩ := Place.derives_of_read plain read
    have phrase : Phrase .sum depth (dense inner) e := Cursor.chars_ofText inner ▸ phrase
    exact ⟨depth + 1, e, (dense_group inner).symm ▸ Operand.group phrase, fits⟩

/-- A sequence of factors, with blanks wherever, is evaluated as products inside of sums, both from left to right,
whichever operators and however many of them there are. -/
theorem evaluate_flat (calculator : Calculator) (factors : Flat String) (text : String)
    (written : ∀ factor ∈ factors.operands, FactorText calculator factor)
    (spelt : dense text = (factors.map dense).text) :
    ∃ values : Flat Float,
      factors.map (fun factor => (calculator.evaluate factor).result) = values.map .ok ∧
      (calculator.evaluate text).result = .ok (values.cut.map Flat.value).value := by
  have derived : ∀ factor, ∃ e, factor ∈ factors.operands →
      (∃ depth ≤ calculator.maxDepth, Operand .product depth (dense factor) e) ∧
        (calculator.evaluate factor).result = .ok e.evaluate := by
    intro factor
    by_cases member : factor ∈ factors.operands
    · obtain ⟨e, derived⟩ := (written factor member).derived
      exact ⟨e, fun _ => derived⟩
    · exact ⟨.literal 0, fun inside => absurd inside member⟩
  choose tree derived using derived
  obtain ⟨depth, fits, phrase⟩ := factors.phrase_cut dense tree fun factor member => (derived factor member).1
  rw [← spelt] at phrase
  have parsed := Calculator.parse_of_derives phrase.valid ⟨depth, fits, phrase⟩
  refine ⟨factors.map fun factor => (tree factor).evaluate, ?_, ?_⟩
  · rw [Flat.map_map]
    exact Flat.map_congr fun factor member => (derived factor member).2
  · rw [Calculator.evaluate_of_ok (congrArg Logged.result parsed), Flat.evaluate_cut]

theorem evaluate_flat_mixed :
    let calculator : Calculator := ⟨.lenient, 1, by decide, by decide⟩
    let factors : Flat String := ⟨"1", [(.subtract, "2."), (.multiply, "(3-4)"), (.divide, ".5"), (.add, "06")]⟩
    (∀ factor ∈ factors.operands, FactorText calculator factor) ∧
      dense " 1-2. * (3 -4)/.5 + 0 6\n" = (factors.map dense).text ∧
      ∃ values : Flat Float,
        factors.map (fun factor => (calculator.evaluate factor).result) = values.map .ok ∧
        (calculator.evaluate " 1-2. * (3 -4)/.5 + 0 6\n").result = .ok (values.cut.map Flat.value).value := by
  intro calculator factors
  have group : FactorText calculator "(3-4)" := by
    obtain ⟨e, parsed⟩ : ∃ e, ((calculator.under .strict).parse "3-4").result = .ok e := by
      have accepted : ((calculator.under .strict).parse "3-4").result.isOk := by decide +kernel
      cases parsed : ((calculator.under .strict).parse "3-4").result with
      | ok e => exact ⟨e, rfl⟩
      | error fault => rw [parsed] at accepted; cases accepted
    have opened : Balance 0 1 [] ['('] := ⟨by decide, rfl⟩
    exact .group parsed rfl ((roomy_of_opening (by decide)).append opened (roomy_of_plain (w := "3-4)".toList) rfl))
  have written : ∀ factor ∈ factors.operands, FactorText calculator factor := by
    intro factor member
    simp only [Flat.operands, factors, List.map_cons, List.map_nil, List.mem_cons, List.not_mem_nil, or_false] at member
    obtain rfl | rfl | rfl | rfl | rfl := member
    · exact .of_wellFormed rfl rfl
    · exact .of_wellFormed rfl rfl
    · exact group
    · exact .of_wellFormed rfl rfl
    · exact .of_wellFormed rfl rfl
  have spelt : dense " 1-2. * (3 -4)/.5 + 0 6\n" = (factors.map dense).text := by decide
  exact ⟨written, spelt, evaluate_flat calculator factors _ written spelt⟩

end Abacus
