import Abacus.Expr.Basic
import Abacus.Proofs.Accepted
import Abacus.Proofs.ReadBack

/-! Expressions are parsed back from their texts. The printer puts every chain in parentheses, so
that its text is a factor wherever it stands, and the parser gives the tree inside of a group: no
chain is merged with the one around it, and none is taken apart. -/
namespace Abacus

open Grammar

namespace Expr

mutual

def literals : Expr → List Float
  | literal value => [value]
  | chain first rest => first.literals ++ operandLiterals rest

def operandLiterals : List (Operator × Expr) → List Float
  | [] => []
  | (_, operand) :: rest => operand.literals ++ operandLiterals rest

end

mutual

/-- Every chain has an operator, and all of its operators are of one precedence. -/
inductive Uniform : Expr → Prop
  | literal (value : Float) : Uniform (literal value)
  | chain {p : Precedence} {first : Expr} {step : Operator × Expr} {rest : List (Operator × Expr)}
      (head : Uniform first) (steps : UniformSteps p (step :: rest)) : Uniform (chain first (step :: rest))

inductive UniformSteps : Precedence → List (Operator × Expr) → Prop
  | nil {p : Precedence} : UniformSteps p []
  | cons {p : Precedence} {c : Char} {op : Operator} {operand : Expr} {rest : List (Operator × Expr)}
      (sign : operator? p c = some op) (head : Uniform operand) (steps : UniformSteps p rest) :
      UniformSteps p ((op, operand) :: rest)

end

/-- A value without a minus sign, from 0 to infinity. -/
structure Unsigned (x : Float) : Prop where
  positive : Binary64.isNegative x = false
  bound : Binary64.magnitude x ≤ Binary64.infinity

theorem unsigned_toFloat (d : Decimal) : Unsigned d.toFloat where
  positive := d.isNegative_toFloat
  bound := by
    rw [Decimal.magnitude_toFloat]
    exact Binary64.nearest_le_infinity _ _

structure Canonical (e : Expr) : Prop where
  unsigned : ∀ x ∈ e.literals, Unsigned x
  uniform : e.Uniform

theorem depth_pos (e : Expr) : 0 < e.depth := by
  cases e with
  | literal value => exact Nat.one_pos
  | chain first rest =>
    rw [depth]
    omega

end Expr

def Spelt (xs : List Float) : Prop := ∀ x ∈ xs, Numeral.Spells (ValueNotation.literal.write x).toList x

private theorem spelt_append {xs ys : List Float} : Spelt (xs ++ ys) ↔ Spelt xs ∧ Spelt ys :=
  List.forall_mem_append

namespace Grammar

theorem Operand.factor {depth : Nat} {w : List Char} {e : Expr} (factor : Operand .product depth w e)
    (p : Precedence) : Operand p depth w e := by
  cases p with
  | sum => exact .term (.lone factor)
  | product => exact factor

private theorem Phrase.expression {p : Precedence} {depth : Nat} {w : List Char} {e : Expr}
    (phrase : Phrase p depth w e) : Phrase .sum depth w e := by
  cases p with
  | sum => exact phrase
  | product => exact .lone (.term phrase)

mutual

private theorem operand_toText {e : Expr} (uniform : e.Uniform) (spelt : Spelt e.literals) :
    Operand .product (e.depth - 1) (nonBlank e.toText) e := by
  match uniform with
  | .literal value =>
    obtain ⟨parts, digit, points, known⟩ := spelt value (List.mem_singleton_self value)
    have operand := Operand.number parts digit points
    rw [known] at operand
    rw [Expr.toText, operand.solid.nonBlank]
    exact operand
  | @Expr.Uniform.chain p first step rest head steps =>
    -- whatever the precedence, the operands are factors: a chain among them is a group of its own
    have operand := (operand_toText head (spelt_append.mp spelt).1).factor p
    have tail := tail_restText steps (spelt_append.mp spelt).2
    have group := Operand.group (Phrase.chain operand tail).expression
    have text : nonBlank (Expr.chain first (step :: rest)).toText =
        '(' :: (nonBlank first.toText ++ nonBlank (Expr.restText (step :: rest))) ++ [')'] := by
      rw [Expr.toText, nonBlank_append, List.cons_append, nonBlank_cons (by decide), nonBlank_append]
      rfl
    have depth : (Expr.chain first (step :: rest)).depth - 1 =
        max (first.depth - 1) (Expr.deepest (step :: rest) - 1) + 1 := by
      have pos := first.depth_pos
      rw [Expr.depth]
      omega
    rw [text, depth]
    exact group

private theorem tail_restText {p : Precedence} {rest : List (Operator × Expr)} (uniform : Expr.UniformSteps p rest)
    (spelt : Spelt (Expr.operandLiterals rest)) :
    Tail p (Expr.deepest rest - 1) (nonBlank (Expr.restText rest)) rest := by
  match uniform with
  | .nil => exact .nil
  | @Expr.UniformSteps.cons _ _ op operand rest sign head steps =>
    obtain ⟨-, rfl⟩ := operator_eq_some_iff.mp sign
    have factor := (operand_toText head (spelt_append.mp spelt).1).factor p
    have tail := Tail.cons sign factor (tail_restText steps (spelt_append.mp spelt).2)
    have text : nonBlank (Expr.restText ((op, operand) :: rest)) =
        op.symbol :: nonBlank operand.toText ++ nonBlank (Expr.restText rest) := by
      rw [Expr.restText, nonBlank_append, nonBlank_space, nonBlank_cons (solid_symbol op).2, nonBlank_space]
    have depth : Expr.deepest ((op, operand) :: rest) - 1 = max (operand.depth - 1) (Expr.deepest rest - 1) := by
      rw [Expr.deepest]
      omega
    rw [text, depth]
    exact tail

end

end Grammar

def infinityText : List Char := ValueNotation.literal.infinity.toList

def FirstAt (pattern text : List Char) (position : Nat) : Prop :=
  pattern <+: text.drop position ∧ ∀ before < position, ¬ pattern <+: text.drop before

def Breaks (w : List Char) : Prop :=
  ∃ before after, (∀ c ∈ before, isAllowed c) ∧ w = before ++ infinityText ++ after

private theorem Breaks.append {w : List Char} (breaks : Breaks w) (v : List Char) : Breaks (w ++ v) := by
  obtain ⟨before, after, allowed, rfl⟩ := breaks
  exact ⟨before, after ++ v, allowed, List.append_assoc ..⟩

private theorem Breaks.behind {v : List Char} (breaks : Breaks v) {w : List Char} (fine : ∀ c ∈ w, isAllowed c) :
    Breaks (w ++ v) := by
  obtain ⟨before, after, allowed, rfl⟩ := breaks
  refine ⟨w ++ before, after, fun c member => ?_, by simp only [List.append_assoc]⟩
  rcases List.mem_append.mp member with first | second
  · exact fine c first
  · exact allowed c second

/-- A text in which the given values are written holds allowed characters alone, or it breaks where the
first infinite one stands. -/
def Shows (xs : List Float) (w : List Char) : Prop :=
  (∀ x ∈ xs, Binary64.isFinite x) ∧ (∀ c ∈ w, isAllowed c) ∨ (∃ x ∈ xs, ¬ Binary64.isFinite x) ∧ Breaks w

private theorem Shows.append {xs ys : List Float} {w v : List Char} (first : Shows xs w) (second : Shows ys v) :
    Shows (xs ++ ys) (w ++ v) := by
  rcases first with ⟨finite, allowed⟩ | ⟨⟨x, member, infinite⟩, breaks⟩
  · rcases second with ⟨finite', allowed'⟩ | ⟨⟨x, member, infinite⟩, breaks⟩
    · refine .inl ⟨fun x member => ?_, fun c member => ?_⟩
      · exact (List.mem_append.mp member).elim (finite x) (finite' x)
      · exact (List.mem_append.mp member).elim (allowed c) (allowed' c)
    · exact .inr ⟨⟨x, List.mem_append_right _ member, infinite⟩, breaks.behind allowed⟩
  · exact .inr ⟨⟨x, List.mem_append_left _ member, infinite⟩, breaks.append v⟩

private theorem shows_nil {w : List Char} (allowed : ∀ c ∈ w, isAllowed c) : Shows [] w :=
  .inl ⟨fun _ member => absurd member List.not_mem_nil, allowed⟩

private theorem shows_write {x : Float} (unsigned : Expr.Unsigned x) :
    Shows [x] (ValueNotation.literal.write x).toList := by
  rcases Nat.lt_or_eq_of_le unsigned.bound with finite | infinite
  · have spelt : Numeral.Spells (ValueNotation.literal.write x).toList x :=
      ValueNotation.spells_write unsigned.positive (decide_eq_true finite)
    refine .inl ⟨fun y member => ?_, fun c member => (solid_part (spelt.parts c member)).1⟩
    rw [List.mem_singleton.mp member]
    exact decide_eq_true finite
  · have text : ValueNotation.literal.write x = "inf" := by
      have positive : Binary64.infinity ≠ 0 := by decide
      simp only [ValueNotation.write, unsigned.positive, infinite, positive, Nat.lt_irrefl, Bool.false_eq_true,
        if_true, if_false]
      rfl
    rw [text]
    refine .inr ⟨⟨x, List.mem_singleton_self x, ?_⟩, [], [], fun _ member => absurd member List.not_mem_nil, rfl⟩
    rw [Binary64.isFinite, infinite]
    decide

mutual

private theorem shows_toText {e : Expr} (unsigned : ∀ x ∈ e.literals, Expr.Unsigned x) : Shows e.literals e.toText := by
  match e with
  | .literal value => exact shows_write (unsigned value (List.mem_singleton_self value))
  | .chain first rest =>
    obtain ⟨left, right⟩ := List.forall_mem_append.mp unsigned
    have opening : Shows [] ['('] := shows_nil (List.forall_mem_singleton.mpr (by decide))
    have closing : Shows [] [')'] := shows_nil (List.forall_mem_singleton.mpr (by decide))
    have whole := (opening.append ((shows_toText left).append (shows_restText right))).append closing
    rwa [List.append_nil, ← List.append_assoc ['(']] at whole

private theorem shows_restText {rest : List (Operator × Expr)}
    (unsigned : ∀ x ∈ Expr.operandLiterals rest, Expr.Unsigned x) :
    Shows (Expr.operandLiterals rest) (Expr.restText rest) := by
  match rest with
  | [] => exact shows_nil fun _ member => nomatch member
  | (op, operand) :: rest =>
    obtain ⟨left, right⟩ := List.forall_mem_append.mp unsigned
    have space : Shows [] [' '] := shows_nil (List.forall_mem_singleton.mpr (by decide))
    have symbol : Shows [] [op.symbol] := shows_nil (List.forall_mem_singleton.mpr (solid_symbol op).1)
    have spaced : Shows [] [' ', op.symbol, ' '] := space.append (symbol.append space)
    exact spaced.append ((shows_toText left).append (shows_restText right))

end

private theorem firstAt_breaks {before after : List Char} (allowed : ∀ c ∈ before, isAllowed c) :
    FirstAt infinityText (before ++ infinityText ++ after) before.length := by
  rw [List.append_assoc]
  constructor
  · rw [List.drop_left]
    exact List.prefix_append _ _
  · intro i inside found
    rw [List.drop_append_of_le_length (Nat.le_of_lt inside), List.drop_eq_getElem_cons inside] at found
    have letter : 'i' = before[i] := (List.cons_prefix_cons.mp found).1
    have fine := allowed before[i] (List.getElem_mem inside)
    rw [← letter] at fine
    exact absurd fine (by decide)

private theorem checkText_of_breaks {e : Expr} (breaks : Breaks e.toText) :
    ∃ position, FirstAt infinityText e.toText position ∧ checkText e.text = .error ⟨[position], .invalidCharacter 'i'⟩ := by
  obtain ⟨before, after, allowed, text⟩ := breaks
  refine ⟨before.length, ?_, ?_⟩
  · rw [text]
    exact firstAt_breaks allowed
  · rw [Expr.text, text, List.append_assoc]
    exact checkText_of_foreign allowed (by decide)

namespace Expr

variable {e : Expr}

private theorem Canonical.phrase_text (canonical : e.Canonical) (finite : ∀ x ∈ e.literals, Binary64.isFinite x) :
    Valid e.text ∧ Phrase .sum (e.depth - 1) (dense e.text) e := by
  have spelt : Spelt e.literals := fun x member =>
    ValueNotation.spells_write (canonical.unsigned x member).positive (finite x member)
  have phrase : Phrase .sum (e.depth - 1) (dense e.text) e := by
    rw [dense, text, String.toList_ofList]
    exact .lone (.term (.lone (operand_toText canonical.uniform spelt)))
  refine ⟨⟨?_, ?_⟩, phrase⟩
  · intro empty
    rw [empty] at phrase
    exact phrase.ne_nil rfl
  · rcases shows_toText canonical.unsigned with ⟨-, allowed⟩ | ⟨⟨x, member, infinite⟩, -⟩
    · rwa [text, String.toList_ofList]
    · exact absurd (finite x member) infinite

private theorem Canonical.breaks (canonical : e.Canonical) (infinite : ∃ x ∈ e.literals, ¬ Binary64.isFinite x) :
    Breaks e.toText := by
  rcases shows_toText canonical.unsigned with ⟨finite, -⟩ | ⟨-, breaks⟩
  · obtain ⟨x, member, infinite⟩ := infinite
    exact absurd (finite x member) infinite
  · exact breaks

variable {calculator : Calculator}

private theorem Canonical.parse_of_infinite (canonical : e.Canonical)
    (infinite : ∃ x ∈ e.literals, ¬ Binary64.isFinite x) :
    ∃ position, FirstAt infinityText e.toText position ∧
      (calculator.parse e.text).result = .error ⟨[position], .invalidCharacter 'i'⟩ := by
  obtain ⟨position, first, refused⟩ := checkText_of_breaks (canonical.breaks infinite)
  refine ⟨position, first, ?_⟩
  rw [Calculator.parse_of_refused refused]

private theorem Canonical.parse_of_deep (canonical : e.Canonical) (finite : ∀ x ∈ e.literals, Binary64.isFinite x)
    (deep : calculator.maxDepth < e.depth - 1) :
    ∃ position, (calculator.parse e.text).result = .error ⟨[position], .nestingTooDeep calculator.maxDepth⟩ := by
  obtain ⟨valid, phrase⟩ := canonical.phrase_text finite
  have outcome : (calculator.reading e.text).outcome = _ := phrase.read_deep (Cursor.chars_ofText e.text) deep
  rw [Calculator.parse_of_valid valid, outcome]
  exact ⟨_, rfl⟩

private theorem Canonical.parse_of_finite (canonical : e.Canonical) (finite : ∀ x ∈ e.literals, Binary64.isFinite x)
    (fits : e.depth - 1 ≤ calculator.maxDepth) : calculator.parse e.text = ⟨.ok e, []⟩ := by
  obtain ⟨valid, phrase⟩ := canonical.phrase_text finite
  exact Calculator.parse_of_derives valid ⟨_, fits, phrase⟩

end Expr

/-- A canonical tree is parsed back from its text, silently, where its literals are finite and its
groups fit into the depth limit, and nowhere else. An infinite literal is refused where it stands. -/
theorem parse_text (calculator : Calculator) (e : Expr) (canonical : e.Canonical) :
    ((calculator.parse e.text).result = .ok e ∧ closings (calculator.parse e.text).events = [] ∧
        trailings (calculator.parse e.text).events = [] ↔
      (∀ x ∈ e.literals, Binary64.isFinite x) ∧ e.depth - 1 ≤ calculator.maxDepth) ∧
    ((∃ x ∈ e.literals, ¬ Binary64.isFinite x) →
      ∃ position, FirstAt infinityText e.toText position ∧
        (calculator.parse e.text).result = .error ⟨[position], .invalidCharacter 'i'⟩) ∧
    ((∀ x ∈ e.literals, Binary64.isFinite x) → calculator.maxDepth < e.depth - 1 →
      ∃ position, (calculator.parse e.text).result = .error ⟨[position], .nestingTooDeep calculator.maxDepth⟩) := by
  refine ⟨⟨?_, ?_⟩, canonical.parse_of_infinite, canonical.parse_of_deep⟩
  · rintro ⟨ok, -⟩
    have finite : ∀ x ∈ e.literals, Binary64.isFinite x := by
      intro x member
      by_contra infinite
      obtain ⟨position, -, refused⟩ := canonical.parse_of_infinite ⟨x, member, infinite⟩
      rw [ok] at refused
      cases refused
    refine ⟨finite, ?_⟩
    by_contra deep
    obtain ⟨position, refused⟩ := canonical.parse_of_deep finite (Nat.lt_of_not_le deep)
    rw [ok] at refused
    cases refused
  · rintro ⟨finite, fits⟩
    rw [canonical.parse_of_finite finite fits]
    exact ⟨rfl, rfl, rfl⟩

theorem parse_text_nested :
    let x := (Decimal.mk 25 (-2)).toFloat
    let e := Expr.chain (.literal x) [(.add, .chain (.literal x) [(.subtract, .literal x)])]
    e.Canonical ∧ (Calculator.default.parse e.text).result = .ok e := by
  intro x e
  have finite : Binary64.isFinite x := by
    rw [Binary64.isFinite, Decimal.magnitude_toFloat]
    decide +kernel
  have same : ∀ y ∈ e.literals, y = x := by simp [e, Expr.literals, Expr.operandLiterals]
  have canonical : e.Canonical :=
    ⟨fun y member => same y member ▸ Expr.unsigned_toFloat _,
      .chain (.literal x) (.cons (operator_of_symbol .add)
        (.chain (.literal x) (.cons (operator_of_symbol .subtract) (.literal x) .nil)) .nil)⟩
  have parsed := (parse_text .default e canonical).1.mpr ⟨fun y member => same y member ▸ finite, by decide⟩
  exact ⟨canonical, parsed.1⟩

end Abacus
