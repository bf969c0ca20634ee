import Abacus.Expr.Json
import Abacus.Proofs.NumeralValue
import Abacus.Proofs.Printed
import Abacus.Proofs.Routes

/-! Expression trees as JSON and back. A judgment says which values stand for a tree, with all spellings of its
operators and whatever else its chains hold, and these are the values that are read. The form that a tree is written
in is one of them unless a literal is no number that JSON has. -/
namespace Abacus

open Binary64

namespace Operator

def names : List (String × Operator) :=
  [("Add", .add), ("Subtract", .subtract), ("Multiply", .multiply), ("Divide", .divide)]

private theorem mem_names_iff (name : String) (op : Operator) : (name, op) ∈ names ↔ name = op.name := by
  cases op <;> simp [names, Operator.name]

private theorem ofName_eq_some_iff (name : String) (op : Operator) : ofName? name = some op ↔ (name, op) ∈ names := by
  rw [mem_names_iff]
  constructor
  · intro known
    have found := List.find?_some known
    exact (beq_iff_eq.mp found).symm
  · rintro rfl
    cases op <;> rfl

private theorem ofJson_eq_some_iff (value : Json) (op : Operator) :
    ofJson? value = some op ↔ Json.Spells names value op :=
  Json.bind_name_eq_some_iff ofName_eq_some_iff value op

end Operator

namespace Json

/-- The JSON numbers that stand for a binary64 value: the value itself, and the integers that are rounded to it. -/
inductive Denotes : Json → Float → Prop
  | real (x : Float) : Denotes (.real x) x
  | natural {n : Nat} {x : Float} (nearest : RoundsTo n x) : Denotes (.integer n) x
  | negative {n : Nat} {x : Float} (pos : 0 < n) (nearest : RoundsTo n x) : Denotes (.integer (-n)) (-x)

private theorem roundsTo_nearestFloat (n : Nat) : RoundsTo n (nearestFloat n) := by
  have rounds := (Decimal.mk n 0).roundsTo_toFloat
  rw [Decimal.value, zpow_zero, mul_one] at rounds
  exact rounds

private theorem nearestFloat_neg {n : Nat} (pos : 0 < n) : nearestFloat (-n) = -nearestFloat n := by
  obtain ⟨k, rfl⟩ := Nat.exists_eq_succ_of_ne_zero pos.ne'
  exact (neg_ofMagnitude _ (nearest_le_infinity _ _)).symm

private theorem number_eq_some_iff (value : Json) (x : Float) : value.number? = some x ↔ Denotes value x := by
  constructor
  · intro read
    unfold number? at read
    split at read
    · rename_i n
      cases read
      rcases n.eq_nat_or_neg with ⟨k, rfl | rfl⟩
      · exact .natural (roundsTo_nearestFloat k)
      · rcases k.eq_zero_or_pos with rfl | pos
        · exact .natural (roundsTo_nearestFloat 0)
        · rw [nearestFloat_neg pos]
          exact .negative pos (roundsTo_nearestFloat k)
    · cases read
      exact .real x
    · cases read
  · intro denotes
    cases denotes with
    | real => rfl
    | @natural n x nearest => exact congrArg some ((roundsTo_nearestFloat n).unique nearest)
    | @negative n x pos nearest =>
      obtain rfl := (roundsTo_nearestFloat n).unique nearest
      exact congrArg some (nearestFloat_neg pos)

end Json

namespace Expr

mutual

/-- The JSON values that stand for a tree. A chain may hold more than its two fields. -/
inductive Encoded : Json → Expr → Prop
  | literal {value : Json} {x : Float} (number : value.Denotes x) :
      Encoded (.object [("Literal", value)]) (.literal x)
  | chain {fields : List (String × Json)} {head : Json} {items : List Json} {first : Expr}
      {rest : List (Operator × Expr)} (firstHeld : fields.lookup "first" = some head)
      (restHeld : fields.lookup "rest" = some (.list items)) (headEncoded : Encoded head first)
      (stepsEncoded : EncodedSteps items rest) : Encoded (.object [("Chain", .object fields)]) (.chain first rest)

inductive EncodedSteps : List Json → List (Operator × Expr) → Prop
  | nil : EncodedSteps [] []
  | cons {symbol value : Json} {items : List Json} {op : Operator} {operand : Expr} {rest : List (Operator × Expr)}
      (opEncoded : Json.Spells Operator.names symbol op) (operandEncoded : Encoded value operand)
      (tail : EncodedSteps items rest) : EncodedSteps (.list [symbol, value] :: items) ((op, operand) :: rest)

end

mutual

/-- The JSON value that a tree is written as if JSON has all its literals: no field more than it takes, operators as
plain names and numbers as they are. -/
inductive Written : Json → Expr → Prop
  | literal (x : Float) : Written (.object [("Literal", .real x)]) (.literal x)
  | chain {head : Json} {items : List Json} {first : Expr} {rest : List (Operator × Expr)}
      (headWritten : Written head first) (stepsWritten : WrittenSteps items rest) :
      Written (.object [("Chain", .object [("first", head), ("rest", .list items)])]) (.chain first rest)

inductive WrittenSteps : List Json → List (Operator × Expr) → Prop
  | nil : WrittenSteps [] []
  | cons {name : String} {value : Json} {items : List Json} {op : Operator} {operand : Expr}
      {rest : List (Operator × Expr)} (named : (name, op) ∈ Operator.names) (operandWritten : Written value operand)
      (tail : WrittenSteps items rest) : WrittenSteps (.list [.text name, value] :: items) ((op, operand) :: rest)

end

mutual

private theorem Written.encoded {value : Json} {e : Expr} : Written value e → Encoded value e
  | .literal x => .literal (.real x)
  | .chain headWritten stepsWritten => .chain rfl rfl headWritten.encoded stepsWritten.encoded

private theorem WrittenSteps.encoded {items : List Json} {rest : List (Operator × Expr)} :
    WrittenSteps items rest → EncodedSteps items rest
  | .nil => .nil
  | .cons named operandWritten tail => .cons (.text named) operandWritten.encoded tail.encoded

end

/-- A search for the first field of a name, and the reading of what it holds. -/
private theorem eq_lookup_bind {α : Type} {scan : List (String × Json) → Option α} {read : Json → Option α}
    {name : String} (none : scan [] = none)
    (next : ∀ key value fields, scan ((key, value) :: fields) = if key = name then read value else scan fields)
    (fields : List (String × Json)) : scan fields = (fields.lookup name).bind read := by
  induction fields with
  | nil => exact none
  | cons field fields ih =>
    obtain ⟨key, value⟩ := field
    rw [next, List.lookup_cons, ih]
    split
    · rename_i same
      rw [same, beq_self_eq_true]
      rfl
    · rename_i other
      rw [beq_false_of_ne (Ne.symm other)]

private theorem first_eq_lookup (fields : List (String × Json)) :
    first? fields = (fields.lookup "first").bind ofJson? :=
  eq_lookup_bind (by rw [first?]) (fun _ _ _ => by rw [first?]) fields

private theorem rest_eq_lookup (fields : List (String × Json)) : rest? fields = (fields.lookup "rest").bind steps? :=
  eq_lookup_bind (by rw [rest?]) (fun _ _ _ => by rw [rest?]) fields

private theorem chainOfJson_eq (fields : List (String × Json)) :
    chainOfJson? (.object fields) = (first? fields).bind fun first => (rest? fields).bind fun rest =>
      some (chain first rest) := by
  rw [chainOfJson?]
  rfl

private theorem allSteps_cons (item : Json) (items : List Json) :
    allSteps? (item :: items) = (step? item).bind fun step => (allSteps? items).bind fun rest => some (step :: rest) := by
  rw [allSteps?]
  rfl

private theorem step_pair (symbol value : Json) :
    step? (.list [symbol, value]) = (Operator.ofJson? symbol).bind fun op => (ofJson? value).bind fun operand =>
      some (op, operand) := by
  rw [step?]
  rfl

private theorem exists_node {value : Json} {e : Expr} (read : ofJson? value = some e) :
    (∃ number, value = .object [("Literal", number)] ∧ number.number?.map literal = some e) ∨
      ∃ inner, value = .object [("Chain", inner)] ∧ chainOfJson? inner = some e := by
  unfold ofJson? at read
  split at read
  · split_ifs at read with literal chain
    · exact .inl ⟨_, by rw [literal], read⟩
    · exact .inr ⟨_, by rw [chain], read⟩
  · cases read

private theorem exists_fields {inner : Json} {e : Expr} (read : chainOfJson? inner = some e) :
    ∃ fields head items first rest, inner = .object fields ∧ e = chain first rest ∧
      fields.lookup "first" = some head ∧ fields.lookup "rest" = some (.list items) ∧
      ofJson? head = some first ∧ allSteps? items = some rest := by
  unfold chainOfJson? at read
  split at read
  · rename_i fields
    obtain ⟨first, firstRead, read⟩ := Option.bind_eq_some_iff.mp read
    obtain ⟨rest, restRead, read⟩ := Option.bind_eq_some_iff.mp read
    rw [first_eq_lookup] at firstRead
    rw [rest_eq_lookup] at restRead
    obtain ⟨head, firstHeld, headRead⟩ := Option.bind_eq_some_iff.mp firstRead
    obtain ⟨list, restHeld, listRead⟩ := Option.bind_eq_some_iff.mp restRead
    unfold steps? at listRead
    split at listRead
    · cases read
      exact ⟨fields, head, _, first, rest, rfl, rfl, firstHeld, restHeld, headRead, listRead⟩
    · cases listRead
  · cases read

private theorem exists_pair {item : Json} {items : List Json} {steps : List (Operator × Expr)}
    (read : allSteps? (item :: items) = some steps) :
    ∃ symbol value op operand rest, item = .list [symbol, value] ∧ steps = (op, operand) :: rest ∧
      Operator.ofJson? symbol = some op ∧ ofJson? value = some operand ∧ allSteps? items = some rest := by
  rw [allSteps_cons] at read
  obtain ⟨step, pairRead, read⟩ := Option.bind_eq_some_iff.mp read
  obtain ⟨rest, restRead, read⟩ := Option.bind_eq_some_iff.mp read
  cases read
  unfold step? at pairRead
  split at pairRead
  · obtain ⟨op, opRead, pairRead⟩ := Option.bind_eq_some_iff.mp pairRead
    obtain ⟨operand, operandRead, pairRead⟩ := Option.bind_eq_some_iff.mp pairRead
    cases pairRead
    exact ⟨_, _, _, _, _, rfl, rfl, opRead, operandRead, restRead⟩
  · cases pairRead

mutual

private theorem encoded_of_ofJson {value : Json} {e : Expr} (read : ofJson? value = some e) : Encoded value e := by
  match e with
  | .literal x =>
    rcases exists_node read with ⟨number, rfl, known⟩ | ⟨inner, -, known⟩
    · obtain ⟨y, held, same⟩ := Option.map_eq_some_iff.mp known
      cases same
      exact .literal ((number.number_eq_some_iff x).mp held)
    · obtain ⟨_, _, _, _, _, -, same, -⟩ := exists_fields known
      cases same
  | .chain first rest =>
    rcases exists_node read with ⟨number, -, known⟩ | ⟨inner, rfl, known⟩
    · obtain ⟨y, -, same⟩ := Option.map_eq_some_iff.mp known
      cases same
    · obtain ⟨fields, head, items, _, _, rfl, same, firstHeld, restHeld, headRead, stepsRead⟩ := exists_fields known
      cases same
      exact .chain firstHeld restHeld (encoded_of_ofJson headRead) (encodedSteps_of_allSteps stepsRead)

private theorem encodedSteps_of_allSteps {items : List Json} {rest : List (Operator × Expr)}
    (read : allSteps? items = some rest) : EncodedSteps items rest := by
  match items, rest with
  | [], _ =>
    rw [allSteps?] at read
    cases read
    exact .nil
  | item :: items, [] =>
    obtain ⟨_, _, _, _, _, -, same, -⟩ := exists_pair read
    cases same
  | item :: items, (op, operand) :: rest =>
    obtain ⟨symbol, value, _, _, _, rfl, same, opRead, operandRead, restRead⟩ := exists_pair read
    cases same
    exact .cons ((Operator.ofJson_eq_some_iff _ _).mp opRead) (encoded_of_ofJson operandRead)
      (encodedSteps_of_allSteps restRead)

end

mutual

private theorem ofJson_of_encoded {value : Json} {e : Expr} (encoded : Encoded value e) : ofJson? value = some e := by
  match encoded with
  | .literal number =>
    rw [ofJson?, if_pos rfl, (Json.number_eq_some_iff _ _).mpr number]
    rfl
  | .chain firstHeld restHeld headEncoded stepsEncoded =>
    rw [ofJson?, if_neg (by decide), if_pos rfl, chainOfJson_eq, first_eq_lookup, rest_eq_lookup, firstHeld, restHeld]
    rw [Option.bind_some, ofJson_of_encoded headEncoded, Option.bind_some, Option.bind_some, steps?,
      allSteps_of_encoded stepsEncoded, Option.bind_some]

private theorem allSteps_of_encoded {items : List Json} {rest : List (Operator × Expr)}
    (encoded : EncodedSteps items rest) : allSteps? items = some rest := by
  match encoded with
  | .nil => rw [allSteps?]
  | .cons opEncoded operandEncoded tail =>
    rw [allSteps_cons, step_pair, (Operator.ofJson_eq_some_iff _ _).mpr opEncoded, ofJson_of_encoded operandEncoded,
      allSteps_of_encoded tail]
    rfl

end

private theorem ofJson_eq_some_iff (value : Json) (e : Expr) : ofJson? value = some e ↔ Encoded value e :=
  ⟨encoded_of_ofJson, ofJson_of_encoded⟩

mutual

private theorem written_toJson {e : Expr} (finite : ∀ x ∈ e.literals, Binary64.isFinite x) : Written e.toJson e := by
  match e with
  | .literal x =>
    rw [toJson, Json.ofFloat, if_pos (finite x (List.mem_singleton_self x))]
    exact .literal x
  | .chain first rest =>
    obtain ⟨left, right⟩ := List.forall_mem_append.mp finite
    rw [toJson]
    exact .chain (written_toJson left) (writtenSteps_restToJson right)

private theorem writtenSteps_restToJson {rest : List (Operator × Expr)}
    (finite : ∀ x ∈ operandLiterals rest, Binary64.isFinite x) : WrittenSteps (restToJson rest) rest := by
  match rest with
  | [] =>
    rw [restToJson]
    exact .nil
  | (op, operand) :: rest =>
    obtain ⟨left, right⟩ := List.forall_mem_append.mp finite
    rw [restToJson]
    have named : (op.name, op) ∈ Operator.names := (Operator.mem_names_iff _ _).mpr rfl
    exact .cons named (written_toJson left) (writtenSteps_restToJson right)

end

mutual

private theorem finite_of_read {e e' : Expr} (read : ofJson? e.toJson = some e') :
    ∀ x ∈ e.literals, Binary64.isFinite x := by
  match e with
  | .literal x =>
    rw [toJson, ofJson?, if_pos rfl] at read
    obtain ⟨y, number, -⟩ := Option.map_eq_some_iff.mp read
    refine List.forall_mem_singleton.mpr ?_
    by_contra infinite
    rw [Json.ofFloat, if_neg infinite] at number
    cases number
  | .chain first rest =>
    rw [toJson, ofJson?, if_neg (by decide), if_pos rfl] at read
    obtain ⟨_, _, _, _, _, ⟨⟩, -, ⟨⟩, ⟨⟩, headRead, stepsRead⟩ := exists_fields read
    exact List.forall_mem_append.mpr ⟨finite_of_read headRead, finite_of_readSteps stepsRead⟩

private theorem finite_of_readSteps {rest rest' : List (Operator × Expr)}
    (read : allSteps? (restToJson rest) = some rest') : ∀ x ∈ operandLiterals rest, Binary64.isFinite x := by
  match rest with
  | [] => exact fun _ member => nomatch member
  | (op, operand) :: rest =>
    rw [restToJson] at read
    obtain ⟨_, _, _, _, _, ⟨⟩, -, -, operandRead, restRead⟩ := exists_pair read
    exact List.forall_mem_append.mpr ⟨finite_of_read operandRead, finite_of_readSteps restRead⟩

end

private theorem ofJson_filter {known : String → Bool} (first : known "first") (rest : known "rest")
    (fields : List (String × Json)) :
    ofJson? (.object [("Chain", .object fields)]) =
      ofJson? (.object [("Chain", .object (fields.filter fun field => known field.1))]) := by
  have node (fields : List (String × Json)) :
      ofJson? (.object [("Chain", .object fields)]) = chainOfJson? (.object fields) := by
    rw [ofJson?, if_neg (by decide), if_pos rfl]
  rw [node, node, chainOfJson_eq, chainOfJson_eq, first_eq_lookup, first_eq_lookup, rest_eq_lookup, rest_eq_lookup,
    Calculator.lookup_filter first, Calculator.lookup_filter rest]

end Expr

/-- A tree is read back from the JSON it is written as exactly if all its literals are finite, node for node and each
literal with its bits, and otherwise that JSON is no tree. A JSON value is read as the tree that it stands for: other
fields of a chain make no difference, nor does the spelling of an operator, and what was read is read again from what
it is written as. -/
theorem tree_read_back :
    (∀ e, (Expr.ofJson? e.toJson = some e ↔ ∀ x ∈ e.literals, Binary64.isFinite x) ∧
      ((∀ x ∈ e.literals, Binary64.isFinite x) → Expr.Written e.toJson e) ∧
      ((∃ x ∈ e.literals, ¬ Binary64.isFinite x) → Expr.ofJson? e.toJson = none)) ∧
    (∀ value e, Expr.ofJson? value = some e ↔ Expr.Encoded value e) ∧
    (∀ value e, Expr.ofJson? value = some e → (∀ x ∈ e.literals, Binary64.isFinite x) →
      Expr.ofJson? e.toJson = some e) ∧
    ∀ fields, Expr.ofJson? (.object [("Chain", .object fields)]) =
      Expr.ofJson? (.object [("Chain", .object (fields.filter fun field => field.1 == "first" || field.1 == "rest"))]) := by
  have back (e : Expr) (finite : ∀ x ∈ e.literals, Binary64.isFinite x) : Expr.ofJson? e.toJson = some e :=
    Expr.ofJson_of_encoded (Expr.written_toJson finite).encoded
  refine ⟨fun e => ⟨⟨Expr.finite_of_read, back e⟩, Expr.written_toJson, ?_⟩, Expr.ofJson_eq_some_iff, fun _ e _ => back e,
    ?_⟩
  · rintro ⟨x, member, infinite⟩
    cases read : Expr.ofJson? e.toJson with
    | none => rfl
    | some e' => exact absurd (Expr.finite_of_read read x member) infinite
  · exact @Expr.ofJson_filter (fun key => key == "first" || key == "rest") rfl rfl

end Abacus
