import Abacus.Calculator
import Abacus.Proofs.Derivable
import Abacus.Proofs.Log

/-! Whole texts: which of them are read at all, and what a calculator makes of the reading. -/
namespace Abacus

structure Valid (text : String) : Prop where
  nonempty : text ≠ ""
  allowed : ∀ c ∈ text.toList, isAllowed c

theorem checkText_eq_ok_iff (text : String) : checkText text = .ok () ↔ Valid text := by
  unfold checkText
  split
  · rename_i empty
    rw [String.isEmpty_iff] at empty
    constructor
    · intro refused
      cases refused
    · intro valid
      exact absurd empty valid.nonempty
  · rename_i full
    rw [String.isEmpty_iff] at full
    split
    · rename_i c i found
      constructor
      · intro refused
        cases refused
      · intro valid
        have foreign := List.find?_some found
        have member := List.mem_zipIdx_iff_getElem?.mp (List.mem_of_find?_eq_some found)
        have fine := valid.allowed c (List.mem_of_getElem? member)
        simp [fine] at foreign
    · rename_i clean
      constructor
      · intro _
        refine ⟨full, fun c member => ?_⟩
        obtain ⟨i, bound, rfl⟩ := List.mem_iff_getElem.mp member
        have known := List.find?_eq_none.mp clean (text.toList[i], i)
          (List.mem_zipIdx_iff_getElem?.mpr (List.getElem?_eq_getElem bound))
        simpa using known
      · intro _
        rfl

theorem checkText_of_foreign {before after : List Char} {c : Char} (allowed : ∀ d ∈ before, isAllowed d)
    (foreign : isAllowed c = false) :
    checkText (String.ofList (before ++ c :: after)) = .error ⟨[before.length], .invalidCharacter c⟩ := by
  have full : ¬ (String.ofList (before ++ c :: after)).isEmpty := by
    rw [String.isEmpty_iff, String.ofList_eq_empty_iff]
    exact List.append_ne_nil_of_right_ne_nil _ (List.cons_ne_nil _ _)
  have clean : before.zipIdx.find? (fun pair => !isAllowed pair.1) = none := by
    rw [List.find?_eq_none]
    rintro ⟨d, i⟩ member
    simp [allowed d (List.fst_mem_of_mem_zipIdx member)]
  have found : (before ++ c :: after).zipIdx.find? (fun pair => !isAllowed pair.1) = some (c, before.length) := by
    rw [List.zipIdx_append, List.find?_append, clean, Option.none_or, List.zipIdx_cons, Nat.zero_add]
    exact List.find?_cons_of_pos (by simp [foreign])
  rw [checkText, if_neg full, String.toList_ofList]
  split
  · rename_i first
    cases found.symm.trans first
    rfl
  · rename_i none
    cases found.symm.trans none

theorem mapError_eq_ok_iff {ε ε' α : Type} {f : ε → ε'} {x : Except ε α} {a : α} :
    x.mapError f = .ok a ↔ x = .ok a := by
  cases x <;> simp [Except.mapError]

theorem map_eq_error_iff {ε α β : Type} {f : α → β} {x : Except ε α} {e : ε} : x.map f = .error e ↔ x = .error e := by
  cases x <;> simp [Except.map]

def Parser.reading (parser : Parser) : Reading :=
  (Place.start parser.cursor).read parser.calculator (parser.calculator.maxDepth - parser.nesting)

theorem Parser.outcome_eq_ok_iff {parser : Parser} {e : Expr} :
    parser.parse.outcome = .ok e ↔ parser.reading.outcome = .ok e :=
  mapError_eq_ok_iff

namespace Calculator

def under (calculator : Calculator) (strictness : Strictness) : Calculator := { calculator with strictness }

def reading (calculator : Calculator) (text : String) : Reading :=
  (Place.start (.ofText text)).read calculator calculator.maxDepth

variable {calculator : Calculator} {text : String}

theorem ofText_of_valid (valid : Valid text) : Parser.ofText calculator text = .ok ⟨calculator, .ofText text, 0⟩ := by
  rw [Parser.ofText, (checkText_eq_ok_iff text).mpr valid]
  rfl

theorem parse_of_ofText {parser : Parser} (made : Parser.ofText calculator text = .ok parser) :
    calculator.parse text = ⟨parser.parse.outcome, parser.parse.events⟩ := by
  rw [parse, made]

theorem parse_of_valid (valid : Valid text) :
    calculator.parse text =
      ⟨(calculator.reading text).outcome.mapError fun e => e.atPosition (calculator.reading text).cursor.position,
        (calculator.reading text).events⟩ := by
  rw [parse, Parser.ofText, (checkText_eq_ok_iff text).mpr valid]
  rfl

theorem parse_of_run {events : List Event} {last : Place} {outcome : Except ParseError Expr} {cursor : Cursor}
    {event : Option Event} (valid : Valid text)
    (run : Place.Run calculator.strictness calculator.maxDepth (.start (.ofText text)) events last)
    (halt : last.Halt calculator calculator.maxDepth outcome cursor event) :
    calculator.parse text = ⟨outcome.mapError fun e => e.atPosition cursor.position, events ++ event.toList⟩ := by
  rw [parse_of_valid valid, reading, run.read_of_halt halt]

theorem parse_of_refused {e : ParseError} (refused : checkText text = .error e) :
    calculator.parse text = ⟨.error e, []⟩ := by
  rw [parse, Parser.ofText, refused]
  rfl

theorem exists_refused (invalid : ¬ Valid text) : ∃ e, checkText text = .error e := by
  cases outcome : checkText text with
  | error e => exact ⟨e, rfl⟩
  | ok checked => exact absurd ((checkText_eq_ok_iff text).mp outcome) invalid

theorem parse_eq_ok_iff (e : Expr) :
    (calculator.parse text).result = .ok e ↔ Valid text ∧ (calculator.reading text).outcome = .ok e := by
  rcases Classical.em (Valid text) with valid | invalid
  · rw [parse_of_valid valid, mapError_eq_ok_iff]
    exact (and_iff_right valid).symm
  · obtain ⟨fault, refused⟩ := exists_refused invalid
    rw [parse_of_refused refused]
    simp [invalid]

end Calculator

end Abacus
