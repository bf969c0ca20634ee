import Abacus.ParseError
import Mathlib.Logic.Function.Iterate

/-! Errors in layers. A report holds the error that it reports, which may be a report again. An error is kept as the
positions of its reports and the fault beneath them, and from outside the one cannot be told from the other. -/
namespace Abacus

namespace ParseError

/-- What a report puts in front of the message of the error that it reports. -/
def heading (position : Nat) : String := "At position " ++ toString position ++ " - "

private theorem kind_atPosition (e : ParseError) (n : Nat) : (e.atPosition n).kind = e.kind := by
  obtain ⟨positions, fault⟩ := e
  cases positions <;> rfl

private theorem eq_bare_of_none {e : ParseError} (none : e.position? = none) : e = bare e.fault := by
  obtain ⟨positions, fault⟩ := e
  cases List.head?_eq_none_iff.mp none
  rfl

private theorem atPosition_of_none {e : ParseError} (none : e.position? = none) (n : Nat) :
    e.atPosition n = e.reportedAt n := by
  rw [eq_bare_of_none none]
  rfl

private theorem inner_of_none {e : ParseError} (none : e.position? = none) : e.inner = e := by
  rw [eq_bare_of_none none]
  rfl

private theorem atPosition_of_ne_none {e : ParseError} (reported : e.position? ≠ none) (n : Nat) :
    e.atPosition n = e := by
  obtain ⟨p, known⟩ := Option.ne_none_iff_exists'.mp reported
  exact atPosition_of_position known n

private theorem position_atPosition_ne_none (e : ParseError) (n : Nat) : (e.atPosition n).position? ≠ none := by
  obtain ⟨positions, fault⟩ := e
  cases positions <;> exact Option.some_ne_none _

private theorem atPosition_atPosition (e : ParseError) (n m : Nat) : (e.atPosition n).atPosition m = e.atPosition n :=
  atPosition_of_ne_none (e.position_atPosition_ne_none n) m

private theorem iterate_inner (e : ParseError) (k : Nat) : inner^[k] e = ⟨e.positions.drop k, e.fault⟩ := by
  induction k with
  | zero => rfl
  | succ k ih => rw [Function.iterate_succ_apply', ih, inner, List.tail_drop]

private theorem message_eq (e : ParseError) : e.message = String.join (e.positions.map heading) ++ e.fault.message := by
  obtain ⟨positions, fault⟩ := e
  induction positions with
  | nil => simp [message]
  | cons position positions ih =>
    rw [List.map_cons, String.join_cons, String.append_assoc, ← ih]
    rfl

end ParseError

/-- A fault, or the report of an error at a position. -/
inductive Layered
  | bare (fault : Fault)
  | report (position : Nat) (inside : Layered)

namespace Layered

def inner : Layered → Layered
  | report _ inside => inside
  | bare fault => bare fault

def position? : Layered → Option Nat
  | report position _ => some position
  | bare _ => none

def atPosition (e : Layered) (position : Nat) : Layered :=
  match e with
  | report _ _ => e
  | bare _ => report position e

private theorem sizeOf_inside {e inside : Layered} {position : Nat} (reported : e.inner = report position inside) :
    sizeOf inside < sizeOf e := by
  cases e with
  | bare fault => cases reported
  | report outer between =>
    cases reported
    simp only [report.sizeOf_spec]
    omega

/-- The kind of what is reported, and of what that reports in turn. -/
def kind (e : Layered) : FaultKind :=
  match _reported : e.inner with
  | bare fault => fault.kind
  | report _ inside => inside.kind
termination_by sizeOf e
decreasing_by exact sizeOf_inside _reported

def message : Layered → String
  | bare fault => fault.message
  | report position inside => "At position " ++ toString position ++ " - " ++ inside.message

def flat : Layered → ParseError
  | bare fault => .bare fault
  | report position inside => inside.flat.reportedAt position

def stack (fault : Fault) (positions : List Nat) : Layered := positions.foldr report (bare fault)

private theorem flat_stack (fault : Fault) (positions : List Nat) :
    (stack fault positions).flat = ⟨positions, fault⟩ := by
  induction positions with
  | nil => rfl
  | cons position positions ih => exact congrArg (fun e : ParseError => e.reportedAt position) ih

private theorem stack_flat (e : Layered) : stack e.flat.fault e.flat.positions = e := by
  induction e with
  | bare fault => rfl
  | report position inside ih => exact congrArg (report position) ih

private theorem bijective_flat : Function.Bijective flat :=
  Function.bijective_iff_has_inverse.mpr
    ⟨fun e => stack e.fault e.positions, stack_flat, fun e => flat_stack e.fault e.positions⟩

private theorem flat_inner (e : Layered) : e.flat.inner = e.inner.flat := by
  cases e <;> rfl

private theorem flat_position (e : Layered) : e.flat.position? = e.position? := by
  cases e <;> rfl

private theorem flat_atPosition (e : Layered) (n : Nat) : e.flat.atPosition n = (e.atPosition n).flat := by
  cases e <;> rfl

private theorem flat_kind (e : Layered) : e.flat.kind = e.kind := by
  -- two layers are taken off at a time, so the induction is that of `kind` itself
  fun_induction kind e with
  | case1 e fault reported =>
    have beneath := e.flat_inner
    rw [reported] at beneath
    exact congrArg ParseError.kind beneath
  | case2 e position inside reported ih =>
    have beneath := e.flat_inner
    rw [reported] at beneath
    exact (congrArg ParseError.kind beneath).trans ih

private theorem kind_report (n : Nat) (e : Layered) : (report n e).kind = e.kind := by
  rw [← flat_kind, ← flat_kind]
  rfl

private theorem kind_inner (e : Layered) : e.inner.kind = e.kind := by
  cases e with
  | bare fault => rfl
  | report position inside => exact (kind_report position inside).symm

private theorem kind_atPosition (e : Layered) (n : Nat) : (e.atPosition n).kind = e.kind := by
  cases e with
  | bare fault => exact kind_report n (bare fault)
  | report position inside => rfl

private theorem flat_message (e : Layered) : e.flat.message = e.message := by
  induction e with
  | bare fault => rfl
  | report position inside ih => rw [flat, ParseError.message_reportedAt, ih, message]

end Layered

/-- An error is positioned once: a position is given to one that has none, and the first one stays. A report adds one
layer, and to look inside takes one away, until the fault is reached, which alone decides what kind of error it is.
The message has a heading for each layer. What is kept of errors inside errors tells all that they tell themselves. -/
theorem error_layers :
    (∀ (e : ParseError) (n m : Nat),
      (e.kind = e.fault.kind ∧ e.inner.kind = e.kind ∧ (e.atPosition n).kind = e.kind ∧ (e.reportedAt n).kind = e.kind) ∧
      (e.atPosition n).atPosition m = e.atPosition n ∧
      (e.position? ≠ none → e.atPosition n = e) ∧
      (e.position? = none → (e.atPosition n).position? = some n ∧ (e.atPosition n).inner = e ∧ e.inner = e) ∧
      (e.reportedAt n).position? = some n ∧ (e.reportedAt n).inner = e) ∧
    (∀ e : ParseError, (∀ k, ParseError.inner^[k] e = ⟨e.positions.drop k, e.fault⟩) ∧
      e.message = String.join (e.positions.map ParseError.heading) ++ e.fault.message) ∧
    Function.Bijective Layered.flat ∧
    ∀ (e : Layered) (n : Nat),
      (e.inner.kind = e.kind ∧ (e.atPosition n).kind = e.kind ∧ (Layered.report n e).kind = e.kind) ∧
      e.flat.kind = e.kind ∧ e.flat.position? = e.position? ∧ e.flat.message = e.message ∧
      e.flat.inner = e.inner.flat ∧ e.flat.atPosition n = (e.atPosition n).flat ∧
      e.flat.reportedAt n = (Layered.report n e).flat := by
  refine ⟨fun e n m => ⟨⟨rfl, rfl, e.kind_atPosition n, rfl⟩, e.atPosition_atPosition n m,
    fun reported => ParseError.atPosition_of_ne_none reported n, fun none => ?_, rfl, e.inner_reportedAt n⟩,
    fun e => ⟨e.iterate_inner, e.message_eq⟩, Layered.bijective_flat, fun e n => ?_⟩
  · rw [ParseError.atPosition_of_none none]
    exact ⟨rfl, rfl, ParseError.inner_of_none none⟩
  · exact ⟨⟨e.kind_inner, e.kind_atPosition n, Layered.kind_report n e⟩, e.flat_kind, e.flat_position, e.flat_message,
      e.flat_inner, e.flat_atPosition n, rfl⟩

theorem error_layers_twice :
    let fault : Fault := .malformedNumber "1.2.3" .invalid
    let e : ParseError := ⟨[4, 9], fault⟩
    e.position? ≠ none ∧ e.atPosition 7 = e ∧ e.kind = .invalidNumber ∧
      e.message = "At position 4 - At position 9 - Malformed number \"1.2.3\": invalid float literal" ∧
      (ParseError.bare fault).position? = none ∧ ((ParseError.bare fault).atPosition 7).position? = some 7 := by
  intro fault e
  obtain ⟨laws, texts, -⟩ := error_layers
  obtain ⟨⟨kind, -⟩, -, stays, -⟩ := laws e 7 0
  obtain ⟨-, -, -, taken, -⟩ := laws (.bare fault) 7 0
  exact ⟨by decide, stays (by decide), kind, (texts e).2.trans (by decide +kernel), rfl, (taken rfl).1⟩

end Abacus
