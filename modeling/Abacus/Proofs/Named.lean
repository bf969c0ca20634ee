import Abacus.Proofs.Routes
import Abacus.Text
import Mathlib.Data.List.DropRight
import Mathlib.Data.List.Forall2

/-! Names within white space. What stands between white space at both ends of a text is compared with a name, the two
cases of an ASCII letter being the same and every other character standing for itself. -/
namespace Abacus

namespace Text

/-- The same character, or the two cases of one ASCII letter. -/
inductive SameLetter : Char → Char → Prop
  | same (c : Char) : SameLetter c c
  | lowered {c d : Char} (upper : c.isUpper) (shift : d.toNat = c.toNat + 32) : SameLetter c d
  | raised {c d : Char} (upper : d.isUpper) (shift : c.toNat = d.toNat + 32) : SameLetter c d

private theorem isUpper_iff (c : Char) : c.isUpper ↔ 65 ≤ c.toNat ∧ c.toNat ≤ 90 := decide_eq_true_iff

private theorem toNat_toLower (c : Char) : c.toLower.toNat = if c.isUpper then c.toNat + 32 else c.toNat := by
  by_cases upper : c.isUpper
  · have bounds := (isUpper_iff c).mp upper
    have lowered : c.toLower.val = c.val + ('a'.val - 'A'.val) :=
      congrArg Char.val (dif_pos (of_decide_eq_true upper))
    have shift : c.toLower.toNat = (c.toNat + 32) % 2 ^ 32 := by
      rw [← Char.toNat_val, lowered]
      exact UInt32.toNat_add _ _
    rw [if_pos upper, shift]
    exact Nat.mod_eq_of_lt (by omega)
  · have unchanged : c.toLower = c := dif_neg fun capital => upper (decide_eq_true capital)
    rw [if_neg upper, unchanged]

private theorem not_isUpper_of_shift {c d : Char} (upper : c.isUpper) (shift : d.toNat = c.toNat + 32) :
    ¬ d.isUpper := by
  rw [isUpper_iff] at upper ⊢
  omega

private theorem toLower_eq_iff (c d : Char) : c.toLower = d.toLower ↔ SameLetter c d := by
  rw [← Char.toNat_inj, toNat_toLower, toNat_toLower]
  constructor
  · intro same
    split at same
    · split at same
      · rw [Char.toNat_inj.mp (Nat.add_right_cancel same)]
        exact .same d
      · exact .lowered ‹_› same.symm
    · split at same
      · exact .raised ‹_› same
      · rw [Char.toNat_inj.mp same]
        exact .same d
  · intro letter
    cases letter with
    | same => rfl
    | lowered upper shift => rw [if_pos upper, if_neg (not_isUpper_of_shift upper shift), shift]
    | raised upper shift => rw [if_pos upper, if_neg (not_isUpper_of_shift upper shift), shift]

private theorem map_toLower_eq_iff (w v : List Char) :
    w.map Char.toLower = v.map Char.toLower ↔ List.Forall₂ SameLetter w v := by
  rw [← List.forall₂_eq_eq_eq, List.forall₂_map_left_iff, List.forall₂_map_right_iff]
  simp only [toLower_eq_iff]

private theorem not_isUpper_of_isWhiteSpace {c : Char} (space : isWhiteSpace c) : ¬ c.isUpper := by
  rw [isUpper_iff]
  simp [isWhiteSpace] at space
  omega

/-- White space is not what is blank in an expression: they differ in one character each. -/
private theorem isWhiteSpace_ne_isBlank_iff (c : Char) : isWhiteSpace c ≠ isBlank c ↔ c = '\u0085' ∨ c = '\uFEFF' := by
  rw [← Char.toNat_inj, ← Char.toNat_inj, ne_eq, Bool.eq_iff_iff]
  simp [isWhiteSpace, isBlank]
  omega

private theorem exists_trim (text : List Char) :
    ∃ before after, (∀ c ∈ before, isWhiteSpace c) ∧ (∀ c ∈ after, isWhiteSpace c) ∧
      text = before ++ trim text ++ after := by
  refine ⟨text.takeWhile isWhiteSpace, (text.dropWhile isWhiteSpace).rtakeWhile isWhiteSpace,
    fun c => List.mem_takeWhile_imp, fun c => List.mem_rtakeWhile_imp, ?_⟩
  have trimmed : trim text = (text.dropWhile isWhiteSpace).rdropWhile isWhiteSpace := rfl
  rw [trimmed, List.append_assoc, List.rdropWhile_append_rtakeWhile, List.takeWhile_append_dropWhile]

private theorem dropWhile_of_solid {name : List Char} (full : name ≠ []) (solid : ∀ c ∈ name, isWhiteSpace c = false)
    (after : List Char) : (name ++ after).dropWhile isWhiteSpace = name ++ after := by
  cases name with
  | nil => exact absurd rfl full
  | cons c name => exact List.dropWhile_cons_of_neg (by simp [solid c List.mem_cons_self])

private theorem trim_of_solid {before name after : List Char} (left : ∀ c ∈ before, isWhiteSpace c)
    (right : ∀ c ∈ after, isWhiteSpace c) (full : name ≠ []) (solid : ∀ c ∈ name, isWhiteSpace c = false) :
    trim (before ++ name ++ after) = name := by
  have backwards := dropWhile_of_solid (List.reverse_ne_nil_iff.mpr full)
    (fun c member => solid c (List.mem_reverse.mp member)) []
  rw [List.append_nil] at backwards
  rw [trim, List.append_assoc, List.dropWhile_append_of_pos left, dropWhile_of_solid full solid, List.reverse_append,
    List.dropWhile_append_of_pos fun c member => right c (List.mem_reverse.mp member), backwards, List.reverse_reverse]

end Text

namespace Strictness

/-- The texts that stand for a strictness: its name, in letters of either case, within white space. -/
inductive Named (x : Strictness) : List Char → Prop
  | mk {before name after : List Char} (left : ∀ c ∈ before, Text.isWhiteSpace c)
      (right : ∀ c ∈ after, Text.isWhiteSpace c) (letters : List.Forall₂ Text.SameLetter name x.name.toList) :
      Named x (before ++ name ++ after)

private theorem toLower_name (x : Strictness) : x.name.toList.map Char.toLower = x.name.toList := by
  cases x <;> rfl

private theorem solid_name (x : Strictness) : ∀ c ∈ x.name.toList, Text.isWhiteSpace c = false := by
  cases x <;> simp [name, Text.isWhiteSpace]

private theorem solid_of_letters {x : Strictness} {name : List Char}
    (letters : List.Forall₂ Text.SameLetter name x.name.toList) :
    name ≠ [] ∧ ∀ c ∈ name, Text.isWhiteSpace c = false := by
  have lowered := (Text.map_toLower_eq_iff name x.name.toList).mpr letters
  rw [toLower_name] at lowered
  refine ⟨?_, fun c member => ?_⟩
  · rintro rfl
    cases x <;> cases lowered
  · -- white space has no case, so it would be in the name itself
    by_contra space
    rw [Bool.not_eq_false] at space
    have unchanged : c.toLower = c := by
      rw [← Char.toNat_inj, Text.toNat_toLower, if_neg (Text.not_isUpper_of_isWhiteSpace space)]
    have known : c ∈ x.name.toList := by
      rw [← lowered, ← unchanged]
      exact List.mem_map_of_mem member
    rw [x.solid_name c known] at space
    cases space

private theorem named_iff (x : Strictness) (text : List Char) :
    x.Named text ↔ List.Forall₂ Text.SameLetter (Text.trim text) x.name.toList := by
  constructor
  · rintro ⟨left, right, letters⟩
    obtain ⟨full, solid⟩ := solid_of_letters letters
    rwa [Text.trim_of_solid left right full solid]
  · intro letters
    obtain ⟨before, after, left, right, whole⟩ := Text.exists_trim text
    rw [whole]
    exact .mk left right letters

private theorem ofText_eq_ok_iff (text : String) (x : Strictness) : ofText text = .ok x ↔ x.Named text.toList := by
  rw [named_iff, ← Text.map_toLower_eq_iff, toLower_name]
  have known := (ofName_eq_some_iff (String.ofList ((Text.trim text.toList).map Char.toLower)) x).trans
    (mem_names_iff _ x)
  rw [← String.toList_inj, String.toList_ofList] at known
  rw [← known, ofText]
  cases ofName? (String.ofList ((Text.trim text.toList).map Char.toLower)) <;> simp

private theorem ofText_eq_error_iff (text : String) (e : SettingsError) :
    ofText text = .error e ↔ e = .invalidStrictness text ∧ ∀ x : Strictness, ¬ x.Named text.toList := by
  simp only [← ofText_eq_ok_iff]
  rw [ofText]
  cases ofName? (String.ofList ((Text.trim text.toList).map Char.toLower)) <;> simp [eq_comm]

private theorem Named.unique {x y : Strictness} {text : List Char} (named : x.Named text) (named' : y.Named text) :
    x = y := by
  have read (z : Strictness) : ofText (String.ofList text) = .ok z ↔ z.Named text := by
    rw [ofText_eq_ok_iff, String.toList_ofList]
  exact Except.ok.inj (((read x).mpr named).symm.trans ((read y).mpr named'))

end Strictness

/-- A strictness is read from exactly the texts that stand for it, of which none stands for both, and any other text
is given back in the error as it is. The white space around a name is that of Unicode, not what is blank in an
expression. -/
theorem strictness_read :
    (∀ text x, Strictness.ofText text = .ok x ↔ x.Named text.toList) ∧
    (∀ text e, Strictness.ofText text = .error e ↔
      e = .invalidStrictness text ∧ ∀ x : Strictness, ¬ x.Named text.toList) ∧
    (∀ text (x y : Strictness), x.Named text → y.Named text → x = y) ∧
    ∀ c, Text.isWhiteSpace c ≠ Text.isBlank c ↔ c = '\u0085' ∨ c = '\uFEFF' :=
  ⟨Strictness.ofText_eq_ok_iff, Strictness.ofText_eq_error_iff, fun _ _ _ named named' => named.unique named',
    Text.isWhiteSpace_ne_isBlank_iff⟩

theorem strictness_read_padded :
    Strictness.strict.Named "\u0085 sTRicT\u3000".toList ∧ ¬ Strictness.lenient.Named "\u0085 sTRicT\u3000".toList ∧
      ∀ x : Strictness, ¬ x.Named "\uFEFFstrict".toList ∧ ¬ x.Named "\u017Ftrict".toList := by
  obtain ⟨read, refused, unique, -⟩ := strictness_read
  have named := (read "\u0085 sTRicT\u3000" .strict).mp (by decide +kernel)
  refine ⟨named, fun other => absurd (unique _ _ _ named other) (by decide), fun x => ⟨?_, ?_⟩⟩
  · exact ((refused "\uFEFFstrict" (.invalidStrictness "\uFEFFstrict")).mp (by decide +kernel)).2 x
  · exact ((refused "\u017Ftrict" (.invalidStrictness "\u017Ftrict")).mp (by decide +kernel)).2 x

end Abacus
