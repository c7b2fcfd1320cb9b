import Deduction.Text.Basic

/-!
Texts and their code points.

A text is determined by its code points. It is put together, taken apart and compared as they are.
-/

namespace Deduction.Text

@[simp]
theorem points_plain (s : String) : (plain s).points = s.toList.map .char := rfl

@[simp]
theorem points_broken (before : String) (half : Surrogate) (after : Text) :
    (broken before half after).points =
      before.toList.map .char ++ .lone half :: after.points := rfl

theorem gather_append (cs done : List Char) (rest : List Point) :
    gather done (cs.map .char ++ rest) = gather (cs.reverse ++ done) rest := by
  induction cs generalizing done with
  | nil => rfl
  | cons c cs ih =>
      change gather (c :: done) (cs.map .char ++ rest) = _
      rw [ih, List.reverse_cons, List.append_assoc]
      rfl

theorem points_gather (done : List Char) (ps : List Point) :
    (gather done ps).points = done.reverse.map .char ++ ps := by
  induction ps generalizing done with
  | nil => simp [gather]
  | cons p rest ih => cases p <;> simp [gather, ih]

@[simp]
theorem points_ofPoints (ps : List Point) : (ofPoints ps).points = ps := by
  simp [ofPoints, points_gather]

@[simp]
theorem ofPoints_points (t : Text) : ofPoints t.points = t := by
  induction t with
  | plain s =>
      have all := gather_append s.toList [] []
      simpa [ofPoints, gather] using all
  | broken before half after ih =>
      rw [points_broken, ofPoints, gather_append]
      simpa [gather, ofPoints] using ih

theorem points_inj {s t : Text} : s.points = t.points ↔ s = t := by
  refine ⟨fun same => ?_, congrArg points⟩
  rw [← ofPoints_points s, same, ofPoints_points]

/-! ### Concatenation -/

@[simp]
theorem points_append (s t : Text) : (s ++ t).points = s.points ++ t.points := by
  change (s.append t).points = _
  induction s with
  | plain a => cases t <;> simp [Text.append]
  | broken before half after ih => simp [Text.append, ih]

@[simp]
theorem plain_append_plain (a b : String) : plain a ++ plain b = plain (a ++ b) := rfl

theorem append_assoc (a b c : Text) : a ++ b ++ c = a ++ (b ++ c) := by
  simp [← points_inj]

@[simp]
theorem append_right_inj (s : Text) {a b : Text} : s ++ a = s ++ b ↔ a = b := by
  simp [← points_inj]

@[simp]
theorem append_left_inj (s : Text) {a b : Text} : a ++ s = b ++ s ↔ a = b := by
  simp [← points_inj]

@[simp]
theorem points_eq_nil_iff {t : Text} : t.points = [] ↔ t = "" :=
  points_inj (t := "")

@[simp]
theorem points_empty : points "" = [] := rfl

theorem intercalate_cons_of_ne_nil {separator t : Text} {rest : List Text} (nonempty : rest ≠ []) :
    intercalate separator (t :: rest) = t ++ separator ++ intercalate separator rest := by
  cases rest with
  | nil => exact absurd rfl nonempty
  | cons _ _ => rfl

theorem isEmpty_iff {t : Text} : t.isEmpty = true ↔ t = "" := by
  simp [isEmpty]

/-! ### Order -/

def codes (t : Text) : List Nat := t.points.map Point.code

theorem code_ne_toNat (half : Surrogate) (c : Char) : half.code ≠ c.toNat := by
  intro same
  have inRange := half.inRange
  have valid : c.toNat < 0xD800 ∨ 0xDFFF < c.toNat ∧ c.toNat < 0x110000 := c.valid
  omega

theorem code_inj {p q : Point} : p.code = q.code ↔ p = q := by
  refine ⟨fun same => ?_, congrArg Point.code⟩
  cases p with
  | char c =>
      cases q with
      | char d => rw [Char.toNat_inj.mp same]
      | lone half => exact absurd same.symm (code_ne_toNat half c)
  | lone half =>
      cases q with
      | char c => exact absurd same (code_ne_toNat half c)
      | lone other =>
          cases half
          cases other
          exact congrArg Point.lone (Surrogate.mk.injEq _ _ _ _ ▸ same)

theorem codes_inj {s t : Text} : s.codes = t.codes ↔ s = t := by
  rw [← points_inj]
  exact List.map_inj_right fun _ _ => code_inj.mp

theorem lt_iff {s t : Text} : s < t ↔ s.codes < t.codes := Iff.rfl

/-- A text does not come after another. -/
instance : LE Text := ⟨fun s t => ¬t < s⟩

theorem not_lt {s t : Text} : ¬s < t ↔ t ≤ s := Iff.rfl

theorem le_refl (s : Text) : s ≤ s := List.lt_irrefl s.codes

theorem le_trans {a b c : Text} (first : a ≤ b) (second : b ≤ c) : a ≤ c :=
  @List.le_trans Nat _ _ _ _ a.codes b.codes c.codes first second

theorem le_total (a b : Text) : a ≤ b ∨ b ≤ a :=
  @List.le_total Nat _ _ a.codes b.codes

theorem le_antisymm {a b : Text} (first : a ≤ b) (second : b ≤ a) : a = b :=
  codes_inj.mp (@List.le_antisymm Nat _ _ a.codes b.codes first second)

/-- Texts without surrogates are in the order of strings. -/
@[simp]
theorem plain_lt_plain {a b : String} : plain a < plain b ↔ a < b := by
  have chars : ∀ as bs : List Char, as.map Char.toNat < bs.map Char.toNat ↔ as < bs := by
    intro as
    induction as with
    | nil => intro bs; cases bs <;> simp
    | cons c cs ih =>
        intro bs
        cases bs with
        | nil => simp
        | cons d ds =>
            simp only [List.map_cons, List.cons_lt_cons_iff, ih, Char.toNat_inj]
            rfl
  have codes_plain (s : String) : (plain s).codes = s.toList.map Char.toNat := by
    simp [codes, Function.comp_def, Point.code]
  rw [lt_iff, codes_plain, codes_plain, chars, String.lt_iff]

end Deduction.Text
