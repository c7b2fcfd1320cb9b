import Deduction.Formula.Basic

/-!
Comparing formulas atom by atom.

A proof may use one formula in many places, so that a formula written out is far larger than it is
in memory. What two formulas share in memory is therefore not looked at: by `agreeFast_eq` this does
not change the answer.
-/

namespace Deduction.Formula

variable {Atom : Type}

/-- Whether two formulas are built alike from atoms that agree. -/
def agree (same : Atom → Atom → Bool) : Formula Atom → Formula Atom → Bool
  | .var a, .var b => same a b
  | .conj a b, .conj c d => agree same a c && agree same b d
  | .disj a b, .disj c d => agree same a c && agree same b d
  | .impl a b, .impl c d => agree same a c && agree same b d
  | _, _ => false

theorem agree_self {same : Atom → Atom → Bool} (refl : ∀ a, same a a = true) (f : Formula Atom) :
    agree same f f = true := by
  induction f with
  | var name => exact refl name
  | conj lhs rhs ihl ihr => simp [agree, ihl, ihr]
  | disj lhs rhs ihl ihr => simp [agree, ihl, ihr]
  | impl lhs rhs ihl ihr => simp [agree, ihl, ihr]

theorem eq_of_agree {same : Atom → Atom → Bool} (eq_of_same : ∀ a b, same a b = true → a = b)
    {f g : Formula Atom} (h : agree same f g = true) : f = g := by
  fun_induction agree same f g with
  | case1 a b => rw [eq_of_same a b h]
  | case2 a b c d ihl ihr =>
    obtain ⟨hl, hr⟩ := Bool.and_eq_true_iff.mp h
    rw [ihl hl, ihr hr]
  | case3 a b c d ihl ihr =>
    obtain ⟨hl, hr⟩ := Bool.and_eq_true_iff.mp h
    rw [ihl hl, ihr hr]
  | case4 a b c d ihl ihr =>
    obtain ⟨hl, hr⟩ := Bool.and_eq_true_iff.mp h
    rw [ihl hl, ihr hr]
  | case5 => simp at h

theorem agree_symm {same : Atom → Atom → Bool} (symm : ∀ a b, same a b = true → same b a = true)
    {f g : Formula Atom} (h : agree same f g = true) : agree same g f = true := by
  fun_induction agree same f g with
  | case1 a b => exact symm a b h
  | case2 a b c d ihl ihr | case3 a b c d ihl ihr | case4 a b c d ihl ihr =>
    obtain ⟨hl, hr⟩ := Bool.and_eq_true_iff.mp h
    simp [agree, ihl hl, ihr hr]
  | case5 => simp at h

theorem agree_trans {same : Atom → Atom → Bool}
    (trans : ∀ a b c, same a b = true → same b c = true → same a c = true) {f g k : Formula Atom}
    (first : agree same f g = true) (second : agree same g k = true) :
    agree same f k = true := by
  fun_induction agree same f g generalizing k with
  | case1 a b =>
    cases k with
    | var c => exact trans a b c first second
    | _ => simp [agree] at second
  | case2 a b c d ihl ihr | case3 a b c d ihl ihr | case4 a b c d ihl ihr =>
    cases k <;> simp only [agree, Bool.and_eq_true, Bool.false_eq_true] at first second ⊢
    exact ⟨ihl first.1 second.1, ihr first.2 second.2⟩
  | case5 => simp at first

/-! ### Sharing -/

/-- Whether two formulas agree, with the evidence. -/
abbrev Agreement (same : Atom → Atom → Bool) (f g : Formula Atom) :=
  { b : Bool // b = agree same f g }

section

variable {same : Atom → Atom → Bool} (refl : ∀ a, same a a = true)

/-- Compare two formulas, unless they lie at one place in memory. -/
def unlessShared (f g : Formula Atom) (compare : Unit → Agreement same f g) :
    Agreement same f g :=
  ⟨withPtrEq f g (fun _ => (compare ()).1)
    fun h => (compare ()).2.trans (h ▸ agree_self refl f), (compare ()).2⟩

/-- Whether both parts of two formulas agree. A chain grows to the left, so the right parts are the
smaller ones and come first. -/
def bothAgree {a b c d : Formula Atom} (right : Agreement same b d)
    (left : Unit → Agreement same a c) : { r : Bool // r = (agree same a c && agree same b d) } :=
  ⟨right.1 && (left ()).1, by rw [right.2, (left ()).2, Bool.and_comm]⟩

/-- Whether two formulas agree. Only of two formulas with the same connective are the parts compared
with care: others do not agree, or have no parts. -/
def decideAgree : (f g : Formula Atom) → Agreement same f g
  | .conj a b, .conj c d =>
      bothAgree (unlessShared refl b d fun _ => decideAgree b d) fun _ =>
        unlessShared refl a c fun _ => decideAgree a c
  | .disj a b, .disj c d =>
      bothAgree (unlessShared refl b d fun _ => decideAgree b d) fun _ =>
        unlessShared refl a c fun _ => decideAgree a c
  | .impl a b, .impl c d =>
      bothAgree (unlessShared refl b d fun _ => decideAgree b d) fun _ =>
        unlessShared refl a c fun _ => decideAgree a c
  | f, g => ⟨agree same f g, rfl⟩

/-- `agree`, for atoms that agree with themselves. -/
def agreeFast (f g : Formula Atom) : Bool :=
  (unlessShared refl f g fun _ => decideAgree refl f g).1

theorem agreeFast_eq (f g : Formula Atom) : agreeFast refl f g = agree same f g :=
  (unlessShared refl f g fun _ => decideAgree refl f g).2

end

/-! ### Equality -/

section

variable [BEq Atom]

/-- Names are the atoms of formulas that are read. -/
instance reflBEqName : ReflBEq String := inferInstance

instance [ReflBEq Atom] : BEq (Formula Atom) := ⟨agreeFast fun _ => BEq.rfl⟩

theorem beq_eq_agree [ReflBEq Atom] (f g : Formula Atom) : (f == g) = agree (· == ·) f g :=
  agreeFast_eq (fun _ => BEq.rfl) f g

instance [ReflBEq Atom] : ReflBEq (Formula Atom) where
  rfl := by
    intro f
    rw [beq_eq_agree]
    exact agree_self (fun _ => BEq.rfl) f

instance [EquivBEq Atom] : EquivBEq (Formula Atom) where
  symm := by
    intro f g h
    rw [beq_eq_agree] at h ⊢
    exact agree_symm (fun _ _ => BEq.symm) h
  trans := by
    intro f g k first second
    rw [beq_eq_agree] at first second ⊢
    have trans : ∀ a b c : Atom, (a == b) = true → (b == c) = true → (a == c) = true :=
      fun _ _ _ => BEq.trans
    exact agree_trans trans first second

instance [LawfulBEq Atom] : LawfulBEq (Formula Atom) where
  eq_of_beq := by
    intro f g h
    rw [beq_eq_agree] at h
    exact eq_of_agree (fun _ _ => LawfulBEq.eq_of_beq) h

end

end Deduction.Formula
