import Deduction.Formula.Equality
import Deduction.Ordered

/-!
The open assumptions of a derivation: every label names one formula.

The order of the labels is that in which they were first bound. It shows in listings and decides
which of two clashing labels is reported, but it does not matter to `Assumptions.same`.
-/

namespace Deduction

structure Assumptions (Label Atom : Type) [BEq Label] where
  entries : List (Label × Formula Atom)
  distinct : Ordered.Distinct entries

namespace Assumptions

variable {Label Atom : Type} [BEq Label]

def empty : Assumptions Label Atom := ⟨[], Ordered.distinct_nil⟩

def single (label : Label) (f : Formula Atom) : Assumptions Label Atom :=
  ⟨[(label, f)], Ordered.distinct_singleton _⟩

def size (a : Assumptions Label Atom) : Nat := a.entries.length

def labels (a : Assumptions Label Atom) : List Label := a.entries.map Prod.fst

def get? (a : Assumptions Label Atom) (label : Label) : Option (Formula Atom) :=
  Ordered.find? label a.entries

def contains (a : Assumptions Label Atom) (label : Label) : Bool := (a.get? label).isSome

def insert (a : Assumptions Label Atom) (label : Label) (f : Formula Atom) :
    Assumptions Label Atom :=
  ⟨Ordered.put label f a.entries, a.distinct.put label f⟩

def ofList (entries : List (Label × Formula Atom)) : Assumptions Label Atom :=
  entries.foldl (fun a entry => a.insert entry.1 entry.2) empty

def erase (a : Assumptions Label Atom) (label : Label) : Assumptions Label Atom :=
  ⟨Ordered.erase label a.entries, a.distinct.erase label⟩

/-- A label bound to two different formulas. -/
structure Clash (Label Atom : Type) where
  label : Label
  left : Formula Atom
  right : Formula Atom
  deriving DecidableEq, Repr

/-- Bind one label after another, unless one names a different formula already. -/
def insertAll [BEq Atom] [ReflBEq Atom] (a : Assumptions Label Atom) :
    List (Label × Formula Atom) → Except (Clash Label Atom) (Assumptions Label Atom)
  | [] => .ok a
  | (label, f) :: rest =>
      match a.get? label with
      | some g => if g == f then (a.insert label f).insertAll rest else .error ⟨label, g, f⟩
      | none => (a.insert label f).insertAll rest

/-- The union of two sets. A label in both has to name the same formula in both. -/
def merge [BEq Atom] [ReflBEq Atom] (a b : Assumptions Label Atom) :
    Except (Clash Label Atom) (Assumptions Label Atom) :=
  a.insertAll b.entries

/-- Whether two sets bind the same labels to the same formulas, in whatever order. -/
def same [BEq Atom] [ReflBEq Atom] (a b : Assumptions Label Atom) : Bool :=
  a.size == b.size && a.entries.all fun (label, f) =>
    match b.get? label with
    | some g => f == g
    | none => false

instance [BEq Atom] [ReflBEq Atom] : BEq (Assumptions Label Atom) := ⟨same⟩

/-! ### What labels name -/

@[simp]
theorem get?_empty (l : Label) : (empty : Assumptions Label Atom).get? l = none := rfl

@[simp]
theorem get?_single (label l : Label) (f : Formula Atom) :
    (single label f).get? l = if label == l then some f else none := by
  simp [get?, single, Ordered.find?]

variable [EquivBEq Label]

@[simp]
theorem get?_insert (a : Assumptions Label Atom) (label l : Label) (f : Formula Atom) :
    (a.insert label f).get? l = if label == l then some f else a.get? l :=
  Ordered.find?_put label l f a.entries

@[simp]
theorem get?_erase (a : Assumptions Label Atom) (label l : Label) :
    (a.erase label).get? l = if label == l then none else a.get? l :=
  Ordered.find?_erase a.distinct label l

end Assumptions

end Deduction
