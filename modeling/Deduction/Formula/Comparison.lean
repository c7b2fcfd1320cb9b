import Deduction.Formula.Equality
import Deduction.Nesting

/-!
Comparing formulas that may be nested too deeply.

Formulas that were written apart are compared level by level, and the comparison gives up where the
nesting goes too deep. Parts that are one object are equal without a look at them.
-/

namespace Deduction

/-- Atoms that tell whether they are one object. -/
class Traced (Atom : Type) where
  shared : Atom → Atom → Bool
  shared_self (a : Atom) : shared a a = true

namespace Formula

variable {Atom : Type} [Traced Atom]

def shared (f g : Formula Atom) : Bool := agreeFast Traced.shared_self f g

theorem shared_eq (f g : Formula Atom) : f.shared g = agree Traced.shared f g :=
  agreeFast_eq Traced.shared_self f g

variable [BEq Atom]

/-- Equality in fewer than `room` levels. Nothing is compared after the first parts that differ. -/
def equalWithin : (room : Nat) → Formula Atom → Formula Atom → Option Bool
  | 0, _, _ => none
  | room + 1, f, g =>
      let part (a b : Formula Atom) := if a.shared b then some true else equalWithin room a b
      let both (a b c d : Formula Atom) := do if ← part a c then part b d else return false
      match f, g with
      | .var a, .var b => some (a == b)
      | .conj a b, .conj c d => both a b c d
      | .disj a b, .disj c d => both a b c d
      | .impl a b, .impl c d => both a b c d
      | _, _ => some false

variable [Limits]

/-- Equality, unless it takes a look at too many levels. -/
def equal? (f g : Formula Atom) : Option Bool :=
  if f.shared g then some true else equalWithin (Limits.comparing + 1) f g

/-- Whether comparing one pair of formulas after another, as long as they are equal, goes too
deep. -/
def comparesTooDeep : List (Formula Atom × Formula Atom) → Bool
  | [] => false
  | (f, g) :: rest =>
      match f.equal? g with
      | none => true
      | some true => comparesTooDeep rest
      | some false => false

end Formula

/-- Where an atom was written: the number of the formula, and that of the atom in it. -/
structure Origin where
  formula : Nat
  index : Nat
  deriving DecidableEq, Repr

/-- A name with the place where it was written. -/
structure Written where
  name : String
  origin : Origin
  deriving DecidableEq, Repr

namespace Written

/-- Names are compared, wherever they were written. -/
instance : BEq Written := ⟨fun a b => a.name == b.name⟩

instance : ReflBEq Written := ⟨fun {a} => beq_self_eq_true a.name⟩

instance : Traced Written := ⟨fun a b => decide (a = b), fun _ => decide_eq_true rfl⟩

end Written

/-- A formula that was written as the one with the given number. -/
def Formula.written (number : Nat) (f : Formula String) : Formula Written :=
  f.mapIdx fun index name => ⟨name, number, index⟩

end Deduction
