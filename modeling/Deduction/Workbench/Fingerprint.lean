import Deduction.Workbench.Key
import Deduction.Workbench.Term

/-!
Fingerprints: what of a value goes into its hash.

Equal values have the same fingerprint. The fingerprint of a formula holds those of its parts, but
not which connective joins them, and the fingerprint of a number is its residue for a prime.
-/

namespace Deduction

inductive Fingerprint where
  | null
  | number (residue : Int)
  | text (value : Text)
  /-- An object that is told from all others by its number. -/
  | object (id : Nat)
  | nan (id : Nat)
  | row (parts : List Fingerprint)
  /-- The number of parts in any order, and those of them that occur an odd number of times. -/
  | bag (size : Nat) (odd : List Fingerprint)

namespace Fingerprint

/-- The list without the first of its items that has a property, if there is one. -/
def dropFirst? (found : Fingerprint → Bool) : List Fingerprint → Option (List Fingerprint)
  | [] => none
  | item :: rest => if found item then some rest else (dropFirst? found rest).map (item :: ·)

mutual

def same : Fingerprint → Fingerprint → Bool
  | .null, .null => true
  | .number m, .number n => m == n
  | .text a, .text b => a == b
  | .object m, .object n => m == n
  | .nan m, .nan n => m == n
  | .row as, .row bs => sameRow as bs
  | .bag m as, .bag n bs => m == n && sameBag as bs
  | _, _ => false

def sameRow : List Fingerprint → List Fingerprint → Bool
  | [], [] => true
  | a :: as, b :: bs => same a b && sameRow as bs
  | _, _ => false

def sameBag : List Fingerprint → List Fingerprint → Bool
  | [], bs => bs.isEmpty
  | a :: as, bs =>
      match dropFirst? (fun b => same a b) bs with
      | some rest => sameBag as rest
      | none => false

end

instance : BEq Fingerprint := ⟨same⟩

/-- The fingerprint of parts in any order. Two parts that are the same cancel each other out. -/
def ofBag (parts : List Fingerprint) : Fingerprint :=
  .bag parts.length (parts.foldl toggle [])
where
  toggle (odd : List Fingerprint) (part : Fingerprint) : List Fingerprint :=
    (dropFirst? (same part) odd).getD (part :: odd)

/-! ### Numbers -/

/-- Numbers are reduced modulo the prime `2 ^ modulusBits - 1`. -/
def modulusBits : Nat := 61

def modulus : Nat := Nat.pow 2 modulusBits - 1

/-- The residue with the sign of the number. There is no residue minus one: minus two stands for
it. -/
def withSign (negative : Bool) (residue : Nat) : Int :=
  let signed : Int := if negative then -residue else residue
  if signed = -1 then -2 else signed

/-- The residue of a number whose denominator is a power of two. -/
def residue : Decimal.Numeral → Int
  | .nan => 0
  | .infinite negative => withSign negative 314159
  | .fraction num den =>
      let inverse := Nat.pow 2 (modulusBits - den.log2 % modulusBits)
      withSign (num < 0) (num.natAbs % modulus * inverse % modulus)

/-! ### Values -/

/-- The fingerprint of a value that can be a key. The empty text counts as zero. -/
def ofJson : Json → Except TermError Fingerprint
  | .null => .ok .null
  | .str (.plain "") => .ok (.number 0)
  | .str value => .ok (.text value)
  | .real .nan => .ok (.nan 0)
  | value =>
      match value.numeral? with
      | some n => .ok (.number (residue n))
      | none => .error (.unhashable value.typeName)

mutual

def ofKey : Key → Except TermError Fingerprint
  | .scalar value => ofJson value
  | .tuple items => return .row (← ofKeys items)
  | .fresh serial => return .row [← ofJson serial]
  | .nan id => return .nan id

def ofKeys : List Key → Except TermError (List Fingerprint)
  | [] => return []
  | key :: rest => return (← ofKey key) :: (← ofKeys rest)

end

def ofLeaf (leaf : Leaf) : Except TermError Fingerprint :=
  match leaf.content with
  | .name value => return .row [← ofJson value]
  | .foreign value => ofJson value

def ofParts : Formula Fingerprint → Fingerprint
  | .var part => part
  | .conj lhs rhs => .row [ofParts lhs, ofParts rhs]
  | .disj lhs rhs => .row [ofParts lhs, ofParts rhs]
  | .impl lhs rhs => .row [ofParts lhs, ofParts rhs]

def ofTerm [Limits] (t : Term) : Except TermError Fingerprint :=
  return ofParts (← t.traverse ofLeaf)

end Fingerprint

end Deduction
