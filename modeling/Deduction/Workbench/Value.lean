import Deduction.Scope
import Deduction.Workbench.Fingerprint
import Deduction.Workbench.Object

/-!
The values on a workbench: their texts, their equality and their fingerprints.
-/

namespace Deduction.Workbench

inductive Value where
  | proof (marks : Marks) (proof : Proof Key Leaf)
  | assumptions (id : Nat) (set : Assumptions Key Leaf)
  | hypothesis (id setId : Nat) (hypothesis : Hypothesis Key Leaf)
  | scope (index : Nat)
  | label (key : Key)
  | term (assembly : Assembly) (term : Term)

namespace Value

def ofTerm (assembly : Assembly) : Term → Value
  | .var ⟨.foreign value, origin⟩ =>
      .term .written (Term.foreign (if isCommon value then commonOrigin else origin) value)
  | t => .term assembly t

def made (id : Nat) (value : Json) : Value := .term .written (Term.foreign ⟨id, 0⟩ value)

/-- A value that is always the same object. -/
def fixed (value : Json) : Value := .term .written (Term.foreign commonOrigin value)

def null : Value := fixed .null

def bool (value : Bool) : Value := fixed (.bool value)

def typeName : Value → String
  | .proof _ _ => "Proof"
  | .assumptions _ _ => "AssumptionSet"
  | .hypothesis _ _ _ => "Hypothesis"
  | .scope _ => "AssumptionScope"
  | .label key => key.typeName
  | .term _ t => Term.typeName t

/-! ### Texts -/

def setTooDeep [Limits] (set : Assumptions Key Leaf) : Bool :=
  set.entries.any fun e => e.2.exceeds Limits.describing

def proofTooDeep [Limits] (p : Proof Key Leaf) : Bool :=
  p.conclusion.exceeds Limits.describing || setTooDeep p.assumptions

/-- Whether a value holds a formula that cannot be written out. -/
def tooDeep [Limits] : Value → Bool
  | .proof _ p => proofTooDeep p
  | .assumptions _ set => setTooDeep set
  | .hypothesis _ _ h => proofTooDeep h.proof
  | .scope _ => false
  | .label _ => false
  | .term _ t => t.exceeds Limits.describing

def describeEntries (set : Assumptions Key Leaf) : String :=
  let entry := fun (e : Key × Term) => e.1.describe ++ ": " ++ Formula.describe e.2
  "\x7b" ++ ", ".intercalate (set.entries.map entry) ++ "\x7d"

def describeProof (p : Proof Key Leaf) : String :=
  "Proof(" ++ p.conclusion.describe ++ ", assumptions=" ++ describeEntries p.assumptions ++ ")"

def describe : Value → String
  | .proof _ p => describeProof p
  | .assumptions _ set => "AssumptionSet(" ++ describeEntries set ++ ")"
  | .hypothesis _ _ h =>
      "Hypothesis(label=" ++ h.label.describe ++ ", formula=" ++ h.formula.describe ++ ", proof="
        ++ describeProof h.proof ++ ")"
  | .scope index => s!"<scope {index}>"
  | .label key => key.describe
  | .term _ t => Formula.describe t

def tryDescribe [Limits] (value : Value) : Except TermError String :=
  if value.tooDeep then throw .tooDeep else return value.describe

/-! ### Comparing values -/

def entriesOfFields (origin : Origin) (fields : List (Text × Json)) : List (Key × Term) :=
  fields.map fun (key, value) => (.scalar (.str key), Term.foreign origin value)

def setOfFields (origin : Origin) (fields : List (Text × Json)) : Assumptions Key Leaf :=
  .ofList (entriesOfFields origin fields)

/-- Whether every entry is in a set. Nothing is compared after the first one that is not. -/
def entriesIn [Limits] (set : Assumptions Key Leaf) : List (Key × Term) → Except TermError Bool
  | [] => return true
  | (key, s) :: rest =>
      match set.get? key with
      | none => return false
      | some t => do if ← Term.equal s t then entriesIn set rest else return false

def equalSets [Limits] (a b : Assumptions Key Leaf) : Except TermError Bool :=
  if a.size = b.size then entriesIn b a.entries else return false

def equalProofs [Limits] (p q : Proof Key Leaf) : Except TermError Bool := do
  if ← Term.equal p.conclusion q.conclusion then equalSets p.assumptions q.assumptions
  else return false

/-- Equality by meaning. Values of different types differ, but a set may equal a plain object. -/
def equal [Limits] : Value → Value → Except TermError Bool
  | .proof _ p, .proof _ q => equalProofs p q
  | .assumptions _ a, .assumptions _ b => equalSets a b
  | .assumptions _ a, .term _ (.var ⟨.foreign (.obj fields), origin⟩) =>
      equalSets a (setOfFields origin fields)
  | .term _ (.var ⟨.foreign (.obj fields), origin⟩), .assumptions _ b =>
      equalSets (setOfFields origin fields) b
  | .hypothesis _ _ h, .hypothesis _ _ k =>
      if h.label == k.label then Term.equal h.formula k.formula else return false
  | .scope i, .scope j => return i == j
  | .label k, .label l => return k == l
  | .term _ s, .term _ t => Term.equal s t
  | _, _ => return false

def identical : Value → Value → Bool
  | .proof m _, .proof n _ => m.id == n.id
  | .assumptions i _, .assumptions j _ => i == j
  | .hypothesis i _ _, .hypothesis j _ _ => i == j
  | .scope i, .scope j => i == j
  | .label k, .label l => k == l
  | .term a s, .term b t => Assembly.identical a s b t
  | _, _ => false

/-- Order: labels by their numbers, plain values as their kind has it. -/
def related (r : Json.Relation) : Value → Value → Except Json.NotOrdered Bool
  | .label (.fresh m), .label (.fresh n) => m.related r n
  | .term _ (.var ⟨.foreign a, _⟩), .term _ (.var ⟨.foreign b, _⟩) => a.related r b
  | a, b => throw ⟨r, a.typeName, b.typeName⟩

def fingerprintOfSet [Limits] (set : Assumptions Key Leaf) : Except TermError Fingerprint := do
  let entry := fun (e : Key × Term) => do
    return Fingerprint.row [← Fingerprint.ofKey e.1, ← Fingerprint.ofTerm e.2]
  return Fingerprint.ofBag (← set.entries.mapM entry)

def fingerprint [Limits] : Value → Except TermError Fingerprint
  | .proof _ p => do
      return .row [← Fingerprint.ofTerm p.conclusion, ← fingerprintOfSet p.assumptions]
  | .assumptions _ set => fingerprintOfSet set
  | .hypothesis _ _ h => do
      return .row [← Fingerprint.ofKey h.label, ← Fingerprint.ofTerm h.formula]
  | .scope index => return .object index
  | .label key => Fingerprint.ofKey key
  | .term _ t => Fingerprint.ofTerm t

end Value

end Deduction.Workbench
