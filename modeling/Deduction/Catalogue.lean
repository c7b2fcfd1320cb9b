import Deduction.Derivation

/-!
Textbook derivations. Some choose their labels by hand, others use a scope.
-/

namespace Deduction.Catalogue

open Deduction.Derivation

def p : Formula String := .var "p"

def q : Formula String := .var "q"

def r : Formula String := .var "r"

def number (n : Int) : ScopedLabel := .chosen (.number n)

def name (s : String) : ScopedLabel := .chosen (.name s)

def shows (proof : Prf) (goal : Formula String) : Derivation Prf := infer (proof.shows goal)

/-- `(p → q) → (q → r) → p → r`. Labels need not follow the order of discharge. -/
def hypotheticalSyllogism : Derivation Prf := do
  let hp : Prf := .suppose p (number 1)
  let hpq : Prf := .suppose (.impl p q) (number 3)
  let hqr : Prf := .suppose (.impl q r) (number 2)
  let hq ← infer (hp.implElim hpq)
  let hr ← infer (hq.implElim hqr)
  let proof ← infer (hr.implIntro (number 1))
  let proof ← infer (proof.implIntro (number 2))
  let proof ← infer (proof.implIntro (number 3))
  shows proof (.implAll (.impl p q) (.impl q r) [.impl p r])

/-- `p ∧ q → q ∧ p`. -/
def conjCommutes : Derivation Prf := inFreshScope do
  let proof ← assume (.conj p q) fun h => do
    let right ← infer (h.proof.conjElim .right)
    let left ← infer (h.proof.conjElim .left)
    let swapped ← infer (right.conjIntro left)
    discharge swapped (some h)
  shows proof (.impl (.conj p q) (.conj q p))

/-- `p ∨ q → q ∨ p`, by cases. -/
def disjCommutes : Derivation Prf := do
  let hd : Prf := .suppose (.disj p q) (name "d")
  let caseP := (Proof.suppose p (name "left")).disjIntro q .right
  let caseQ := (Proof.suppose q (name "right")).disjIntro p .left
  let proof ← infer (hd.disjElim caseP (name "left") caseQ (name "right"))
  let proof ← infer (proof.implIntro (name "d"))
  shows proof (.impl (.disj p q) (.disj q p))

/-- `p → q → p`. Only open hypotheses are discharged, so `q` is carried along in a pair. -/
def weakening : Derivation Prf := inFreshScope do
  let proof ← assume p fun hp => do
    let body ← assume q fun hq => do
      let pair ← infer (hp.proof.conjIntro hq.proof)
      let carried ← infer (pair.conjElim .left)
      discharge carried none
    discharge body none
  shows proof (.implAll p q [p])

/-- `(p ∧ q → r) → p → q → r`. -/
def currying : Derivation Prf := inFreshScope do
  let proof ← assume (.impl (.conj p q) r) fun h => do
    let body ← assume p fun hp => do
      let body ← assume q fun hq => do
        let pair ← infer (hp.proof.conjIntro hq.proof)
        let hr ← infer (pair.implElim h.proof)
        discharge hr (some hq)
      discharge body (some hp)
    discharge body (some h)
  shows proof (.implAll (.impl (.conj p q) r) p [q, r])

/-- `p ∧ (q ∨ r) → p ∧ q ∨ p ∧ r`. -/
def distribution : Derivation Prf := do
  let h : Prf := .suppose (.conj p (.disj q r)) (number 1)
  let hp ← infer (h.conjElim .left)
  let hqr ← infer (h.conjElim .right)
  let left ← infer (hp.conjIntro (.suppose q (number 2)))
  let right ← infer (hp.conjIntro (.suppose r (number 3)))
  let caseQ := left.disjIntro (.conj p r) .left
  let caseR := right.disjIntro (.conj p q) .right
  let proof ← infer (hqr.disjElim caseQ (number 2) caseR (number 3))
  let proof ← infer (proof.implIntro (number 1))
  shows proof (.impl (.conj p (.disj q r)) (.disj (.conj p q) (.conj p r)))

def all : List (String × Derivation Prf) := [
  ("hypothetical_syllogism", hypotheticalSyllogism),
  ("conj_commutes", conjCommutes),
  ("disj_commutes", disjCommutes),
  ("weakening", weakening),
  ("currying", currying),
  ("distribution", distribution)]

def names : List String := all.map Prod.fst

/-- Build a derivation, with fresh labels from the given number on. The result holds the next number
and the log. -/
def build (serial : Nat) (d : Derivation Prf) :
    Except (DerivationError ScopedLabel String) Prf × Nat × List LogEntry :=
  let (result, s) := Id.run (StateT.run (ExceptT.run d) ⟨serial, .empty, []⟩)
  (result, s.serial, s.log)

end Deduction.Catalogue
