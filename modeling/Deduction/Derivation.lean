import Deduction.Scope

/-!
Derivations written as programs: rules of inference and a scope that is threaded through them.

A failure keeps the state that it left behind, so that a block can close what it opened before the
failure goes on.
-/

namespace Deduction

namespace Derivation

structure State where
  serial : Nat
  scope : Scope ScopedLabel String
  log : List LogEntry

end Derivation

/-- A derivation with the scope of its open hypotheses. -/
abbrev Derivation :=
  ExceptT (DerivationError ScopedLabel String) (StateM Derivation.State)

namespace Derivation

abbrev Hyp := Hypothesis ScopedLabel String

abbrev Prf := Proof ScopedLabel String

def record (entry : LogEntry) : Derivation Unit :=
  modify fun s => { s with log := s.log ++ [entry] }

def infer (result : Proof.Result ScopedLabel String) : Derivation Prf :=
  match result with
  | .ok p => return p
  | .error e => throw (.rule e)

def push (f : Formula String) : Derivation Hyp := do
  let s ← get
  let (h, scope) := s.scope.push s.serial f
  set { s with serial := s.serial + 1, scope }
  record (Scope.openedEntry h scope.depth)
  return h

def discharge (p : Prf) (named : Option Hyp) : Derivation Prf := do
  let s ← get
  match s.scope.discharge named p with
  | .error e => throw e
  | .ok (h, q, scope) =>
      set { s with scope }
      record (Scope.dischargedEntry h scope.depth)
      return q

def release (h : Hyp) : Derivation Unit := do
  let s ← get
  match s.scope.release h with
  | .error e => throw (.scope e)
  | .ok none => return ()
  | .ok (some scope) =>
      set { s with scope }
      record (Scope.releasedEntry h)

/-- Run a block under a hypothesis. The hypothesis is closed when the block ends; if the block
fails, everything opened inside it is abandoned too. -/
def assume {α : Type} (f : Formula String) (block : Hyp → Derivation α) : Derivation α := do
  let h ← push f
  let result ← tryCatch (block h) fun e => do
    modify fun s => { s with scope := s.scope.unwind h }
    throw e
  release h
  return result

def inFreshScope {α : Type} (d : Derivation α) : Derivation α := do
  modify fun s => { s with scope := .empty }
  d

end Derivation

end Deduction
