import Mathlib.Logic.Function.Basic
import Deduction.Script.Basic
import Deduction.Proofs.Rules
import Deduction.Proofs.Scope.Discipline

/-!
Sessions: work with any number of scopes, and with rules of inference on the proofs that they gave.

In a session a fresh label stands for one formula for ever. This holds of every proof in which it is
open, also of those that are kept after its hypothesis was closed. So premises never disagree about
a fresh label, and a discharge gives an implication from the formula of the hypothesis.
-/

namespace Deduction

namespace Inference

variable {Label Atom : Type} [BEq Label] [LawfulBEq Label] [BEq Atom] [LawfulBEq Atom]
  {i : Inference (Proof Label Atom) Label Atom} {label : Label} {f g : Formula Atom}

/-- What a rule leaves open was open in a premise, unless it is supposed by the rule itself. -/
theorem get?_of_apply {p : Proof Label Atom} (applied : i.apply = .ok p)
    (found : p.assumptions.get? label = some f) :
    (∃ q ∈ i.refs, q.assumptions.get? label = some f) ∨ i = .suppose f label := by
  cases i with
  | suppose supposed chosen =>
      cases applied
      obtain ⟨rfl, rfl⟩ := Assumptions.get?_single_eq_some_iff.mp found
      exact .inr rfl
  | conjIntro p q =>
      obtain ⟨c, merged, rfl⟩ := Proof.conjIntro_eq_ok_iff.mp applied
      rcases (Assumptions.get?_merge merged).mp found with left | right
      · exact .inl ⟨p, by simp [refs], left⟩
      · exact .inl ⟨q, by simp [refs], right⟩
  | conjElim p side =>
      obtain ⟨_, _, _, rfl⟩ := Proof.conjElim_eq_ok_iff.mp applied
      exact .inl ⟨p, by simp [refs], found⟩
  | implElim p q =>
      obtain ⟨_, c, _, merged, rfl⟩ := Proof.implElim_eq_ok_iff.mp applied
      rcases (Assumptions.get?_merge merged).mp found with left | right
      · exact .inl ⟨p, by simp [refs], left⟩
      · exact .inl ⟨q, by simp [refs], right⟩
  | implIntro discharged q =>
      obtain ⟨_, _, rfl⟩ := Proof.implIntro_eq_ok_iff.mp applied
      exact .inl ⟨q, by simp [refs], (Assumptions.get?_erase_eq_some_iff.mp found).2⟩
  | disjIntro p other side =>
      obtain rfl := Except.ok.inj applied
      rw [Proof.disjIntro_eq] at found
      exact .inl ⟨p, by simp [refs], found⟩
  | disjElim r s l₁ t l₂ =>
      obtain ⟨_, _, cases, c, _, _, _, _, both, merged, rfl⟩ :=
        Proof.disjElim_eq_ok_iff.mp applied
      rcases (Assumptions.get?_merge merged).mp found with whole | inCase
      · exact .inl ⟨r, by simp [refs], whole⟩
      · rcases (Assumptions.get?_merge both).mp inCase with left | right
        · exact .inl ⟨s, by simp [refs], (Assumptions.get?_erase_eq_some_iff.mp left).2⟩
        · exact .inl ⟨t, by simp [refs], (Assumptions.get?_erase_eq_some_iff.mp right).2⟩

/-- A label that a rule finds inconsistent names different formulas in two premises. -/
theorem exists_refs_of_inconsistentLabel
    (failed : i.apply = .error (.inconsistentLabel label f g)) :
    ∃ p ∈ i.refs, ∃ q ∈ i.refs, p.assumptions.get? label = some f ∧
      q.assumptions.get? label = some g ∧ f ≠ g := by
  cases i with
  | suppose _ _ => cases failed
  | conjIntro p q =>
      have clash : Proof.mergeAssumptions p.assumptions q.assumptions =
          .error (.inconsistentLabel label f g) := by
        simpa [apply, Proof.conjIntro, bind_eq_error_iff, pure, Except.pure] using failed
      exact ⟨p, by simp [refs], q, by simp [refs], Proof.get?_of_mergeAssumptions_error clash⟩
  | conjElim p side =>
      simp only [apply, Proof.conjElim] at failed
      split at failed <;> cases failed
  | implElim p q =>
      simp only [apply, Proof.implElim] at failed
      split at failed
      · split at failed
        · have clash : Proof.mergeAssumptions p.assumptions q.assumptions =
              .error (.inconsistentLabel label f g) := by
            simpa [bind_eq_error_iff, pure, Except.pure] using failed
          exact ⟨p, by simp [refs], q, by simp [refs], Proof.get?_of_mergeAssumptions_error clash⟩
        · cases failed
      · cases failed
  | implIntro discharged q =>
      simp only [apply, Proof.implIntro, Proof.assumed] at failed
      split at failed <;> cases failed
  | disjIntro p other side => cases failed
  | disjElim r s l₁ t l₂ =>
      simp only [apply, Proof.disjElim] at failed
      split at failed
      case h_2 => cases failed
      simp only [bind_eq_error_iff, Proof.assumed_eq_error_iff] at failed
      rcases failed with ⟨_, ⟨⟩⟩ | ⟨left, -, ⟨_, ⟨⟩⟩ | ⟨right, -, failed⟩⟩
      split at failed
      · cases failed
      split at failed
      · cases failed
      split at failed
      · cases failed
      -- Both unions are left to fail: first that of the cases, then that with the disjunction.
      rcases bind_eq_error_iff.mp failed with clash | ⟨cases, both, failed⟩
      · obtain ⟨inLeft, inRight, differ⟩ := Proof.get?_of_mergeAssumptions_error clash
        rw [Assumptions.get?_erase_eq_some_iff] at inLeft inRight
        exact ⟨s, by simp [refs], t, by simp [refs], inLeft.2, inRight.2, differ⟩
      · have clash : Proof.mergeAssumptions r.assumptions cases =
            .error (.inconsistentLabel label f g) := by
          simpa [bind_eq_error_iff, pure, Except.pure] using failed
        obtain ⟨whole, inCase, differ⟩ := Proof.get?_of_mergeAssumptions_error clash
        rw [Assumptions.get?_merge (Proof.mergeAssumptions_eq_ok_iff.mp both),
          Assumptions.get?_erase_eq_some_iff, Assumptions.get?_erase_eq_some_iff] at inCase
        rcases inCase with inLeft | inRight
        · exact ⟨r, by simp [refs], s, by simp [refs], whole, inLeft.2, differ⟩
        · exact ⟨r, by simp [refs], t, by simp [refs], whole, inRight.2, differ⟩

end Inference

/-- Scopes, with the proofs that were obtained so far. -/
structure Session (Atom : Type) where
  desk : Desk ScopedLabel Atom
  proofs : List (Proof ScopedLabel Atom)

/-- What can be asked of a session. A block under a hypothesis is a `push`, and then a `release`, or
an `unwind` if it fails. -/
inductive Request (Atom : Type) where
  | newScope
  | push (index : Nat) (f : Formula Atom)
  | discharge (index : Nat) (named : Option (Hypothesis ScopedLabel Atom))
      (p : Proof ScopedLabel Atom)
  | release (index : Nat) (h : Hypothesis ScopedLabel Atom)
  | unwind (index : Nat) (h : Hypothesis ScopedLabel Atom)
  | infer (inference : Inference (Proof ScopedLabel Atom) ScopedLabel Atom)

namespace Request

variable {Atom : Type}

def premises : Request Atom → List (Proof ScopedLabel Atom)
  | .discharge _ _ p => [p]
  | .infer inference => inference.refs
  | _ => []

/-- The label under which a request supposes a formula, without a scope. -/
def supposed? : Request Atom → Option ScopedLabel
  | .infer (.suppose _ label) => some label
  | _ => none

end Request

namespace Session

variable {Atom : Type}

def start : Session Atom := ⟨⟨1, []⟩, []⟩

/-- Meet a request. One that fails changes nothing. -/
def perform [BEq Atom] [ReflBEq Atom] (s : Session Atom) :
    Request Atom → Except (DerivationError ScopedLabel Atom) (Session Atom)
  | .newScope => .ok { s with desk := ⟨s.desk.serial, s.desk.scopes ++ [.empty]⟩ }
  | .push index f =>
      let (h, _) := (s.desk.scopeAt index).push s.desk.serial f
      .ok ⟨s.desk.opened index f, h.proof :: s.proofs⟩
  | .discharge index named p =>
      match (s.desk.scopeAt index).discharge named p with
      | .error e => .error e
      | .ok (_, q, outer) => .ok ⟨s.desk.closed index outer.stack, q :: s.proofs⟩
  | .release index h =>
      match (s.desk.scopeAt index).release h with
      | .error e => .error (.scope e)
      | .ok none => .ok s
      | .ok (some outer) => .ok { s with desk := s.desk.closed index outer.stack }
  | .unwind index h =>
      .ok { s with desk := s.desk.closed index ((s.desk.scopeAt index).unwind h).stack }
  | .infer inference =>
      match inference.apply with
      | .error e => .error (.rule e)
      | .ok p => .ok { s with proofs := p :: s.proofs }

/-- The premises of a request have to be at hand, and what it supposes has to be under a label that
is allowed. -/
structure Admits (allowed : ScopedLabel → Prop) (s : Session Atom) (request : Request Atom) :
    Prop where
  premises : ∀ p ∈ request.premises, p ∈ s.proofs
  supposed : ∀ label ∈ request.supposed?, allowed label

/-- The sessions that requests lead to, one after another. -/
inductive Reached [BEq Atom] [ReflBEq Atom] (allowed : ScopedLabel → Prop) : Session Atom → Prop
  | start : Reached allowed start
  | step {s t request} : Reached allowed s → s.Admits allowed request →
      s.perform request = .ok t → Reached allowed t

/-! ### What fresh labels stand for -/

/-- Every fresh label stands for one formula, in all proofs and on all stacks. -/
structure Settled (allowed : ScopedLabel → Prop) (meaning : Nat → Option (Formula Atom))
    (s : Session Atom) : Prop where
  named : ∀ p ∈ s.proofs, ∀ label f, p.assumptions.get? label = some f →
    allowed label ∨ ∃ n < s.desk.serial, label = .fresh n ∧ meaning n = some f
  opened : ∀ h ∈ s.desk.openHypotheses, ∃ n < s.desk.serial, h.label = .fresh n ∧
    meaning n = some h.formula

namespace Settled

variable {allowed : ScopedLabel → Prop} {meaning : Nat → Option (Formula Atom)}
  {s t : Session Atom}

/-- Proofs do not disagree about a label that stands for one formula. -/
theorem agree (settled : s.Settled allowed meaning) {p q : Proof ScopedLabel Atom}
    (p_mem : p ∈ s.proofs) (q_mem : q ∈ s.proofs) {label : ScopedLabel} {f g : Formula Atom}
    (left : p.assumptions.get? label = some f) (right : q.assumptions.get? label = some g) :
    allowed label ∨ f = g := by
  rcases settled.named p p_mem label f left with chosen | ⟨n, -, fresh, meant⟩
  · exact .inl chosen
  · rcases settled.named q q_mem label g right with chosen | ⟨m, -, fresh', meant'⟩
    · exact .inl chosen
    · obtain rfl : n = m := by simpa [fresh] using fresh'
      exact .inr (Option.some.inj (meant.symm.trans meant'))

theorem addProof (settled : s.Settled allowed meaning) {p : Proof ScopedLabel Atom}
    (named : ∀ label f, p.assumptions.get? label = some f →
      allowed label ∨ ∃ n < s.desk.serial, label = .fresh n ∧ meaning n = some f) :
    Settled allowed meaning { s with proofs := p :: s.proofs } where
  named q mem := by
    rcases List.mem_cons.mp mem with rfl | mem
    · exact named
    · exact settled.named q mem
  opened := settled.opened

theorem close (settled : s.Settled allowed meaning) {index : Nat}
    {inner rest : List (Hypothesis ScopedLabel Atom)}
    (stack : (s.desk.scopeAt index).stack = inner ++ rest) :
    Settled allowed meaning { s with desk := s.desk.closed index rest } where
  named := settled.named
  opened h mem := settled.opened h ((Desk.sublist_of_closed stack).subset mem)

theorem push (settled : s.Settled allowed meaning) (index : Nat) (f : Formula Atom) :
    Settled allowed (Function.update meaning s.desk.serial (some f))
      ⟨s.desk.opened index f, .suppose f (.fresh s.desk.serial) :: s.proofs⟩ := by
  -- Only the label that is issued now gets a meaning; those below it keep theirs.
  have kept : ∀ {n}, n < s.desk.serial →
      Function.update meaning s.desk.serial (some f) n = meaning n :=
    fun below => Function.update_of_ne (Nat.ne_of_lt below) ..
  refine ⟨?_, ?_⟩
  · intro p mem label g found
    rcases List.mem_cons.mp mem with rfl | mem
    · obtain ⟨rfl, rfl⟩ := Assumptions.get?_single_eq_some_iff.mp found
      exact .inr ⟨_, s.desk.serial.lt_succ_self, rfl, Function.update_self ..⟩
    · rcases settled.named p mem label g found with chosen | ⟨n, below, fresh, meant⟩
      · exact .inl chosen
      · exact .inr ⟨n, Nat.lt_succ_of_lt below, fresh, (kept below).trans meant⟩
  · intro h mem
    rcases Desk.mem_of_mem_opened mem with rfl | old
    · exact ⟨_, s.desk.serial.lt_succ_self, rfl, Function.update_self ..⟩
    · obtain ⟨n, below, fresh, meant⟩ := settled.opened h old
      exact ⟨n, Nat.lt_succ_of_lt below, fresh, (kept below).trans meant⟩

/-- The label of the innermost hypothesis stands for its formula, whatever proof it is open in. -/
theorem conclusion_of_discharge (settled : s.Settled allowed meaning)
    (notFresh : ∀ n, ¬allowed (.fresh n)) {index : Nat}
    {named : Option (Hypothesis ScopedLabel Atom)} {p q : Proof ScopedLabel Atom}
    {h : Hypothesis ScopedLabel Atom} {outer : Scope ScopedLabel Atom} (mem : p ∈ s.proofs)
    (discharged : (s.desk.scopeAt index).discharge named p = .ok (h, q, outer)) :
    q.conclusion = .impl h.formula p.conclusion := by
  obtain ⟨top, introduced⟩ := Scope.discharge_eq_ok_iff.mp discharged
  obtain ⟨f, found, rfl⟩ := Proof.implIntro_eq_ok_iff.mp introduced
  have isOpen : h ∈ s.desk.openHypotheses := by
    apply Desk.mem_openHypotheses_of_mem_scopeAt
    rw [(Scope.innermost_eq_ok_iff.mp top).1]
    exact List.mem_cons_self
  obtain ⟨n, -, fresh, meant⟩ := settled.opened h isOpen
  rcases settled.named p mem h.label f found with chosen | ⟨m, -, fresh', meant'⟩
  · exact absurd (fresh ▸ chosen) (notFresh n)
  · obtain rfl : n = m := by simpa [fresh] using fresh'
    obtain rfl : h.formula = f := Option.some.inj (meant.symm.trans meant')
    rfl

theorem discharge (settled : s.Settled allowed meaning) {index : Nat}
    {named : Option (Hypothesis ScopedLabel Atom)} {p q : Proof ScopedLabel Atom}
    {h : Hypothesis ScopedLabel Atom} {outer : Scope ScopedLabel Atom} (mem : p ∈ s.proofs)
    (discharged : (s.desk.scopeAt index).discharge named p = .ok (h, q, outer)) :
    Settled allowed meaning ⟨s.desk.closed index outer.stack, q :: s.proofs⟩ := by
  obtain ⟨top, introduced⟩ := Scope.discharge_eq_ok_iff.mp discharged
  obtain ⟨f, -, rfl⟩ := Proof.implIntro_eq_ok_iff.mp introduced
  have stack : (s.desk.scopeAt index).stack = [h] ++ outer.stack :=
    (Scope.innermost_eq_ok_iff.mp top).1
  apply (settled.close stack).addProof
  intro label g found
  exact settled.named p mem label g (Assumptions.get?_erase_eq_some_iff.mp found).2

variable [BEq Atom] [LawfulBEq Atom] {request : Request Atom}

theorem infer (settled : s.Settled allowed meaning)
    {i : Inference (Proof ScopedLabel Atom) ScopedLabel Atom} {p : Proof ScopedLabel Atom}
    (admits : s.Admits allowed (.infer i)) (applied : i.apply = .ok p) :
    Settled allowed meaning { s with proofs := p :: s.proofs } := by
  apply settled.addProof
  intro label f found
  rcases Inference.get?_of_apply applied found with ⟨q, mem, found⟩ | rfl
  · exact settled.named q (admits.premises q mem) label f found
  · exact .inl (admits.supposed label rfl)

theorem perform (settled : s.Settled allowed meaning) (admits : s.Admits allowed request)
    (performed : s.perform request = .ok t) : ∃ meaning', t.Settled allowed meaning' := by
  cases request with
  | newScope =>
      cases performed
      refine ⟨meaning, settled.named, ?_⟩
      simpa [Desk.openHypotheses, Scope.empty] using settled.opened
  | push index f =>
      cases performed
      exact ⟨_, settled.push index f⟩
  | discharge index named p =>
      rw [Session.perform] at performed
      split at performed
      · cases performed
      · rename_i discharged
        cases performed
        have mem : p ∈ s.proofs := admits.premises p List.mem_cons_self
        exact ⟨meaning, settled.discharge mem discharged⟩
  | release index h =>
      rw [Session.perform] at performed
      split at performed
      · cases performed
      · cases performed
        exact ⟨meaning, settled⟩
      · rename_i released
        cases performed
        obtain ⟨k, stack, -⟩ := Scope.stack_of_release released
        have stack : (s.desk.scopeAt index).stack = [k] ++ _ := stack
        exact ⟨meaning, settled.close stack⟩
  | unwind index h =>
      cases performed
      obtain ⟨inner, stack, -⟩ := (s.desk.scopeAt index).exists_unwind_eq h
      exact ⟨meaning, settled.close stack⟩
  | infer i =>
      rw [Session.perform] at performed
      split at performed
      · cases performed
      · rename_i applied
        cases performed
        exact ⟨meaning, settled.infer admits applied⟩

theorem allowed_of_inconsistentLabel (settled : s.Settled allowed meaning)
    (premises : ∀ p ∈ request.premises, p ∈ s.proofs) {label : ScopedLabel} {f g : Formula Atom}
    (failed : s.perform request = .error (.rule (.inconsistentLabel label f g))) :
    allowed label := by
  cases request with
  | newScope => cases failed
  | push index f => cases failed
  | discharge index named p =>
      -- The only rule that a discharge applies has one premise.
      rw [Session.perform, Scope.discharge] at failed
      have introduced : ∃ h, p.implIntro h = .error (.inconsistentLabel label f g) := by
        grind
      obtain ⟨h, introduced⟩ := introduced
      cases (Proof.implIntro_eq_error_iff.mp introduced).2
  | release index h =>
      rw [Session.perform] at failed
      split at failed <;> cases failed
  | unwind index h => cases failed
  | infer i =>
      have clash : i.apply = .error (.inconsistentLabel label f g) := by
        rw [Session.perform] at failed
        split at failed <;> simp_all
      obtain ⟨p, p_mem, q, q_mem, left, right, differ⟩ :=
        Inference.exists_refs_of_inconsistentLabel clash
      have agree := settled.agree (premises p p_mem) (premises q q_mem) left right
      exact agree.resolve_right differ

end Settled

theorem Reached.settled [BEq Atom] [LawfulBEq Atom] {allowed : ScopedLabel → Prop}
    {s : Session Atom} (reached : s.Reached allowed) : ∃ meaning, s.Settled allowed meaning := by
  induction reached with
  | start => exact ⟨fun _ => none, nofun, nofun⟩
  | step _ admits performed ih =>
      obtain ⟨meaning, settled⟩ := ih
      exact settled.perform admits performed

/-- The labels that a client supposes formulas under. -/
def IsChosen (label : ScopedLabel) : Prop := ∃ l, label = .chosen l

/-- Fresh labels never clash, whatever is done with the proofs of a session and with its scopes, and
what is discharged is what was assumed. Without formulas that a client supposes, nothing clashes. -/
theorem fresh_labels_agree [BEq Atom] [LawfulBEq Atom] {s : Session Atom} {request : Request Atom}
    (premises : ∀ p ∈ request.premises, p ∈ s.proofs) :
    (s.Reached IsChosen →
      (∀ n f g, s.perform request ≠ .error (.rule (.inconsistentLabel (.fresh n) f g))) ∧
      ∀ index named p t, request = .discharge index named p → s.perform request = .ok t →
        ∃ h q rest, (s.desk.scopeAt index).stack = h :: rest ∧
          q.conclusion = .impl h.formula p.conclusion ∧
          t = ⟨s.desk.closed index rest, q :: s.proofs⟩) ∧
    (s.Reached (fun _ => False) →
      ∀ label f g, s.perform request ≠ .error (.rule (.inconsistentLabel label f g))) := by
  refine ⟨fun reached => ⟨?_, ?_⟩, ?_⟩
  · intro n f g failed
    obtain ⟨meaning, settled⟩ := reached.settled
    obtain ⟨_, ⟨⟩⟩ := settled.allowed_of_inconsistentLabel premises failed
  · rintro index named p t rfl performed
    obtain ⟨meaning, settled⟩ := reached.settled
    rw [perform] at performed
    split at performed
    · cases performed
    · rename_i h q outer discharged
      cases performed
      have top := (Scope.discharge_eq_ok_iff.mp discharged).1
      refine ⟨h, q, outer.stack, (Scope.innermost_eq_ok_iff.mp top).1, ?_, rfl⟩
      apply settled.conclusion_of_discharge _ (premises p List.mem_cons_self) discharged
      rintro n ⟨_, ⟨⟩⟩
  · intro reached label f g failed
    obtain ⟨meaning, settled⟩ := reached.settled
    exact settled.allowed_of_inconsistentLabel premises failed

def supposedP : Proof ScopedLabel String := .suppose (.var "p") (.fresh 1)

def supposedQ : Proof ScopedLabel String := .suppose (.var "q") (.fresh 2)

def pairOfBoth : Proof ScopedLabel String :=
  ⟨.conj (.var "p") (.var "q"), .ofList [(.fresh 1, .var "p"), (.fresh 2, .var "q")]⟩

/-- A hypothesis in each of two scopes, and a proof that uses both. -/
def acrossScopes : Session String :=
  ⟨⟨3, [⟨[⟨.fresh 1, .var "p", supposedP⟩]⟩, ⟨[⟨.fresh 2, .var "q", supposedQ⟩]⟩]⟩,
    [pairOfBoth, supposedQ, supposedP]⟩

theorem reached_acrossScopes (allowed : ScopedLabel → Prop) : acrossScopes.Reached allowed := by
  have admits : ∀ {s : Session String} request, request.premises = [] →
      request.supposed? = none → s.Admits allowed request := by
    intro s request premises supposed
    exact ⟨by simp [premises], by simp [supposed]⟩
  have one := Reached.step .start (admits .newScope rfl rfl) rfl
  have two := one.step (admits .newScope rfl rfl) rfl
  have p := two.step (admits (.push 0 (.var "p")) rfl rfl) rfl
  have q := p.step (admits (.push 1 (.var "q")) rfl rfl) rfl
  have both : Admits allowed ⟨acrossScopes.desk, [supposedQ, supposedP]⟩
      (.infer (.conjIntro supposedP supposedQ)) :=
    ⟨by simp [Request.premises, Inference.refs], nofun⟩
  exact q.step both rfl

/-- The hypothesis of one scope is discharged from the pair, and that of the other stays open. -/
theorem acrossScopes_discharged :
    (∀ label f g, acrossScopes.perform (.discharge 0 none pairOfBoth) ≠
      .error (.rule (.inconsistentLabel label f g))) ∧
    ∃ t h q rest, acrossScopes.perform (.discharge 0 none pairOfBoth) = .ok t ∧
      (acrossScopes.desk.scopeAt 0).stack = h :: rest ∧
      q.conclusion = .impl h.formula pairOfBoth.conclusion ∧
      t = ⟨acrossScopes.desk.closed 0 rest, q :: acrossScopes.proofs⟩ := by
  have premises : ∀ p ∈ (Request.discharge 0 none pairOfBoth).premises,
      p ∈ acrossScopes.proofs := by
    simp [Request.premises, acrossScopes]
  obtain ⟨chosen, noClash⟩ := fresh_labels_agree premises
  obtain ⟨-, discharged⟩ := chosen (reached_acrossScopes _)
  obtain ⟨t, performed⟩ :
      ∃ t, acrossScopes.perform (.discharge 0 none pairOfBoth) = .ok t := ⟨_, rfl⟩
  obtain ⟨h, q, rest, facts⟩ := discharged 0 none pairOfBoth t rfl performed
  exact ⟨noClash (reached_acrossScopes _), t, h, q, rest, performed, facts⟩

end Session

end Deduction
