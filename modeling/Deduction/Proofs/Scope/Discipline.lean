import Mathlib.Data.List.Infix
import Mathlib.Data.List.TakeWhile
import Deduction.Scope

/-!
Scopes that take their labels from one supply.

Whatever happens to them, the open hypotheses have different labels, and in every scope the labels
stand in the order in which they were issued. A fresh label is above all that are open, and what is
taken from a stack is taken from its inner end.
-/

namespace Deduction

namespace Scope

variable {Label Atom : Type} [BEq Label] [BEq Atom] [ReflBEq Atom] {scope : Scope Label Atom}

omit [BEq Atom] [ReflBEq Atom] in
theorem innermost_eq_ok_iff {named : Option (Hypothesis Label Atom)} {h : Hypothesis Label Atom}
    {outer : Scope Label Atom} :
    scope.innermost named = .ok (h, outer) ↔
      scope.stack = h :: outer.stack ∧ ∀ k ∈ named, (k.label == h.label) = true := by
  obtain ⟨stack⟩ := scope
  obtain ⟨outer⟩ := outer
  cases stack with
  | nil => simp [innermost]
  | cons inner rest =>
      cases named with
      | none => simp [innermost]
      | some k => grind [innermost]

omit [BEq Atom] [ReflBEq Atom] in
theorem discharge_eq_ok_iff {named : Option (Hypothesis Label Atom)} {p q : Proof Label Atom}
    {h : Hypothesis Label Atom} {outer : Scope Label Atom} :
    scope.discharge named p = .ok (h, q, outer) ↔
      scope.innermost named = .ok (h, outer) ∧ p.implIntro h.label = .ok q := by
  unfold discharge
  split
  · simp_all
  · split <;> grind

theorem release_eq_ok_none_iff {h : Hypothesis Label Atom} :
    scope.release h = .ok none ↔ scope.isOpen h = false := by
  obtain ⟨stack⟩ := scope
  cases stack <;> grind [release, isOpen]

/-- A hypothesis that is not released is open, and another one is innermost. -/
theorem stack_of_release_error {h : Hypothesis Label Atom} {e : ScopeError Label}
    (refused : scope.release h = .error e) :
    scope.isOpen h = true ∧ ∃ k outer, scope.stack = k :: outer ∧ (k == h) = false ∧
      e = .releaseBlocked h.label k.label := by
  obtain ⟨stack⟩ := scope
  cases stack <;> grind [release, isOpen]

theorem stack_of_release {h : Hypothesis Label Atom} {outer : Scope Label Atom}
    (released : scope.release h = .ok (some outer)) :
    ∃ k, scope.stack = k :: outer.stack ∧ (k == h) = true := by
  obtain ⟨stack⟩ := scope
  cases stack <;> grind [release, isOpen]

theorem unwind_of_not_isOpen {h : Hypothesis Label Atom} (closed : scope.isOpen h = false) :
    scope.unwind h = scope := by
  simp [unwind, closed]

/-- Unwinding goes as far as the first hypothesis that it is to abandon, and not further. -/
theorem exists_unwind_eq (scope : Scope Label Atom) (h : Hypothesis Label Atom) :
    ∃ opened, scope.stack = opened ++ (scope.unwind h).stack ∧
      ∀ k ∈ opened.dropLast, (k == h) = false := by
  cases isOpen : scope.isOpen h with
  | false =>
      refine ⟨[], ?_, by simp⟩
      simp [unwind, isOpen]
  | true =>
      have whole := List.takeWhile_append_dropWhile (p := fun k => !(k == h)) (l := scope.stack)
      have inside : ∀ k ∈ scope.stack.takeWhile fun k => !(k == h), (k == h) = false := by
        intro k mem
        simpa using List.mem_takeWhile_imp mem
      cases found : scope.stack.dropWhile fun k => !(k == h) with
      | nil =>
          refine ⟨scope.stack, by simp [unwind, isOpen, found], fun k mem => inside k ?_⟩
          rw [found, List.append_nil] at whole
          rw [whole]
          exact List.mem_of_mem_dropLast mem
      | cons inner rest =>
          refine ⟨scope.stack.takeWhile (fun k => !(k == h)) ++ [inner], ?_, ?_⟩
          · simpa [unwind, isOpen, found] using whole.symm
          · simpa using inside

end Scope

/-- Label types whose fresh labels are different. -/
class LawfulFreshLabels (Label : Type) [BEq Label] [FreshLabels Label] : Prop where
  beq_fresh (m n : Nat) : ((FreshLabels.fresh m : Label) == FreshLabels.fresh n) = (m == n)

/-- Scopes, with the number of the next fresh label. -/
structure Desk (Label Atom : Type) [BEq Label] where
  serial : Nat
  scopes : List (Scope Label Atom)

namespace Desk

variable {Label Atom : Type} [BEq Label] {d e : Desk Label Atom} {index : Nat}

def openHypotheses (d : Desk Label Atom) : List (Hypothesis Label Atom) :=
  d.scopes.flatMap Scope.stack

/-- A scope. One that is not there has nothing open. -/
def scopeAt (d : Desk Label Atom) (index : Nat) : Scope Label Atom := d.scopes.getD index .empty

/-- The desk after a hypothesis was opened in a scope. -/
def opened [FreshLabels Label] (d : Desk Label Atom) (index : Nat) (f : Formula Atom) :
    Desk Label Atom :=
  ⟨d.serial + 1, d.scopes.set index ((d.scopeAt index).push d.serial f).2⟩

/-- The desk after hypotheses of a scope were closed, with those that are left of its stack. -/
def closed (d : Desk Label Atom) (index : Nat) (rest : List (Hypothesis Label Atom)) :
    Desk Label Atom :=
  ⟨d.serial, d.scopes.set index ⟨rest⟩⟩

theorem scopeAt_eq_getElem (bound : index < d.scopes.length) :
    d.scopeAt index = d.scopes[index] := by
  simp [scopeAt, bound]

theorem closed_self (d : Desk Label Atom) (index : Nat) :
    d.closed index (d.scopeAt index).stack = d := by
  rw [closed]
  by_cases bound : index < d.scopes.length
  · rw [scopeAt_eq_getElem bound, List.set_getElem_self]
  · rw [List.set_eq_of_length_le (Nat.le_of_not_lt bound)]

theorem mem_openHypotheses_of_mem_scopeAt {h : Hypothesis Label Atom}
    (mem : h ∈ (d.scopeAt index).stack) : h ∈ d.openHypotheses := by
  by_cases bound : index < d.scopes.length
  · rw [scopeAt_eq_getElem bound] at mem
    exact List.mem_flatMap.mpr ⟨_, List.getElem_mem bound, mem⟩
  · simp [scopeAt, Nat.le_of_not_lt bound, Scope.empty] at mem

/-- The hypotheses of a scope stand between those of others, which stay when it is replaced. -/
theorem exists_openHypotheses_eq (bound : index < d.scopes.length) :
    ∃ before after, d.openHypotheses = before ++ ((d.scopeAt index).stack ++ after) ∧
      ∀ serial new, openHypotheses ⟨serial, d.scopes.set index new⟩ =
        before ++ (new.stack ++ after) := by
  refine ⟨(d.scopes.take index).flatMap Scope.stack,
    (d.scopes.drop (index + 1)).flatMap Scope.stack, ?_, fun serial new => ?_⟩
  · have split :
        d.scopes = d.scopes.take index ++ d.scopes[index] :: d.scopes.drop (index + 1) := by
      simp
    rw [scopeAt_eq_getElem bound, ← List.flatMap_cons, ← List.flatMap_append, ← split,
      openHypotheses]
  · simp [openHypotheses, List.set_eq_take_append_cons_drop, bound]

theorem sublist_of_closed {inner rest : List (Hypothesis Label Atom)}
    (stack : (d.scopeAt index).stack = inner ++ rest) :
    (d.closed index rest).openHypotheses.Sublist d.openHypotheses := by
  by_cases bound : index < d.scopes.length
  · obtain ⟨before, after, all, replaced⟩ := exists_openHypotheses_eq bound
    rw [all, closed, replaced, stack]
    exact ((List.sublist_append_right inner rest).append_right after).append_left before
  · rw [closed, List.set_eq_of_length_le (Nat.le_of_not_lt bound)]

variable [FreshLabels Label]

theorem mem_of_mem_opened {f : Formula Atom} {h : Hypothesis Label Atom}
    (mem : h ∈ (d.opened index f).openHypotheses) :
    h = ((d.scopeAt index).push d.serial f).1 ∨ h ∈ d.openHypotheses := by
  by_cases bound : index < d.scopes.length
  · obtain ⟨before, after, all, replaced⟩ := exists_openHypotheses_eq bound
    rw [opened, replaced] at mem
    simp only [Scope.push, all, List.mem_append, List.mem_cons] at mem ⊢
    tauto
  · rw [opened, List.set_eq_of_length_le (Nat.le_of_not_lt bound)] at mem
    exact .inr mem

structure Disciplined (d : Desk Label Atom) : Prop where
  /-- Open hypotheses have different labels, in one scope and across scopes. -/
  distinct : d.openHypotheses.Pairwise fun h k => (h.label == k.label) = false
  /-- From the outermost hypothesis to the innermost one, the numbers of the labels increase. -/
  increasing : ∀ scope ∈ d.scopes, scope.outermostFirst.Pairwise fun outer inner =>
    ∃ m n, outer.label = FreshLabels.fresh m ∧ inner.label = FreshLabels.fresh n ∧ m < n
  issued : ∀ h ∈ d.openHypotheses, ∃ n < d.serial, h.label = FreshLabels.fresh n
  supposed : ∀ h ∈ d.openHypotheses, h.proof = .suppose h.formula h.label

/-- What may happen to the scopes: labels are taken from the supply, and a stack gets a fresh
hypothesis or loses some at its inner end. -/
inductive Move (d : Desk Label Atom) : Desk Label Atom → Prop
  | issue {serial} : d.serial ≤ serial → Move d ⟨serial, d.scopes⟩
  | newScope : Move d ⟨d.serial, d.scopes ++ [.empty]⟩
  | push {index f} : Move d (d.opened index f)
  | close {index rest} (inner) : (d.scopeAt index).stack = inner ++ rest →
      Move d (d.closed index rest)

theorem Disciplined.issue (disciplined : d.Disciplined) {serial : Nat} (le : d.serial ≤ serial) :
    Disciplined ⟨serial, d.scopes⟩ where
  distinct := disciplined.distinct
  increasing := disciplined.increasing
  issued h mem := by
    obtain ⟨n, below, label⟩ := disciplined.issued h mem
    exact ⟨n, Nat.lt_of_lt_of_le below le, label⟩
  supposed := disciplined.supposed

theorem Disciplined.newScope (disciplined : d.Disciplined) :
    Disciplined ⟨d.serial, d.scopes ++ [.empty]⟩ := by
  have same : openHypotheses ⟨d.serial, d.scopes ++ [.empty]⟩ = d.openHypotheses := by
    simp [openHypotheses, Scope.empty]
  refine ⟨same ▸ disciplined.distinct, ?_, same ▸ disciplined.issued, same ▸ disciplined.supposed⟩
  intro scope mem
  rcases List.mem_append.mp mem with old | new
  · exact disciplined.increasing scope old
  · rw [List.mem_singleton.mp new]
    exact .nil

theorem Disciplined.increasing_scopeAt (disciplined : d.Disciplined) (index : Nat) :
    (d.scopeAt index).outermostFirst.Pairwise fun outer inner =>
      ∃ m n, outer.label = FreshLabels.fresh m ∧ inner.label = FreshLabels.fresh n ∧ m < n := by
  by_cases bound : index < d.scopes.length
  · rw [scopeAt_eq_getElem bound]
    exact disciplined.increasing _ (List.getElem_mem bound)
  · simp [scopeAt, Nat.le_of_not_lt bound, Scope.empty, Scope.outermostFirst]

theorem Disciplined.close (disciplined : d.Disciplined) {inner rest : List (Hypothesis Label Atom)}
    (stack : (d.scopeAt index).stack = inner ++ rest) : (d.closed index rest).Disciplined := by
  have fewer := sublist_of_closed stack
  refine ⟨disciplined.distinct.sublist fewer, ?_,
    fun h mem => disciplined.issued h (fewer.subset mem),
    fun h mem => disciplined.supposed h (fewer.subset mem)⟩
  intro scope mem
  rcases List.mem_or_eq_of_mem_set mem with old | rfl
  · exact disciplined.increasing scope old
  · have whole := disciplined.increasing_scopeAt index
    rw [Scope.outermostFirst, stack, List.reverse_append] at whole
    exact whole.sublist (List.sublist_append_left ..)

variable [LawfulFreshLabels Label]

theorem Disciplined.beq_fresh (disciplined : d.Disciplined) {h : Hypothesis Label Atom}
    (mem : h ∈ d.openHypotheses) :
    (h.label == FreshLabels.fresh d.serial) = false ∧
      (FreshLabels.fresh d.serial == h.label) = false := by
  obtain ⟨n, below, label⟩ := disciplined.issued h mem
  rw [label, LawfulFreshLabels.beq_fresh, LawfulFreshLabels.beq_fresh]
  exact ⟨beq_false_of_ne (Nat.ne_of_lt below), beq_false_of_ne (Nat.ne_of_gt below)⟩

theorem Disciplined.distinct_opened (disciplined : d.Disciplined) (index : Nat)
    (f : Formula Atom) :
    (d.opened index f).openHypotheses.Pairwise fun h k => (h.label == k.label) = false := by
  have old := disciplined.distinct
  by_cases bound : index < d.scopes.length
  · obtain ⟨before, after, all, replaced⟩ := exists_openHypotheses_eq bound
    -- The fresh label differs from the others, on whichever side of it they stand.
    have apart := fun h => disciplined.beq_fresh (h := h)
    rw [all] at old apart
    rw [opened, replaced]
    simp only [Scope.push, List.mem_append, List.pairwise_append, List.pairwise_cons, List.mem_cons,
      List.cons_append] at *
    grind
  · rwa [opened, List.set_eq_of_length_le (Nat.le_of_not_lt bound)]

theorem Disciplined.push (disciplined : d.Disciplined) (index : Nat) (f : Formula Atom) :
    (d.opened index f).Disciplined := by
  refine ⟨disciplined.distinct_opened index f, ?_, ?_, ?_⟩
  · intro scope mem
    rcases List.mem_or_eq_of_mem_set mem with old | rfl
    · exact disciplined.increasing scope old
    · simp only [Scope.outermostFirst, Scope.push, List.reverse_cons, List.pairwise_append]
      refine ⟨disciplined.increasing_scopeAt index, List.pairwise_singleton .., ?_⟩
      intro outer outer_mem inner inner_mem
      rw [List.mem_singleton.mp inner_mem]
      obtain ⟨n, below, label⟩ := disciplined.issued outer
        (mem_openHypotheses_of_mem_scopeAt (List.mem_reverse.mp outer_mem))
      exact ⟨n, d.serial, label, rfl, below⟩
  · intro h mem
    rcases mem_of_mem_opened mem with rfl | old
    · exact ⟨d.serial, d.serial.lt_succ_self, rfl⟩
    · obtain ⟨n, below, label⟩ := disciplined.issued h old
      exact ⟨n, Nat.lt_succ_of_lt below, label⟩
  · intro h mem
    rcases mem_of_mem_opened mem with rfl | old
    · rfl
    · exact disciplined.supposed h old

theorem Move.disciplined (move : d.Move e) (disciplined : d.Disciplined) : e.Disciplined := by
  cases move with
  | issue le => exact disciplined.issue le
  | newScope => exact disciplined.newScope
  | push => exact disciplined.push ..
  | close inner stack => exact disciplined.close stack

end Desk

end Deduction
