import Mathlib.Data.List.Pairwise
import Deduction.Proofs.Scope.Discipline

/-!
How the stacks of scopes change in the course of time.

Since any earlier moment, a stack has kept some of its outer part, and what stands inside of that
has labels that were issued since. So a hypothesis that is still open has everything around it that
it was opened in, and when it goes, all inside it goes too and its label is not used again.
-/

namespace Deduction

section

variable {Label Atom : Type} [BEq Label] [BEq Atom] [ReflBEq Atom] {h k : Hypothesis Label Atom}

theorem Hypothesis.beq_eq_false (apart : (h.label == k.label) = false) : (h == k) = false := by
  change (h.label == k.label && h.formula == k.formula) = false
  rw [apart, Bool.false_and]

theorem Hypothesis.beq_self (self : (h.label == h.label) = true) : (h == h) = true := by
  change (h.label == h.label && h.formula == h.formula) = true
  rw [self, BEq.rfl, Bool.true_and]

namespace Scope

variable {scope : Scope Label Atom}

theorem isOpen_of_mem (self : (h == h) = true) (mem : h ∈ scope.stack) : scope.isOpen h = true :=
  List.contains_iff_exists_mem_beq.mpr ⟨h, mem, self⟩

theorem isOpen_eq_false (apart : ∀ k ∈ scope.stack, (h == k) = false) :
    scope.isOpen h = false := by
  rw [isOpen, ← Bool.not_eq_true, List.contains_iff_exists_mem_beq]
  rintro ⟨k, mem, same⟩
  rw [apart k mem] at same
  cases same

theorem release_of_stack {outer : List (Hypothesis Label Atom)} (self : (h == h) = true)
    (stack : scope.stack = h :: outer) : scope.release h = .ok (some ⟨outer⟩) := by
  have isOpen := isOpen_of_mem self (stack ▸ List.mem_cons_self)
  simp [release, stack, isOpen, self]

theorem stack_unwind {inner outer : List (Hypothesis Label Atom)} (self : (h == h) = true)
    (stack : scope.stack = inner ++ h :: outer) (others : ∀ k ∈ inner, (k == h) = false) :
    (scope.unwind h).stack = outer := by
  have isOpen : scope.isOpen h = true := isOpen_of_mem self (by simp [stack])
  have cut : (inner ++ h :: outer).dropWhile (fun k => !(k == h)) = h :: outer := by
    rw [List.dropWhile_append_of_pos fun k mem => by simp [others k mem]]
    simp [self]
  simp [unwind, isOpen, stack, cut]

end Scope

end

namespace Desk

variable {Label Atom : Type} [BEq Label] {d e e' : Desk Label Atom} {index other : Nat}

/-! ### Stacks after a move -/

theorem scopeAt_set (d : Desk Label Atom) (serial index other : Nat) (scope : Scope Label Atom) :
    scopeAt ⟨serial, d.scopes.set index scope⟩ other =
      if index = other ∧ index < d.scopes.length then scope else d.scopeAt other := by
  by_cases same : index = other
  · subst same
    by_cases bound : index < d.scopes.length
    · simp [scopeAt, bound]
    · simp [scopeAt, bound, List.set_eq_of_length_le (Nat.le_of_not_lt bound)]
  · simp [scopeAt, same, List.getD_eq_getElem?_getD]

theorem scopeAt_newScope (d : Desk Label Atom) (serial index : Nat) :
    scopeAt ⟨serial, d.scopes ++ [.empty]⟩ index = d.scopeAt index := by
  simp only [scopeAt, List.getD_eq_getElem?_getD, List.getElem?_append]
  split
  · rfl
  · rename_i out
    rw [List.getElem?_eq_none (Nat.le_of_not_lt out)]
    cases index - d.scopes.length <;> rfl

theorem scopeAt_closed_of_ne (ne : index ≠ other) (rest : List (Hypothesis Label Atom)) :
    (d.closed index rest).scopeAt other = d.scopeAt other := by
  simp [closed, scopeAt_set, ne]

theorem stack_closed (inner : List (Hypothesis Label Atom)) {rest : List (Hypothesis Label Atom)}
    (stack : (d.scopeAt index).stack = inner ++ rest) :
    ((d.closed index rest).scopeAt index).stack = rest := by
  rw [closed, scopeAt_set]
  split
  · rfl
  · rename_i out
    have missing : d.scopes.length ≤ index := by simpa using out
    have nothing : (d.scopeAt index).stack = [] := by simp [scopeAt, missing, Scope.empty]
    rw [nothing] at stack ⊢
    exact (List.append_eq_nil_iff.mp stack.symm).2.symm

/-- Every stack is an outer part of what it was. -/
def Shrinks (d e : Desk Label Atom) : Prop :=
  ∀ index, (e.scopeAt index).stack <:+ (d.scopeAt index).stack

theorem Shrinks.refl (d : Desk Label Atom) : Shrinks d d := fun _ => List.suffix_rfl

theorem Shrinks.trans (first : Shrinks d e) (second : Shrinks e e') : Shrinks d e' :=
  fun index => (second index).trans (first index)

theorem shrinks_closed (inner : List (Hypothesis Label Atom))
    {rest : List (Hypothesis Label Atom)} (stack : (d.scopeAt index).stack = inner ++ rest) :
    Shrinks d (d.closed index rest) := by
  intro other
  by_cases same : index = other
  · subst same
    rw [stack_closed inner stack, stack]
    exact List.suffix_append inner rest
  · rw [scopeAt_closed_of_ne same]

variable [FreshLabels Label]

theorem scopeAt_opened_of_ne (ne : index ≠ other) (f : Formula Atom) :
    (d.opened index f).scopeAt other = d.scopeAt other := by
  simp [opened, scopeAt_set, ne]

theorem stack_opened_suffix (d : Desk Label Atom) (index : Nat) (f : Formula Atom) :
    ((d.opened index f).scopeAt index).stack <:+
      ((d.scopeAt index).push d.serial f).1 :: (d.scopeAt index).stack := by
  rw [opened, scopeAt_set]
  split
  · exact List.suffix_rfl
  · exact List.suffix_cons ..

/-! ### Stacks in the course of time -/

/-- What may have become of the scopes since a moment: every stack has kept an outer part of what it
was, and the labels that stand inside of that part were issued since. -/
structure Since (d e : Desk Label Atom) : Prop where
  serial_le : d.serial ≤ e.serial
  splits : ∀ index, ∃ new kept, (e.scopeAt index).stack = new ++ kept ∧
    kept <:+ (d.scopeAt index).stack ∧
    ∀ k ∈ new, ∃ n, d.serial ≤ n ∧ k.label = FreshLabels.fresh n

theorem Shrinks.since (shrinks : Shrinks d e) (le : d.serial ≤ e.serial) : Since d e :=
  ⟨le, fun index => ⟨[], _, rfl, shrinks index, by simp⟩⟩

theorem Since.refl (d : Desk Label Atom) : Since d d := (Shrinks.refl d).since (Nat.le_refl _)

theorem Since.trans (first : Since d e) (second : Since e e') : Since d e' := by
  refine ⟨Nat.le_trans first.serial_le second.serial_le, fun index => ?_⟩
  obtain ⟨new₁, kept₁, stack₁, suffix₁, issued₁⟩ := first.splits index
  obtain ⟨new₂, kept₂, stack₂, suffix₂, issued₂⟩ := second.splits index
  have issued : ∀ k ∈ new₂, ∃ n, d.serial ≤ n ∧ k.label = FreshLabels.fresh n := by
    intro k mem
    obtain ⟨n, le, label⟩ := issued₂ k mem
    exact ⟨n, Nat.le_trans first.serial_le le, label⟩
  rw [stack₁] at suffix₂
  -- The second part that was kept begins inside of the first one, or further outside.
  obtain ⟨gone, split⟩ := suffix₂
  rcases List.append_eq_append_iff.mp split with ⟨more, new_eq, kept_eq⟩ | ⟨more, _, kept_eq⟩
  · refine ⟨new₂ ++ more, kept₁, by rw [stack₂, kept_eq, List.append_assoc], suffix₁, ?_⟩
    refine List.forall_mem_append.mpr ⟨issued, fun k mem => issued₁ k ?_⟩
    rw [new_eq]
    exact List.mem_append_right _ mem
  · exact ⟨new₂, kept₂, stack₂, List.IsSuffix.trans ⟨more, kept_eq.symm⟩ suffix₁, issued⟩

theorem since_opened (d : Desk Label Atom) (index : Nat) (f : Formula Atom) :
    Since d (d.opened index f) := by
  refine ⟨d.serial.le_succ, fun other => ?_⟩
  by_cases same : index = other
  · subst same
    rcases List.suffix_cons_iff.mp (d.stack_opened_suffix index f) with whole | kept
    · refine ⟨[_], _, whole, List.suffix_rfl, fun k mem => ⟨d.serial, Nat.le_refl _, ?_⟩⟩
      rw [List.mem_singleton.mp mem]
      rfl
    · exact ⟨[], _, rfl, kept, by simp⟩
  · exact ⟨[], _, rfl, by rw [scopeAt_opened_of_ne same], by simp⟩

theorem Move.since (move : d.Move e) : Since d e := by
  cases move with
  | issue le => exact Shrinks.since (fun _ => List.suffix_rfl) le
  | newScope =>
      refine Shrinks.since (fun index => ?_) (Nat.le_refl _)
      rw [scopeAt_newScope]
  | push => exact since_opened ..
  | close inner stack => exact (shrinks_closed inner stack).since (Nat.le_refl _)

theorem Since.mem_cases (since : Since d e) {k : Hypothesis Label Atom}
    (mem : k ∈ (e.scopeAt index).stack) :
    k ∈ (d.scopeAt index).stack ∨ ∃ n, d.serial ≤ n ∧ k.label = FreshLabels.fresh n := by
  obtain ⟨new, kept, stack, suffix, issued⟩ := since.splits index
  rw [stack, List.mem_append] at mem
  rcases mem with late | early
  · exact .inr (issued k late)
  · exact .inl (suffix.subset early)

/-! ### A hypothesis and what is around it -/

section

variable [LawfulFreshLabels Label] {h k : Hypothesis Label Atom}

theorem eq_of_fresh_eq {m n : Nat}
    (same : (FreshLabels.fresh m : Label) = FreshLabels.fresh n) : m = n := by
  have eq : ((FreshLabels.fresh m : Label) == FreshLabels.fresh n) = (m == n) :=
    LawfulFreshLabels.beq_fresh m n
  rw [same, LawfulFreshLabels.beq_fresh, beq_self_eq_true] at eq
  exact beq_iff_eq.mp eq.symm

/-- The hypotheses of a scope are different, as their labels are. -/
theorem Disciplined.nodup_stack (disciplined : d.Disciplined) (index : Nat) :
    (d.scopeAt index).stack.Nodup := by
  have increasing := disciplined.increasing_scopeAt index
  rw [Scope.outermostFirst, List.pairwise_reverse] at increasing
  refine increasing.imp ?_
  rintro h _ ⟨m, n, outer, inner, lt⟩ rfl
  exact Nat.ne_of_lt lt (eq_of_fresh_eq (outer.symm.trans inner))

/-- When a hypothesis goes, all that was opened inside it goes too. -/
theorem Since.mem_outer (since : Since d e) (disciplined : d.Disciplined)
    {inner outer : List (Hypothesis Label Atom)}
    (stack : (d.scopeAt index).stack = inner ++ h :: outer) (gone : h ∉ (e.scopeAt index).stack)
    (before : k ∈ (d.scopeAt index).stack) (still : k ∈ (e.scopeAt index).stack) : k ∈ outer := by
  obtain ⟨new, kept, split, suffix, issued⟩ := since.splits index
  rw [split, List.mem_append, not_or] at gone
  rw [split, List.mem_append] at still
  rcases still with late | early
  · -- A label that was issued since is not one of those before.
    obtain ⟨m, le, label⟩ := issued k late
    obtain ⟨n, below, label'⟩ := disciplined.issued k (mem_openHypotheses_of_mem_scopeAt before)
    have same : m = n := eq_of_fresh_eq (label.symm.trans label')
    omega
  · have around : h :: outer <:+ (d.scopeAt index).stack := ⟨inner, stack.symm⟩
    rcases List.suffix_or_suffix_of_suffix suffix around with within | beyond
    · rcases List.suffix_cons_iff.mp within with rfl | outside
      · exact absurd List.mem_cons_self gone.2
      · exact outside.subset early
    · exact absurd (beyond.subset List.mem_cons_self) gone.2

variable [BEq Atom] [ReflBEq Atom] {f : Formula Atom}

theorem beq_pushed (scope : Scope Label Atom) (serial : Nat) (f : Formula Atom) :
    ((scope.push serial f).1 == (scope.push serial f).1) = true := by
  refine Hypothesis.beq_self ?_
  exact (LawfulFreshLabels.beq_fresh serial serial).trans (beq_self_eq_true serial)

/-- A hypothesis with a label that is issued later is another one. -/
theorem beq_pushed_of_later {scope : Scope Label Atom} {serial n : Nat} (later : serial < n)
    (label : k.label = FreshLabels.fresh n) :
    (k == (scope.push serial f).1) = false ∧ ((scope.push serial f).1 == k) = false := by
  refine ⟨Hypothesis.beq_eq_false ?_, Hypothesis.beq_eq_false ?_⟩
  · rw [label]
    exact (LawfulFreshLabels.beq_fresh n serial).trans (beq_false_of_ne (Nat.ne_of_gt later))
  · rw [label]
    exact (LawfulFreshLabels.beq_fresh serial n).trans (beq_false_of_ne (Nat.ne_of_lt later))

theorem Disciplined.beq_pushed_of_earlier (disciplined : d.Disciplined)
    (earlier : k ∈ (d.scopeAt index).stack) :
    (((d.scopeAt index).push d.serial f).1 == k) = false :=
  Hypothesis.beq_eq_false (disciplined.beq_fresh (mem_openHypotheses_of_mem_scopeAt earlier)).2

/-- Since a hypothesis was opened, it is open in all that it was opened in, or it is closed. -/
theorem Disciplined.pushed_cases (disciplined : d.Disciplined)
    (since : Since (d.opened index f) e) :
    (∃ inner, (e.scopeAt index).stack =
        inner ++ ((d.scopeAt index).push d.serial f).1 :: (d.scopeAt index).stack ∧
      ∀ k ∈ inner, (k == ((d.scopeAt index).push d.serial f).1) = false) ∨
    (e.scopeAt index).isOpen ((d.scopeAt index).push d.serial f).1 = false := by
  obtain ⟨new, kept, stack, suffix, issued⟩ := since.splits index
  have later : ∀ k ∈ new, (k == ((d.scopeAt index).push d.serial f).1) = false ∧
      (((d.scopeAt index).push d.serial f).1 == k) = false := by
    intro k mem
    obtain ⟨n, le, label⟩ := issued k mem
    exact beq_pushed_of_later le label
  rcases List.suffix_cons_iff.mp (suffix.trans (d.stack_opened_suffix index f)) with
    rfl | suffix
  · exact .inl ⟨new, stack, fun k mem => (later k mem).1⟩
  · refine .inr (Scope.isOpen_eq_false fun k mem => ?_)
    rw [stack, List.mem_append] at mem
    rcases mem with mem | mem
    · exact (later k mem).2
    · exact disciplined.beq_pushed_of_earlier (suffix.subset mem)

end

/-! ### Labels that are not used again -/

section

variable [LawfulFreshLabels Label] {h k : Hypothesis Label Atom} {label : Label} {other : Nat}

omit [FreshLabels Label] [LawfulFreshLabels Label] in
theorem lt_length_of_mem_scopeAt (mem : h ∈ (d.scopeAt index).stack) :
    index < d.scopes.length := by
  by_contra out
  simp [scopeAt, Nat.le_of_not_lt out, Scope.empty] at mem

theorem Disciplined.labels_ne (disciplined : d.Disciplined) :
    d.openHypotheses.Pairwise fun h k => h.label ≠ k.label := by
  refine disciplined.distinct.imp_of_mem ?_
  intro h k mem _ apart same
  obtain ⟨n, _, label⟩ := disciplined.issued h mem
  rw [← same, label, LawfulFreshLabels.beq_fresh, beq_self_eq_true] at apart
  cases apart

/-- A label belongs to one hypothesis, in one scope. -/
theorem Disciplined.eq_of_label_eq (disciplined : d.Disciplined)
    (mem : h ∈ (d.scopeAt index).stack) (mem' : k ∈ (d.scopeAt other).stack)
    (same : h.label = k.label) : index = other ∧ h = k := by
  obtain ⟨within, across⟩ := List.pairwise_flatMap.mp disciplined.labels_ne
  have bound := lt_length_of_mem_scopeAt mem
  have bound' := lt_length_of_mem_scopeAt mem'
  rw [scopeAt_eq_getElem bound] at mem
  rw [scopeAt_eq_getElem bound'] at mem'
  have ordered := List.pairwise_iff_getElem.mp across
  rcases Nat.lt_trichotomy index other with before | rfl | after
  · exact absurd same (ordered index other bound bound' before h mem k mem')
  · refine ⟨rfl, ?_⟩
    by_contra differ
    have : Std.Symm fun h k : Hypothesis Label Atom => h.label ≠ k.label := ⟨fun _ _ => Ne.symm⟩
    exact (within _ (List.getElem_mem bound)).forall mem mem' differ same
  · exact absurd same.symm (ordered other index bound' bound after k mem' h mem)

/-- No open hypothesis has this label, and none will get it. -/
structure Retired (d : Desk Label Atom) (label : Label) : Prop where
  issued : ∃ n < d.serial, label = FreshLabels.fresh n
  unused : ∀ index, ∀ k ∈ (d.scopeAt index).stack, (k.label == label) = false

theorem Retired.since (retired : d.Retired label) (since : Since d e) : e.Retired label := by
  obtain ⟨m, below, rfl⟩ := retired.issued
  refine ⟨⟨m, Nat.lt_of_lt_of_le below since.serial_le, rfl⟩, fun index k mem => ?_⟩
  rcases since.mem_cases mem with old | ⟨n, le, label⟩
  · exact retired.unused index k old
  · rw [label, LawfulFreshLabels.beq_fresh]
    exact beq_false_of_ne (Nat.ne_of_gt (Nat.lt_of_lt_of_le below le))

/-- When a hypothesis goes, its label goes for good. -/
theorem Since.retired (since : Since d e) (disciplined : d.Disciplined)
    (was : h ∈ (d.scopeAt index).stack) (gone : h ∉ (e.scopeAt index).stack) :
    e.Retired h.label := by
  obtain ⟨m, below, label⟩ := disciplined.issued h (mem_openHypotheses_of_mem_scopeAt was)
  refine ⟨⟨m, Nat.lt_of_lt_of_le below since.serial_le, label⟩, fun other k mem => ?_⟩
  rcases since.mem_cases mem with old | ⟨n, le, label'⟩
  · obtain ⟨n, _, label'⟩ := disciplined.issued k (mem_openHypotheses_of_mem_scopeAt old)
    rw [label, label', LawfulFreshLabels.beq_fresh]
    refine beq_false_of_ne ?_
    rintro rfl
    -- Only the hypothesis itself has its label, and it is not there any more.
    obtain ⟨rfl, rfl⟩ := disciplined.eq_of_label_eq old was (label'.trans label.symm)
    exact gone mem
  · rw [label, label', LawfulFreshLabels.beq_fresh]
    exact beq_false_of_ne (Nat.ne_of_gt (Nat.lt_of_lt_of_le below le))

end

end Desk

end Deduction
