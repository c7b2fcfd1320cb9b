import Deduction.Proofs.Workbench.Quiet

/-!
The scopes of a workbench, in every state that it can get into.

The calls on scopes are few, and the effect of each of them is described in full. As every effect is
one of the moves that keep scopes in order, they are in order after any sequence of calls, and so
after every program.
-/

namespace Deduction

instance : LawfulFreshLabels Key where
  beq_fresh m n := by
    have same : ((m : Int) * 1 == (n : Int) * 1) = (m == n) := by
      rw [Bool.eq_iff_iff, beq_iff_eq, beq_iff_eq]
      omega
    exact same

namespace Workbench

/-! ### What each call does -/

namespace Bench

@[simp]
theorem on_scopeAt (index : Nat) (s : State) :
    (scopeAt index).on s = (.ok (s.desk.scopeAt index), s) := rfl

@[simp]
theorem on_setScope (index : Nat) (scope : Scope Key Leaf) (s : State) :
    (setScope index scope).on s = (.ok (), { s with scopes := s.scopes.set index scope }) := rfl

@[simp]
theorem desk_set (s : State) (index : Nat) (scope : Scope Key Leaf)
    (registers : List (String × Value)) (fields : List (Nat × String)) (nextId : Nat)
    (log : List LogEntry) :
    State.desk ⟨registers, s.scopes.set index scope, fields, s.serial, nextId, log⟩ =
      s.desk.closed index scope.stack := rfl

theorem push_cases (s : State) (index : Nat) (t : Term) :
    (∃ fault, ((push index t).on s).1 = .error fault ∧
      ((push index t).on s).2.desk = ⟨s.desk.serial + 1, s.desk.scopes⟩) ∨
    ∃ value, ((push index t).on s).1 =
        .ok (value, ((s.desk.scopeAt index).push s.desk.serial t).1) ∧
      ((push index t).on s).2.desk = s.desk.opened index t := by
  cases isFormula : Term.isFormula t with
  | false =>
      left
      simp [push, requireFormula, isFormula, State.desk]
  | true =>
      right
      simp [push, requireFormula, isFormula, record, newId, Except.map,
        State.desk, Desk.opened, Desk.scopeAt]

theorem eq_proof_of_requireProof {p : Value} {premise : Premise} {s t : State}
    (run : (requireProof p).on s = (.ok premise, t)) :
    p = .proof premise.marks premise.proof := by
  cases p <;> cases run
  rfl

theorem discharge_cases [Limits] (s : State) (index : Nat) (named : Option Value) (p : Value) :
    (∃ fault, ((discharge index named p).on s).1 = .error fault ∧
      ((discharge index named p).on s).2.desk = s.desk) ∨
    ∃ q h rest premise t, ((discharge index named p).on s).1 = .ok q ∧
      (s.desk.scopeAt index).stack = h :: rest ∧ p = .proof premise.marks premise.proof ∧
      ((infer (.implIntro h.label premise)).on t).1 = .ok q ∧
      ((discharge index named p).on s).2.desk = s.desk.closed index rest := by
  by_cases nothing : (s.desk.scopeAt index).stack = []
  · left
    simp [discharge, nothing]
  obtain ⟨fault | named, s₁, run₁, same₁⟩ := (silent_namedHypothesis named).quiet.exists_on s
  · left
    simp [discharge, nothing, run₁, same₁]
  rcases top : (s.desk.scopeAt index).innermost named with e | ⟨h, outer⟩
  · left
    simp [discharge, nothing, run₁, top, same₁]
  obtain ⟨fault | premise, s₂, run₂, same₂⟩ := (silent_requireProof p).quiet.exists_on s₁
  · left
    simp [discharge, nothing, run₁, top, run₂, same₂, same₁]
  obtain ⟨fault | q, s₃, run₃, same₃⟩ :=
    (silent_infer (.implIntro h.label premise)).quiet.exists_on s₂
  · left
    simp [discharge, nothing, run₁, top, run₂, run₃, same₃, same₂, same₁]
  · right
    have same : s₃.desk = s.desk := same₃.trans (same₂.trans same₁)
    refine ⟨q, h, outer.stack, premise, s₂, ?_, (Scope.innermost_eq_ok_iff.mp top).1,
      eq_proof_of_requireProof run₂, by rw [run₃], ?_⟩
    · simp [discharge, nothing, run₁, top, run₂, run₃, record, Except.map]
    · rw [← same]
      simp [discharge, nothing, run₁, top, run₂, run₃, record]

theorem release_cases (s : State) (index : Nat) (value : Value) :
    (∃ i j h k rest, value = .hypothesis i j h ∧ (s.desk.scopeAt index).isOpen h = true ∧
      (s.desk.scopeAt index).stack = k :: rest ∧ (k == h) = false ∧
      (release index value).on s = (.error (.scope (.releaseBlocked h.label k.label)), s)) ∨
    (∃ i j h k rest, value = .hypothesis i j h ∧ (s.desk.scopeAt index).stack = k :: rest ∧
      (k == h) = true ∧ ((release index value).on s).1 = .ok () ∧
      ((release index value).on s).2.desk = s.desk.closed index rest) ∨
    ((release index value).on s = (.ok (), s) ∧
      ∀ i j h, value = .hypothesis i j h → (s.desk.scopeAt index).isOpen h = false) := by
  cases value with
  | hypothesis i j h =>
      rcases found : (s.desk.scopeAt index).release h with e | _ | outer
      · obtain ⟨isOpen, k, outer, stack, differs, rfl⟩ := Scope.stack_of_release_error found
        exact .inl ⟨i, j, h, k, outer, rfl, isOpen, stack, differs, by simp [release, found]⟩
      · refine .inr (.inr ⟨by simp [release, found], ?_⟩)
        rintro _ _ _ ⟨⟩
        exact Scope.release_eq_ok_none_iff.mp found
      · obtain ⟨k, stack, same⟩ := Scope.stack_of_release found
        refine .inr (.inl ⟨i, j, h, k, outer.stack, rfl, stack, same, ?_, ?_⟩)
        · simp [release, found, record]
        · simp [release, found, record]
  | _ => exact .inr (.inr ⟨rfl, by simp⟩)

theorem scopeIndex_cases (s : State) (name method : String) :
    (∃ fault, (scopeIndex name method).on s = (.error fault, s)) ∨
    ∃ index, Ordered.find? name s.registers = some (.scope index) ∧
      (scopeIndex name method).on s = (.ok index, s) := by
  cases found : Ordered.find? name s.registers with
  | none => exact .inl ⟨.noRegister name, by simp [scopeIndex, register, found]⟩
  | some value =>
      cases value with
      | scope index => exact .inr ⟨index, rfl, by simp [scopeIndex, register, found]⟩
      | _ => exact .inl ⟨_, by simp [scopeIndex, register, found]; rfl⟩

end Bench

theorem enter_cases [Limits] (s : State) (scope : String) (f : FormulaArg) (register : String) :
    (∃ fault serial, ((enter scope f register).on s).1 = .error fault ∧ s.desk.serial ≤ serial ∧
      ((enter scope f register).on s).2.desk = ⟨serial, s.desk.scopes⟩) ∨
    ∃ value index content, ((enter scope f register).on s).1 = .ok (index, value,
        ((s.desk.scopeAt index).push s.desk.serial (Term.written s.nextId content)).1) ∧
      Ordered.find? scope s.registers = some (.scope index) ∧ f.eval = .ok content ∧
      ((enter scope f register).on s).2.desk =
        s.desk.opened index (Term.written s.nextId content) := by
  rcases Bench.scopeIndex_cases s scope "assume" with ⟨fault, run₁⟩ | ⟨index, found, run₁⟩
  · exact .inl ⟨fault, s.desk.serial, by simp [enter, run₁]⟩
  obtain ⟨result, s₁, run₂, same⟩ := (Bench.silent_formula f).quiet.exists_on s
  cases eval : f.eval with
  | error fault =>
      obtain rfl : .error fault = result := by
        simpa [Bench.formula, Bench.newId, Bench.ofExcept, eval] using congrArg Prod.fst run₂
      exact .inl ⟨fault, s.desk.serial, by simp [enter, run₁, run₂, same]⟩
  | ok content =>
      obtain rfl : .ok (Term.written s.nextId content) = result := by
        simpa [Bench.formula, Bench.newId, Bench.ofExcept, eval, Except.map] using
          congrArg Prod.fst run₂
      have pushed := Bench.push_cases s₁ index (Term.written s.nextId content)
      rw [same] at pushed
      rcases run₃ : (Bench.push index (Term.written s.nextId content)).on s₁ with
        ⟨fault | result, s₂⟩
      · simp only [run₃] at pushed
        left
        refine ⟨fault, s.desk.serial + 1, ?_, s.desk.serial.le_succ, ?_⟩
        · simp [enter, run₁, run₂, run₃]
        · simpa [enter, run₁, run₂, run₃] using pushed
      · simp only [run₃, reduceCtorEq, false_and, exists_false, false_or] at pushed
        obtain ⟨value, ⟨⟩, desk⟩ := pushed
        right
        refine ⟨value, index, content, ?_, found, rfl, ?_⟩
        · simp [enter, run₁, run₂, run₃, Except.map, Bench.store]
        · simpa [enter, run₁, run₂, run₃, Bench.store, State.desk] using desk

/-- The fault that work ended in, if there was one. -/
def ended {α : Type} : Except Fault α × State → Option Fault × State
  | (.ok _, s) => (none, s)
  | (.error fault, s) => (some fault, s)

theorem ended_of_ok {α : Type} {out : Except Fault α × State} {a : α} (result : out.1 = .ok a) :
    ended out = (none, out.2) := by
  obtain ⟨_, _⟩ := out
  subst result
  rfl

theorem ended_of_error {α : Type} {out : Except Fault α × State} {fault : Fault}
    (result : out.1 = .error fault) : ended out = (some fault, out.2) := by
  obtain ⟨_, _⟩ := out
  subst result
  rfl

@[simp]
theorem run_attempt {α : Type} (work : Bench α) (s : State) :
    Id.run ((attempt work).run s) = work.on s := rfl

theorem run_leave_none (index : Nat) (h : Hypothesis Key Leaf) (s : State) :
    Id.run ((leave index h none).run s) =
      ended ((Bench.release index (.hypothesis 0 0 h)).on s) := by
  rcases run : (Bench.release index (.hypothesis 0 0 h)).on s with ⟨fault | _, t⟩
  all_goals simp [leave, run, ended]

theorem run_leave_some (index : Nat) (h : Hypothesis Key Leaf) (fault : Fault) (s : State) :
    Id.run ((leave index h (some fault)).run s) = (some fault, ((Bench.unwind index h).on s).2) :=
  rfl

/-! ### Calls and their effects -/

/-- The calls that scopes are there for. -/
inductive ScopeCall where
  | newScope
  | push (index : Nat) (t : Term)
  | discharge (index : Nat) (named : Option Value) (p : Value)
  | release (index : Nat) (h : Value)
  /-- Enter a block under a hypothesis. -/
  | enter (scope : String) (f : FormulaArg) (register : String)
  /-- Leave a block, by a fault or without one. -/
  | leave (index : Nat) (h : Hypothesis Key Leaf) (fault : Option Fault)

namespace ScopeCall

/-- The fault that a call ends in, if there is one, and the state that it leaves. -/
def on [Limits] : ScopeCall → State → Option Fault × State
  | .newScope, s => ended (Bench.newScope.on s)
  | .push index t, s => ended ((Bench.push index t).on s)
  | .discharge index named p, s => ended ((Bench.discharge index named p).on s)
  | .release index h, s => ended ((Bench.release index h).on s)
  | .enter scope f register, s => ended ((Workbench.enter scope f register).on s)
  | .leave index h fault, s => Id.run ((Workbench.leave index h fault).run s)

/-- The scope that a call is made on. -/
def own? (s : State) : ScopeCall → Option Nat
  | .newScope => none
  | .push index _ => some index
  | .discharge index _ _ => some index
  | .release index _ => some index
  | .enter scope _ _ =>
      match Ordered.find? scope s.registers with
      | some (.scope index) => some index
      | _ => none
  | .leave index _ _ => some index

/-- Whether a call abandons hypotheses because of a fault. -/
def unwinds : ScopeCall → Bool
  | .leave _ _ (some _) => true
  | _ => false

end ScopeCall

/-- What a call does to the scopes, by the fault that it ends in. -/
inductive Effect [Limits] (s : State) : ScopeCall → Option Fault → Desk Key Leaf → Prop
  /-- What fails leaves every stack as it was, but it may have used up a label. -/
  | failed {call fault serial} : call.unwinds = false → s.desk.serial ≤ serial →
      Effect s call (some fault) ⟨serial, s.desk.scopes⟩
  | newScope : Effect s .newScope none ⟨s.desk.serial, s.desk.scopes ++ [.empty]⟩
  | push {index t} : Effect s (.push index t) none (s.desk.opened index t)
  | enter {scope f register index content} :
      Ordered.find? scope s.registers = some (.scope index) → f.eval = .ok content →
      Effect s (.enter scope f register) none
        (s.desk.opened index (Term.written s.nextId content))
  /-- A discharge takes the innermost hypothesis. -/
  | discharge {index named p h rest} : (s.desk.scopeAt index).stack = h :: rest →
      Effect s (.discharge index named p) none (s.desk.closed index rest)
  | release {index i j h k rest} : (s.desk.scopeAt index).stack = k :: rest → (k == h) = true →
      Effect s (.release index (.hypothesis i j h)) none (s.desk.closed index rest)
  | ignored {index value} :
      (∀ i j h, value = .hypothesis i j h → (s.desk.scopeAt index).isOpen h = false) →
      Effect s (.release index value) none s.desk
  | leave {index h k rest} : (s.desk.scopeAt index).stack = k :: rest → (k == h) = true →
      Effect s (.leave index h none) none (s.desk.closed index rest)
  | left {index h} : (s.desk.scopeAt index).isOpen h = false →
      Effect s (.leave index h none) none s.desk
  /-- Only what was opened inside a hypothesis is abandoned with it. -/
  | unwound {index h fault inner rest} : (s.desk.scopeAt index).isOpen h = true →
      (s.desk.scopeAt index).stack = inner ++ rest → (∀ k ∈ inner.dropLast, (k == h) = false) →
      Effect s (.leave index h (some fault)) (some fault) (s.desk.closed index rest)
  | gone {index h fault} : (s.desk.scopeAt index).isOpen h = false →
      Effect s (.leave index h (some fault)) (some fault) s.desk

theorem effect_unwind [Limits] (s : State) (index : Nat) (h : Hypothesis Key Leaf) (fault : Fault) :
    Effect s (.leave index h (some fault)) (some fault) ((Bench.unwind index h).on s).2.desk := by
  have desk : ((Bench.unwind index h).on s).2.desk =
      s.desk.closed index ((s.desk.scopeAt index).unwind h).stack := by
    simp [Bench.unwind]
  rw [desk]
  cases isOpen : (s.desk.scopeAt index).isOpen h with
  | true =>
      obtain ⟨inner, stack, others⟩ := (s.desk.scopeAt index).exists_unwind_eq h
      exact .unwound isOpen stack others
  | false =>
      rw [Scope.unwind_of_not_isOpen isOpen, s.desk.closed_self]
      exact .gone isOpen

theorem ScopeCall.effect [Limits] (call : ScopeCall) (s : State) :
    Effect s call (call.on s).1 (call.on s).2.desk := by
  cases call with
  | newScope => exact .newScope
  | push index t =>
      rcases Bench.push_cases s index t with ⟨_, result, desk⟩ | ⟨_, result, desk⟩
      · rw [on, ended_of_error result, desk]
        exact .failed rfl s.desk.serial.le_succ
      · rw [on, ended_of_ok result, desk]
        exact .push
  | discharge index named p =>
      rcases Bench.discharge_cases s index named p with
        ⟨_, result, desk⟩ | ⟨_, h, rest, _, _, result, found, _, _, desk⟩
      · rw [on, ended_of_error result, desk]
        exact .failed rfl s.desk.serial.le_refl
      · rw [on, ended_of_ok result, desk]
        exact .discharge found
  | release index value =>
      rcases Bench.release_cases s index value with
        ⟨_, _, _, _, _, _, _, _, _, run⟩ | ⟨i, j, h, k, rest, rfl, found, same, result, desk⟩ |
        ⟨run, closed⟩
      · rw [on, run]
        exact .failed rfl s.desk.serial.le_refl
      · rw [on, ended_of_ok result, desk]
        exact .release found same
      · rw [on, run]
        exact .ignored closed
  | enter scope f register =>
      rcases enter_cases s scope f register with
        ⟨_, serial, result, le, desk⟩ | ⟨_, index, content, result, found, eval, desk⟩
      · rw [on, ended_of_error result, desk]
        exact .failed rfl le
      · rw [on, ended_of_ok result, desk]
        exact .enter found eval
  | leave index h fault =>
      cases fault with
      | some fault => exact effect_unwind s index h fault
      | none =>
          rw [on, run_leave_none]
          rcases Bench.release_cases s index (.hypothesis 0 0 h) with
            ⟨_, _, _, _, _, _, _, _, _, run⟩ | ⟨i, j, _, k, rest, ⟨⟩, found, same, result, desk⟩ |
            ⟨run, closed⟩
          · rw [run]
            exact .failed rfl s.desk.serial.le_refl
          · rw [ended_of_ok result, desk]
            exact .leave found same
          · rw [run]
            exact .left (closed 0 0 h rfl)

namespace Effect

variable [Limits] {s : State} {call : ScopeCall} {fault : Option Fault} {e : Desk Key Leaf}

theorem move (effect : Effect s call fault e) : s.desk.Move e := by
  cases effect with
  | failed _ le => exact .issue le
  | newScope => exact .newScope
  | push | enter _ _ => exact .push
  | discharge stack | release stack _ | leave stack _ => exact .close [_] stack
  | unwound _ stack _ => exact .close _ stack
  | ignored _ | left _ | gone _ => exact .issue s.desk.serial.le_refl

/-- No call does anything to a scope that it is not made on. -/
theorem getElem?_eq (effect : Effect s call fault e) {other : Nat}
    (not_own : call.own? s ≠ some other) (bound : other < s.scopes.length) :
    e.scopes[other]? = s.scopes[other]? := by
  cases effect with
  | newScope => exact List.getElem?_append_left bound
  | enter found _ =>
      apply List.getElem?_set_ne
      rintro rfl
      exact not_own (by simp [ScopeCall.own?, found])
  | push | discharge | release | leave | unwound =>
      apply List.getElem?_set_ne
      rintro rfl
      exact not_own rfl
  | failed | ignored | left | gone => rfl

end Effect

/-! ### Every state that is reached -/

inductive Reached [Limits] : State → Prop
  | initial : Reached .initial
  | call {s} (call : ScopeCall) : Reached s → Reached (call.on s).2
  /-- Whatever else is done leaves the scopes alone. It may take labels from the supply. -/
  | other {s t} : Reached s → t.scopes = s.scopes → s.serial ≤ t.serial → Reached t

theorem Reached.disciplined [Limits] {s : State} (reached : Reached s) : s.desk.Disciplined := by
  induction reached with
  | initial => exact ⟨.nil, nofun, nofun, nofun⟩
  | call call _ ih => exact (call.effect _).move.disciplined ih
  | @other s t _ scopes le ih =>
      have desk : t.desk = ⟨t.serial, s.desk.scopes⟩ := by rw [State.desk, scopes]; rfl
      rw [desk]
      exact (Desk.Move.issue le).disciplined ih

/-- The states that are reached from a state by calls that are allowed. -/
inductive Leads [Limits] (allowed : ScopeCall → Prop) (s : State) : State → Prop
  | refl : Leads allowed s s
  | call {t} (call : ScopeCall) : Leads allowed s t → allowed call → Leads allowed s (call.on t).2
  | other {t u} : Leads allowed s t → u.scopes = t.scopes → t.serial ≤ u.serial →
      Leads allowed s u

namespace Leads

variable [Limits] {allowed : ScopeCall → Prop} {s t u : State}

theorem trans (leads : Leads allowed s t) (further : Leads allowed t u) :
    Leads allowed s u := by
  induction further with
  | refl => exact leads
  | call call _ ok ih => exact ih.call call ok
  | other _ scopes le ih => exact ih.other scopes le

theorem mono {more : ScopeCall → Prop} (leads : Leads allowed s t)
    (weaker : ∀ call, allowed call → more call) : Leads more s t := by
  induction leads with
  | refl => exact .refl
  | call call _ ok ih => exact ih.call call (weaker call ok)
  | other _ scopes le ih => exact ih.other scopes le

theorem reached (leads : Leads allowed s t) (reached : Reached s) : Reached t := by
  induction leads with
  | refl => exact reached
  | call call _ _ ih => exact ih.call call
  | other _ scopes le ih => exact ih.other scopes le

end Leads

/-! ### Programs -/

@[simp]
theorem snd_ended {α : Type} (out : Except Fault α × State) : (ended out).2 = out.2 := by
  rcases out with ⟨_ | _, _⟩ <;> rfl

/-- Whether a call opens a hypothesis. -/
def ScopeCall.opens : ScopeCall → Bool
  | .push _ _ | .enter _ _ _ => true
  | _ => false

/-- Whether an action opens a hypothesis. Otherwise only blocks do. -/
def Action.pushes : Action → Bool
  | .push _ _ => true
  | _ => false

namespace Bench

variable [Limits] {α β : Type} {allowed : ScopeCall → Prop}

/-- Work that does nothing to the scopes but by calls that are allowed. -/
def Calls (allowed : ScopeCall → Prop) (work : Bench α) : Prop :=
  ∀ s, Leads allowed s (work.on s).2

theorem Quiet.calls {work : Bench α} (quiet : Quiet work) : Calls allowed work := by
  intro s
  have same := quiet s
  rw [State.desk, State.desk, Desk.mk.injEq] at same
  exact Leads.refl.other same.2 same.1.ge

theorem Silent.calls {work : Bench α} (silent : Silent work) : Calls allowed work :=
  silent.quiet.calls

theorem Calls.bind {work : Bench α} {next : α → Bench β} (calls : Calls allowed work)
    (rest : ∀ a, Calls allowed (next a)) : Calls allowed (work >>= next) := by
  intro s
  have first := calls s
  rw [on_bind]
  rcases run : work.on s with ⟨fault | a, t⟩
  · rwa [run] at first
  · rw [run] at first
    exact first.trans (rest a t)

theorem calls_push {index : Nat} {t : Term} (ok : allowed (.push index t)) :
    Calls allowed (push index t) := by
  intro s
  simpa [ScopeCall.on] using Leads.refl.call (s := s) (.push index t) ok

theorem calls_discharge {index : Nat} {named : Option Value} {p : Value}
    (ok : allowed (.discharge index named p)) : Calls allowed (discharge index named p) := by
  intro s
  simpa [ScopeCall.on] using Leads.refl.call (s := s) (.discharge index named p) ok

theorem calls_release {index : Nat} {h : Value} (ok : allowed (.release index h)) :
    Calls allowed (release index h) := by
  intro s
  simpa [ScopeCall.on] using Leads.refl.call (s := s) (.release index h) ok

theorem calls_newScope (ok : allowed .newScope) : Calls allowed newScope :=
  fun _ => Leads.refl.call .newScope ok

/-- Making a value like another makes a scope if that is one. -/
theorem calls_construct (ok : allowed .newScope) (x : Value) :
    Calls allowed (construct x) := by
  refine (silent_checkCount x 0).calls.bind fun _ => ?_
  split
  case h_3 => exact calls_newScope ok
  all_goals
    apply Quiet.calls
    grind [newSet]

theorem calls_tamper (ok : allowed .newScope) (x : Value) (how : Tampering) :
    Calls allowed (tamper x how) := by
  cases how with
  | construct => exact calls_construct ok x
  | extend => exact (silent_extend x).calls
  | assign field => exact (silent_assign x field).calls
  | erase field => exact (silent_erase x field).calls
  | refill => exact (silent_refill x).calls
  | _ =>
      apply Quiet.calls
      unfold tamper tamper.report newJson
      grind [silent_transfer, silent_copied]

/-- An action opens a hypothesis only if it is there for that. -/
theorem calls_act (action : Action) :
    Calls (fun call => call.opens = true → action.pushes = true) (act action) := by
  cases action with
  | fresh => exact fun s => Leads.refl.other rfl s.serial.le_succ
  | tamper x how =>
      refine (silent_ref x).calls.bind fun value => ?_
      refine (calls_tamper nofun value how).bind fun result => ?_
      apply Quiet.calls
      grind
  | newScope => exact calls_newScope nofun
  | push scope f =>
      refine (silent_scopeIndex scope "push").calls.bind fun index => ?_
      refine (silent_formula f).calls.bind fun t => ?_
      exact (calls_push fun _ => rfl).bind fun _ => (Silent.pure _).calls
  | discharge scope named p =>
      refine (silent_scopeIndex scope "discharge").calls.bind fun index => ?_
      cases named with
      | none => exact (silent_ref p).calls.bind fun p => calls_discharge nofun
      | some h =>
          refine (silent_ref h).calls.bind fun value => ?_
          exact (silent_ref p).calls.bind fun p => calls_discharge nofun
  | release scope h =>
      refine (silent_scopeIndex scope "release").calls.bind fun index => ?_
      refine (silent_ref h).calls.bind fun value => ?_
      exact (calls_release nofun).bind fun _ => (Silent.pure _).calls
  | disjElim r s l₁ t l₂ =>
      refine (silent_ref r).calls.bind fun r => ?_
      refine (silent_ref s).calls.bind fun s => Quiet.calls ?_
      grind
  | _ =>
      apply Quiet.calls
      unfold act
      grind [newText, newJson, newSet]

/-- The work of an instruction that is a single action. -/
theorem calls_act_and_store (action : Action) (register : Option String) :
    Calls (fun call => call.opens = true → action.pushes = true) do
      let value ← act action
      if let some name := register then store name value
      if (← get).tooDeep value then throw (.term .tooDeep)
      return value := by
  refine (calls_act action).bind fun value => Quiet.calls ?_
  grind

end Bench

theorem leads_leave [Limits] (s : State) (index : Nat) (h : Hypothesis Key Leaf)
    (fault : Option Fault) :
    Leads (fun _ => True) s (Id.run ((Workbench.leave index h fault).run s)).2 :=
  Leads.refl.call (.leave index h fault) trivial

theorem leads_enter [Limits] (s : State) (scope : String) (f : FormulaArg) (register : String) :
    Leads (fun _ => True) s ((Workbench.enter scope f register).on s).2 := by
  have entered : Leads (fun _ => True) s ((ScopeCall.enter scope f register).on s).2 :=
    Leads.refl.call _ trivial
  simpa [ScopeCall.on] using entered

mutual

theorem leads_runOne [Limits] (s : State) : ∀ instruction,
    Leads (fun _ => True) s (Id.run ((Workbench.runOne instruction).run s)).2
  | .act action register watched propagate => by
      have done := (Bench.calls_act_and_store action register s).mono fun _ _ => trivial
      rw [Workbench.runOne]
      simp only [StateT.run_bind, Id.run_bind, run_attempt]
      generalize Bench.on _ s = out at done ⊢
      rcases out with ⟨fault | value, t⟩
      · simpa using done
      · simpa using done
  | .assume scope f register propagate body => by
      have entered := leads_enter s scope f register
      rw [Workbench.runOne]
      simp only [StateT.run_bind, Id.run_bind, run_attempt]
      rcases run : (Workbench.enter scope f register).on s with ⟨fault | ⟨index, value, h⟩, t⟩
      · rw [run] at entered
        simpa using entered
      · rw [run] at entered
        by_cases tooDeep : value.tooDeep
        · simpa [tooDeep] using entered.trans (leads_leave t index h (some (.term .tooDeep)))
        · have inside := entered.trans (leads_runList t body)
          rcases ran : Id.run ((Workbench.runList body).run t) with ⟨⟨entries, leaving⟩, t₁⟩
          rw [ran] at inside
          simpa [tooDeep, ran] using inside.trans (leads_leave t₁ index h leaving)

theorem leads_runList [Limits] (s : State) : ∀ program,
    Leads (fun _ => True) s (Id.run ((Workbench.runList program).run s)).2
  | [] => by
      simpa [Workbench.runList] using Leads.refl
  | instruction :: rest => by
      have first := leads_runOne s instruction
      rcases run : Id.run ((Workbench.runOne instruction).run s) with ⟨⟨entry, _ | fault⟩, t⟩
      · rw [run] at first
        simpa [Workbench.runList, run] using first.trans (leads_runList t rest)
      · rw [run] at first
        simpa [Workbench.runList, run] using first

end

theorem Reached.runList [Limits] {s : State} (reached : Reached s) (program : List Instruction) :
    Reached (Id.run ((Workbench.runList program).run s)).2 :=
  (leads_runList s program).reached reached

/-- Whatever was done before, the open hypotheses of all scopes are in order, and what the next call
does to them is known. -/
theorem Reached.orderly [Limits] {s : State} (reached : Reached s) (call : ScopeCall) :
    s.desk.Disciplined ∧
      Effect s call (call.on s).1 (call.on s).2.desk ∧
      ∀ other < s.scopes.length, call.own? s ≠ some other →
        (call.on s).2.scopes[other]? = s.scopes[other]? := by
  have effect := call.effect s
  exact ⟨reached.disciplined, effect, fun _ bound not_own => effect.getElem?_eq not_own bound⟩

/-- Two scopes by turns. A hypothesis of the first one is discharged, and a block is left by a fault
with a hypothesis open inside it. -/
def turns : List Instruction :=
  let p := FormulaArg.var (.str "p")
  let act := fun action register => Instruction.act action (some register) none false
  [act .newScope "s", act .newScope "t", act (.push "s" p) "h₁", act (.push "t" p) "h₂",
    act (.push "s" (.conj p p)) "h₃", act (.discharge "s" none (.member "h₃" "proof")) "p₁",
    .assume "t" p "h₄" false [act (.push "t" p) "h₅", .act (.raise "") none none true],
    act (.push "s" p) "h₆"]

def afterTurns : State := (Id.run ((@runList (.uniform 2) turns).run .initial)).2

/-- What is not a proof is not discharged from, and all is as before. -/
theorem orderly_afterTurns :
    let _ : Limits := .uniform 2
    afterTurns.scopes.map Scope.depth = [2, 1] ∧ afterTurns.serial = 7 ∧
      ((ScopeCall.discharge 1 none .null).on afterTurns).1.isSome = true ∧
      afterTurns.desk.Disciplined ∧
      Effect afterTurns (.discharge 1 none .null)
        ((ScopeCall.discharge 1 none .null).on afterTurns).1
        ((ScopeCall.discharge 1 none .null).on afterTurns).2.desk ∧
      ((ScopeCall.discharge 1 none .null).on afterTurns).2.scopes[0]? = afterTurns.scopes[0]? := by
  intro _
  have reached : Reached afterTurns := Reached.initial.runList turns
  have depths : afterTurns.scopes.map Scope.depth = [2, 1] := by decide +kernel
  have bound : 0 < afterTurns.scopes.length := by
    rw [← List.length_map (f := Scope.depth), depths]
    decide
  obtain ⟨disciplined, effect, others⟩ := reached.orderly (.discharge 1 none .null)
  exact ⟨depths, by decide +kernel, by decide +kernel, disciplined, effect,
    others 0 bound (by simp [ScopeCall.own?])⟩

end Workbench

end Deduction
