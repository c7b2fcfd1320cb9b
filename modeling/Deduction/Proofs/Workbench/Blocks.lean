import Deduction.Proofs.Scope.Stacks
import Deduction.Proofs.Workbench.Scopes

/-!
Blocks under a hypothesis, and what they leave behind.

If nothing is opened inside a block but by blocks, it can be left at any time, its hypothesis is
closed then, and the scope is as the block found it, or has fewer open hypotheses. A body that ends
in a fault abandons all that was opened inside the hypothesis of its block, whatever was done
before. What was opened after that hypothesis was closed is not abandoned.
-/

namespace Deduction.Workbench

/-! ### The blocks of a run -/

/-- The fault that ends the body of a block, if one does, and the state that the body leaves. The
body is not run if the hypothesis is nested too deeply to be shown. -/
def runBody [Limits] (entered : Value) (body : List Instruction) (s : State) :
    Option Fault × State :=
  if entered.tooDeep then (some (.term .tooDeep), s)
  else
    let out := Id.run ((runList body).run s)
    (out.1.2, out.2)

/-- A block that was run, with its scope and its hypothesis. -/
structure Visit where
  index : Nat
  hypothesis : Hypothesis Key Leaf
  body : List Instruction
  /-- The state in which the block was entered. -/
  before : State
  /-- The state in which its body began. -/
  opened : State
  /-- The state in which its body ended, and the fault that ended it. -/
  finished : State
  fault : Option Fault

namespace Visit

def ofEntered [Limits] (index : Nat) (entered : Value) (h : Hypothesis Key Leaf)
    (body : List Instruction) (before opened : State) : Visit :=
  let (fault, finished) := runBody entered body opened
  ⟨index, h, body, before, opened, finished, fault⟩

/-- The fault that leaves the block, if one does, and the state after it. -/
def left (v : Visit) : Option Fault × State :=
  Id.run ((leave v.index v.hypothesis v.fault).run v.finished)

/-- The scope of the block as the block found it. -/
def entryScope (v : Visit) : Scope Key Leaf := v.before.desk.scopeAt v.index

/-- The scope of the block at the end of its body. -/
def lastScope (v : Visit) : Scope Key Leaf := v.finished.desk.scopeAt v.index

/-- The scope of the block as the block left it. -/
def leftScope (v : Visit) : Scope Key Leaf := v.left.2.desk.scopeAt v.index

/-- The body may have come through this state. -/
def During [Limits] (v : Visit) (s : State) : Prop :=
  Leads (fun _ => True) v.opened s ∧ Leads (fun _ => True) s v.finished

end Visit

mutual

def visitsOne [Limits] : Instruction → State → List Visit
  | .act _ _ _ _, _ => []
  | .assume scope f register _ body, s =>
      match (enter scope f register).on s with
      | (.error _, _) => []
      | (.ok (index, entered, h), t) =>
          .ofEntered index entered h body s t ::
            if entered.tooDeep then [] else visitsList body t

def visitsList [Limits] : List Instruction → State → List Visit
  | [], _ => []
  | instruction :: rest, s =>
      visitsOne instruction s ++
        match Id.run ((runOne instruction).run s) with
        | ((_, none), t) => visitsList rest t
        | ((_, some _), _) => []

end

/-- The blocks that the run of a program goes through, with those inside of others. -/
def visits [Limits] (program : List Instruction) : List Visit := visitsList program .initial

mutual

/-- Whether a hypothesis is opened otherwise than by a block. -/
def Instruction.pushes : Instruction → Bool
  | .act action _ _ _ => action.pushes
  | .assume _ _ _ _ body => Instruction.anyPushes body

def Instruction.anyPushes : List Instruction → Bool
  | [] => false
  | instruction :: rest => instruction.pushes || Instruction.anyPushes rest

end

/-! ### Runs and their blocks -/

theorem runBody_cases [Limits] (entered : Value) (body : List Instruction) (s : State) :
    (runBody entered body s).2 = s ∨
      (runBody entered body s).2 = (Id.run ((runList body).run s)).2 := by
  rw [runBody]
  split
  · exact .inl rfl
  · exact .inr rfl

theorem leads_runBody [Limits] (entered : Value) (body : List Instruction) (s : State) :
    Leads (fun _ => True) s (runBody entered body s).2 := by
  rcases runBody_cases entered body s with same | same
  · rw [same]
    exact .refl
  · rw [same]
    exact leads_runList s body

section

variable {s t : State} {scope register : String} {f : FormulaArg} {propagate : Bool}
  {body : List Instruction} {index : Nat} {entered : Value} {h : Hypothesis Key Leaf}

/-- What a block does is what its visit tells. -/
theorem run_assume [Limits] (run : (enter scope f register).on s = (.ok (index, entered, h), t)) :
    (Id.run ((runOne (.assume scope f register propagate body)).run s)).2 =
        (Visit.ofEntered index entered h body s t).left.2 ∧
      (Id.run ((runOne (.assume scope f register propagate body)).run s)).1.2 =
        if propagate then (Visit.ofEntered index entered h body s t).left.1 else none := by
  rw [runOne, Visit.left, Visit.ofEntered, runBody]
  simp only [StateT.run_bind, Id.run_bind, run_attempt, run]
  by_cases tooDeep : entered.tooDeep
  · simp [tooDeep, run_leave_some]
  · rcases ran : Id.run ((runList body).run t) with ⟨⟨entries, fault⟩, u⟩
    simp [tooDeep, ran]

/-- A hypothesis was opened in a scope. -/
def Opens (s : State) (index : Nat) (h : Hypothesis Key Leaf) (t : State) : Prop :=
  ∃ f, h = ((s.desk.scopeAt index).push s.desk.serial f).1 ∧ t.desk = s.desk.opened index f

theorem leads_of_enter [Limits]
    (run : (enter scope f register).on s = (.ok (index, entered, h), t)) :
    Leads (fun _ => True) s t := by
  have leads := leads_enter s scope f register
  rwa [run] at leads

theorem opens_of_enter [Limits]
    (run : (enter scope f register).on s = (.ok (index, entered, h), t)) :
    Opens s index h t := by
  have cases := enter_cases s scope f register
  rw [run] at cases
  rcases cases with ⟨fault, _, ⟨⟩, _⟩ | ⟨_, _, content, ⟨⟩, _, _, desk⟩
  exact ⟨Term.written s.nextId content, rfl, desk⟩

end

/-- What is known of a visit to a block. -/
structure Visit.Proper [Limits] (v : Visit) : Prop where
  reached : Reached v.before
  inside : Reached v.opened
  opens : Opens v.before v.index v.hypothesis v.opened
  ran : ∃ entered, runBody entered v.body v.opened = (v.fault, v.finished)

theorem Visit.proper_ofEntered [Limits] {s t : State} {scope register : String} {f : FormulaArg}
    {index : Nat} {entered : Value} {h : Hypothesis Key Leaf} (reached : Reached s)
    (run : (enter scope f register).on s = (.ok (index, entered, h), t))
    (body : List Instruction) : (Visit.ofEntered index entered h body s t).Proper :=
  ⟨reached, (leads_of_enter run).reached reached, opens_of_enter run, entered, rfl⟩

mutual

theorem proper_of_mem_visitsOne [Limits] {v : Visit} : ∀ {s : State} (instruction : Instruction),
    Reached s → v ∈ visitsOne instruction s → v.Proper
  | _, .act _ _ _ _, _, mem => by
      rw [visitsOne] at mem
      cases mem
  | s, .assume scope f register propagate body, reached, mem => by
      rw [visitsOne] at mem
      rcases run : (enter scope f register).on s with ⟨fault | ⟨index, entered, h⟩, t⟩
      · simp [run] at mem
      · simp only [run, List.mem_cons] at mem
        rcases mem with rfl | mem
        · exact Visit.proper_ofEntered reached run body
        · split at mem
          · cases mem
          · exact proper_of_mem_visitsList body ((leads_of_enter run).reached reached) mem

theorem proper_of_mem_visitsList [Limits] {v : Visit} : ∀ {s : State} (program : List Instruction),
    Reached s → v ∈ visitsList program s → v.Proper
  | _, [], _, mem => by
      rw [visitsList] at mem
      cases mem
  | s, instruction :: rest, reached, mem => by
      rw [visitsList, List.mem_append] at mem
      rcases mem with mem | mem
      · exact proper_of_mem_visitsOne instruction reached mem
      · have after := (leads_runOne s instruction).reached reached
        split at mem
        case h_1 run =>
          rw [run] at after
          exact proper_of_mem_visitsList rest after mem
        case h_2 => cases mem

end

theorem proper_of_mem_visits [Limits] {program : List Instruction} {v : Visit}
    (visited : v ∈ visits program) : v.Proper :=
  proper_of_mem_visitsList program .initial visited

/-! ### Leaving a block -/

section

variable {s : State} {index : Nat} {h : Hypothesis Key Leaf}

theorem leave_of_closed (closed : (s.desk.scopeAt index).isOpen h = false)
    (fault : Option Fault) :
    (Id.run ((leave index h fault).run s)).1 = fault ∧
      (Id.run ((leave index h fault).run s)).2.desk = s.desk := by
  cases fault with
  | none =>
      have ignored := Scope.release_eq_ok_none_iff.mpr closed
      simp [run_leave_none, Bench.release, ignored, ended]
  | some fault =>
      rw [run_leave_some]
      simp [Bench.unwind, Scope.unwind_of_not_isOpen closed, s.desk.closed_self]

theorem leave_of_stack {inner outer : List (Hypothesis Key Leaf)} (self : (h == h) = true)
    (stack : (s.desk.scopeAt index).stack = inner ++ h :: outer)
    (others : ∀ k ∈ inner, (k == h) = false) {fault : Option Fault}
    (innermost : fault = none → inner = []) :
    (Id.run ((leave index h fault).run s)).1 = fault ∧
      (Id.run ((leave index h fault).run s)).2.desk = s.desk.closed index outer := by
  cases fault with
  | none =>
      obtain rfl := innermost rfl
      have released := Scope.release_of_stack self stack
      simp [run_leave_none, Bench.release, released, Bench.record, ended]
  | some fault =>
      rw [run_leave_some]
      simp [Bench.unwind, Scope.stack_unwind self stack others]

end

theorem Effect.shrinks [Limits] {s : State} {call : ScopeCall} {fault : Option Fault}
    {e : Desk Key Leaf} (effect : Effect s call fault e) (closing : call.opens = false) :
    s.desk.Shrinks e := by
  cases effect with
  | failed => exact fun _ => List.suffix_rfl
  | newScope =>
      intro index
      rw [Desk.scopeAt_newScope]
  | push | enter => cases closing
  | discharge stack | release stack _ | leave stack _ =>
      exact Desk.shrinks_closed [_] stack
  | unwound _ stack _ => exact Desk.shrinks_closed _ stack
  | ignored _ | left _ | gone _ => exact .refl s.desk

namespace Leads

variable [Limits] {allowed : ScopeCall → Prop} {s t : State}

theorem shrinks (leads : Leads allowed s t)
    (closing : ∀ call, allowed call → call.opens = false) : s.desk.Shrinks t.desk := by
  induction leads with
  | refl => exact .refl s.desk
  | @call t call _ ok ih => exact ih.trans ((call.effect t).shrinks (closing call ok))
  | @other t u _ scopes _ ih =>
      have same : u.desk.scopes = t.desk.scopes := scopes
      intro index
      rw [Desk.scopeAt, same]
      exact ih index

theorem since (leads : Leads allowed s t) : s.desk.Since t.desk := by
  induction leads with
  | refl => exact .refl s.desk
  | @call t call _ _ ih => exact ih.trans (call.effect t).move.since
  | @other t u _ scopes le ih =>
      have desk : u.desk = ⟨u.serial, t.desk.scopes⟩ := by rw [State.desk, scopes]; rfl
      rw [desk]
      exact ih.trans (Desk.Move.issue le).since

end Leads

namespace Visit.Proper

variable [Limits] {v : Visit}

theorem beq_self (proper : v.Proper) : (v.hypothesis == v.hypothesis) = true := by
  obtain ⟨f, hypothesis, -⟩ := proper.opens
  rw [hypothesis]
  exact Desk.beq_pushed ..

theorem leads (proper : v.Proper) : Leads (fun _ => True) v.opened v.finished := by
  obtain ⟨entered, ran⟩ := proper.ran
  have leads := leads_runBody entered v.body v.opened
  rwa [ran] at leads

/-- From the start of the body on, the hypothesis of the block is open in all that was open before,
or it is closed. -/
theorem stack_cases (proper : v.Proper) {s : State}
    (leads : Leads (fun _ => True) v.opened s) :
    (∃ inner, (s.desk.scopeAt v.index).stack = inner ++ v.hypothesis :: v.entryScope.stack ∧
      ∀ k ∈ inner, (k == v.hypothesis) = false) ∨
    (s.desk.scopeAt v.index).isOpen v.hypothesis = false := by
  obtain ⟨f, hypothesis, desk⟩ := proper.opens
  have since := leads.since
  rw [desk] at since
  rw [hypothesis]
  exact proper.reached.disciplined.pushed_cases since

theorem isOpen_of_suffix (proper : v.Proper) {scope : Scope Key Leaf}
    (suffix : scope.stack <:+ v.entryScope.stack) : scope.isOpen v.hypothesis = false := by
  obtain ⟨f, hypothesis, -⟩ := proper.opens
  rw [hypothesis]
  refine Scope.isOpen_eq_false fun k mem => ?_
  exact proper.reached.disciplined.beq_pushed_of_earlier (suffix.subset mem)

/-! ### Blocks that open nothing but by blocks -/

/-- If the body only closed hypotheses, then that of the block is innermost at the end of it, or was
closed and maybe some outside of it. -/
theorem last_cases (proper : v.Proper) (shrinks : v.opened.desk.Shrinks v.finished.desk) :
    v.lastScope.stack = v.hypothesis :: v.entryScope.stack ∨
      v.lastScope.stack <:+ v.entryScope.stack := by
  obtain ⟨f, hypothesis, desk⟩ := proper.opens
  have suffix := shrinks v.index
  rw [desk] at suffix
  rw [hypothesis]
  exact List.suffix_cons_iff.mp (suffix.trans (v.before.desk.stack_opened_suffix v.index f))

theorem left_cases (proper : v.Proper) (shrinks : v.opened.desk.Shrinks v.finished.desk) :
    v.left.1 = v.fault ∧
      (v.left.2.desk = v.finished.desk.closed v.index v.entryScope.stack ∧
          v.leftScope.stack = v.entryScope.stack ∨
        v.left.2.desk = v.finished.desk ∧ v.lastScope.stack <:+ v.entryScope.stack) := by
  rcases proper.last_cases shrinks with stack | suffix
  · have innermost : v.lastScope.stack = [] ++ v.hypothesis :: v.entryScope.stack := stack
    obtain ⟨fault, desk⟩ := leave_of_stack proper.beq_self innermost nofun fun _ => rfl
    refine ⟨fault, .inl ⟨desk, ?_⟩⟩
    rw [leftScope, left, desk]
    exact Desk.stack_closed [v.hypothesis] stack
  · obtain ⟨fault, desk⟩ := leave_of_closed (proper.isOpen_of_suffix suffix) v.fault
    exact ⟨fault, .inr ⟨desk, suffix⟩⟩

theorem suffix_left (proper : v.Proper) (shrinks : v.opened.desk.Shrinks v.finished.desk) :
    v.leftScope.stack <:+ v.entryScope.stack := by
  obtain ⟨-, ⟨-, stack⟩ | ⟨desk, suffix⟩⟩ := proper.left_cases shrinks
  · rw [stack]
  · rw [leftScope, desk]
    exact suffix

/-- A block that closed nothing of what it found open leaves all of it open. -/
theorem left_eq_entry (proper : v.Proper) (shrinks : v.opened.desk.Shrinks v.finished.desk)
    (kept : ∀ k ∈ v.entryScope.stack, k ∈ v.lastScope.stack) :
    v.leftScope.stack = v.entryScope.stack := by
  obtain ⟨-, ⟨-, stack⟩ | ⟨desk, suffix⟩⟩ := proper.left_cases shrinks
  · exact stack
  · have nodup : v.entryScope.stack.Nodup := proper.reached.disciplined.nodup_stack v.index
    rw [leftScope, desk]
    obtain ⟨gone, split⟩ := suffix
    cases gone with
    | nil => exact split
    | cons k gone =>
        rw [← split, List.cons_append, List.nodup_cons, List.mem_append, not_or] at nodup
        exact absurd (kept k (split ▸ List.mem_cons_self)) nodup.1.2

/-- A block does nothing to other scopes that its body does not do. -/
theorem shrinks_left (proper : v.Proper)
    (shrinks : v.opened.desk.Shrinks v.finished.desk) :
    v.before.desk.Shrinks v.left.2.desk := by
  intro other
  by_cases own : v.index = other
  · subst own
    exact proper.suffix_left shrinks
  · obtain ⟨f, -, opened⟩ := proper.opens
    have body := shrinks other
    rw [opened, Desk.scopeAt_opened_of_ne own] at body
    obtain ⟨-, ⟨desk, -⟩ | ⟨desk, -⟩⟩ := proper.left_cases shrinks
    · rw [desk, Desk.scopeAt_closed_of_ne own]
      exact body
    · rw [desk]
      exact body

end Visit.Proper

theorem shrinks_runBody [Limits] {s : State} {body : List Instruction} (entered : Value)
    (shrinks : s.desk.Shrinks (Id.run ((runList body).run s)).2.desk) :
    s.desk.Shrinks (runBody entered body s).2.desk := by
  rcases runBody_cases entered body s with same | same
  · rw [same]
    exact .refl s.desk
  · rwa [same]

mutual

theorem shrinks_runOne [Limits] {s : State} (reached : Reached s) : ∀ instruction : Instruction,
    instruction.pushes = false →
    s.desk.Shrinks (Id.run ((runOne instruction).run s)).2.desk
  | .act action register watched propagate, closing => by
      rw [Instruction.pushes] at closing
      have done := (Bench.calls_act_and_store action register s).shrinks fun call ok => by
        cases opens : call.opens with
        | false => rfl
        | true => exact absurd (ok opens) (by simp [closing])
      rw [runOne]
      simp only [StateT.run_bind, Id.run_bind, run_attempt]
      generalize Bench.on _ s = out at done ⊢
      rcases out with ⟨fault | value, t⟩
      · simpa using done
      · simpa using done
  | .assume scope f register propagate body, closing => by
      rw [Instruction.pushes] at closing
      rcases run : (enter scope f register).on s with ⟨fault | ⟨index, entered, h⟩, t⟩
      · have failed := enter_cases s scope f register
        rw [run] at failed
        obtain ⟨_, serial, _, _, desk⟩ | ⟨_, _, _, ⟨⟩, _⟩ := failed
        have same : (Id.run ((runOne (.assume scope f register propagate body)).run s)).2 = t := by
          simp [runOne, run]
        rw [same, desk]
        exact fun _ => List.suffix_rfl
      · rw [(run_assume run).1]
        have proper := Visit.proper_ofEntered reached run body
        exact proper.shrinks_left (shrinks_runBody entered
          (shrinks_runList proper.inside body closing))

theorem shrinks_runList [Limits] {s : State} (reached : Reached s) : ∀ program : List Instruction,
    Instruction.anyPushes program = false →
    s.desk.Shrinks (Id.run ((runList program).run s)).2.desk
  | [], _ => by
      simpa [runList] using Desk.Shrinks.refl s.desk
  | instruction :: rest, closing => by
      rw [Instruction.anyPushes, Bool.or_eq_false_iff] at closing
      have first := shrinks_runOne reached instruction closing.1
      have after := (leads_runOne s instruction).reached reached
      rcases run : Id.run ((runOne instruction).run s) with ⟨⟨entry, _ | fault⟩, t⟩
      · rw [run] at first after
        simpa [runList, run] using first.trans (shrinks_runList after rest closing.2)
      · rw [run] at first
        simpa [runList, run] using first

end

theorem Visit.Proper.shrinks [Limits] {v : Visit} (proper : v.Proper)
    (closing : Instruction.anyPushes v.body = false) :
    v.opened.desk.Shrinks v.finished.desk := by
  obtain ⟨entered, ran⟩ := proper.ran
  have shrinks := shrinks_runBody entered (shrinks_runList proper.inside v.body closing)
  rwa [ran] at shrinks

/-- Whether a block is left by a fault or not, only hypotheses from before are open in its scope
then, and those that were closed stood innermost. If its body closed none of them, then all are
open. No fault comes from leaving. -/
theorem restored_of_visit [Limits] {program : List Instruction} {v : Visit}
    (visited : v ∈ visits program) (closing : Instruction.anyPushes v.body = false) :
    v.leftScope.outermostFirst <+: v.entryScope.outermostFirst ∧
      v.leftScope.isOpen v.hypothesis = false ∧
      v.left.1 = v.fault ∧
      ((∀ k ∈ v.entryScope.stack, k ∈ v.lastScope.stack) →
        v.leftScope.stack = v.entryScope.stack) := by
  have proper := proper_of_mem_visits visited
  have shrinks := proper.shrinks closing
  have suffix := proper.suffix_left shrinks
  exact ⟨List.reverse_prefix.mpr suffix, proper.isOpen_of_suffix suffix,
    (proper.left_cases shrinks).1, proper.left_eq_entry shrinks⟩

/-- Three blocks inside each other. The innermost one discharges its own hypothesis and the one
around it, and is left by a fault. -/
def threefold : List Instruction :=
  let p := FormulaArg.var (.str "p")
  let act := fun action register => Instruction.act action (some register) none false
  [act .newScope "s",
    .assume "s" p "h₁" false
      [.assume "s" p "h₂" false
        [.assume "s" p "h₃" true
          [act (.discharge "s" none (.member "h₃" "proof")) "p₁",
            act (.discharge "s" (some (.register "h₂")) (.member "h₂" "proof")) "p₂",
            .act (.raise "") none none true]]]]

def thirdOfThreefold : Visit :=
  (@visits (.uniform 2) threefold).getLast (List.ne_nil_of_length_pos (by decide +kernel))

theorem restored_thirdOfThreefold :
    let _ : Limits := .uniform 2
    (visits threefold).map (fun v => (v.entryScope.depth, v.lastScope.depth, v.fault.isSome)) =
        [(0, 1, false), (1, 1, true), (2, 1, true)] ∧
      thirdOfThreefold ∈ visits threefold ∧
      Instruction.anyPushes thirdOfThreefold.body = false ∧
      thirdOfThreefold.leftScope.outermostFirst <+: thirdOfThreefold.entryScope.outermostFirst ∧
      thirdOfThreefold.leftScope.isOpen thirdOfThreefold.hypothesis = false ∧
      thirdOfThreefold.left.1 = thirdOfThreefold.fault := by
  intro _
  have visited : thirdOfThreefold ∈ visits threefold := List.getLast_mem _
  have closing : Instruction.anyPushes thirdOfThreefold.body = false := by decide +kernel
  obtain ⟨outer, closed, fault, _⟩ := restored_of_visit visited closing
  exact ⟨by decide +kernel, visited, closing, outer, closed, fault⟩

/-! ### Blocks that are left by a fault -/

theorem Visit.left_of_closed {v : Visit} (closed : v.lastScope.isOpen v.hypothesis = false) :
    v.leftScope.stack = v.lastScope.stack := by
  rw [leftScope, left, (leave_of_closed closed v.fault).2, lastScope]

/-- A block whose body ends without a fault is not left if something is open inside its hypothesis.
Then all stays open. -/
structure Visit.Blocked (v : Visit) : Prop where
  normal : v.fault = none
  isOpen : v.lastScope.isOpen v.hypothesis = true
  /-- Another hypothesis is innermost, and the fault names it. -/
  inner : ∃ k outer, v.lastScope.stack = k :: outer ∧ (k == v.hypothesis) = false ∧
    v.left.1 = some (.scope (.releaseBlocked v.hypothesis.label k.label))
  untouched : v.leftScope.stack = v.lastScope.stack

theorem Visit.blocked_of_refused {v : Visit} (normal : v.fault = none)
    (refused : v.left.1.isSome = true) : v.Blocked := by
  rw [left, normal, run_leave_none] at refused
  rcases Bench.release_cases v.finished v.index (.hypothesis 0 0 v.hypothesis) with
    ⟨_, _, _, k, outer, ⟨⟩, isOpen, stack, differs, run⟩ | ⟨_, _, _, _, _, _, _, _, result, _⟩ |
    ⟨run, _⟩
  · refine ⟨normal, isOpen, ⟨k, outer, stack, differs, ?_⟩, ?_⟩
    · rw [left, normal, run_leave_none, run]
      rfl
    · rw [leftScope, left, normal, run_leave_none, run, lastScope]
      rfl
  · rw [ended_of_ok result] at refused
    cases refused
  · rw [run] at refused
    cases refused

namespace Visit.Proper

variable [Limits] {v : Visit}

theorem stack_of_mem (proper : v.Proper) {s : State}
    (leads : Leads (fun _ => True) v.opened s)
    (mem : v.hypothesis ∈ (s.desk.scopeAt v.index).stack) :
    ∃ inner, (s.desk.scopeAt v.index).stack = inner ++ v.hypothesis :: v.entryScope.stack := by
  rcases proper.stack_cases leads with ⟨inner, stack, _⟩ | closed
  · exact ⟨inner, stack⟩
  · rw [Scope.isOpen_of_mem proper.beq_self mem] at closed
    cases closed

theorem left_of_isOpen (proper : v.Proper) (faulted : v.fault.isSome = true)
    (isOpen : v.lastScope.isOpen v.hypothesis = true) :
    v.leftScope.stack = v.entryScope.stack := by
  rcases proper.stack_cases proper.leads with ⟨inner, stack, others⟩ | closed
  · have faultless : v.fault = none → inner = [] := by
      intro normal
      rw [normal] at faulted
      cases faulted
    have desk := (leave_of_stack proper.beq_self stack others faultless).2
    rw [leftScope, left, desk]
    refine Desk.stack_closed (inner ++ [v.hypothesis]) ?_
    rw [stack, List.append_assoc, List.singleton_append]
  · rw [lastScope, closed] at isOpen
    cases isOpen

theorem isOpen_left (proper : v.Proper) (faulted : v.fault.isSome = true) :
    v.leftScope.isOpen v.hypothesis = false := by
  cases isOpen : v.lastScope.isOpen v.hypothesis with
  | true =>
      apply proper.isOpen_of_suffix
      rw [proper.left_of_isOpen faulted isOpen]
  | false => rwa [Scope.isOpen, left_of_closed isOpen]

/-- What was open together with the hypothesis of the block is abandoned, or is from before. -/
theorem mem_entry (proper : v.Proper) (faulted : v.fault.isSome = true) {s : State}
    (during : v.During s) (together : v.hypothesis ∈ (s.desk.scopeAt v.index).stack)
    {k : Hypothesis Key Leaf} (inside : k ∈ (s.desk.scopeAt v.index).stack)
    (left : k ∈ v.leftScope.stack) : k ∈ v.entryScope.stack := by
  cases isOpen : v.lastScope.isOpen v.hypothesis with
  | true =>
      rwa [proper.left_of_isOpen faulted isOpen] at left
  | false =>
      rw [left_of_closed isOpen] at left
      have disciplined := (during.1.reached proper.inside).disciplined
      obtain ⟨inner, stack⟩ := proper.stack_of_mem during.1 together
      have gone : v.hypothesis ∉ v.lastScope.stack := by
        intro mem
        rw [Scope.isOpen_of_mem proper.beq_self mem] at isOpen
        cases isOpen
      exact during.2.since.mem_outer disciplined stack gone inside left

end Visit.Proper

/-- Everything that was opened inside the hypothesis of a block is abandoned with it. -/
structure Visit.Abandoned [Limits] (v : Visit) : Prop where
  closed : v.leftScope.isOpen v.hypothesis = false
  /-- If it is open until the body ends, all that was opened in the block goes with it. -/
  restored : v.lastScope.isOpen v.hypothesis = true → v.leftScope.stack = v.entryScope.stack
  /-- If it was closed before, nothing happens, so what was opened after that stays open. -/
  untouched : v.lastScope.isOpen v.hypothesis = false → v.leftScope.stack = v.lastScope.stack
  /-- What was open together with it is from before the block, or is not open any more. -/
  inside : ∀ s, v.During s → v.hypothesis ∈ (s.desk.scopeAt v.index).stack →
    ∀ k ∈ (s.desk.scopeAt v.index).stack, k ∈ v.leftScope.stack → k ∈ v.entryScope.stack

/-- A block that is left by a fault abandons what was opened inside its hypothesis if its body ended
in that fault. Otherwise something was open inside its hypothesis when it was to be left. The fault
says so, and all of that stays open. -/
theorem abandoned_of_visit [Limits] {program : List Instruction} {v : Visit}
    (visited : v ∈ visits program) (faulted : v.left.1.isSome = true) :
    v.fault.isSome = true ∧ v.Abandoned ∨ v.Blocked := by
  have proper := proper_of_mem_visits visited
  cases fault : v.fault with
  | none => exact .inr (Visit.blocked_of_refused fault faulted)
  | some _ =>
      have raised : v.fault.isSome = true := by rw [fault, Option.isSome_some]
      refine .inl ⟨rfl, proper.isOpen_left raised, proper.left_of_isOpen raised,
        Visit.left_of_closed, ?_⟩
      intro s during together k inside left
      exact proper.mem_entry raised during together inside left

def visitOfTurns : Visit :=
  (@visits (.uniform 2) turns).getLast (List.ne_nil_of_length_pos (by decide +kernel))

/-- The hypothesis that was opened inside the block is abandoned with that of the block. -/
theorem abandoned_visitOfTurns :
    let _ : Limits := .uniform 2
    visitOfTurns ∈ visits turns ∧ visitOfTurns.left.1.isSome = true ∧
      visitOfTurns.lastScope.depth = 3 ∧ visitOfTurns.leftScope.depth = 1 ∧
      visitOfTurns.lastScope.isOpen visitOfTurns.hypothesis = true ∧ visitOfTurns.Abandoned := by
  intro _
  have visited : visitOfTurns ∈ visits turns := List.getLast_mem _
  have faulted : visitOfTurns.left.1.isSome = true := by decide +kernel
  have raised : visitOfTurns.fault.isSome = true := by decide +kernel
  rcases abandoned_of_visit visited faulted with ⟨_, abandoned⟩ | blocked
  · exact ⟨visited, faulted, by decide +kernel, by decide +kernel, by decide +kernel, abandoned⟩
  · rw [blocked.normal] at raised
    cases raised

/-- A block that discharges its hypothesis, opens another one and is left by a fault. -/
def overtaken : List Instruction :=
  let act := fun action register => Instruction.act action (some register) none false
  [act .newScope "s",
    .assume "s" (.var (.str "p")) "h" false
      [act (.discharge "s" none (.member "h" "proof")) "r",
        act (.push "s" (.var (.str "q"))) "k",
        .act (.raise "") none none true]]

/-- The fault does not abandon a hypothesis that was opened when that of the block was closed. -/
theorem exists_open_after_overtaken :
    let _ : Limits := .uniform 2
    ∃ v ∈ visits overtaken, v.left.1.isSome = true ∧
      ∃ k ∈ v.leftScope.stack, k ∉ v.entryScope.stack := by
  intro _
  have found : (visits overtaken).any (fun v => v.left.1.isSome && v.entryScope.stack.isEmpty &&
      !v.leftScope.stack.isEmpty) = true := by
    decide +kernel
  obtain ⟨v, visited, facts⟩ := List.any_eq_true.mp found
  simp only [Bool.and_eq_true, List.isEmpty_iff, Bool.not_eq_true'] at facts
  obtain ⟨⟨faulted, nothing⟩, something⟩ := facts
  obtain ⟨k, left⟩ := List.exists_mem_of_ne_nil _ (List.isEmpty_eq_false_iff.mp something)
  exact ⟨v, visited, faulted, k, left, nothing ▸ List.not_mem_nil⟩

end Deduction.Workbench
