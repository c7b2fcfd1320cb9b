import Deduction.Proofs.Replay
import Deduction.Proofs.Workbench.Custody
import Deduction.Proofs.Workbench.Minting

/-!
Where the proofs on a workbench come from.

Every proof that a program gets hold of was made by the rules, from terms that the program gives to
them or reads from the text of a step. So what is known of the conclusions and the assumptions of
such proofs holds on every workbench.
-/

namespace Deduction.Workbench

/-! ### The proofs and the terms of a program -/

mutual

def Entry.proofs : Entry → List (Proof Key Leaf)
  | .ok value _ _ => value.proofs
  | .failed _ _ => []
  | .block entered body _ _ => entered.proofs ++ Entry.proofsIn body

def Entry.proofsIn : List Entry → List (Proof Key Leaf)
  | [] => []
  | entry :: rest => entry.proofs ++ Entry.proofsIn rest

end

def State.proofs (s : State) : List (Proof Key Leaf) :=
  s.registers.flatMap fun entry => entry.2.proofs

/-- All proofs that a program gets: as the result of a call, or in a register at the end. -/
def obtained [Limits] (program : List Instruction) : List (Proof Key Leaf) :=
  let out := Id.run ((runList program).run .initial)
  Entry.proofsIn out.1.1 ++ out.2.proofs

/-- The formula arguments that an action passes on to rules. -/
def Action.formulas : Action → List FormulaArg
  | .suppose f _ => [f]
  | .disjIntro _ f _ => [f]
  | .push _ f => [f]
  | _ => []

mutual

def Instruction.formulas : Instruction → List FormulaArg
  | .act action _ _ _ => action.formulas
  | .assume _ f _ _ body => f :: Instruction.formulasIn body

def Instruction.formulasIn : List Instruction → List FormulaArg
  | [] => []
  | instruction :: rest => instruction.formulas ++ Instruction.formulasIn rest

end

/-- Every term that an argument can stand for is accepted. -/
def FormulaArg.Within [Limits] (accepted : Term → Prop) (f : FormulaArg) : Prop :=
  ∀ number contents, f.eval = .ok contents → accepted (Term.written number contents)

/-- Whatever can be read as a formula is accepted. -/
def AcceptsFormulas (accepted : Term → Prop) : Prop :=
  ∀ number f, accepted (Term.ofFormula number f)

/-! ### Rules -/

section

variable {accepted : Term → Prop}

namespace Bench

theorem keeps_formula [Limits] {P : Proof Key Leaf → Prop} {f : FormulaArg}
    (within : f.Within accepted) : Keeps P accepted (formula f) := by
  refine silent_newId.bind_keeps fun number => ?_
  exact (keeps_ofExcept (within number)).map fun _ accepts => accepts

theorem keeps_requireFormula {P : Proof Key Leaf → Prop} {t : Term} (accepts : accepted t) :
    Keeps P (fun u => accepted u ∧ Term.isFormula u = true) (requireFormula t) := by
  unfold requireFormula
  split
  · rename_i isFormula
    exact .pure ⟨accepts, isFormula⟩
  · exact .throw _

/-- A rule on a workbench gives what it gives elsewhere. -/
theorem keeps_infer [Limits] {i : Inference Premise Key Leaf}
    (premises : ∀ q ∈ i.refs, Minted accepted q.proof) (admitted : i.Admitted accepted) :
    Keeps (Minted accepted) (Value.All (Minted accepted)) (infer i) := by
  refine (silent_compareAll _).bind_keeps fun _ => ?_
  split
  · rename_i p applied
    refine keeps_newProof i (.apply ?_ ⟨?_, ?_⟩ applied)
    · intro q mem
      rw [Inference.refs_map] at mem
      obtain ⟨premise, used, rfl⟩ := List.mem_map.mp mem
      exact premises premise used
    · intro t mem
      rw [Inference.formulas_map, List.map_id'] at mem
      exact admitted.formulas t mem
    · intro t key supposed
      apply admitted.label t key
      cases i <;> cases supposed
      rfl
  · exact (silent_requireHashable _).bind_keeps fun _ => .throw _
  · exact .throw _

theorem admitted_of_resolve (proper : AcceptsFormulas accepted)
    {Error : Type} {find : Text → Except Error Premise} {number : Nat}
    {i : Inference Text Label String} {j : Inference Premise Key Leaf}
    (resolved : (i.map id Key.ofLabel (Term.ofFormula number)).resolve find = .ok j) :
    j.Admitted accepted := by
  constructor
  · intro t mem
    rw [Inference.formulas_of_resolve resolved, Inference.formulas_map] at mem
    obtain ⟨f, _, rfl⟩ := List.mem_map.mp mem
    exact ⟨proper number f, Term.isFormula_of_harmless (Term.harmless_ofFormula number f)⟩
  · rintro t key rfl
    cases i with
    | suppose f label =>
        obtain ⟨rfl, rfl⟩ : t = Term.ofFormula number f ∧ key = Key.ofLabel label := by
          simpa [Inference.map, Inference.resolve, pure_eq_ok_iff] using resolved
        cases label <;> rfl
    | _ =>
        simp only [Inference.map, Inference.resolve, bind_eq_ok_iff, pure_eq_ok_iff, reduceCtorEq,
          and_false, exists_false] at resolved

theorem keeps_applyStep [Limits] (proper : AcceptsFormulas accepted) (text : Text) :
    Keeps (Minted accepted) (Value.All (Minted accepted)) (applyStep text) := by
  refine (silent_readJson text).bind_keeps fun json => ?_
  split
  · exact .throw _
  · refine silent_newId.bind_keeps fun number => Keeps.get.bind fun s all => ?_
    refine (keeps_ofExcept fun j resolved => resolved).bind fun j resolved => ?_
    refine keeps_infer (fun q mem => ?_) (admitted_of_resolve proper resolved)
    obtain ⟨name, _, found⟩ := Inference.exists_ref_of_resolve resolved mem
    split at found
    · rename_i premise stored
      cases found
      exact all.premiseAt stored
    · cases found

theorem keeps_push {t : Term} (accepts : accepted t) (index : Nat) :
    Keeps (Minted accepted) (fun result => result.1.All (Minted accepted)) (push index t) := by
  refine Silent.get.bind_keeps fun s => ?_
  dsimp only
  refine (keeps_modify_serial _).bind fun _ _ => ?_
  refine (keeps_requireFormula accepts).bind fun u known => ?_
  refine (silent_scopeAt index).bind_keeps fun scope => ?_
  refine (keeps_setScope _ _).bind fun _ _ => (silent_record _).bind_keeps fun _ => ?_
  refine silent_newId.bind_keeps fun id => silent_newId.bind_keeps fun setId => .pure ?_
  have minted : Minted accepted (.suppose u (FreshLabels.fresh s.serial)) :=
    .suppose known.1 known.2 rfl
  intro q mem
  obtain rfl := List.mem_singleton.mp mem
  exact minted

theorem keeps_discharge [Limits] {p : Value} (known : p.All (Minted accepted)) (index : Nat)
    (named : Option Value) :
    Keeps (Minted accepted) (Value.All (Minted accepted)) (discharge index named p) := by
  refine (silent_scopeAt index).bind_keeps fun scope => ?_
  split
  · exact .throw _
  · refine (silent_namedHypothesis named).bind_keeps fun named => ?_
    split
    · exact .throw _
    · refine (keeps_requireProof known).bind fun premise minted => ?_
      refine (keeps_infer ?_ ?_).bind fun q made => ?_
      · simpa [Inference.refs] using minted
      · exact .of_formulas rfl
      · exact (keeps_setScope _ _).bind fun _ _ =>
          (silent_record _).bind_keeps fun _ => .pure made

theorem keeps_act [Limits] (proper : AcceptsFormulas accepted) {action : Action}
    (given : ∀ f ∈ action.formulas, f.Within accepted) :
    Keeps (Minted accepted) (Value.All (Minted accepted)) (act action) := by
  cases action with
  | suppose f l =>
      refine (keeps_formula (given f List.mem_cons_self)).bind fun t accepts => ?_
      refine (silent_label l).bind_keeps fun key => ?_
      refine (keeps_requireFormula accepts).bind fun t known => ?_
      refine (keeps_requireHashable key).bind fun key hashable => keeps_infer ?_ ⟨?_, ?_⟩
      · simp [Inference.refs]
      · simpa [Inference.formulas] using known
      · rintro _ _ ⟨⟩
        exact hashable
  | conjIntro p q =>
      refine (keeps_ref p).bind fun p known => (keeps_ref q).bind fun q also => ?_
      refine (keeps_requireProof known).bind fun p left => ?_
      refine (keeps_requireProof also).bind fun q right => ?_
      exact keeps_infer (by simp [Inference.refs, left, right]) (.of_formulas rfl)
  | conjElim p side =>
      refine (keeps_ref p).bind fun p known => (keeps_requireProof known).bind fun p minted => ?_
      refine (silent_requireSide side).bind_keeps fun side => ?_
      exact keeps_infer (by simp [Inference.refs, minted]) (.of_formulas rfl)
  | disjIntro p other side =>
      refine (keeps_ref p).bind fun p known => ?_
      refine (keeps_formula (given other List.mem_cons_self)).bind fun t accepts => ?_
      refine (keeps_requireProof known).bind fun p minted => ?_
      refine (keeps_requireFormula accepts).bind fun t checked => ?_
      refine (silent_requireSide side).bind_keeps fun side => ?_
      exact keeps_infer (by simp [Inference.refs, minted])
        ⟨by simpa [Inference.formulas] using checked, by simp⟩
  | implElim p q =>
      refine (keeps_ref p).bind fun p known => (keeps_ref q).bind fun q also => ?_
      refine (keeps_requireProof known).bind fun p left => ?_
      refine (keeps_requireProof also).bind fun q right => ?_
      exact keeps_infer (by simp [Inference.refs, left, right]) (.of_formulas rfl)
  | implIntro l q =>
      refine (silent_label l).bind_keeps fun key => ?_
      refine (keeps_ref q).bind fun q known => (keeps_requireProof known).bind fun q minted => ?_
      exact keeps_infer (by simp [Inference.refs, minted]) (.of_formulas rfl)
  | disjElim r s l₁ t l₂ =>
      refine (keeps_ref r).bind fun r first => (keeps_ref s).bind fun s second => ?_
      refine (silent_label l₁).bind_keeps fun k₁ => (keeps_ref t).bind fun t third => ?_
      refine (silent_label l₂).bind_keeps fun k₂ => ?_
      refine (keeps_requireProof first).bind fun r whole => ?_
      refine (keeps_requireProof second).bind fun s left => ?_
      refine (keeps_requireProof third).bind fun t right => ?_
      exact keeps_infer (by simp [Inference.refs, whole, left, right]) (.of_formulas rfl)
  | shows p expected =>
      refine (keeps_ref p).bind fun p known => (silent_formula expected).bind_keeps fun t => ?_
      refine (silent_requireProof p).bind_keeps fun premise => ?_
      refine (silent_requireFormula t).bind_keeps fun t => ?_
      refine (silent_compareAll _).bind_keeps fun _ => ?_
      split
      · exact .pure known
      · exact .throw _
  | tamper x how =>
      refine (keeps_ref x).bind fun value known => ?_
      refine (keeps_tamper known how).bind fun result made => ?_
      split
      · exact (keeps_store made _).bind fun _ _ => .pure made
      · exact .pure made
  | applyStep step => exact keeps_applyStep proper step
  | newScope => exact keeps_newScope
  | push scope f =>
      refine (silent_scopeIndex scope "push").bind_keeps fun index => ?_
      refine (keeps_formula (given f List.mem_cons_self)).bind fun t accepts => ?_
      exact (keeps_push accepts index).map fun _ made => made
  | discharge scope named p =>
      refine (silent_scopeIndex scope "discharge").bind_keeps fun index => ?_
      cases named with
      | none => exact (keeps_ref p).bind fun p known => keeps_discharge known index none
      | some h =>
          refine (silent_ref h).bind_keeps fun value => ?_
          exact (keeps_ref p).bind fun p known => keeps_discharge known index (some value)
  | release scope h =>
      refine (silent_scopeIndex scope "release").bind_keeps fun index => ?_
      refine (silent_ref h).bind_keeps fun value => ?_
      exact (keeps_release index value).bind fun _ _ => .pure (Value.all_of_proofs rfl)
  | fresh =>
      refine Silent.get.bind_keeps fun s => ?_
      exact (keeps_modify_serial _).bind fun _ _ => .pure (Value.all_of_proofs rfl)
  | describe x => exact (silent_ref x).bind_keeps fun value => keeps_describe value
  | plain x => exact (silent_ref x).bind_keeps fun value => keeps_plain value
  | merge a b =>
      exact (silent_ref a).bind_keeps fun a => (silent_ref b).bind_keeps fun b => keeps_merge a b
  | get x l =>
      refine (silent_ref x).bind_keeps fun x => ?_
      exact (silent_label l).bind_keeps fun key => keeps_pick x key
  | _ =>
      unfold act
      grind

end Bench

/-! ### Programs -/

open Bench

theorem keeps_enter [Limits] {f : FormulaArg} (within : f.Within accepted)
    (scope register : String) :
    Keeps (Minted accepted) (fun result => result.2.1.All (Minted accepted))
      (enter scope f register) := by
  refine (silent_scopeIndex scope "assume").bind_keeps fun index => ?_
  refine (keeps_formula within).bind fun t accepts => ?_
  refine (keeps_push accepts index).bind fun result made => ?_
  exact (keeps_store made register).bind fun _ _ => .pure made

/-- The work of an instruction that is a single action. -/
theorem keeps_act_and_store [Limits] (proper : AcceptsFormulas accepted)
    {action : Action} (given : ∀ f ∈ action.formulas, f.Within accepted)
    (register : Option String) :
    Keeps (Minted accepted) (Value.All (Minted accepted)) do
      let value ← act action
      if let some name := register then store name value
      if (← get).tooDeep value then throw (.term .tooDeep)
      return value := by
  refine (keeps_act proper given).bind fun value made => ?_
  have shown : Keeps (Minted accepted) (Value.All (Minted accepted)) do
      if (← get).tooDeep value then throw (.term .tooDeep)
      return value := by
    refine Silent.get.bind_keeps fun s => ?_
    split
    · exact .throw _
    · exact .pure made
  cases register with
  | none => exact shown
  | some name => exact (keeps_store made name).bind fun _ _ => shown

mutual

theorem minted_runOne [Limits] (proper : AcceptsFormulas accepted) {s : State}
    (all : s.All (Minted accepted)) :
    ∀ instruction : Instruction, (∀ f ∈ instruction.formulas, f.Within accepted) →
      State.All (Minted accepted) (Id.run ((runOne instruction).run s)).2 ∧
        ∀ p ∈ (Id.run ((runOne instruction).run s)).1.1.proofs, Minted accepted p
  | .act action register watched propagate => by
      intro given
      have done := keeps_act_and_store proper given register s all
      rw [Workbench.runOne]
      simp only [StateT.run_bind, Id.run_bind, run_attempt]
      generalize Bench.on _ s = out at done ⊢
      rcases out with ⟨fault | value, t⟩
      · exact ⟨done.1, fun p mem => by cases mem⟩
      · exact ⟨done.1, done.2 value rfl⟩
  | .assume scope f register propagate body => by
      intro given
      obtain ⟨within, inner⟩ := List.forall_mem_cons.mp given
      have entered := keeps_enter within scope register s all
      rw [Workbench.runOne]
      simp only [StateT.run_bind, Id.run_bind, run_attempt]
      rcases run : (Workbench.enter scope f register).on s with ⟨fault | ⟨index, value, h⟩, t⟩
      · rw [run] at entered
        exact ⟨entered.1, fun p mem => by cases mem⟩
      · rw [run] at entered
        by_cases tooDeep : value.tooDeep
        · have left := entered.1.leave index h (some (.term .tooDeep))
          simpa [tooDeep, Entry.proofs] using left
        · have inside := minted_runList proper entered.1 body inner
          rcases ran : Id.run ((Workbench.runList body).run t) with ⟨⟨entries, leaving⟩, t₁⟩
          rw [ran] at inside
          have left := inside.1.leave index h leaving
          have both := List.forall_mem_append.mpr ⟨entered.2 _ rfl, inside.2⟩
          simpa [tooDeep, ran, Entry.proofs] using And.intro left both

theorem minted_runList [Limits] (proper : AcceptsFormulas accepted) {s : State}
    (all : s.All (Minted accepted)) :
    ∀ program : List Instruction,
      (∀ f ∈ Instruction.formulasIn program, f.Within accepted) →
      State.All (Minted accepted) (Id.run ((runList program).run s)).2 ∧
        ∀ p ∈ Entry.proofsIn (Id.run ((runList program).run s)).1.1, Minted accepted p
  | [] => by
      intro _
      exact ⟨all, fun p mem => by cases mem⟩
  | instruction :: rest => by
      intro given
      obtain ⟨first, later⟩ := List.forall_mem_append.mp given
      have done := minted_runOne proper all instruction first
      rcases run : Id.run ((Workbench.runOne instruction).run s) with ⟨⟨entry, _ | fault⟩, t⟩
      · rw [run] at done
        have others := minted_runList proper done.1 rest later
        have both := List.forall_mem_append.mpr ⟨done.2, others.2⟩
        simpa [Workbench.runList, run, Entry.proofsIn] using And.intro others.1 both
      · rw [run] at done
        simpa [Workbench.runList, run, Entry.proofsIn] using done

end

/-- What a program gets hold of was made by the rules, from what it gives to them. -/
theorem minted_of_mem_obtained [Limits] (proper : AcceptsFormulas accepted)
    {program : List Instruction}
    (given : ∀ f ∈ Instruction.formulasIn program, f.Within accepted) {p : Proof Key Leaf}
    (mem : p ∈ obtained program) : Minted accepted p := by
  have start : State.initial.All (Minted accepted) := by
    intro entry stored
    cases stored
  obtain ⟨registers, entries⟩ := minted_runList proper start program given
  rcases List.mem_append.mp mem with shown | held
  · exact entries p shown
  · obtain ⟨entry, stored, mem⟩ := List.mem_flatMap.mp held
    exact registers entry stored p mem

end

/-- The assumptions of all proofs are formulas. So are the conclusions, if the accepted terms that
pass the check of a rule are harmless. But any other term that passes it leads to a proof of what is
no formula. -/
theorem isFormula_of_obtained [Limits] (program : List Instruction) (accepted : Term → Prop)
    (accepts : ∀ t, Term.harmless t = true → accepted t)
    (given : ∀ f ∈ Instruction.formulasIn program, f.Within accepted) :
    (∀ p ∈ obtained program, ∀ t ∈ p.assumptions.formulas, Term.isFormula t = true) ∧
    ((∀ t, accepted t → Term.isFormula t = true → Term.harmless t = true) →
      ∀ p ∈ obtained program, Term.isFormula p.conclusion = true) ∧
    ∀ t, accepted t → Term.isFormula t = true → Term.harmless t = false →
      ∃ p, Minted accepted p ∧ Term.isFormula p.conclusion = false := by
  have proper : AcceptsFormulas accepted :=
    fun number f => accepts _ (Term.harmless_ofFormula number f)
  have minted : ∀ p ∈ obtained program, Minted accepted p :=
    fun p mem => minted_of_mem_obtained proper given mem
  refine ⟨?_, ?_, ?_⟩
  · exact fun p mem t bound => (minted p mem).isFormula_of_mem bound
  · exact fun safe p mem => Term.isFormula_of_harmless ((minted p mem).harmless safe)
  · intro t accepted isFormula harmful
    have supposed : Minted _ (.suppose t (FreshLabels.fresh 0)) := .suppose accepted isFormula rfl
    have below : Minted.LabelsBelow 1 (.suppose t (FreshLabels.fresh 0)) := by
      intro entry mem
      obtain rfl := List.mem_singleton.mp mem
      exact ⟨0, Nat.one_pos, rfl⟩
    exact supposed.exists_foreign rfl accepts below harmful

/-- Suppose a term and take its left part. -/
def takingLeft (f : FormulaArg) : List Instruction :=
  [.act (.suppose f (.scalar (.int 1))) (some "a") none false,
    .act (.conjElim (.register "a") (.side .left)) (some "b") none false]

/-- A conjunction passes the check whatever its parts are, and then its left part is proved. -/
theorem not_isFormula_of_takingLeft :
    let _ : Limits := .uniform 1
    ¬∀ p ∈ obtained (takingLeft (.conj (.value (.int 5)) (.text "p"))),
      Term.isFormula p.conclusion = true := by
  decide +kernel

/-- A disjunction may have a foreign part. -/
def sheltered : FormulaArg := .conj (.var (.str "p")) (.disj (.value (.int 5)) (.var (.str "q")))

def spoilt : Term := .conj (Term.foreign ⟨1, 0⟩ (.int 5)) (Term.ofFormula 2 (.var "p"))

theorem takingLeft_isFormula :
    let _ : Limits := .uniform 2
    (obtained (takingLeft sheltered)).length = 4 ∧
      (∀ p ∈ obtained (takingLeft sheltered), Term.isFormula p.conclusion = true) ∧
      ∃ p, Minted (fun t => t = spoilt ∨ Term.harmless t = true) p ∧
        Term.isFormula p.conclusion = false := by
  intro _
  have safe : ∀ f ∈ Instruction.formulasIn (takingLeft sheltered),
      f.Within fun t => Term.harmless t = true := by
    intro f given number contents eval
    obtain rfl := List.mem_singleton.mp given
    cases eval
    rfl
  refine ⟨by decide +kernel, ?_, ?_⟩
  · have holds := isFormula_of_obtained (takingLeft sheltered) _ (fun _ => id) safe
    exact holds.2.1 fun _ safe _ => safe
  · have harm := isFormula_of_obtained [] (fun t => t = spoilt ∨ Term.harmless t = true)
      (fun _ => .inr) (fun f given => by cases given)
    exact harm.2.2 spoilt (.inl rfl) rfl rfl

end Deduction.Workbench
