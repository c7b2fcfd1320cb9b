import Deduction.Workbench.Run
import Deduction.Proofs.Scope.Discipline

/-!
Work on a workbench that leaves its scopes and its supply of labels alone.

Only a few calls do anything to the scopes. All others are quiet, and so is what is put together
from them. Apart from storing a result, they leave the registers alone too.
-/

namespace Deduction.Workbench

def State.desk (s : State) : Desk Key Leaf := ⟨s.serial, s.scopes⟩

namespace Bench

variable {α β : Type}

/-- The result of work that starts in a state, with the state that it ends in. -/
def on (work : Bench α) (s : State) : Except Fault α × State := Id.run (StateT.run work.run s)

/-- What follows a piece of work. A fault ends both. -/
def andThen (next : α → Bench β) : Except Fault α × State → Except Fault β × State
  | (.ok a, s) => (next a).on s
  | (.error e, s) => (.error e, s)

@[simp]
theorem on_pure (a : α) (s : State) : (pure a : Bench α).on s = (.ok a, s) := rfl

@[simp]
theorem on_throw (e : Fault) (s : State) : (throw e : Bench α).on s = (.error e, s) := rfl

@[simp]
theorem on_get (s : State) : (get : Bench State).on s = (.ok s, s) := rfl

@[simp]
theorem on_set (s t : State) : (set t : Bench PUnit).on s = (.ok ⟨⟩, t) := rfl

@[simp]
theorem on_modify (f : State → State) (s : State) :
    (modify f : Bench PUnit).on s = (.ok ⟨⟩, f s) := rfl

@[simp]
theorem on_bind (work : Bench α) (next : α → Bench β) (s : State) :
    (work >>= next).on s = andThen next (work.on s) := by
  change Id.run (StateT.run (ExceptT.run (work >>= next)) s) = andThen next (work.on s)
  rw [ExceptT.run_bind, StateT.run_bind]
  rcases found : work.on s with ⟨e | a, t⟩ <;> simp [on] at found <;> simp [andThen, on, found]

@[simp]
theorem andThen_ok (next : α → Bench β) (a : α) (s : State) :
    andThen next (.ok a, s) = (next a).on s := rfl

@[simp]
theorem andThen_error (next : α → Bench β) (e : Fault) (s : State) :
    andThen next (.error e, s) = (.error e, s) := rfl

@[simp]
theorem on_map (f : α → β) (work : Bench α) (s : State) :
    (f <$> work).on s = ((work.on s).1.map f, (work.on s).2) := by
  rw [map_eq_pure_bind, on_bind]
  rcases work.on s with ⟨e | a, t⟩ <;> rfl

/-- Work that leaves the scopes and the supply of labels alone. -/
def Quiet (work : Bench α) : Prop := ∀ s, (work.on s).2.desk = s.desk

/-- Quiet work that leaves the registers alone as well. -/
def Silent (work : Bench α) : Prop :=
  ∀ s, (work.on s).2.desk = s.desk ∧ (work.on s).2.registers = s.registers

namespace Silent

@[grind ←]
theorem quiet {work : Bench α} (silent : Silent work) : Quiet work := fun s => (silent s).1

@[grind ←]
theorem pure (a : α) : Silent (pure a : Bench α) := fun _ => ⟨rfl, rfl⟩

@[grind ←]
theorem throw (e : Fault) : Silent (throw e : Bench α) := fun _ => ⟨rfl, rfl⟩

@[grind ←]
theorem get : Silent (get : Bench State) := fun _ => ⟨rfl, rfl⟩

@[grind ←]
theorem bind {work : Bench α} {next : α → Bench β} (silent : Silent work)
    (rest : ∀ a, Silent (next a)) : Silent (work >>= next) := by
  intro s
  rw [on_bind, ← (silent s).1, ← (silent s).2]
  rcases work.on s with ⟨e | a, t⟩
  · exact ⟨rfl, rfl⟩
  · exact rest a t

@[grind ←]
theorem map {work : Bench α} (silent : Silent work) (f : α → β) : Silent (f <$> work) := by
  rw [map_eq_pure_bind]
  exact silent.bind fun a => .pure (f a)

end Silent

namespace Quiet

theorem exists_on {work : Bench α} (quiet : Quiet work) (s : State) :
    ∃ result t, work.on s = (result, t) ∧ t.desk = s.desk :=
  ⟨_, _, rfl, quiet s⟩

@[grind ←]
theorem bind {work : Bench α} {next : α → Bench β} (quiet : Quiet work)
    (rest : ∀ a, Quiet (next a)) : Quiet (work >>= next) := by
  intro s
  rw [on_bind, ← quiet s]
  rcases work.on s with ⟨e | a, t⟩
  · rfl
  · exact rest a t

end Quiet

@[grind ←]
theorem quiet_store (name : String) (value : Value) : Quiet (store name value) := fun _ => rfl

@[grind ←]
theorem silent_newId : Silent newId := fun _ => ⟨rfl, rfl⟩

@[grind ←]
theorem silent_record (entry : LogEntry) : Silent (record entry) := fun _ => ⟨rfl, rfl⟩

@[grind ←]
theorem silent_ofExcept (result : Except Fault α) : Silent (ofExcept result) := by
  unfold ofExcept
  grind

@[grind ←]
theorem silent_ofTermError (result : Except TermError α) : Silent (ofTermError result) := by
  unfold ofTermError
  grind

@[grind ←]
theorem silent_register (name : String) : Silent (register name) := by
  unfold register
  grind

/-! ### Arguments -/

@[grind ←]
theorem silent_member (value : Value) (name : String) : Silent (member value name) := by
  unfold member scopeMember
  grind

mutual

@[grind ←]
theorem silent_label : ∀ l : LabelArg, Silent (label l)
  | .scalar _ => by unfold label; grind
  | .real _ => by unfold label; grind
  | .tuple items => by
      have silent := silent_labels items
      unfold label; grind
  | .list _ => by unfold label; grind
  | .labelOf _ => by unfold label; grind

theorem silent_labels : ∀ items : List LabelArg, Silent (labels items)
  | [] => by unfold labels; grind
  | item :: rest => by
      have first := silent_label item
      have others := silent_labels rest
      unfold labels; grind

end

@[grind ←]
theorem silent_formula [Limits] (f : FormulaArg) : Silent (formula f) := by
  unfold formula
  grind

@[grind ←]
theorem silent_ref [Limits] (r : RefArg) : Silent (ref r) := by
  unfold ref
  grind

@[grind ←]
theorem silent_describe [Limits] (x : Value) : Silent (describe x) := by
  unfold describe textOf newText newJson
  grind

@[grind ←]
theorem silent_plain [Limits] (x : Value) : Silent (plain x) := by
  unfold plain newText newJson
  grind

/-! ### Checks and rules -/

@[grind ←]
theorem silent_requireProof (value : Value) : Silent (requireProof value) := by
  unfold requireProof
  grind

@[grind ←]
theorem silent_requireFormula (t : Term) : Silent (requireFormula t) := by
  unfold requireFormula
  grind

@[grind ←]
theorem silent_requireSide (side : SideArg) : Silent (requireSide side) := by
  unfold requireSide
  grind

@[grind ←]
theorem silent_requireHashable (key : Key) : Silent (requireHashable key) := by
  unfold requireHashable
  grind

@[grind ←]
theorem silent_compareAll [Limits] (pairs : List (Term × Term)) : Silent (compareAll pairs) := by
  unfold compareAll
  grind

@[grind ←]
theorem silent_infer [Limits] (inference : Inference Premise Key Leaf) :
    Silent (infer inference) := by
  unfold infer newProof
  grind

@[grind ←]
theorem silent_readJson [Limits] (text : Text) : Silent (readJson text) := by
  unfold readJson
  grind

@[grind ←]
theorem silent_applyStep [Limits] (text : Text) : Silent (applyStep text) := by
  unfold applyStep
  grind

@[grind ←]
theorem silent_compare [Limits] (a b : Value) (comparison : Comparison) :
    Silent (compare a b comparison) := by
  unfold compare compare.order
  grind

/-! ### Assumption sets -/

theorem silent_pairOf (index : Nat) (item : Json) : Silent (pairOf index item) := by
  unfold pairOf
  grind

theorem silent_entriesOfItems (origin : Origin) (index : Nat) (items : List Json) :
    Silent (entriesOfItems origin index items) := by
  induction items generalizing index with
  | nil => exact .pure []
  | cons item rest ih =>
      unfold entriesOfItems
      grind [silent_pairOf]

@[grind ←]
theorem silent_setOf [Limits] (items : List (LabelArg × FormulaArg)) (set : Assumptions Key Leaf) :
    Silent (setOf items set) := by
  induction items generalizing set with
  | nil => exact .pure set
  | cons item rest ih =>
      unfold setOf
      grind

@[grind ←]
theorem silent_asMapping (value : Value) : Silent (asMapping value) := by
  unfold asMapping
  grind [silent_entriesOfItems]

@[grind ←]
theorem silent_asItems (value : Value) : Silent (asItems value) := by
  unfold asItems
  grind

@[grind ←]
theorem silent_merge [Limits] (a b : Value) : Silent (merge a b) := by
  unfold merge newSet
  grind

@[grind ←]
theorem silent_lookUp (set : Assumptions Key Leaf) (key : Key) : Silent (lookUp set key) := by
  unfold lookUp
  grind

@[grind ←]
theorem silent_itemAt (container : Json) (items : List Json) (key : Key) :
    Silent (itemAt container items key) := by
  unfold itemAt
  grind

@[grind ←]
theorem silent_pick [Limits] (x : Value) (key : Key) : Silent (pick x key) := by
  unfold pick textOf newText newJson
  grind

@[grind ←]
theorem silent_holds (x : Value) (key : Key) : Silent (holds x key) := by
  unfold holds
  grind

/-! ### Tampering -/

theorem silent_checkCount (x : Value) (given : Nat) : Silent (checkCount x given) := by
  unfold checkCount
  grind

theorem silent_transfer [Limits] (x : Value) : Silent (transfer x) := by
  unfold transfer transfer.notTooDeep
  grind

theorem silent_copied [Limits] (deep : Bool) (x : Value) : Silent (copied deep x) := by
  unfold copied
  grind

/-- Fields that are put on scopes are kept apart from their stacks. -/
theorem silent_modify_fields (f : State → List (Nat × String)) :
    Silent (modify fun s => { s with fields := f s }) := fun _ => ⟨rfl, rfl⟩

theorem silent_assign (x : Value) (field : String) : Silent (assign x field) := by
  unfold assign
  split
  · split
    · exact .throw _
    · exact .bind (silent_modify_fields _) fun _ => .pure _
  · exact .throw _

theorem silent_erase (x : Value) (field : String) : Silent (erase x field) := by
  unfold erase
  split
  · split
    · exact .throw _
    · refine .bind .get fun s => ?_
      split
      · exact .throw _
      · exact .bind (silent_modify_fields _) fun _ => .pure _
  · exact .throw _

theorem silent_refill (x : Value) : Silent (refill x) := by
  unfold refill
  grind [silent_checkCount]

theorem silent_extend (x : Value) : Silent (extend x) := by
  unfold extend
  grind

/-! ### Scopes that are only looked at -/

@[grind ←]
theorem silent_scopeIndex (name method : String) : Silent (scopeIndex name method) := by
  unfold scopeIndex
  grind

@[grind ←]
theorem silent_scopeAt (index : Nat) : Silent (scopeAt index) := by
  unfold scopeAt
  grind

@[grind ←]
theorem silent_namedHypothesis (named : Option Value) : Silent (namedHypothesis named) := by
  unfold namedHypothesis
  grind

end Bench

end Deduction.Workbench
