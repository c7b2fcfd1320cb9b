import Deduction.Proofs.Assumptions
import Deduction.Proofs.Workbench.Scopes

/-!
Work on a workbench that keeps a property of all proofs in the registers.

Nearly all work leaves the registers alone, so what it keeps is clear. What remains to say is which
proofs its result can hold: none, or those that were in the registers before.
-/

namespace Deduction.Workbench

/-- The proofs that are got from a value. -/
@[grind]
def Value.proofs : Value → List (Proof Key Leaf)
  | .proof _ p => [p]
  | .hypothesis _ _ h => [h.proof]
  | .assumptions _ _ | .scope _ | .label _ | .term _ _ => []

section

variable {α β : Type} {P : Proof Key Leaf → Prop}

def Value.All (P : Proof Key Leaf → Prop) (value : Value) : Prop := ∀ p ∈ value.proofs, P p

@[grind ←]
theorem Value.all_of_proofs {value : Value} (none : value.proofs = []) : value.All P := by
  intro p mem
  rw [none] at mem
  cases mem

@[grind =]
theorem Value.proofs_ofTerm (assembly : Assembly) (t : Term) : (ofTerm assembly t).proofs = [] := by
  unfold ofTerm
  split <;> rfl

@[grind =]
theorem Value.proofs_made (id : Nat) (value : Json) : (made id value).proofs = [] := rfl

@[grind =]
theorem Value.proofs_fixed (value : Json) : (fixed value).proofs = [] := rfl

@[grind =]
theorem Value.proofs_bool (value : Bool) : (bool value).proofs = [] := rfl

@[grind =]
theorem Value.proofs_null : null.proofs = [] := rfl

def State.All (P : Proof Key Leaf → Prop) (s : State) : Prop :=
  ∀ entry ∈ s.registers, entry.2.All P

theorem State.All.of_registers {s t : State} (all : s.All P) (same : t.registers = s.registers) :
    t.All P := by
  rw [State.All, same]
  exact all

theorem State.All.find? {s : State} (all : s.All P) {name : String} {value : Value}
    (found : Ordered.find? name s.registers = some value) : value.All P := by
  obtain ⟨key, -, mem⟩ := Ordered.exists_mem_of_find? found
  exact all _ mem

theorem State.All.premise {s : State} (all : s.All P) {name : String} {premise : Premise}
    (stored : s.premise? name = some premise) : P premise.proof := by
  unfold State.premise? at stored
  split at stored
  · rename_i found
    cases stored
    exact all.find? found _ List.mem_cons_self
  · cases stored

theorem State.All.premiseAt {s : State} (all : s.All P) {name : Text} {premise : Premise}
    (stored : s.premiseAt? name = some premise) : P premise.proof := by
  cases name with
  | plain name => exact all.premise stored
  | broken _ _ _ => cases stored

namespace Bench

/-- Work that keeps a property of the proofs in all registers, with what is known of its result. -/
def Keeps (P : Proof Key Leaf → Prop) (Q : α → Prop) (work : Bench α) : Prop :=
  ∀ s : State, s.All P → (work.on s).2.All P ∧ ∀ a, (work.on s).1 = .ok a → Q a

theorem Silent.keeps {work : Bench α} (silent : Silent work) : Keeps P (fun _ => True) work :=
  fun s all => ⟨all.of_registers (silent s).2, fun _ _ => trivial⟩

namespace Keeps

variable {Q : α → Prop} {R : β → Prop}

@[grind ←]
theorem pure {a : α} (holds : Q a) : Keeps P Q (pure a) := by
  refine fun s all => ⟨all, fun b result => ?_⟩
  cases result
  exact holds

@[grind ←]
theorem throw (e : Fault) : Keeps P Q (throw e) := by
  refine fun s all => ⟨all, fun b result => ?_⟩
  cases result

theorem get : Keeps P (State.All P) get := by
  refine fun s all => ⟨all, fun t result => ?_⟩
  cases result
  exact all

theorem bind {work : Bench α} {next : α → Bench β} (keeps : Keeps P Q work)
    (rest : ∀ a, Q a → Keeps P R (next a)) : Keeps P R (work >>= next) := by
  intro s all
  have first := keeps s all
  rw [on_bind]
  rcases run : work.on s with ⟨fault | a, t⟩
  · rw [run] at first
    exact ⟨first.1, by simp⟩
  · rw [run] at first
    exact rest a (first.2 a rfl) t first.1

theorem map {work : Bench α} {f : α → β} (keeps : Keeps P Q work) (holds : ∀ a, Q a → R (f a)) :
    Keeps P R (f <$> work) := by
  rw [map_eq_pure_bind]
  exact keeps.bind fun a known => .pure (holds a known)

end Keeps

@[grind ←]
theorem Silent.bind_keeps {R : β → Prop} {work : Bench α} {next : α → Bench β}
    (silent : Silent work) (rest : ∀ a, Keeps P R (next a)) : Keeps P R (work >>= next) :=
  silent.keeps.bind fun a _ => rest a

@[grind ←]
theorem Silent.map_keeps {R : β → Prop} {work : Bench α} {f : α → β} (silent : Silent work)
    (holds : ∀ a, R (f a)) : Keeps P R (f <$> work) :=
  silent.keeps.map fun a _ => holds a

theorem keeps_ofExcept {Q : α → Prop} {result : Except Fault α}
    (known : ∀ a, result = .ok a → Q a) : Keeps P Q (ofExcept result) := by
  unfold ofExcept
  split
  · exact .pure (known _ rfl)
  · exact .throw _

theorem keeps_modify_serial (serial : Nat) :
    Keeps P (fun _ => True) (modify fun s => { s with serial := serial } : Bench PUnit) :=
  fun _ all => ⟨all, fun _ _ => trivial⟩

/-! ### Registers -/

theorem keeps_register (name : String) : Keeps P (Value.All P) (register name) := by
  intro s all
  refine ⟨all.of_registers (silent_register name s).2, fun value result => ?_⟩
  cases found : Ordered.find? name s.registers with
  | none => simp [register, found] at result
  | some stored =>
      obtain rfl : stored = value := by simpa [register, found] using result
      exact all.find? found

theorem keeps_store {value : Value} (known : value.All P) (name : String) :
    Keeps P (fun _ => True) (store name value) := by
  refine fun s all => ⟨fun entry mem => ?_, fun _ _ => trivial⟩
  rcases Ordered.value_of_mem_put mem with same | mem
  · rw [same]
    exact known
  · exact all entry mem

theorem keeps_member {value : Value} (known : value.All P) (name : String) :
    Keeps P (Value.All P) (member value name) := by
  unfold member
  split
  case h_4 => exact .pure known
  all_goals grind [scopeMember]

theorem keeps_ref [Limits] (r : RefArg) : Keeps P (Value.All P) (ref r) := by
  cases r with
  | register name => exact keeps_register name
  | member name part => exact (keeps_register name).bind fun value known => keeps_member known part
  | value value =>
      unfold ref
      grind
  | formula f =>
      unfold ref
      grind

/-! ### Checks and results of rules -/

theorem keeps_requireProof {value : Value} (known : value.All P) :
    Keeps P (fun premise => P premise.proof) (requireProof value) := by
  unfold requireProof
  split
  · exact .pure (known _ List.mem_cons_self)
  · exact .throw _

theorem keeps_requireHashable (key : Key) :
    Keeps P (fun key => key.unhashable? = none) (requireHashable key) := by
  unfold requireHashable
  split
  · rename_i hashable
    exact .pure hashable
  · exact .throw _

theorem keeps_newProof (i : Inference Premise Key Leaf) {p : Proof Key Leaf} (known : P p) :
    Keeps P (Value.All P) (newProof i p) := by
  have made (marks : Marks) : (Value.proof marks p).All P := by simpa [Value.All, Value.proofs]
  refine silent_newId.bind_keeps fun id => ?_
  split
  · exact .pure (made _)
  · exact silent_newId.bind_keeps fun _ => .pure (made _)

/-! ### Scopes -/

theorem keeps_setScope (index : Nat) (scope : Scope Key Leaf) :
    Keeps P (fun _ => True) (setScope index scope) :=
  fun _ all => ⟨all, fun _ _ => trivial⟩

theorem keeps_newScope : Keeps P (Value.All P) newScope := by
  refine fun s all => ⟨all, fun value result => ?_⟩
  cases result
  exact Value.all_of_proofs rfl

theorem keeps_release (index : Nat) (h : Value) : Keeps P (fun _ => True) (release index h) := by
  unfold release
  split
  · refine (silent_scopeAt index).bind_keeps fun scope => ?_
    split
    · exact .throw _
    · exact .pure trivial
    · exact (keeps_setScope _ _).bind fun _ _ => (silent_record _).keeps
  · exact .pure trivial

theorem keeps_unwind (index : Nat) (h : Hypothesis Key Leaf) :
    Keeps P (fun _ => True) (unwind index h) :=
  (silent_scopeAt index).bind_keeps fun _ => keeps_setScope _ _

/-! ### Results that are no proofs -/

@[grind ←]
theorem keeps_newText (text : Text) : Keeps P (Value.All P) (newText text) := by
  unfold newText newJson
  grind

@[grind ←]
theorem keeps_textOf (value : Json) : Keeps P (Value.All P) (textOf value) := by
  unfold textOf
  grind

@[grind ←]
theorem keeps_describe [Limits] (x : Value) : Keeps P (Value.All P) (describe x) := by
  unfold describe
  grind

theorem keeps_plain [Limits] (x : Value) : Keeps P (Value.All P) (plain x) := by
  unfold plain
  grind

@[grind ←]
theorem keeps_newSet (set : Assumptions Key Leaf) : Keeps P (Value.All P) (newSet set) := by
  unfold newSet
  grind

theorem keeps_merge [Limits] (a b : Value) : Keeps P (Value.All P) (merge a b) := by
  unfold merge
  grind

theorem keeps_pick [Limits] (x : Value) (key : Key) : Keeps P (Value.All P) (pick x key) := by
  unfold pick
  grind

/-! ### Tampering -/

theorem keeps_construct [Limits] {x : Value} (known : x.All P) :
    Keeps P (Value.All P) (construct x) := by
  refine (silent_checkCount x 0).bind_keeps fun _ => ?_
  split
  case h_3 => exact keeps_newScope
  case h_4 => exact keeps_ref _
  all_goals grind

theorem keeps_refill {x : Value} (known : x.All P) : Keeps P (Value.All P) (refill x) := by
  unfold refill
  grind [silent_checkCount]

theorem keeps_assign {x : Value} (known : x.All P) (field : String) :
    Keeps P (Value.All P) (assign x field) := by
  unfold assign
  split
  · split
    · exact .throw _
    · exact (silent_modify_fields _).bind_keeps fun _ => .pure known
  · exact .throw _

theorem keeps_erase {x : Value} (known : x.All P) (field : String) :
    Keeps P (Value.All P) (erase x field) := by
  unfold erase
  split
  · split
    · exact .throw _
    · refine Silent.get.bind_keeps fun s => ?_
      split
      · exact .throw _
      · exact (silent_modify_fields _).bind_keeps fun _ => .pure known
  · exact .throw _

theorem keeps_tamper [Limits] {x : Value} (known : x.All P) (how : Tampering) :
    Keeps P (Value.All P) (tamper x how) := by
  cases how with
  | construct => exact keeps_construct known
  | refill => exact keeps_refill known
  | assign field => exact keeps_assign known field
  | erase field => exact keeps_erase known field
  | _ =>
      unfold tamper tamper.report extend newJson
      grind [silent_transfer, silent_copied]

end Bench

theorem State.All.leave {s : State} (all : s.All P) (index : Nat) (h : Hypothesis Key Leaf)
    (fault : Option Fault) :
    State.All P (Id.run ((Workbench.leave index h fault).run s)).2 := by
  cases fault with
  | some fault => exact (Bench.keeps_unwind index h s all).1
  | none =>
      rw [run_leave_none, snd_ended]
      exact (Bench.keeps_release index _ s all).1

end

end Deduction.Workbench
