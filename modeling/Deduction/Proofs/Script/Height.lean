import Deduction.Proofs.Replay
import Deduction.Script.Comparison

/-!
How high the formulas of a replay grow.

Every step adds at most one connective to the formulas before it. A replay compares no formulas that
are nested too deeply as long as the formulas of the script leave room for its steps.
-/

namespace Deduction

variable {Label Atom : Type} [BEq Label]

/-! ### Comparisons -/

namespace Formula

variable {Atom : Type} [Traced Atom] [BEq Atom]

theorem exists_equalWithin {room : Nat} {f : Formula Atom} (low : f.height < room)
    (g : Formula Atom) : ∃ same, equalWithin room f g = some same := by
  induction room generalizing f g with
  | zero => simp at low
  | succ room ih =>
      have part {a : Formula Atom} (small : a.height < room) (b : Formula Atom) :
          ∃ same, (if a.shared b then some true else equalWithin room a b) = some same := by
        split
        · exact ⟨true, rfl⟩
        · exact ih small b
      cases f with
      | var name => cases g <;> exact ⟨_, rfl⟩
      | conj lhs rhs | disj lhs rhs | impl lhs rhs =>
          simp only [height] at low
          cases g
          all_goals try exact ⟨_, rfl⟩
          rename_i left right
          obtain ⟨first, sameLeft⟩ := part (by omega : lhs.height < room) left
          obtain ⟨second, sameRight⟩ := part (by omega : rhs.height < room) right
          cases first <;> simp [equalWithin, sameLeft, sameRight]

theorem comparesTooDeep_eq_false [Limits] {pairs : List (Formula Atom × Formula Atom)}
    (low : ∀ pair ∈ pairs, pair.1.height ≤ Limits.comparing) : comparesTooDeep pairs = false := by
  induction pairs with
  | nil => rfl
  | cons pair rest ih =>
      obtain ⟨f, g⟩ := pair
      obtain ⟨first, others⟩ := List.forall_mem_cons.mp low
      have equal : ∃ same, f.equal? g = some same := by
        unfold equal?
        split
        · exact ⟨true, rfl⟩
        · exact exists_equalWithin (Nat.lt_succ_of_le first) g
      obtain ⟨same, equal⟩ := equal
      cases same <;> simp [comparesTooDeep, equal, ih others]

end Formula

/-! ### Steps -/

/-- No formula in the set is higher than the bound. -/
def Assumptions.Below (n : Nat) (a : Assumptions Label Atom) : Prop :=
  ∀ entry ∈ a.entries, entry.2.height ≤ n

def Proof.Below (n : Nat) (p : Proof Label Atom) : Prop :=
  p.conclusion.height ≤ n ∧ p.assumptions.Below n

theorem Assumptions.Below.mono {a : Assumptions Label Atom} {n m : Nat} (below : a.Below n)
    (le : n ≤ m) : a.Below m :=
  fun entry mem => Nat.le_trans (below entry mem) le

theorem Proof.Below.mono {p : Proof Label Atom} {n m : Nat} (below : p.Below n) (le : n ≤ m) :
    p.Below m :=
  ⟨Nat.le_trans below.1 le, below.2.mono le⟩

namespace Assumptions.Below

variable {a b c : Assumptions Label Atom} {n : Nat}

theorem erase (below : a.Below n) (label : Label) : (a.erase label).Below n :=
  fun entry mem => below entry ((Ordered.erase_sublist label a.entries).subset mem)

variable [LawfulBEq Label]

theorem height_le (below : a.Below n) {label : Label} {f : Formula Atom}
    (found : a.get? label = some f) : f.height ≤ n :=
  below (label, f) (get?_eq_some_iff.mp found)

/-- Merging compares formulas of both sets. -/
theorem comparisons (below : a.Below n) :
    ∀ pair ∈ a.comparisons b, pair.1.height ≤ n := by
  intro pair mem
  obtain ⟨⟨label, f⟩, -, found⟩ := List.mem_filterMap.mp mem
  obtain ⟨g, named, rfl⟩ := Option.map_eq_some_iff.mp found
  exact below.height_le named

end Assumptions.Below

section

variable [LawfulBEq Label] [BEq Atom] [ReflBEq Atom] {n : Nat}

/-- A rule adds at most one connective to what it is applied to. -/
theorem Inference.below_of_apply {i : Inference (Proof Label Atom) Label Atom}
    {p : Proof Label Atom} (premises : ∀ q ∈ i.refs, q.Below n)
    (low : ∀ f ∈ i.formulas, f.height ≤ n) (applied : i.apply = .ok p) : p.Below (n + 1) := by
  have assumptions : p.assumptions.Below n := by
    intro entry mem
    rcases mem_formulas_of_apply applied (List.mem_map_of_mem mem) with given | ⟨q, used, mem⟩
    · exact low entry.2 given
    · obtain ⟨entry', bound, same⟩ := List.mem_map.mp mem
      rw [← same]
      exact (premises q used).2 entry' bound
  refine ⟨?_, assumptions.mono (Nat.le_succ n)⟩
  cases i with
  | suppose f label =>
      cases applied
      exact Nat.le_succ_of_le (low f (by simp [Inference.formulas]))
  | conjIntro left right =>
      have lowLeft := (premises left (by simp [Inference.refs])).1
      have lowRight := (premises right (by simp [Inference.refs])).1
      obtain ⟨_, _, rfl⟩ := Proof.conjIntro_eq_ok_iff.mp applied
      simp only [Formula.height]
      omega
  | conjElim proof side =>
      have tall := (premises proof (by simp [Inference.refs])).1
      obtain ⟨lhs, rhs, conclusion, rfl⟩ := Proof.conjElim_eq_ok_iff.mp applied
      rw [conclusion, Formula.height] at tall
      cases side <;> simp only [Side.pick] <;> omega
  | implElim premise implication =>
      have tall := (premises implication (by simp [Inference.refs])).1
      obtain ⟨lhs, rhs, c, conclusion, _, _, rfl⟩ := Proof.implElim_eq_ok_iff_beq.mp applied
      rw [conclusion, Formula.height] at tall
      dsimp only
      omega
  | implIntro label proof =>
      obtain ⟨tall, below⟩ := premises proof (by simp [Inference.refs])
      obtain ⟨f, named, rfl⟩ := Proof.implIntro_eq_ok_iff.mp applied
      have small := below.height_le named
      simp only [Formula.height]
      omega
  | disjIntro proof other side =>
      have tall := (premises proof (by simp [Inference.refs])).1
      have small := low other (by simp [Inference.formulas])
      obtain rfl := Except.ok.inj applied
      rw [Proof.disjIntro_eq]
      cases side <;> simp only [Side.join, Formula.height] <;> omega
  | disjElim r s l₁ t l₂ =>
      have tall := (premises s (by simp [Inference.refs])).1
      obtain ⟨_, _, _, _, _, _, _, _, _, _, _, _, _, _, rfl⟩ :=
        Proof.disjElim_eq_ok_iff_beq.mp applied
      exact Nat.le_succ_of_le tall

theorem Inference.height_le_of_comparisons {i : Inference (Proof Label Atom) Label Atom}
    (premises : ∀ q ∈ i.refs, q.Below n) :
    ∀ pair ∈ i.comparisons, pair.1.height ≤ n := by
  intro pair mem
  cases i with
  | conjIntro left right =>
      exact (premises left (by simp [Inference.refs])).2.comparisons pair mem
  | implElim premise implication =>
      obtain ⟨tall, -⟩ := premises implication (by simp [Inference.refs])
      simp only [Inference.comparisons] at mem
      split at mem
      · rename_i conclusion
        rw [conclusion, Formula.height] at tall
        rcases List.mem_cons.mp mem with rfl | mem
        · dsimp only
          omega
        · exact (premises premise (by simp [Inference.refs])).2.comparisons pair mem
      · simp at mem
  | disjElim r s l₁ t l₂ =>
      obtain ⟨-, below⟩ := premises r (by simp [Inference.refs])
      obtain ⟨tall, leftBelow⟩ := premises s (by simp [Inference.refs])
      obtain ⟨-, rightBelow⟩ := premises t (by simp [Inference.refs])
      simp only [Inference.comparisons] at mem
      split at mem
      · rename_i left right _ namedLeft namedRight
        simp only [List.mem_cons, List.mem_append] at mem
        rcases mem with rfl | rfl | rfl | mem | mem
        · exact leftBelow.height_le namedLeft
        · exact rightBelow.height_le namedRight
        · exact tall
        · exact (leftBelow.erase l₁).comparisons pair mem
        · split at mem
          · exact below.comparisons pair mem
          · simp at mem
      · simp at mem
  | suppose _ _ | conjElim _ _ | implIntro _ _ | disjIntro _ _ _ =>
      simp [Inference.comparisons] at mem

/-! ### Replays -/

variable [Traced Atom] {proofs : List (Text × Proof Label Atom)}

theorem Step.isStuck_eq_false [Limits] {step : Step Label Atom}
    (below : ∀ ref p, Ordered.find? ref proofs = some p → p.Below n) (room : n ≤ Limits.comparing) :
    (step.isStuck fun ref => Ordered.find? ref proofs) = false := by
  unfold Step.isStuck
  dsimp only
  split
  · rename_i j resolved
    apply Formula.comparesTooDeep_eq_false
    intro pair mem
    refine Nat.le_trans (Inference.height_le_of_comparisons ?_ pair mem) room
    intro q listed
    obtain ⟨ref, -, found⟩ := Inference.exists_ref_of_resolve resolved listed
    split at found
    · rename_i known
      cases found
      exact below ref q known
    · cases found
  · rfl

omit [Traced Atom] in
theorem Step.below_of_apply {step : Step Label Atom} {p : Proof Label Atom}
    (below : ∀ ref p, Ordered.find? ref proofs = some p → p.Below n)
    (low : ∀ f ∈ step.inference.formulas, f.height ≤ n)
    (applied : (step.apply fun ref => Ordered.find? ref proofs) = .ok p) : p.Below (n + 1) := by
  rw [Step.apply, bind_eq_ok_iff] at applied
  obtain ⟨j, resolved, applied⟩ := applied
  have formulas := Inference.formulas_of_resolve resolved
  split at applied
  · rename_i q inferred
    cases applied
    refine Inference.below_of_apply ?_ (by rwa [formulas]) inferred
    intro q listed
    obtain ⟨ref, -, found⟩ := Inference.exists_ref_of_resolve resolved listed
    exact below ref q (lookUp_eq_ok_iff.mp found)
  · cases applied

omit [LawfulBEq Label] [BEq Atom] [ReflBEq Atom] [Traced Atom] in
theorem Proof.below_put {p : Proof Label Atom}
    (below : ∀ ref p, Ordered.find? ref proofs = some p → p.Below n) (grown : p.Below (n + 1))
    (id : Text) : ∀ ref q, Ordered.find? ref (Ordered.put id p proofs) = some q →
      q.Below (n + 1) := by
  intro ref q found
  rw [Ordered.find?_put] at found
  split at found
  · cases found
    exact grown
  · exact (below ref q found).mono (Nat.le_succ n)

/-- With every step the bound grows by one, and the goal is compared after the last. -/
theorem stuckAfter?_eq_none [Limits] {goal : Formula Atom} {steps : List (Step Label Atom)}
    (below : ∀ ref p, Ordered.find? ref proofs = some p → p.Below n)
    {last : Option (Proof Label Atom)} (lastBelow : ∀ p ∈ last, p.Below n)
    (low : ∀ step ∈ steps, ∀ f ∈ step.inference.formulas, f.height ≤ n)
    (room : n + steps.length ≤ Limits.comparing) (done : Nat) :
    stuckAfter? goal done proofs last steps = none := by
  induction steps generalizing n proofs last done with
  | nil =>
      cases last with
      | none => rfl
      | some p =>
          have compared : Formula.comparesTooDeep (p.comparisons goal) = false := by
            apply Formula.comparesTooDeep_eq_false
            intro pair mem
            unfold Proof.comparisons at mem
            split at mem
            · obtain rfl := List.mem_singleton.mp mem
              exact Nat.le_trans (lastBelow p rfl).1 room
            · simp at mem
          simp [stuckAfter?, compared]
  | cons step rest ih =>
      obtain ⟨first, others⟩ := List.forall_mem_cons.mp low
      rw [List.length_cons] at room
      have free : (step.isStuck fun ref => Ordered.find? ref proofs) = false :=
        Step.isStuck_eq_false below (by omega)
      simp only [stuckAfter?, free, Bool.false_eq_true, if_false]
      split
      · rename_i p applied
        have grown := Step.below_of_apply below first applied
        refine @ih (n + 1) _ (Proof.below_put below grown step.id) _ ?_ ?_ (by omega) (done + 1)
        · intro q same
          cases same
          exact grown
        · intro later mem f listed
          exact Nat.le_succ_of_le (others later mem f listed)
      · rfl

end

/-! ### Scripts -/

theorem Formula.height_mapIdxFrom {Other : Type} (change : Nat → Atom → Other) (n : Nat)
    (f : Formula Atom) : (mapIdxFrom change n f).1.height = f.height := by
  induction f generalizing n with
  | var name => rfl
  | conj lhs rhs ihl ihr | disj lhs rhs ihl ihr | impl lhs rhs ihl ihr =>
      simp [mapIdxFrom, height, ihl, ihr]

/-- The limits on the height of formulas that are shown or compared. -/
def Limits.ofFormulas [Limits] : List Nat :=
  [rendering, describing, comparing, reporting, encoding]

/-- The formulas of a script leave room for its steps. -/
def Script.Low [Limits] (s : Script Label Atom) : Prop :=
  ∀ limit ∈ Limits.ofFormulas, ∀ f ∈ s.formulas, f.height + s.steps.length ≤ limit

instance [Limits] (s : Script Label Atom) : Decidable s.Low :=
  inferInstanceAs (Decidable (∀ limit ∈ Limits.ofFormulas,
    ∀ f ∈ s.formulas, f.height + s.steps.length ≤ limit))

theorem Script.Low.stuckAfter?_written [Limits] [LawfulBEq Label] {s : Script Label String}
    (low : s.Low) : s.written.stuckAfter? = none := by
  replace low := low Limits.comparing (by simp [Limits.ofFormulas])
  have goal := low s.goal List.mem_cons_self
  have size : s.written.steps.length = s.steps.length := by simp [Script.written]
  refine @stuckAfter?_eq_none _ _ _ _ _ _
    (Limits.comparing - s.steps.length) _ [] _ _ _ ?_ none ?_ ?_ ?_ 0
  · intro ref p found
    cases found
  · intro p found
    cases found
  · intro step mem f listed
    obtain ⟨⟨own, index⟩, numbered, rfl⟩ := List.mem_map.mp mem
    have mapped : f ∈ own.inference.formulas.map (Formula.written (index + 1)) := by
      rw [← Inference.formulas_map id id]
      exact listed
    obtain ⟨g, brought, rfl⟩ := List.mem_map.mp mapped
    have named := List.fst_mem_of_mem_zipIdx numbered
    have room := low g (List.mem_cons_of_mem _ (List.mem_flatMap.mpr ⟨own, named, brought⟩))
    rw [Formula.written, Formula.mapIdx, Formula.height_mapIdxFrom]
    omega
  · omega

end Deduction
