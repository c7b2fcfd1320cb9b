import Deduction.Proofs.Assumptions
import Deduction.Proofs.Rules

/-!
The union of assumption sets as an operation.

Where it is defined, it is commutative, associative and idempotent, and the empty set is its unit.
This holds up to the order of the labels. Labels and atoms need only be compared by an equivalence,
so a label may be spelled differently in the two sets.

All laws come from one description of what a union of any number of sets is.
-/

namespace Deduction

namespace Ordered

variable {Key Value Value' : Type} [BEq Key] [EquivBEq Key]

theorem find?_of_mem {entries : List (Key × Value)} (distinct : Distinct entries) {key : Key}
    {value : Value} (mem : (key, value) ∈ entries) : find? key entries = some value := by
  induction entries with
  | nil => cases mem
  | cons head rest ih =>
      obtain ⟨k, v⟩ := head
      obtain ⟨apart, tail⟩ := List.pairwise_cons.mp distinct
      rcases List.mem_cons.mp mem with same | mem
      · cases same
        simp [find?]
      · simp [find?, apart _ mem, ih tail mem]

omit [EquivBEq Key] in
theorem length_erase {key : Key} {entries : List (Key × Value)} {value : Value}
    (found : find? key entries = some value) : entries.length = (erase key entries).length + 1 := by
  induction entries with
  | nil => cases found
  | cons head rest ih =>
      obtain ⟨k, v⟩ := head
      by_cases same : (k == key) = true
      · simp [erase, same]
      · have later := ih (by simpa [find?, same] using found)
        simp [erase, same, later]

/-- Different keys that are all bound by a map are not more than its bindings. -/
theorem length_le_of_find? {entries : List (Key × Value)} {others : List (Key × Value')}
    (distinct : Distinct entries) (distinct' : Distinct others)
    (bound : ∀ entry ∈ entries, ∃ value, find? entry.1 others = some value) :
    entries.length ≤ others.length := by
  induction entries generalizing others with
  | nil => exact Nat.zero_le _
  | cons head rest ih =>
      obtain ⟨apart, tail⟩ := List.pairwise_cons.mp distinct
      obtain ⟨value, found⟩ := bound head List.mem_cons_self
      have later : rest.length ≤ (erase head.1 others).length := by
        refine ih tail (distinct'.erase head.1) fun entry mem => ?_
        rw [find?_erase distinct', apart entry mem]
        exact bound entry (List.mem_cons_of_mem _ mem)
      rw [length_erase found]
      exact Nat.succ_le_succ later

end Ordered

namespace Assumptions

variable {Label Atom : Type} [BEq Label] [BEq Atom]

/-- A set binds a label to a formula if the label names an equal one. -/
def Binds [ReflBEq Atom] (a : Assumptions Label Atom) (label : Label) (f : Formula Atom) : Prop :=
  ∃ g, a.get? label = some g ∧ (g == f) = true

/-- Attempts at a union that both fail, or that both give it. -/
inductive Alike [ReflBEq Atom] :
    Except (Clash Label Atom) (Assumptions Label Atom) →
      Except (Clash Label Atom) (Assumptions Label Atom) → Prop
  | given {u v} : (u == v) = true → Alike (.ok u) (.ok v)
  | failed {x y} : Alike (.error x) (.error y)

/-- The outcome of an attempt to unite some sets: it succeeds if every label names one formula in
all of them, and then it binds what one of them binds. -/
structure IsUnion [ReflBEq Atom] (sets : List (Assumptions Label Atom))
    (outcome : Except (Clash Label Atom) (Assumptions Label Atom)) : Prop where
  exists_iff : (∃ u, outcome = .ok u) ↔ ∀ a ∈ sets, ∀ b ∈ sets, ∀ label f g,
    a.Binds label f → b.Binds label g → (f == g) = true
  binds : ∀ u, outcome = .ok u → ∀ label f, u.Binds label f ↔ ∃ a ∈ sets, a.Binds label f

variable [EquivBEq Atom] {a b u v : Assumptions Label Atom}

theorem Binds.beq {label : Label} {f g : Formula Atom} (left : a.Binds label f)
    (right : a.Binds label g) : (f == g) = true := by
  obtain ⟨k, found, same⟩ := left
  obtain ⟨k', found', same'⟩ := right
  obtain rfl : k = k' := Option.some.inj (found.symm.trans found')
  exact BEq.trans (BEq.symm same) same'

variable [EquivBEq Label]

omit [EquivBEq Label] [EquivBEq Atom] in
theorem beq_iff [ReflBEq Atom] :
    (a == b) = true ↔ a.size = b.size ∧
      ∀ entry ∈ a.entries, ∃ g, b.get? entry.1 = some g ∧ (entry.2 == g) = true := by
  change a.same b = true ↔ _
  rw [same, Bool.and_eq_true, beq_iff_eq, List.all_eq_true]
  refine and_congr_right fun _ => forall₂_congr fun entry mem => ?_
  cases found : b.get? entry.1 <;> simp [found]

theorem binds_of_mem {entry : Label × Formula Atom} (mem : entry ∈ a.entries) :
    a.Binds entry.1 entry.2 :=
  ⟨entry.2, Ordered.find?_of_mem a.distinct mem, BEq.rfl⟩

/-- Sets that bind the same are equal. -/
theorem beq_of_binds (same : ∀ label f, a.Binds label f ↔ b.Binds label f) : (a == b) = true := by
  have forth : a.size ≤ b.size := by
    refine Ordered.length_le_of_find? a.distinct b.distinct fun entry mem => ?_
    obtain ⟨g, found, -⟩ := (same _ _).mp (binds_of_mem mem)
    exact ⟨g, found⟩
  have back : b.size ≤ a.size := by
    refine Ordered.length_le_of_find? b.distinct a.distinct fun entry mem => ?_
    obtain ⟨g, found, -⟩ := (same _ _).mpr (binds_of_mem mem)
    exact ⟨g, found⟩
  refine beq_iff.mpr ⟨Nat.le_antisymm forth back, fun entry mem => ?_⟩
  obtain ⟨g, found, eq⟩ := (same _ _).mp (binds_of_mem mem)
  exact ⟨g, found, BEq.symm eq⟩

theorem binds_merge (merged : a.merge b = .ok u) {label : Label} {f : Formula Atom} :
    u.Binds label f ↔ a.Binds label f ∨ b.Binds label f := by
  have union : u.get? label = (b.get? label).or (a.get? label) :=
    get?_insertAll b.distinct merged label
  cases right : b.get? label with
  | none => simp [Binds, union, right]
  | some g =>
      constructor
      · rintro ⟨k, found, same⟩
        obtain rfl : g = k := by simpa [union, right] using found
        exact .inr ⟨g, right, same⟩
      · rintro (⟨k, left, same⟩ | ⟨k, found, same⟩)
        · -- What the first set binds here equals what the second one puts in its place.
          have eq := beq_of_insertAll b.distinct merged left right
          exact ⟨g, by simp [union, right], BEq.trans (BEq.symm eq) same⟩
        · obtain rfl : g = k := Option.some.inj (right.symm.trans found)
          exact ⟨g, by simp [union, right], same⟩

theorem merge_eq_error_iff {clash : Clash Label Atom} :
    a.merge b = .error clash ↔ a.FirstClash b.entries clash :=
  insertAll_eq_error_iff b.distinct

theorem FirstClash.get?_right {clash : Clash Label Atom}
    (stopped : a.FirstClash b.entries clash) : b.get? clash.label = some clash.right := by
  obtain ⟨before, after, split, -⟩ := stopped
  exact Ordered.find?_of_mem b.distinct (by simp [split])

theorem exists_clash_iff :
    (∃ clash, a.merge b = .error clash) ↔
      ∃ label f g, a.get? label = some f ∧ b.get? label = some g ∧ (f == g) = false := by
  constructor
  · rintro ⟨clash, failed⟩
    have stopped := merge_eq_error_iff.mp failed
    have right := stopped.get?_right
    obtain ⟨_, _, _, left, differ, _⟩ := stopped
    exact ⟨clash.label, clash.left, clash.right, left, right, differ⟩
  · rintro ⟨label, f, g, left, right, differ⟩
    cases merged : a.merge b with
    | ok u => simp [beq_of_insertAll b.distinct merged left right] at differ
    | error clash => exact ⟨clash, rfl⟩

theorem exists_merge_iff_beq :
    (∃ u, a.merge b = .ok u) ↔
      ∀ label f g, a.get? label = some f → b.get? label = some g → (f == g) = true := by
  constructor
  · rintro ⟨u, merged⟩ label f g left right
    exact beq_of_insertAll b.distinct merged left right
  · intro agree
    cases merged : a.merge b with
    | ok u => exact ⟨u, rfl⟩
    | error clash =>
        obtain ⟨label, f, g, left, right, differ⟩ := exists_clash_iff.mp ⟨clash, merged⟩
        simp [agree label f g left right] at differ

/-! ### Unions of several sets -/

namespace IsUnion

variable {sets others : List (Assumptions Label Atom)}
  {x y : Except (Clash Label Atom) (Assumptions Label Atom)}

omit [EquivBEq Label] in
theorem single (a : Assumptions Label Atom) : IsUnion [a] (.ok a) where
  exists_iff := by
    simp only [Except.ok.injEq, exists_eq', List.mem_singleton, forall_eq, true_iff]
    exact fun label f g => Binds.beq
  binds := by simp

theorem merge (left : IsUnion sets x) (right : IsUnion others y) :
    IsUnion (sets ++ others) (do let a ← x; let b ← y; a.merge b) where
  exists_iff := by
    constructor
    · rintro ⟨u, united⟩ c c_mem d d_mem label f g inC inD
      obtain ⟨a, rfl, inner⟩ := bind_eq_ok_iff.mp united
      obtain ⟨b, rfl, merged⟩ := bind_eq_ok_iff.mp inner
      have bound : ∀ c ∈ sets ++ others, ∀ f, c.Binds label f → u.Binds label f := by
        intro c mem f binds
        rw [binds_merge merged, left.binds a rfl, right.binds b rfl]
        exact (List.mem_append.mp mem).imp (⟨c, ·, binds⟩) (⟨c, ·, binds⟩)
      exact (bound c c_mem f inC).beq (bound d d_mem g inD)
    · intro agree
      obtain ⟨a, rfl⟩ := left.exists_iff.mpr fun c c_mem d d_mem =>
        agree c (List.mem_append_left _ c_mem) d (List.mem_append_left _ d_mem)
      obtain ⟨b, rfl⟩ := right.exists_iff.mpr fun c c_mem d d_mem =>
        agree c (List.mem_append_right _ c_mem) d (List.mem_append_right _ d_mem)
      cases merged : a.merge b with
      | ok u => exact ⟨u, merged⟩
      | error clash =>
          obtain ⟨label, f, g, inA, inB, differ⟩ := exists_clash_iff.mp ⟨clash, merged⟩
          obtain ⟨c, c_mem, inC⟩ := (left.binds a rfl label f).mp ⟨f, inA, BEq.rfl⟩
          obtain ⟨d, d_mem, inD⟩ := (right.binds b rfl label g).mp ⟨g, inB, BEq.rfl⟩
          simp [agree c (List.mem_append_left _ c_mem) d (List.mem_append_right _ d_mem) label f g
            inC inD] at differ
  binds := by
    intro u united label f
    obtain ⟨a, rfl, inner⟩ := bind_eq_ok_iff.mp united
    obtain ⟨b, rfl, merged⟩ := bind_eq_ok_iff.mp inner
    rw [binds_merge merged, left.binds a rfl, right.binds b rfl]
    simp only [List.mem_append, or_and_right, exists_or]

/-- Only what the sets bind matters to their union. -/
theorem alike_of_binds (left : IsUnion sets x) (right : IsUnion others y)
    (same : ∀ label f, (∃ a ∈ sets, a.Binds label f) ↔ ∃ b ∈ others, b.Binds label f) :
    Alike x y := by
  have both : (∃ u, x = .ok u) ↔ ∃ v, y = .ok v := by
    rw [left.exists_iff, right.exists_iff]
    constructor
    · intro agree c c_mem d d_mem label f g inC inD
      obtain ⟨a, a_mem, inA⟩ := (same label f).mpr ⟨c, c_mem, inC⟩
      obtain ⟨b, b_mem, inB⟩ := (same label g).mpr ⟨d, d_mem, inD⟩
      exact agree a a_mem b b_mem label f g inA inB
    · intro agree c c_mem d d_mem label f g inC inD
      obtain ⟨a, a_mem, inA⟩ := (same label f).mp ⟨c, c_mem, inC⟩
      obtain ⟨b, b_mem, inB⟩ := (same label g).mp ⟨d, d_mem, inD⟩
      exact agree a a_mem b b_mem label f g inA inB
  cases x with
  | ok u =>
      obtain ⟨v, rfl⟩ := both.mp ⟨u, rfl⟩
      refine .given (beq_of_binds fun label f => ?_)
      rw [left.binds u rfl, right.binds v rfl, same]
  | error clash =>
      cases y with
      | ok v =>
          obtain ⟨u, ⟨⟩⟩ := both.mpr ⟨v, rfl⟩
      | error clash' => exact .failed

/-- The order in which sets are united does not matter, nor does it matter how often. -/
theorem alike (left : IsUnion sets x) (right : IsUnion others y)
    (same : ∀ a, a ∈ sets ↔ a ∈ others) : Alike x y :=
  left.alike_of_binds right fun label f => by simp only [same]

end IsUnion

omit [EquivBEq Label] in
theorem empty_merge (a : Assumptions Label Atom) : empty.merge a = .ok a := by
  have apart : Ordered.Distinct (empty.entries ++ a.entries) := a.distinct
  obtain ⟨c, merged, entries⟩ := exists_insertAll_of_distinct apart
  obtain ⟨_, _⟩ := a
  obtain ⟨_, _⟩ := c
  cases entries
  exact merged

end Assumptions

def early : Assumptions Label String := .ofList [(.number 1, .var "p"), (.name "h", .var "q")]

/-- Shares a label with `early`. -/
def middle : Assumptions Label String := .ofList [(.name "h", .var "q"), (.number 2, .var "r")]

/-- Shares a label with each of the others, but disagrees with `middle` about it. -/
def late : Assumptions Label String := .ofList [(.number 1, .var "p"), (.number 2, .var "s")]

end Deduction
