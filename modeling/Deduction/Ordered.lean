/-!
Finite maps that remember the order in which their keys were first written, as lists of pairs.

Keys are compared by `==`. A key that is written again keeps its place and its first spelling and
takes the new value.
-/

namespace Deduction.Ordered

variable {Key Value : Type} [BEq Key]

def find? (key : Key) : List (Key × Value) → Option Value
  | [] => none
  | (k, v) :: rest => if k == key then some v else find? key rest

def has (key : Key) (entries : List (Key × Value)) : Bool := (find? key entries).isSome

def put (key : Key) (value : Value) : List (Key × Value) → List (Key × Value)
  | [] => [(key, value)]
  | (k, v) :: rest => if k == key then (k, value) :: rest else (k, v) :: put key value rest

def erase (key : Key) : List (Key × Value) → List (Key × Value)
  | [] => []
  | (k, v) :: rest => if k == key then rest else (k, v) :: erase key rest

def Distinct (entries : List (Key × Value)) : Prop :=
  entries.Pairwise fun a b => (a.1 == b.1) = false

theorem distinct_nil : Distinct ([] : List (Key × Value)) := List.Pairwise.nil

theorem distinct_singleton (entry : Key × Value) : Distinct [entry] :=
  List.pairwise_singleton _ _

/-- Writing a key leaves every entry with a key that it had before, or adds one at the end. -/
theorem key_of_mem_put {key : Key} {value : Value} {entries : List (Key × Value)}
    {entry : Key × Value} (h : entry ∈ put key value entries) :
    entry.1 = key ∨ ∃ old ∈ entries, old.1 = entry.1 := by
  induction entries with
  | nil => simp_all [put]
  | cons head rest ih =>
      obtain ⟨k, v⟩ := head
      by_cases same : (k == key) = true
      · rw [put, if_pos same, List.mem_cons] at h
        rcases h with rfl | h
        · exact .inr ⟨(k, v), by simp, rfl⟩
        · exact .inr ⟨entry, by simp [h], rfl⟩
      · rw [put, if_neg same, List.mem_cons] at h
        rcases h with rfl | h
        · exact .inr ⟨(k, v), by simp, rfl⟩
        · rcases ih h with h | ⟨old, mem, eq⟩
          · exact .inl h
          · exact .inr ⟨old, by simp [mem], eq⟩

theorem Distinct.put {entries : List (Key × Value)} (h : Distinct entries) (key : Key)
    (value : Value) : Distinct (put key value entries) := by
  induction entries with
  | nil => exact distinct_singleton _
  | cons head rest ih =>
      obtain ⟨k, v⟩ := head
      obtain ⟨apart, tail⟩ := List.pairwise_cons.mp h
      by_cases same : (k == key) = true
      · rw [Ordered.put, if_pos same]
        exact List.pairwise_cons.mpr ⟨apart, tail⟩
      · rw [Ordered.put, if_neg same]
        refine List.pairwise_cons.mpr ⟨fun entry mem => ?_, ih tail⟩
        rcases key_of_mem_put mem with eq | ⟨old, mem, eq⟩
        · simpa [eq] using same
        · simpa [eq] using apart old mem

theorem erase_sublist (key : Key) (entries : List (Key × Value)) :
    (erase key entries).Sublist entries := by
  induction entries with
  | nil => exact .slnil
  | cons head rest ih =>
      obtain ⟨k, v⟩ := head
      by_cases same : (k == key) = true
      · rw [erase, if_pos same]
        exact List.sublist_cons_self _ _
      · rw [erase, if_neg same]
        exact ih.cons_cons _

theorem Distinct.erase {entries : List (Key × Value)} (h : Distinct entries) (key : Key) :
    Distinct (erase key entries) :=
  List.Pairwise.sublist (erase_sublist key entries) h

theorem find?_eq_none {key : Key} {entries : List (Key × Value)}
    (unbound : ∀ entry ∈ entries, (entry.1 == key) = false) : find? key entries = none := by
  induction entries with
  | nil => rfl
  | cons head rest ih =>
      have apart := unbound head (List.mem_cons_self ..)
      have later := ih fun entry mem => unbound entry (List.mem_cons_of_mem _ mem)
      simp [find?, apart, later]

/-! ### Reading after writing -/

variable [EquivBEq Key]

theorem beq_eq_false_of_apart {k key other : Key} (apart : ¬(k == key) = true)
    (same : (k == other) = true) : (key == other) = false := by
  rw [← BEq.congr_right same, BEq.comm]
  simpa using apart

theorem find?_congr {key other : Key} (same : (key == other) = true)
    (entries : List (Key × Value)) : find? key entries = find? other entries := by
  induction entries with
  | nil => rfl
  | cons head rest ih => simp [find?, ih, BEq.congr_right same]

theorem find?_put (key other : Key) (value : Value) (entries : List (Key × Value)) :
    find? other (put key value entries) =
      if key == other then some value else find? other entries := by
  induction entries with
  | nil => simp [put, find?]
  | cons head rest ih =>
      obtain ⟨k, v⟩ := head
      by_cases same : (k == key) = true
      · simp only [put, same, if_true, find?, BEq.congr_left same]
        split <;> rfl
      · by_cases eq : (k == other) = true
        · simp [put, find?, same, eq, beq_eq_false_of_apart same eq]
        · simp [put, find?, same, eq, ih]

theorem Distinct.find?_of_beq_head {key other : Key} {value : Value} {rest : List (Key × Value)}
    (distinct : Distinct ((key, value) :: rest)) (same : (key == other) = true) :
    find? other rest = none := by
  refine find?_eq_none fun entry mem => ?_
  rw [← BEq.congr_right same, BEq.comm]
  exact (List.pairwise_cons.mp distinct).1 entry mem

theorem find?_erase {entries : List (Key × Value)} (distinct : Distinct entries)
    (key other : Key) :
    find? other (erase key entries) = if key == other then none else find? other entries := by
  induction entries with
  | nil => simp [erase, find?]
  | cons head rest ih =>
      obtain ⟨k, v⟩ := head
      by_cases same : (k == key) = true
      · by_cases eq : (key == other) = true
        · have absent := distinct.find?_of_beq_head (BEq.trans same eq)
          simp [erase, same, eq, absent]
        · simp [erase, find?, same, eq, BEq.congr_left same]
      · have later := ih (List.pairwise_cons.mp distinct).2
        by_cases eq : (k == other) = true
        · simp [erase, find?, same, eq, beq_eq_false_of_apart same eq]
        · simp [erase, find?, same, eq, later]

end Deduction.Ordered
