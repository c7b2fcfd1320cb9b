import Deduction.Proofs.Encoding
import Deduction.Proofs.Exactness
import Deduction.Proofs.Sorting
import Deduction.Workbench.Term

/-!
The names of a formula that is read are the identifiers of its text.

The grammar puts the identifiers among the tokens, in their order, at the variables of the formula.
Listing the names of the formula then leaves out repetitions and sorts what is left, so no name is
lost and none is listed twice. The names of a term are listed in another way, by going through its
leaves, but for the term of a formula the list is the same.
-/

namespace Deduction

/-! ### The names of a formula -/

theorem nodup_eraseDups (names : List String) : names.eraseDups.Nodup := by
  -- what follows the first name is shorter, but not the tail: the name is taken out of it
  induction size : names.length using Nat.strong_induction_on generalizing names with
  | h n ih =>
      cases names with
      | nil => simp
      | cons name rest =>
          have shorter : (rest.filter fun other => !other == name).length < n := by
            rw [← size, List.length_cons]
            exact Nat.lt_succ_of_le (List.length_filter_le _ rest)
          rw [List.eraseDups_cons, List.nodup_cons, List.mem_eraseDups]
          exact ⟨by simp, ih _ shorter _ rfl⟩

namespace Formula

theorem mem_atoms {f : Formula String} {name : String} : name ∈ f.atoms ↔ name ∈ f.occurrences := by
  rw [atoms, List.mem_mergeSort, List.mem_eraseDups]

theorem atoms_increasing (f : Formula String) : f.atoms.Pairwise (· < ·) := by
  have sorted : f.atoms.Pairwise fun a b => inOrder Text.plain a b = true := by
    rw [atoms, inOrder_plain]
    exact List.pairwise_mergeSort (inOrder_trans _) (inOrder_total _) _
  have distinct : f.atoms.Nodup :=
    (List.mergeSort_perm _ _).nodup_iff.mpr (nodup_eraseDups f.occurrences)
  refine sorted.imp₂ (fun a b ordered differ => ?_) distinct
  have le := inOrder_iff.mp ordered
  refine Decidable.byContradiction fun notLt => differ ?_
  exact Text.plain.inj (Text.le_antisymm le (Text.not_lt.mp (Text.plain_lt_plain.not.mpr notLt)))

end Formula

/-! ### Sorted texts -/

namespace Json

theorem related_texts (a b : Text) : related .less (.str a) (.str b) = .ok (decide (a < b)) :=
  rfl

theorem exists_insertSorted_texts (text : Text) {texts : List Text}
    (sorted : texts.Pairwise (· ≤ ·)) :
    ∃ more : List Text, insertSorted (.str text) (texts.map .str) = .ok (more.map .str) ∧
      more.Perm (text :: texts) ∧ more.Pairwise (· ≤ ·) := by
  induction texts with
  | nil => exact ⟨[text], rfl, .refl _, List.pairwise_singleton _ _⟩
  | cons first rest ih =>
      obtain ⟨least, others⟩ := List.pairwise_cons.mp sorted
      by_cases lt : text < first
      · refine ⟨text :: first :: rest, ?_, .refl _, List.pairwise_cons.mpr ⟨?_, sorted⟩⟩
        · simp [insertSorted, related_texts, lt, Pure.pure, Except.pure]
        · have le : text ≤ first := (Text.le_total text first).resolve_right fun after => after lt
          intro other mem
          rcases List.mem_cons.mp mem with rfl | mem
          · exact le
          · exact Text.le_trans le (least other mem)
      · obtain ⟨more, inserted, perm, ordered⟩ := ih others
        refine ⟨first :: more, ?_, (perm.cons first).trans (.swap _ _ _),
          List.pairwise_cons.mpr ⟨?_, ordered⟩⟩
        · simp [insertSorted, related_texts, lt, inserted]
        · intro other mem
          rcases List.mem_cons.mp (perm.mem_iff.mp mem) with rfl | mem
          · exact Text.not_lt.mp lt
          · exact least other mem

theorem exists_insertAll_texts (texts : List Text) {done : List Text}
    (sorted : done.Pairwise (· ≤ ·)) :
    ∃ more : List Text,
      (texts.map Json.str).foldlM (fun done value => insertSorted value done) (done.map .str) =
        .ok (more.map .str) ∧
      more.Perm (texts ++ done) ∧ more.Pairwise (· ≤ ·) := by
  induction texts generalizing done with
  | nil => exact ⟨done, rfl, .refl _, sorted⟩
  | cons text rest ih =>
      obtain ⟨next, inserted, perm, ordered⟩ := exists_insertSorted_texts text sorted
      obtain ⟨more, listed, whole, increasing⟩ := ih ordered
      refine ⟨more, ?_, whole.trans ((perm.append_left rest).trans List.perm_middle), increasing⟩
      rw [List.map_cons, List.foldlM_cons, inserted]
      exact listed

/-- Texts can be compared with each other, so that sorting them never fails. -/
theorem sorted_texts (texts : List Text) :
    sorted (texts.map .str) = .ok ((texts.mergeSort (inOrder id)).map .str) := by
  obtain ⟨more, listed, perm, ordered⟩ := exists_insertAll_texts texts List.Pairwise.nil
  rw [List.append_nil] at perm
  have same : more.mergeSort (inOrder id) = texts.mergeSort (inOrder id) :=
    mergeSort_eq_of_perm perm fun _ _ _ _ eq => eq
  have still : more.mergeSort (inOrder id) = more :=
    List.mergeSort_of_pairwise (ordered.imp fun {a b} (le : id a ≤ id b) => inOrder_iff.mpr le)
  rw [← same, still]
  exact listed

theorem sorted_names (names : List String) :
    sorted (names.map fun name => .str (.plain name)) =
      .ok ((names.mergeSort fun a b => !decide (b < a)).map fun name => .str (.plain name)) := by
  have plain : (names.mergeSort (inOrder Text.plain)).map Text.plain =
      (names.map Text.plain).mergeSort (inOrder id) :=
    List.map_mergeSort fun _ _ _ _ => rfl
  have listed := sorted_texts (names.map Text.plain)
  rwa [← plain, ← inOrder_plain, List.map_map, List.map_map] at listed

end Json

/-! ### The names of a term -/

theorem Formula.mapIdxFrom_map {Atom Other Third : Type} (change : Nat → Other → Third)
    (rename : Atom → Other) (start : Nat) (f : Formula Atom) :
    (f.map rename).mapIdxFrom change start =
      f.mapIdxFrom (fun index name => change index (rename name)) start := by
  induction f generalizing start with
  | var name => rfl
  | conj lhs rhs ihl ihr | disj lhs rhs ihl ihr | impl lhs rhs ihl ihr =>
      rw [map] at ihl ihr ⊢
      simp only [bind, mapIdxFrom, ihl, ihr]

namespace Term

/-- Leaves that are all accepted make the nesting the only reason to give up. -/
theorem traverseWithin_mapIdxFrom {Atom α : Type} {change : Leaf → Except TermError α}
    {leaf : Nat → Atom → Leaf} {value : Atom → α}
    (accepted : ∀ index name, change (leaf index name) = .ok (value name)) (room start : Nat)
    (f : Formula Atom) :
    traverseWithin change room (f.mapIdxFrom leaf start).1 =
      if f.height < room then .ok (f.map value) else .error .tooDeep := by
  induction f generalizing room start with
  | var name =>
      cases room with
      | zero => rfl
      | succ room => simp [Formula.mapIdxFrom, traverseWithin, accepted, Formula.height,
          Formula.map, Formula.bind, Pure.pure, Except.pure]
  | conj lhs rhs ihl ihr | disj lhs rhs ihl ihr | impl lhs rhs ihl ihr =>
      cases room with
      | zero => rfl
      | succ room =>
          -- the right side is looked at only if there is room for the left, but both fail alike
          have fits : max lhs.height rhs.height + 1 < room + 1 ↔
              lhs.height < room ∧ rhs.height < room := by omega
          simp only [Formula.mapIdxFrom, traverseWithin, ihl, ihr, Formula.height, fits]
          by_cases left : lhs.height < room <;> by_cases right : rhs.height < room <;>
            simp [left, right, Formula.map, Formula.bind, Bind.bind, Except.bind, Pure.pure,
              Except.pure]

theorem traverse_ofFormula [Limits] {α : Type} {change : Leaf → Except TermError α}
    (value : String → α)
    (accepted : ∀ (name : String) origin, change ⟨.name (.str name), origin⟩ = .ok (value name))
    (number : Nat) (f : Formula String) :
    (ofFormula number f).traverse change =
      if f.exceeds Limits.rendering then .error .tooDeep else .ok (f.map value) := by
  rw [traverse, ofFormula, written, Formula.mapIdx, contentsOf, Formula.mapIdxFrom_map,
    traverseWithin_mapIdxFrom fun index name => accepted name ⟨number, index⟩]
  by_cases deep : Limits.rendering < f.height
  · simp [Formula.exceeds, deep, Nat.not_lt.mpr (Nat.succ_le_of_lt deep)]
  · simp [Formula.exceeds, deep, Nat.lt_succ_of_le (Nat.not_lt.mp deep)]

/-- Of equal texts the leftmost stays, and none that was there before. -/
theorem foldl_distinct_names (texts seen : List String) :
    (texts.map fun name => Json.str (.plain name)).foldl
        (fun seen name => if seen.any name.same then seen else seen ++ [name])
        (seen.map fun name => .str (.plain name)) =
      (seen ++ (texts.filter (· ∉ seen)).eraseDups).map fun name => .str (.plain name) := by
  induction texts generalizing seen with
  | nil => simp
  | cons text rest ih =>
      have known : (seen.map fun name => Json.str (.plain name)).any (Json.str text).same = true ↔
          text ∈ seen := by
        simp [Json.same_str_iff]
      rw [List.map_cons, List.foldl_cons]
      by_cases mem : text ∈ seen
      · rw [if_pos (known.mpr mem), ih, List.filter_cons_of_neg (by simpa using mem)]
      · have later : rest.filter (· ∉ seen ++ [text]) =
            (rest.filter (· ∉ seen)).filter fun other => !other == text := by
          rw [List.filter_filter]
          refine List.filter_congr fun other _ => ?_
          by_cases same : other = text <;> simp [same]
        have added : (seen.map fun name => Json.str (.plain name)) ++ [.str text] =
            (seen ++ [text]).map fun name => .str (.plain name) := by simp
        rw [if_neg (known.not.mpr mem), added, ih, later,
          List.filter_cons_of_pos (by simpa using mem), List.eraseDups_cons, List.append_assoc]
        rfl

/-- The names of a term that is made of a formula are those of the formula. -/
theorem tryAtoms_ofFormula [Limits] (number : Nat) (f : Formula String) :
    (ofFormula number f).tryAtoms =
      if f.exceeds Limits.rendering then .error .tooDeep
      else .ok (f.atoms.map fun name => .str (.plain name)) := by
  rw [tryAtoms, traverse_ofFormula (fun name => Json.str (.plain name)) fun _ _ => rfl]
  by_cases deep : f.exceeds Limits.rendering
  · rw [if_pos deep, if_pos deep]
    rfl
  · have distinct := foldl_distinct_names f.occurrences []
    rw [List.map_nil, List.nil_append, List.filter_eq_self.mpr (by simp)] at distinct
    rw [if_neg deep, if_neg deep, ok_bind, Formula.occurrences_map]
    simp only [distinct, Json.sorted_names]
    rfl

end Term

/-! ### Texts -/

namespace Formula

/-- Whatever limit there is on nesting, the names of a formula that is read are the texts of the
identifiers among the tokens of its text. The list of the names is increasing, so that it has each
of them once. The variables of the formula are these identifiers in their order, as often as they
occur. Where the formula stands as a term its names are the same, unless it is nested too deeply to
be gone through. -/
theorem parseWithin_keeps_identifiers [Limits] {limit : Nat} {text : String} {f : Formula String}
    (read : parseWithin limit text = .ok f) :
    ∃ ts, tokenize text = .ok ts ∧
      (∀ name, name ∈ f.atoms ↔ ∃ t ∈ ts, t.kind = .ident ∧ t.text = name) ∧
      f.atoms.Pairwise (· < ·) ∧
      f.occurrences = identifiers ts ∧
      ∀ number, (Term.ofFormula number f).tryAtoms =
        if f.exceeds Limits.rendering then .error .tooDeep
        else .ok (f.atoms.map fun name => .str (.plain name)) := by
  obtain ⟨ts, lexed, spells⟩ := parseAny_eq_ok_iff.mp (parseAny_of_parseWithin read)
  have kept : f.occurrences = identifiers ts := spells.occurrences_eq
  refine ⟨ts, lexed, fun name => ?_, f.atoms_increasing, kept,
    fun number => Term.tryAtoms_ofFormula number f⟩
  rw [mem_atoms, kept, mem_identifiers]

/-- Needless parentheses, connectives in several spellings, and names that come back. -/
def crowded : String := "((q') /\\ p => _r1) \\/ ((p)) & q' | P"

def crowdedFormula : Formula String :=
  .disj (.disj (.impl (.conj (.var "q'") (.var "p")) (.var "_r1")) (.conj (.var "p") (.var "q'")))
    (.var "P")

theorem crowded_keeps_identifiers :
    let _ : Limits := .uniform 4
    parse crowded = .ok crowdedFormula ∧
      (∃ ts, tokenize crowded = .ok ts ∧ identifiers ts = ["q'", "p", "_r1", "p", "q'", "P"]) ∧
      (∀ name, name ∈ crowdedFormula.atoms ↔ name ∈ ["P", "_r1", "p", "q'"]) ∧
      (Term.ofFormula 0 crowdedFormula).tryAtoms =
        .ok (crowdedFormula.atoms.map fun name => .str (.plain name)) := by
  intro limits
  have read : parse crowded = .ok crowdedFormula := by decide +kernel
  obtain ⟨ts, lexed, names, -, kept, listed⟩ := parseWithin_keeps_identifiers read
  refine ⟨read, ⟨ts, lexed, kept.symm⟩, fun name => ?_, listed 0⟩
  rw [names, ← mem_identifiers, ← kept]
  simp only [crowdedFormula, occurrences, List.mem_append, List.mem_cons]
  grind

end Formula

end Deduction
