import Mathlib.Data.List.TakeWhile
import Deduction.Proof.Error
import Deduction.Proofs.Text

/-!
Lists that are sorted by a text of their items.

Sorting forgets the order of a list, except where items have one text. Such items stay as they were.
-/

namespace Deduction

variable {Item : Type} {text : Item → Text}

/-- The order of sorted lists: the text of an item does not come after that of a later one. -/
def inOrder (text : Item → Text) (a b : Item) : Bool := !decide (text b < text a)

theorem inOrder_iff {a b : Item} : inOrder text a b = true ↔ text a ≤ text b := by
  rw [inOrder, Bool.not_eq_true', decide_eq_false_iff_not, Text.not_lt]

theorem inOrder_trans (text : Item → Text) (a b c : Item) (first : inOrder text a b = true)
    (second : inOrder text b c = true) : inOrder text a c = true := by
  rw [inOrder_iff] at *
  exact Text.le_trans first second

theorem inOrder_total (text : Item → Text) (a b : Item) :
    (inOrder text a b || inOrder text b a) = true := by
  rw [Bool.or_eq_true, inOrder_iff, inOrder_iff]
  exact Text.le_total _ _

/-- Lists with the same items are sorted alike, if items with one text are equal. -/
theorem mergeSort_eq_of_perm {items others : List Item} (same : items.Perm others)
    (telling : ∀ a ∈ items, ∀ b ∈ items, text a = text b → a = b) :
    items.mergeSort (inOrder text) = others.mergeSort (inOrder text) := by
  have sorted (l : List Item) := l.pairwise_mergeSort (inOrder_trans text) (inOrder_total text)
  have left := items.mergeSort_perm (inOrder text)
  have right := others.mergeSort_perm (inOrder text)
  refine List.Perm.eq_of_pairwise ?_ (sorted items) (sorted others)
    (left.trans (same.trans right.symm))
  intro a b a_mem b_mem forth back
  rw [inOrder_iff] at forth back
  refine telling a (left.mem_iff.mp a_mem) b ?_ (Text.le_antisymm forth back)
  exact same.mem_iff.mpr (right.mem_iff.mp b_mem)

theorem inOrder_plain : (fun a b : String => !decide (b < a)) = inOrder Text.plain := by
  funext a b
  simp [inOrder]

theorem RuleError.sortTexts_eq_of_perm {texts others : List String} (same : texts.Perm others) :
    sortTexts texts = sortTexts others := by
  rw [sortTexts, sortTexts, inOrder_plain]
  exact mergeSort_eq_of_perm same fun a _ b _ => Text.plain.inj

/-- The first item of a list is sorted in before all items that may follow it. -/
theorem mergeSort_cons_eq (a : Item) (items : List Item) :
    (a :: items).mergeSort (inOrder text) =
      (items.mergeSort (inOrder text)).takeWhile (fun b => !inOrder text a b) ++
        a :: (items.mergeSort (inOrder text)).dropWhile (fun b => !inOrder text a b) := by
  obtain ⟨before, after, whole, rest, smaller⟩ :=
    List.mergeSort_cons (inOrder_trans text) (inOrder_total text) a items
  have sorted := (a :: items).pairwise_mergeSort (inOrder_trans text) (inOrder_total text)
  rw [whole, List.pairwise_append, List.pairwise_cons] at sorted
  have stops : after.takeWhile (fun b => !inOrder text a b) = [] ∧
      after.dropWhile (fun b => !inOrder text a b) = after := by
    cases after with
    | nil => exact ⟨rfl, rfl⟩
    | cons b _ => simp [sorted.2.1.1 b List.mem_cons_self]
  rw [whole, rest, List.takeWhile_append_of_pos smaller, List.dropWhile_append_of_pos smaller,
    stops.1, stops.2, List.append_nil]

theorem inOrder_congr {a b : Item} (tied : text a = text b) :
    inOrder text a = inOrder text b := by
  funext c
  rw [inOrder, inOrder, tied]

theorem mergeSort_of_tied {a b : Item} (tied : text a = text b) (items : List Item) :
    (a :: b :: items).mergeSort (inOrder text) =
      (items.mergeSort (inOrder text)).takeWhile (fun c => !inOrder text b c) ++
        a :: b :: (items.mergeSort (inOrder text)).dropWhile (fun c => !inOrder text b c) := by
  have self : inOrder text b b = true := inOrder_iff.mpr (Text.le_refl _)
  have earlier : ∀ c ∈ (items.mergeSort (inOrder text)).takeWhile (fun c => !inOrder text b c),
      (!inOrder text b c) = true := fun c mem =>
    List.mem_takeWhile_imp (p := fun c => !inOrder text b c) mem
  rw [mergeSort_cons_eq a, mergeSort_cons_eq b, inOrder_congr tied,
    List.takeWhile_append_of_pos earlier, List.dropWhile_append_of_pos earlier]
  simp [self]

/-- Of two items with one text, the one that comes first in a list comes first when it is sorted.
All other items are in the same places whichever of the two that is. -/
theorem exists_mergeSort_of_tied {a b : Item} (tied : text a = text b) (items : List Item) :
    ∃ before after, (a :: b :: items).mergeSort (inOrder text) = before ++ a :: b :: after ∧
      (b :: a :: items).mergeSort (inOrder text) = before ++ b :: a :: after := by
  refine ⟨_, _, mergeSort_of_tied tied items, ?_⟩
  rw [mergeSort_of_tied tied.symm items, inOrder_congr tied]

end Deduction
