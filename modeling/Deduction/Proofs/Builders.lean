import Deduction.Proofs.RoundTrip
import Deduction.Workbench.Term

/-!
Builders and the parser.

Joining operands by a connective gives the formula that is read from their texts, with the
connective between them. Conjunctions and disjunctions grow to the left as they are read.
Implications are open until the last operand, and so take room.
-/

namespace Deduction

namespace Formula

/-! ### Chains of operands -/

variable {room : Nat} {mark : String} {text : Formula String → String}

/-- A chain of operands that grows to the left, from what is read before them. -/
theorem lexes_leftChain {level : Level} {kind : TokenKind}
    {join : Formula String → Formula String → Formula String} (marks : Marks kind mark.toList)
    (rule : ∀ {us t vs f g}, SpellsWithin room level us f → t.kind = kind →
      SpellsWithin room .operand vs g → SpellsWithin room level (us ++ t :: vs) (join f g))
    {done : String} {f : Formula String} (lexes : Lexes done.toList (SpellsWithin room level · f))
    {more : List (Formula String)}
    (all : ∀ g ∈ more, Lexes (text g).toList (SpellsWithin room .operand · g)) :
    Lexes ((" " ++ mark ++ " ").intercalate (done :: more.map text)).toList
      (SpellsWithin room level · (more.foldl join f)) := by
  induction more generalizing done f with
  | nil => simpa using lexes
  | cons g rest ih =>
      obtain ⟨next, others⟩ := List.forall_mem_cons.mp all
      have grown := ih (lexes_connective marks rule lexes next) others
      have regrouped : (" " ++ mark ++ " ").intercalate (done :: (g :: rest).map text) =
          (" " ++ mark ++ " ").intercalate
            ((done ++ " " ++ mark ++ " " ++ text g) :: rest.map text) := by
        rw [String.intercalate_cons_append, List.map_cons, String.intercalate_cons_cons]
        simp only [String.append_assoc]
      rw [regrouped]
      exact grown

/-- A chain of implications. Every one but the last operand is followed by one that stays open. -/
theorem lexes_implAll (marks : Marks .impl mark.toList) {lhs rhs : Formula String}
    {more : List (Formula String)}
    (all : ∀ f ∈ lhs :: rhs :: more, Lexes (text f).toList (SpellsWithin room .operand · f)) :
    Lexes ((" " ++ mark ++ " ").intercalate ((lhs :: rhs :: more).map text)).toList
      (SpellsWithin (room + more.length + 1) .formula · (implAll lhs rhs more)) := by
  have rule {wider : Nat} (le : room ≤ wider + 1) {us : List Token} {t : Token} {vs : List Token}
      {f g : Formula String} (before : SpellsWithin room .operand us f) (arrow : t.kind = .impl)
      (after : SpellsWithin wider .formula vs g) :
      SpellsWithin (wider + 1) .formula (us ++ t :: vs) (.impl f g) :=
    .impl ((SpellsWithin.conjunction (.operand before)).mono le) arrow after
  induction more generalizing lhs rhs with
  | nil =>
      obtain ⟨first, others⟩ := List.forall_mem_cons.mp all
      have last := (others rhs List.mem_cons_self).mono fun ts within =>
        SpellsWithin.disjunction (.conjunction (.operand within))
      have joined := lexes_connective marks (rule (Nat.le_succ room)) first last
      simpa [String.append_assoc, implAll] using joined
  | cons next rest ih =>
      obtain ⟨first, others⟩ := List.forall_mem_cons.mp all
      have joined := lexes_connective marks (rule (by omega)) first (ih others)
      simpa [String.append_assoc, implAll, Nat.add_assoc] using joined

end Formula

/-! ### Joined operands -/

namespace Connective

open Formula (Lexes SpellsWithin IsVariableName)

def mark : Connective → String
  | .conj => "&"
  | .disj => "|"
  | .impl => "->"

/-- The operands in parentheses, with the connective between them. -/
def joinedText (c : Connective) (ascii : Bool) (operands : List (Formula String)) : String :=
  (" " ++ c.mark ++ " ").intercalate
    (operands.map fun f => "(" ++ f.render (.select ascii) ++ ")")

/-- How many implications are open where the last of `count` operands is read. -/
def waiting : Connective → (count : Nat) → Nat
  | .conj, _ | .disj, _ => 0
  | .impl, count => count - 1

theorem exists_cons_cons {operands : List (Formula String)} (several : 2 ≤ operands.length) :
    ∃ lhs rhs more, operands = lhs :: rhs :: more := by
  cases operands with
  | nil => simp at several
  | cons lhs rest =>
      cases rest with
      | nil => simp at several
      | cons rhs more => exact ⟨lhs, rhs, more, rfl⟩

theorem lexes_joinedText {c : Connective} {room : Nat} {lhs rhs joined : Formula String}
    {more : List (Formula String)} (made : c.join (lhs :: rhs :: more) = .ok joined) (ascii : Bool)
    (named : ∀ f ∈ lhs :: rhs :: more, ∀ name ∈ f.occurrences, IsVariableName name)
    (low : ∀ f ∈ lhs :: rhs :: more, f.height < room) :
    Lexes (c.joinedText ascii (lhs :: rhs :: more)).toList
      (SpellsWithin (room + c.waiting (lhs :: rhs :: more).length) .formula · joined) := by
  have all : ∀ f ∈ lhs :: rhs :: more, Lexes ("(" ++ f.render (.select ascii) ++ ")").toList
      (SpellsWithin room .operand · f) := by
    intro f mem
    have printed := Formula.lexes_render (Formula.legible_select ascii) fun name occurs =>
      Formula.isIdentifier_iff.mpr (named f mem name occurs)
    exact (Formula.lexes_enclosed printed).mono fun ts within => within.mono (low f mem)
  obtain rfl := Except.ok.inj made
  obtain ⟨first, others⟩ := List.forall_mem_cons.mp all
  have marks := Formula.legible_select true
  cases c with
  | conj =>
      have start := first.mono fun ts within => SpellsWithin.operand within
      have chain := Formula.lexes_leftChain marks.conj SpellsWithin.conj start others
      exact chain.mono fun ts within => .disjunction (.conjunction within)
  | disj =>
      have start := first.mono fun ts within => SpellsWithin.conjunction (.operand within)
      have chain := Formula.lexes_leftChain marks.disj
        (fun before or after => SpellsWithin.disj before or (.operand after)) start others
      exact chain.mono fun ts within => .disjunction within
  | impl => exact Formula.lexes_implAll marks.impl all

/-- Two operands or more, joined by a connective, are the formula that is read from their texts with
the connective between them. The limit on nesting does not matter as long as every operand is low
enough for its parentheses, and for the implications that are open around them. -/
theorem parse_joinedText (c : Connective) (ascii : Bool) {operands : List (Formula String)}
    (several : 2 ≤ operands.length)
    (named : ∀ f ∈ operands, ∀ name ∈ f.occurrences, IsVariableName name) :
    ∃ joined, c.join operands = .ok joined ∧
      Formula.parseAny (c.joinedText ascii operands) = .ok joined ∧
      ∀ limit, (∀ f ∈ operands, f.height + c.waiting operands.length < limit) →
        Formula.parseWithin limit (c.joinedText ascii operands) = .ok joined := by
  obtain ⟨lhs, rhs, more, rfl⟩ := exists_cons_cons several
  obtain ⟨joined, made⟩ : ∃ joined, c.join (lhs :: rhs :: more) = .ok joined := ⟨_, rfl⟩
  refine ⟨joined, made, ?_, ?_⟩
  -- without a limit there is room for the highest operand in its parentheses
  · let heights := (lhs :: rhs :: more).map Formula.height
    have low : ∀ f ∈ lhs :: rhs :: more, f.height < heights.max?.getD 0 + 1 := by
      intro f mem
      exact Nat.lt_succ_of_le (List.le_max?_getD_of_mem (List.mem_map_of_mem mem))
    exact Formula.parseAny_of_parseWithin
      ((lexes_joinedText made ascii named low).parseWithin (Nat.le_refl _))
  · intro limit low
    let waiting := c.waiting (lhs :: rhs :: more).length
    have room : ∀ f ∈ lhs :: rhs :: more, f.height < limit - waiting :=
      fun f mem => Nat.lt_sub_of_add_lt (low f mem)
    have fits : waiting ≤ limit :=
      Nat.le_of_lt (Nat.lt_of_le_of_lt (Nat.le_add_left _ _) (low lhs List.mem_cons_self))
    exact (lexes_joinedText made ascii named room).parseWithin
      (Nat.le_of_eq (Nat.sub_add_cancel fits))

/-- Operands of every form. -/
def threeOperands : List (Formula String) :=
  [.impl (.var "p") (.var "q'"), .var "_r", .conj (.var "p") (.disj (.var "q'") (.var "s1"))]

theorem parse_threeOperands :
    impl.joinedText false threeOperands = "(p → q') -> (_r) -> (p ∧ (q' ∨ s1))" ∧
      ∃ joined, impl.join threeOperands = .ok joined ∧
        @Formula.parse (.uniform 5) (impl.joinedText false threeOperands) = .ok joined := by
  have named : ∀ f ∈ threeOperands, ∀ name ∈ f.occurrences, IsVariableName name := by decide
  obtain ⟨joined, made, -, read⟩ := parse_joinedText .impl false (by decide) named
  exact ⟨by decide, joined, made, read 5 (by decide)⟩

end Connective

end Deduction
