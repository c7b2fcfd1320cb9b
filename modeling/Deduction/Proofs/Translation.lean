import Mathlib.Data.List.Forall2
import Deduction.Script.Basic
import Deduction.Proofs.Rules

/-!
The rules of inference under a change of labels and formulas.

A rule looks at labels only to see which of them are equal, and at a formula only to see its
outermost connective and whether it equals another. So a change that keeps these carries every rule
that applies to one that applies. A change that does not make different formulas equal and keeps
variables variables carries the rules that are refused as well, with the same kind of error.
-/

namespace Deduction

/-! ### Results -/

section

variable {Error Error' A A' B B' : Type}

/-- A result corresponds to another. What succeeds has to succeed on the other side too; what fails
has to fail there only if the correspondence is strict. -/
inductive Follows (strict : Prop) (E : Error → Error' → Prop) (S : A → A' → Prop) :
    Except Error A → Except Error' A' → Prop
  | ok {a a'} : S a a' → Follows strict E S (.ok a) (.ok a')
  | error {e e'} : E e e' → Follows strict E S (.error e) (.error e')
  | lax {e y} : ¬strict → Follows strict E S (.error e) y

namespace Follows

variable {strict : Prop} {E : Error → Error' → Prop} {S : A → A' → Prop} {T : B → B' → Prop}

/-- A failure that needs to be followed only if the correspondence is strict. -/
theorem of_strict {e : Error} {y : Except Error' A'}
    (follows : strict → Follows strict E S (.error e) y) : Follows strict E S (.error e) y := by
  by_cases h : strict
  · exact follows h
  · exact .lax h

theorem bind {x : Except Error A} {y : Except Error' A'} {next : A → Except Error B}
    {next' : A' → Except Error' B'} (first : Follows strict E S x y)
    (rest : ∀ a a', S a a' → Follows strict E T (next a) (next' a')) :
    Follows strict E T (x >>= next) (y >>= next') := by
  cases first with
  | ok related => exact rest _ _ related
  | error related => exact .error related
  | lax notStrict => exact .lax notStrict

theorem exists_ok {a : A} {y : Except Error' A'} (follows : Follows strict E S (.ok a) y) :
    ∃ a', y = .ok a' ∧ S a a' := by
  cases follows with
  | ok related => exact ⟨_, rfl, related⟩

theorem exists_error {e : Error} {y : Except Error' A'}
    (follows : Follows strict E S (.error e) y) (h : strict) : ∃ e', y = .error e' ∧ E e e' := by
  cases follows with
  | error related => exact ⟨_, rfl, related⟩
  | lax notStrict => exact absurd h notStrict

theorem exists_of_ok {x : Except Error A} {a' : A'} (follows : Follows strict E S x (.ok a'))
    (h : strict) : ∃ a, x = .ok a ∧ S a a' := by
  cases follows with
  | ok related => exact ⟨_, rfl, related⟩
  | lax notStrict => exact absurd h notStrict

theorem exists_of_error {x : Except Error A} {e' : Error'}
    (follows : Follows strict E S x (.error e')) (h : strict) : ∃ e, x = .error e ∧ E e e' := by
  cases follows with
  | error related => exact ⟨_, rfl, related⟩
  | lax notStrict => exact absurd h notStrict

end Follows

end

/-! ### Tables -/

namespace Ordered

variable {Key Key' Value Value' : Type}

/-- Keys that correspond are equal on one side where they are equal on the other. -/
def KeepsKeys [BEq Key] [BEq Key'] (K : Key → Key' → Prop) : Prop :=
  ∀ k k' l l', K k k' → K l l' → (k == l) = (k' == l')

/-- Two tables that correspond entry by entry. -/
abbrev Corresponds (K : Key → Key' → Prop) (V : Value → Value' → Prop) :
    List (Key × Value) → List (Key' × Value') → Prop :=
  List.Forall₂ fun e e' => K e.1 e'.1 ∧ V e.2 e'.2

namespace Corresponds

variable [BEq Key] [BEq Key'] {K : Key → Key' → Prop} {V : Value → Value' → Prop}
  {entries : List (Key × Value)} {entries' : List (Key' × Value')} {key : Key} {key' : Key'}

theorem find? (table : Corresponds K V entries entries') (keeps : KeepsKeys K)
    (same : K key key') :
    Option.Rel V (Ordered.find? key entries) (Ordered.find? key' entries') := by
  induction table with
  | nil => exact .none
  | @cons e e' rest rest' related _ ih =>
      rw [Ordered.find?, Ordered.find?, keeps e.1 e'.1 key key' related.1 same]
      split
      · exact .some related.2
      · exact ih

theorem put (table : Corresponds K V entries entries') (keeps : KeepsKeys K)
    (same : K key key') {value : Value} {value' : Value'} (related : V value value') :
    Corresponds K V (Ordered.put key value entries) (Ordered.put key' value' entries') := by
  induction table with
  | nil => exact .cons ⟨same, related⟩ .nil
  | @cons e e' rest rest' first others ih =>
      rw [Ordered.put, Ordered.put, keeps e.1 e'.1 key key' first.1 same]
      split
      · exact .cons ⟨first.1, related⟩ others
      · exact .cons first ih

theorem erase (table : Corresponds K V entries entries') (keeps : KeepsKeys K)
    (same : K key key') :
    Corresponds K V (Ordered.erase key entries) (Ordered.erase key' entries') := by
  induction table with
  | nil => exact .nil
  | @cons e e' rest rest' first others ih =>
      rw [Ordered.erase, Ordered.erase, keeps e.1 e'.1 key key' first.1 same]
      split
      · exact others
      · exact .cons first ih

end Corresponds

end Ordered

/-! ### Translations -/

variable {Label Label' Atom Atom' : Type}

/-- A correspondence of labels that keeps them apart, and a change of formulas that keeps their
connectives. -/
structure Translation (Label Label' Atom Atom' : Type) [BEq Label] [BEq Label'] where
  label : Label → Label' → Prop
  keepsLabels : Ordered.KeepsKeys label
  formula : Formula Atom → Formula Atom'
  conj (f g : Formula Atom) : formula (.conj f g) = .conj (formula f) (formula g)
  disj (f g : Formula Atom) : formula (.disj f g) = .disj (formula f) (formula g)
  impl (f g : Formula Atom) : formula (.impl f g) = .impl (formula f) (formula g)

/-- A translation that a rule cannot notice: variables stay variables, and different formulas stay
different. -/
structure Translation.Faithful [BEq Label] [BEq Label'] (τ : Translation Label Label' Atom Atom') :
    Prop where
  var (a : Atom) : ∃ b, τ.formula (.var a) = .var b
  injective : Function.Injective τ.formula

section

variable [BEq Label] [BEq Label'] {τ : Translation Label Label' Atom Atom'}

/-- The second set binds the labels that correspond to those of the first, in the same order and to
the translated formulas. -/
def Assumptions.Matches (τ : Translation Label Label' Atom Atom') (a : Assumptions Label Atom)
    (b : Assumptions Label' Atom') : Prop :=
  Ordered.Corresponds τ.label (fun f g => g = τ.formula f) a.entries b.entries

structure Proof.Matches (τ : Translation Label Label' Atom Atom') (p : Proof Label Atom)
    (q : Proof Label' Atom') : Prop where
  conclusion : q.conclusion = τ.formula p.conclusion
  assumptions : p.assumptions.Matches τ q.assumptions

/-- The same rule, applied to corresponding premises, labels and formulas. -/
inductive Inference.Matches {Ref Ref' : Type} (τ : Translation Label Label' Atom Atom')
    (R : Ref → Ref' → Prop) : Inference Ref Label Atom → Inference Ref' Label' Atom' → Prop
  | suppose {f l l'} : τ.label l l' → Matches τ R (.suppose f l) (.suppose (τ.formula f) l')
  | conjIntro {p p' q q'} : R p p' → R q q' → Matches τ R (.conjIntro p q) (.conjIntro p' q')
  | conjElim {p p' side} : R p p' → Matches τ R (.conjElim p side) (.conjElim p' side)
  | implElim {p p' q q'} : R p p' → R q q' → Matches τ R (.implElim p q) (.implElim p' q')
  | implIntro {l l' q q'} : τ.label l l' → R q q' →
      Matches τ R (.implIntro l q) (.implIntro l' q')
  | disjIntro {p p' other side} : R p p' →
      Matches τ R (.disjIntro p other side) (.disjIntro p' (τ.formula other) side)
  | disjElim {r r' s s' l₁ l₁' t t' l₂ l₂'} : R r r' → R s s' → τ.label l₁ l₁' → R t t' →
      τ.label l₂ l₂' → Matches τ R (.disjElim r s l₁ t l₂) (.disjElim r' s' l₁' t' l₂')

/-- Results of rules that correspond, with errors of one kind. -/
abbrev Translation.Commutes {A A' : Type} (τ : Translation Label Label' Atom Atom')
    (S : A → A' → Prop) :
    Except (RuleError Label Atom) A → Except (RuleError Label' Atom') A' → Prop :=
  Follows τ.Faithful (fun e e' => e'.kind = e.kind) S

/-- What becomes of a formula, by its outermost connective. -/
inductive Translation.Shapes (τ : Translation Label Label' Atom Atom') :
    Formula Atom → Formula Atom' → Prop
  | var {a f'} : (τ.Faithful → ∃ b, f' = .var b) → Shapes τ (.var a) f'
  | conj (f g) : Shapes τ (.conj f g) (.conj (τ.formula f) (τ.formula g))
  | disj (f g) : Shapes τ (.disj f g) (.disj (τ.formula f) (τ.formula g))
  | impl (f g) : Shapes τ (.impl f g) (.impl (τ.formula f) (τ.formula g))

theorem Proof.Matches.shapes {p : Proof Label Atom} {p' : Proof Label' Atom'}
    (same : p.Matches τ p') : τ.Shapes p.conclusion p'.conclusion := by
  rw [same.conclusion]
  cases p.conclusion with
  | var a => exact .var fun faithful => faithful.var a
  | conj f g =>
      rw [τ.conj]
      exact .conj f g
  | disj f g =>
      rw [τ.disj]
      exact .disj f g
  | impl f g =>
      rw [τ.impl]
      exact .impl f g

section

variable {A A' Error Error' : Type} [BEq Atom] [LawfulBEq Atom] [BEq Atom'] [LawfulBEq Atom']
  {E : Error → Error' → Prop} {S : A → A' → Prop} {x : Except Error A} {y : Except Error' A'}
  {e : Error} {e' : Error'}

/-- A comparison of formulas that has to succeed. Different formulas may become equal, unless the
translation is faithful. -/
theorem Translation.follows_if (f g : Formula Atom)
    (equal : f = g → Follows τ.Faithful E S x y) (refused : E e e') :
    Follows τ.Faithful E S (if f == g then x else .error e)
      (if τ.formula f == τ.formula g then y else .error e') := by
  by_cases same : f = g
  · subst same
    simpa using equal rfl
  · simp only [beq_eq_false_iff_ne.mpr same, Bool.false_eq_true, if_false]
    apply Follows.of_strict
    intro faithful
    have differ : τ.formula f ≠ τ.formula g := mt (@faithful.injective f g) same
    simp only [beq_eq_false_iff_ne.mpr differ, Bool.false_eq_true, if_false]
    exact .error refused

theorem Translation.follows_unless (f g : Formula Atom)
    (equal : f = g → Follows τ.Faithful E S x y) (refused : E e e') :
    Follows τ.Faithful E S (if !(f == g) then .error e else x)
      (if !(τ.formula f == τ.formula g) then .error e' else y) := by
  have follows := τ.follows_if f g equal refused
  generalize (f == g) = same at follows ⊢
  generalize (τ.formula f == τ.formula g) = same' at follows ⊢
  cases same <;> cases same' <;> exact follows

end

end

/-! ### Assumption sets -/

namespace Assumptions.Matches

variable [BEq Label] [BEq Label'] {τ : Translation Label Label' Atom Atom'}
  {a b : Assumptions Label Atom} {a' b' : Assumptions Label' Atom'} {l : Label} {l' : Label'}

theorem single (same : τ.label l l') (f : Formula Atom) :
    (Assumptions.single l f).Matches τ (.single l' (τ.formula f)) :=
  .cons ⟨same, rfl⟩ .nil

theorem size_eq (sets : a.Matches τ a') : a'.size = a.size := (List.Forall₂.length_eq sets).symm

theorem get? (sets : a.Matches τ a') (same : τ.label l l') :
    Option.Rel (fun f g => g = τ.formula f) (a.get? l) (a'.get? l') := by
  unfold Assumptions.Matches at sets
  exact sets.find? τ.keepsLabels same

theorem insert (sets : a.Matches τ a') (same : τ.label l l') (f : Formula Atom) :
    (a.insert l f).Matches τ (a'.insert l' (τ.formula f)) := by
  unfold Assumptions.Matches at sets ⊢
  exact sets.put τ.keepsLabels same rfl

theorem erase (sets : a.Matches τ a') (same : τ.label l l') :
    (a.erase l).Matches τ (a'.erase l') := by
  unfold Assumptions.Matches at sets ⊢
  exact sets.erase τ.keepsLabels same

variable [BEq Atom] [LawfulBEq Atom] [BEq Atom'] [LawfulBEq Atom']

theorem insertAll {entries : List (Label × Formula Atom)} {entries' : List (Label' × Formula Atom')}
    (rest : Ordered.Corresponds τ.label (fun f g => g = τ.formula f) entries entries')
    (sets : a.Matches τ a') :
    Follows τ.Faithful (fun _ _ => True) (Assumptions.Matches τ) (a.insertAll entries)
      (a'.insertAll entries') := by
  induction rest generalizing a a' with
  | nil => exact .ok sets
  | @cons e e' rest rest' first _ ih =>
      obtain ⟨label, f⟩ := e
      obtain ⟨label', _⟩ := e'
      obtain ⟨same, rfl⟩ := first
      have found := sets.get? same
      have next := ih (sets.insert same f)
      rw [Assumptions.insertAll, Assumptions.insertAll]
      generalize a.get? label = bound at found ⊢
      generalize a'.get? label' = bound' at found ⊢
      cases found with
      | none => exact next
      | @some g _ related =>
          subst related
          exact τ.follows_if g f (fun _ => next) trivial

theorem merge (left : a.Matches τ a') (right : b.Matches τ b') :
    τ.Commutes (Assumptions.Matches τ) (Proof.mergeAssumptions a b)
      (Proof.mergeAssumptions a' b') := by
  have unions : Follows τ.Faithful (fun _ _ => True) (Assumptions.Matches τ) (a.merge b)
      (a'.merge b') := insertAll right left
  rw [Proof.mergeAssumptions, Proof.mergeAssumptions]
  generalize a.merge b = x at unions ⊢
  generalize a'.merge b' = y at unions ⊢
  cases unions with
  | ok sets => exact .ok sets
  | error _ => exact .error rfl
  | lax notFaithful => exact .lax notFaithful

end Assumptions.Matches

/-! ### Rules -/

namespace Proof.Matches

variable [BEq Label] [BEq Label'] [BEq Atom] [LawfulBEq Atom] [BEq Atom'] [LawfulBEq Atom']
  {τ : Translation Label Label' Atom Atom'} {p q r s t : Proof Label Atom}
  {p' q' r' s' t' : Proof Label' Atom'} {l l₁ l₂ : Label} {l' l₁' l₂' : Label'}

omit [BEq Atom] [LawfulBEq Atom] [BEq Atom'] [LawfulBEq Atom'] in
theorem suppose (same : τ.label l l') (f : Formula Atom) :
    (Proof.suppose f l).Matches τ (.suppose (τ.formula f) l') :=
  ⟨rfl, .single same f⟩

omit [BEq Atom] [LawfulBEq Atom] [BEq Atom'] [LawfulBEq Atom'] in
theorem disjIntro (premise : p.Matches τ p') (other : Formula Atom) (side : Side) :
    (p.disjIntro other side).Matches τ (p'.disjIntro (τ.formula other) side) := by
  rw [Proof.disjIntro_eq, Proof.disjIntro_eq]
  refine ⟨?_, premise.assumptions⟩
  cases side <;> simp [Side.join, premise.conclusion, τ.disj]

theorem conjIntro (left : p.Matches τ p') (right : q.Matches τ q') :
    τ.Commutes (Proof.Matches τ) (p.conjIntro q) (p'.conjIntro q') := by
  apply Follows.bind (left.assumptions.merge right.assumptions)
  intro c c' sets
  refine .ok ⟨?_, sets⟩
  rw [left.conclusion, right.conclusion, τ.conj]

omit [BEq Atom] [LawfulBEq Atom] [BEq Atom'] [LawfulBEq Atom'] in
theorem conjElim (premise : p.Matches τ p') (side : Side) :
    τ.Commutes (Proof.Matches τ) (p.conjElim side) (p'.conjElim side) := by
  have shapes := premise.shapes
  unfold Proof.conjElim
  generalize p.conclusion = f at shapes ⊢
  generalize p'.conclusion = f' at shapes ⊢
  cases shapes with
  | conj f g =>
      cases side with
      | left => exact .ok ⟨rfl, premise.assumptions⟩
      | right => exact .ok ⟨rfl, premise.assumptions⟩
  | disj _ _ | impl _ _ => exact .error rfl
  | var stays =>
      apply Follows.of_strict
      intro faithful
      obtain ⟨b, rfl⟩ := stays faithful
      exact .error rfl

theorem implElim (premise : p.Matches τ p') (implication : q.Matches τ q') :
    τ.Commutes (Proof.Matches τ) (p.implElim q) (p'.implElim q') := by
  have shapes := implication.shapes
  unfold Proof.implElim
  generalize q.conclusion = f at shapes ⊢
  generalize q'.conclusion = f' at shapes ⊢
  cases shapes with
  | impl f g =>
      rw [premise.conclusion]
      refine τ.follows_if f p.conclusion (fun _ => ?_) rfl
      apply Follows.bind (premise.assumptions.merge implication.assumptions)
      intro c c' sets
      exact .ok ⟨rfl, sets⟩
  | conj _ _ | disj _ _ => exact .error rfl
  | var stays =>
      apply Follows.of_strict
      intro faithful
      obtain ⟨b, rfl⟩ := stays faithful
      exact .error rfl

omit [BEq Atom] [LawfulBEq Atom] [BEq Atom'] [LawfulBEq Atom'] in
theorem assumed (premise : p.Matches τ p') (same : τ.label l l') :
    τ.Commutes (fun f g => g = τ.formula f) (p.assumed l) (p'.assumed l') := by
  have found := premise.assumptions.get? same
  rw [Proof.assumed, Proof.assumed]
  generalize p.assumptions.get? l = bound at found ⊢
  generalize p'.assumptions.get? l' = bound' at found ⊢
  cases found with
  | none => exact .error rfl
  | some related => exact .ok related

omit [BEq Atom] [LawfulBEq Atom] [BEq Atom'] [LawfulBEq Atom'] in
theorem implIntro (premise : q.Matches τ q') (same : τ.label l l') :
    τ.Commutes (Proof.Matches τ) (q.implIntro l) (q'.implIntro l') := by
  apply Follows.bind (premise.assumed same)
  rintro f _ rfl
  refine .ok ⟨?_, premise.assumptions.erase same⟩
  rw [premise.conclusion, τ.impl]

/-- The comparisons of a proof by cases, made one after another, and the unions after them. -/
theorem disjElim (whole : r.Matches τ r') (left : s.Matches τ s') (leftLabel : τ.label l₁ l₁')
    (right : t.Matches τ t') (rightLabel : τ.label l₂ l₂') :
    τ.Commutes (Proof.Matches τ) (r.disjElim s l₁ t l₂) (r'.disjElim s' l₁' t' l₂') := by
  have shapes := whole.shapes
  unfold Proof.disjElim
  generalize r.conclusion = f at shapes ⊢
  generalize r'.conclusion = f' at shapes ⊢
  cases shapes with
  | disj f g =>
      apply Follows.bind (left.assumed leftLabel)
      rintro f' _ rfl
      apply Follows.bind (right.assumed rightLabel)
      rintro g' _ rfl
      rw [left.conclusion, right.conclusion]
      refine τ.follows_unless f' f (fun _ => ?_) rfl
      refine τ.follows_unless g' g (fun _ => ?_) rfl
      refine τ.follows_unless s.conclusion t.conclusion (fun _ => ?_) rfl
      apply Follows.bind ((left.assumptions.erase leftLabel).merge
        (right.assumptions.erase rightLabel))
      intro cases cases' sets
      apply Follows.bind (whole.assumptions.merge sets)
      intro c c' sets
      exact .ok ⟨rfl, sets⟩
  | conj _ _ | impl _ _ => exact .error rfl
  | var stays =>
      apply Follows.of_strict
      intro faithful
      obtain ⟨b, rfl⟩ := stays faithful
      exact .error rfl

theorem shows (premise : p.Matches τ p') (expected : Formula Atom) :
    τ.Commutes (Proof.Matches τ) (p.shows expected) (p'.shows (τ.formula expected)) := by
  rw [Proof.shows, Proof.shows, Proof.isClosed, Proof.isClosed, premise.assumptions.size_eq,
    premise.conclusion]
  split
  · exact .error rfl
  · exact τ.follows_if p.conclusion expected (fun _ => .ok premise) rfl

end Proof.Matches

namespace Inference.Matches

variable [BEq Label] [BEq Label'] {τ : Translation Label Label' Atom Atom'}

theorem apply [BEq Atom] [LawfulBEq Atom] [BEq Atom'] [LawfulBEq Atom']
    {i : Inference (Proof Label Atom) Label Atom}
    {i' : Inference (Proof Label' Atom') Label' Atom'} (same : i.Matches τ (Proof.Matches τ) i') :
    τ.Commutes (Proof.Matches τ) i.apply i'.apply := by
  cases same with
  | suppose label => exact .ok (.suppose label _)
  | conjIntro left right => exact left.conjIntro right
  | conjElim premise => exact premise.conjElim _
  | implElim premise implication => exact premise.implElim implication
  | implIntro label premise => exact premise.implIntro label
  | disjIntro premise => exact .ok (premise.disjIntro _ _)
  | disjElim whole left leftLabel right rightLabel =>
      exact whole.disjElim left leftLabel right rightLabel

variable {Ref Ref' : Type} {R : Ref → Ref' → Prop} {i : Inference Ref Label Atom}
  {i' : Inference Ref' Label' Atom'}

theorem refs (same : i.Matches τ R i') : List.Forall₂ R i.refs i'.refs := by
  cases same with
  | suppose _ => exact .nil
  | conjElim p | implIntro _ p | disjIntro p => exact .cons p .nil
  | conjIntro p q | implElim p q => exact .cons p (.cons q .nil)
  | disjElim r s _ t _ => exact .cons r (.cons s (.cons t .nil))

theorem rule (same : i.Matches τ R i') : i'.rule = i.rule := by
  cases same <;> rfl

/-- References that resolve to corresponding premises give corresponding inferences. -/
theorem resolve {Error Error' Found Found' : Type} {strict : Prop} {E : Error → Error' → Prop}
    {S : Found → Found' → Prop} {find : Ref → Except Error Found}
    {find' : Ref' → Except Error' Found'} (same : i.Matches τ R i')
    (found : ∀ ref ref', R ref ref' → Follows strict E S (find ref) (find' ref')) :
    Follows strict E (Inference.Matches τ S) (i.resolve find) (i'.resolve find') := by
  cases same with
  | suppose label => exact .ok (.suppose label)
  | conjIntro left right =>
      refine .bind (found _ _ left) fun p p' left => ?_
      exact .bind (found _ _ right) fun q q' right => .ok (.conjIntro left right)
  | conjElim premise =>
      exact .bind (found _ _ premise) fun p p' premise => .ok (.conjElim premise)
  | implElim premise implication =>
      refine .bind (found _ _ premise) fun p p' premise => ?_
      exact .bind (found _ _ implication) fun q q' implication =>
        .ok (.implElim premise implication)
  | implIntro label premise =>
      exact .bind (found _ _ premise) fun p p' premise => .ok (.implIntro label premise)
  | disjIntro premise =>
      exact .bind (found _ _ premise) fun p p' premise => .ok (.disjIntro premise)
  | disjElim whole left leftLabel right rightLabel =>
      refine .bind (found _ _ whole) fun r r' whole => ?_
      refine .bind (found _ _ left) fun s s' left => ?_
      exact .bind (found _ _ right) fun t t' right =>
        .ok (.disjElim whole left leftLabel right rightLabel)

end Inference.Matches

end Deduction
