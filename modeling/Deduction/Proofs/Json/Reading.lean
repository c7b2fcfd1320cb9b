import Mathlib.Data.List.Induction
import Mathlib.Data.List.TakeWhile
import Deduction.Json.Reader
import Deduction.Proofs.Assumptions
import Deduction.Proofs.Json.Lexing

/-!
Reading Json texts.

The reader is a stack machine, and its runs are composed of the runs over the parts of a value. What
is written of a regular value is read as that value, and values that are read are regular.
-/

namespace Deduction.Json

/-! ### Runs -/

abbrev Configuration := List Frame × Expect

/-- The reader gets from one configuration to another with some tokens, wherever they stand. -/
inductive Reads (limit : Nat) : Configuration → List Token → Configuration → Prop where
  | done {state : Configuration} : Reads limit state [] state
  | step {stack : List Frame} {expect : Expect} {token : Token} {next last : Configuration}
      {ts : List Token} (steps : ∀ start, step limit stack expect ⟨token, start⟩ = .ok next)
      (more : Reads limit next ts last) : Reads limit (stack, expect) (token :: ts) last

theorem Reads.trans {limit : Nat} {first second third : Configuration} {ts us : List Token}
    (left : Reads limit first ts second) (right : Reads limit second us third) :
    Reads limit first (ts ++ us) third := by
  induction left with
  | done => exact right
  | step steps _ ih => exact .step steps (ih right)

theorem run_cons {limit : Nat} {stack : List Frame} {expect : Expect} {t : Located}
    {next : Configuration} (steps : step limit stack expect t = .ok next) (rest : List Located) :
    run limit stack expect (t :: rest) = run limit next.1 next.2 rest := by
  rw [run.eq_def]
  split
  · simp [step] at steps
  · contradiction
  · simp_all

theorem Reads.run {limit : Nat} {first last : Configuration} {ts : List Token}
    (reads : Reads limit first ts last) {located : List Located}
    (tokens : located.map (·.token) = ts) (more : List Located) :
    Json.run limit first.1 first.2 (located ++ more) = Json.run limit last.1 last.2 more := by
  induction reads generalizing located with
  | done =>
      obtain rfl := List.map_eq_nil_iff.mp tokens
      rfl
  | step steps _ ih =>
      obtain ⟨t, rest, rfl, rfl, others⟩ := List.map_eq_cons_iff.mp tokens
      rw [List.cons_append, run_cons (steps t.start), ih others]

/-! ### Written values -/

theorem depth_lt_of_mem_arr {items : List Json} {item : Json} (mem : item ∈ items) :
    item.depth < (arr items).depth := by
  rw [depth, Nat.lt_succ_iff]
  induction items with
  | nil => simp at mem
  | cons first rest ih =>
      rw [depthOfItems]
      rcases List.mem_cons.mp mem with rfl | mem
      · exact Nat.le_max_left _ _
      · exact Nat.le_trans (ih mem) (Nat.le_max_right _ _)

theorem depth_lt_of_mem_obj {fields : List (Text × Json)} {field : Text × Json}
    (mem : field ∈ fields) : field.2.depth < (obj fields).depth := by
  rw [depth, Nat.lt_succ_iff]
  induction fields with
  | nil => simp at mem
  | cons first rest ih =>
      rw [depthOfFields]
      rcases List.mem_cons.mp mem with rfl | mem
      · exact Nat.le_max_left _ _
      · exact Nat.le_trans (ih mem) (Nat.le_max_right _ _)

/-- No value starts with a token that closes a container. -/
theorem exists_tokensOf (value : Json) :
    ∃ t ts, tokensOf value = t :: ts ∧ t ≠ .closeBracket := by
  cases value with
  | arr items => exact ⟨_, _, rfl, nofun⟩
  | obj fields => exact ⟨_, _, rfl, nofun⟩
  | null | bool _ | int _ | real _ | str _ => exact ⟨_, _, rfl, nofun⟩

theorem exists_tokensOfItems (item : Json) (rest : List Json) :
    ∃ t ts, tokensOfItems (item :: rest) = t :: ts ∧ t ≠ .closeBracket := by
  obtain ⟨t, ts, tokens, other⟩ := exists_tokensOf item
  cases rest with
  | nil => exact ⟨t, ts, tokens, other⟩
  | cons next rest =>
      exact ⟨t, ts ++ .comma :: tokensOfItems (next :: rest), by simp [tokensOfItems, tokens],
        other⟩

/-- A value is read whole inside some open containers. -/
def ReadsWhole (limit : Nat) (stack : List Frame) (value : Json) : Prop :=
  Reads limit (stack, .value) (tokensOf value) (stack, .after value)

/-- The first item of an array is read like the others. -/
theorem Reads.firstItem {limit : Nat} {stack : List Frame} {t : Token} {ts : List Token}
    {last : Configuration} (reads : Reads limit (.array [] :: stack, .value) (t :: ts) last)
    (other : t ≠ .closeBracket) :
    Reads limit (stack, .firstItem) (t :: ts) last := by
  cases reads with
  | step steps more =>
      apply Reads.step _ more
      intro start
      rw [← steps start]
      unfold Json.step
      split <;> simp_all

theorem reads_items {limit : Nat} {stack : List Frame} (items : List Json) (item : Json)
    (done : List Json)
    (all : ∀ value ∈ item :: items, ∀ done, ReadsWhole limit (.array done :: stack) value) :
    Reads limit (.array done :: stack, .value) (tokensOfItems (item :: items) ++ [.closeBracket])
      (stack, .after (.arr (done.reverse ++ item :: items))) := by
  induction items generalizing item done with
  | nil =>
      have first := all item List.mem_cons_self done
      apply first.trans
      apply Reads.step _ .done
      intro start
      simp [step, continueFrame]
  | cons next rest ih =>
      have first := all item List.mem_cons_self done
      have others := ih next (item :: done) fun value mem => all value (List.mem_cons_of_mem _ mem)
      rw [List.reverse_cons, List.append_assoc, List.singleton_append] at others
      have tokens : tokensOfItems (item :: next :: rest) ++ [.closeBracket] =
          tokensOf item ++ .comma :: (tokensOfItems (next :: rest) ++ [.closeBracket]) := by
        simp [tokensOfItems]
      rw [tokens]
      exact first.trans (.step (fun _ => rfl) others)

theorem put_of_distinct {key : Text} {value : Json} {done rest : List (Text × Json)}
    (distinct : Ordered.Distinct (done ++ (key, value) :: rest)) :
    Ordered.put key value done = done ++ [(key, value)] := by
  induction done with
  | nil => rfl
  | cons field done ih =>
      obtain ⟨apart, others⟩ := List.pairwise_cons.mp distinct
      have fresh : (field.1 == key) = false := apart (key, value) (by simp)
      simp [Ordered.put, fresh, ih others]

theorem reads_field {limit : Nat} {stack : List Frame} {done : List (Text × Json)}
    {key : Text} {value : Json} (whole : ReadsWhole limit (.object done key :: stack) value) :
    Reads limit (stack, .key done) (.text key :: .colon :: tokensOf value)
      (.object done key :: stack, .after value) :=
  .step (fun _ => rfl) (.step (fun _ => rfl) whole)

theorem reads_fields {limit : Nat} {stack : List Frame} (fields : List (Text × Json))
    (field : Text × Json) (done : List (Text × Json))
    (distinct : Ordered.Distinct (done ++ field :: fields))
    (all : ∀ entry ∈ field :: fields, ∀ done,
      ReadsWhole limit (.object done entry.1 :: stack) entry.2) :
    Reads limit (stack, .key done) (tokensOfFields (field :: fields) ++ [.closeBrace])
      (stack, .after (.obj (done ++ field :: fields))) := by
  induction fields generalizing field done with
  | nil =>
      obtain ⟨key, value⟩ := field
      apply (reads_field (all (key, value) List.mem_cons_self done)).trans
      apply Reads.step _ .done
      intro start
      simp [step, continueFrame, put_of_distinct distinct]
  | cons next rest ih =>
      obtain ⟨key, value⟩ := field
      have first := reads_field (all (key, value) List.mem_cons_self done)
      have comma (start : Nat) :
          step limit (.object done key :: stack) (.after value) ⟨.comma, start⟩ =
            .ok (stack, .key (done ++ [(key, value)])) := by
        simp [step, continueFrame, put_of_distinct distinct]
      have others := ih next (done ++ [(key, value)]) (by simpa using distinct)
        fun entry mem => all entry (List.mem_cons_of_mem _ mem)
      rw [List.append_assoc, List.singleton_append] at others
      have tokens : tokensOfFields ((key, value) :: next :: rest) ++ [.closeBrace] =
          .text key :: .colon :: tokensOf value ++
            .comma :: (tokensOfFields (next :: rest) ++ [.closeBrace]) := by
        simp [tokensOfFields]
      rw [tokens]
      exact first.trans (.step comma others)

/-- The first key of an object is read like the others. -/
theorem Reads.firstKey {limit : Nat} {stack : List Frame} {key : Text} {ts : List Token}
    {last : Configuration} (reads : Reads limit (stack, .key []) (.text key :: ts) last) :
    Reads limit (stack, .firstKey) (.text key :: ts) last := by
  cases reads with
  | step steps more => exact .step steps more

theorem readsWhole {value : Json} (regular : Regular False value) {limit : Nat}
    {stack : List Frame} (room : stack.length + value.depth ≤ limit) :
    ReadsWhole limit stack value := by
  induction regular generalizing stack with
  | null => exact .step (fun _ => rfl) .done
  | bool => exact .step (fun _ => rfl) .done
  | int => exact .step (fun _ => rfl) .done
  | real allowed => exact allowed.elim
  | str => exact .step (fun _ => rfl) .done
  | @arr items _ ih =>
      have opens (start : Nat) :
          step limit stack .value ⟨.openBracket, start⟩ = .ok (stack, .firstItem) := by
        have free : ¬limit ≤ stack.length := by
          rw [depth] at room
          omega
        simp [step, startValue, free]
      cases items with
      | nil => exact .step opens (.step (fun _ => rfl) .done)
      | cons item rest =>
          have all : ∀ value ∈ item :: rest, ∀ done,
              ReadsWhole limit (.array done :: stack) value := by
            intro value mem done
            have shallow := depth_lt_of_mem_arr mem
            apply ih value mem
            rw [List.length_cons]
            omega
          have items := reads_items rest item [] all
          obtain ⟨t, ts, tokens, other⟩ := exists_tokensOfItems item rest
          rw [tokens] at items
          rw [ReadsWhole, tokensOf, tokens]
          exact .step opens (items.firstItem other)
  | @obj fields distinct _ ih =>
      have opens (start : Nat) :
          step limit stack .value ⟨.openBrace, start⟩ = .ok (stack, .firstKey) := by
        have free : ¬limit ≤ stack.length := by
          rw [depth] at room
          omega
        simp [step, startValue, free]
      cases fields with
      | nil => exact .step opens (.step (fun _ => rfl) .done)
      | cons field rest =>
          have all : ∀ entry ∈ field :: rest, ∀ done,
              ReadsWhole limit (.object done entry.1 :: stack) entry.2 := by
            intro entry mem done
            have shallow := depth_lt_of_mem_obj mem
            apply ih entry mem
            rw [List.length_cons]
            omega
          have fields := reads_fields rest field [] distinct all
          cases rest with
          | nil => exact .step opens fields.firstKey
          | cons next rest => exact .step opens fields.firstKey

theorem tokens_byteOrderMark (rest : List Point) :
    tokens (.char '\ufeff' :: rest) = [⟨.junk, 0⟩] := by
  have junk : scanToken (.char '\ufeff') rest = (.junk, 1) := by
    simp [scanToken, scanLiteral?, literals, scanNumber?, integerDigits, digits, isDecimalDigit]
  rw [tokens, tokensFrom]
  simp [isSpace, junk, Token.isLast]

theorem read_eq_ok_iff {limit : Nat} {text : List Point} {value : Json} :
    read limit text = .ok value ↔ run limit [] .value (tokens text) = .ok value := by
  unfold read
  split
  · rw [tokens_byteOrderMark]
    simp [run, step, startValue]
  · cases run limit [] .value (tokens text) with
    | ok value => simp
    | error halt => cases halt <;> simp

theorem read_indented {value : Json} (regular : Regular False value) {limit : Nat}
    (room : value.depth ≤ limit) : read limit (indented 0 value) = .ok value := by
  obtain ⟨located, yields, lexed⟩ := lexes_indented regular 0 0 [] rfl
  have reads := @readsWhole value regular limit [] (by simpa using room)
  rw [List.append_nil] at lexed
  rw [read_eq_ok_iff, tokens, lexed, reads.run yields]
  simp [tokensFrom, run]

/-! ### Values that are read -/

/-- A number has no more digits than it was written with. -/
theorem digitCount_ofDigitChars_le {cs : List Char} (nonempty : cs ≠ [])
    (digits : ∀ c ∈ cs, isDecimalDigit c = true) :
    Decimal.digitCount (Nat.ofDigitChars 10 cs 0) ≤ cs.length := by
  induction cs using List.reverseRecOn with
  | nil => exact absurd rfl nonempty
  | append_singleton cs c ih =>
      have value : Nat.ofDigitChars 10 (cs ++ [c]) 0 =
          10 * Nat.ofDigitChars 10 cs 0 + (c.toNat - '0'.toNat) := by
        simp [Nat.ofDigitChars]
      have digit : c.toNat - '0'.toNat < 10 := by
        have bounds := digits c (by simp)
        simp only [isDecimalDigit, Char.le_def, UInt32.le_iff_toNat_le, Bool.and_eq_true,
          decide_eq_true_eq] at bounds
        have last : '9'.toNat = '0'.toNat + 9 := rfl
        have upper : c.toNat ≤ '9'.toNat := bounds.2
        omega
      have start : cs = [] → Nat.ofDigitChars 10 cs 0 = 0 := by
        rintro rfl
        rfl
      generalize c.toNat - '0'.toNat = unit at value digit
      generalize Nat.ofDigitChars 10 cs 0 = tens at value start ih
      rw [value, Decimal.digitCount, List.length_append, List.length_singleton]
      by_cases small : 10 * tens + unit < 10
      · rw [Nat.toDigits_of_lt_base small]
        simp
      · have more : cs ≠ [] := by
          intro empty
          rw [start empty] at small
          omega
        have quotient : (10 * tens + unit) / 10 = tens := by omega
        have shorter := ih more fun c mem => digits c (List.mem_append_left _ mem)
        rw [Nat.toDigits_of_base_le (by decide) (Nat.not_lt.mp small), quotient,
          List.length_append, List.length_singleton]
        exact Nat.add_le_add_right shorter 1

theorem isDecimalDigit_of_mem_digits {ps : List Point} {c : Char} (mem : c ∈ digits ps) :
    isDecimalDigit c = true := by
  fun_induction digits ps with
  | case1 d rest digit ih =>
      rcases List.mem_cons.mp mem with rfl | mem
      · exact digit
      · exact ih mem
  | case2 => simp at mem
  | case3 => simp at mem

theorem isDecimalDigit_of_mem_integerDigits {ps : List Point} {c : Char}
    (mem : c ∈ integerDigits ps) : isDecimalDigit c = true := by
  unfold integerDigits at mem
  split at mem
  · simp at mem
  · split at mem
    · rw [List.mem_singleton.mp mem]
      rfl
    · exact isDecimalDigit_of_mem_digits mem

theorem regular_of_scanLiteral? {cs : List Point} {value : Json} {used : Nat}
    (scanned : scanLiteral? cs = some (.scalar value, used)) : Regular True value := by
  have all : ∀ entry ∈ literals, Regular True entry.2 := by
    simp [literals, Regular.null, Regular.bool, Regular.real]
  obtain ⟨⟨word, found⟩, listed, taken⟩ := List.exists_of_findSome?_eq_some scanned
  obtain rfl : found = value := by
    simp only [Option.ite_none_right_eq_some, Option.some.injEq, Prod.mk.injEq] at taken
    exact Token.scalar.inj taken.2.1
  exact all _ listed

theorem regular_of_scanNumber? {cs : List Point} {value : Json} {used : Nat}
    (scanned : scanNumber? cs = some (.scalar value, used)) : Regular True value := by
  simp only [scanNumber?] at scanned
  generalize (if cs.head? = some (.char '-') then cs.drop 1 else cs) = body at scanned
  by_cases empty : (integerDigits body).isEmpty = true
  · simp [empty] at scanned
  · rw [if_neg empty] at scanned
    split at scanned
    · split at scanned
      · simp at scanned
      · rename_i short
        have digits := @digitCount_ofDigitChars_le (integerDigits body) (by simpa using empty)
          fun c mem => isDecimalDigit_of_mem_integerDigits mem
        simp only [Option.some.injEq, Prod.mk.injEq] at scanned
        obtain rfl := Token.scalar.inj scanned.1
        apply Regular.int
        generalize Nat.ofDigitChars 10 (integerDigits body) 0 = size at digits ⊢
        have unsigned : (if cs.head? = some (.char '-') then -(size : Int) else size).natAbs =
            size := by
          split <;> simp
        rw [unsigned]
        exact Nat.le_trans digits (Nat.not_lt.mp short)
    · simp only [Option.some.injEq, Prod.mk.injEq] at scanned
      obtain rfl := Token.scalar.inj scanned.1
      exact .real trivial _
    · simp only [Option.some.injEq, Prod.mk.injEq] at scanned
      obtain rfl := Token.scalar.inj scanned.1
      exact .real trivial _

theorem regular_of_scanToken {c : Point} {rest : List Point} {value : Json} {used : Nat}
    (scanned : scanToken c rest = (.scalar value, used)) : Regular True value := by
  unfold scanToken at scanned
  split_ifs at scanned
  iterate 6 simp at scanned
  · split at scanned <;> simp at scanned
  · split at scanned
    · rename_i taken
      rw [scanned, Option.orElse_eq_orElse, Option.orElse_eq_or] at taken
      rcases Option.or_eq_some_iff.mp taken with literal | ⟨-, number⟩
      · exact regular_of_scanLiteral? literal
      · exact regular_of_scanNumber? number
    · simp at scanned

theorem regular_of_mem_tokensFrom {start : Nat} {cs : List Point} {t : Located}
    (mem : t ∈ tokensFrom start cs) {value : Json} (scalar : t.token = .scalar value) :
    Regular True value := by
  fun_induction tokensFrom start cs with
  | case1 start => simp_all
  | case2 start c rest space ih => exact ih mem
  | case3 start c rest _ token used scanned last =>
      obtain rfl := List.mem_singleton.mp mem
      obtain rfl : token = .scalar value := scalar
      exact regular_of_scanToken scanned
  | case4 start c rest _ token used scanned _ ih =>
      rcases List.mem_cons.mp mem with rfl | mem
      · obtain rfl : token = .scalar value := scalar
        exact regular_of_scanToken scanned
      · exact ih mem

/-- What a container holds so far is regular. -/
def Frame.Regular : Frame → Prop
  | .array done => ∀ item ∈ done, Json.Regular True item
  | .object done _ => Json.Regular True (.obj done)

def Expect.Regular : Expect → Prop
  | .value | .firstItem | .firstKey => True
  | .key done | .colon done _ => Json.Regular True (.obj done)
  | .after found => Json.Regular True found

def Configuration.Regular (state : Configuration) : Prop :=
  (∀ frame ∈ state.1, frame.Regular) ∧ state.2.Regular

theorem Regular.put {fields : List (Text × Json)} {value : Json}
    (regular : Regular True (.obj fields)) (key : Text) (new : Regular True value) :
    Regular True (.obj (Ordered.put key value fields)) := by
  cases regular with
  | obj distinct all =>
      refine .obj (distinct.put key value) ?_
      intro field mem
      rcases Ordered.value_of_mem_put mem with same | mem
      · rw [same]
        exact new
      · exact all field mem

theorem regular_of_startValue {limit : Nat} {stack : List Frame} {t : Located}
    {next : Configuration} (starts : startValue limit stack t = .ok next)
    (frames : ∀ frame ∈ stack, frame.Regular)
    (scalar : ∀ value, t.token = .scalar value → Regular True value) : next.Regular := by
  unfold startValue at starts
  split at starts
  · rename_i value found
    cases starts
    exact ⟨frames, scalar value found⟩
  · cases starts
    exact ⟨frames, .str _⟩
  · split at starts
    · cases starts
    · cases starts
      exact ⟨frames, trivial⟩
  · split at starts
    · cases starts
    · cases starts
      exact ⟨frames, trivial⟩
  all_goals cases starts

theorem regular_of_startKey {stack : List Frame} {done : List (Text × Json)} {t : Located}
    {next : Configuration} (starts : startKey stack done t = .ok next)
    (frames : ∀ frame ∈ stack, frame.Regular) (regular : Regular True (.obj done)) :
    next.Regular := by
  unfold startKey at starts
  split at starts
  · cases starts
    exact ⟨frames, regular⟩
  all_goals cases starts

theorem regular_of_continueFrame {frame : Frame} {stack : List Frame} {value : Json} {t : Located}
    {next : Configuration} (continues : continueFrame frame stack value t = .ok next)
    (held : frame.Regular) (frames : ∀ frame ∈ stack, frame.Regular)
    (regular : Regular True value) : next.Regular := by
  unfold continueFrame at continues
  split at continues
  · cases continues
    have items := List.forall_mem_cons.mpr ⟨regular, held⟩
    exact ⟨List.forall_mem_cons.mpr ⟨items, frames⟩, trivial⟩
  · cases continues
    have items := List.forall_mem_cons.mpr ⟨regular, held⟩
    exact ⟨frames, .arr fun item mem => items item (List.mem_reverse.mp mem)⟩
  · cases continues
    exact ⟨frames, Regular.put held _ regular⟩
  · cases continues
    exact ⟨frames, Regular.put held _ regular⟩
  · cases continues

theorem regular_of_step {limit : Nat} {stack : List Frame} {expect : Expect} {t : Located}
    {next : Configuration} (steps : step limit stack expect t = .ok next)
    (regular : Configuration.Regular (stack, expect))
    (scalar : ∀ value, t.token = .scalar value → Regular True value) : next.Regular := by
  obtain ⟨frames, expected⟩ := regular
  have bare : Regular True (.obj []) := .obj Ordered.distinct_nil (by simp)
  cases expect with
  | value => exact regular_of_startValue steps frames scalar
  | firstItem =>
      simp only [step] at steps
      split at steps
      · cases steps
        exact ⟨frames, .arr nofun⟩
      · exact regular_of_startValue steps (List.forall_mem_cons.mpr ⟨nofun, frames⟩) scalar
  | firstKey =>
      simp only [step] at steps
      split at steps
      · cases steps
        exact ⟨frames, bare⟩
      · exact regular_of_startKey steps frames bare
  | key done => exact regular_of_startKey steps frames expected
  | colon done key =>
      simp only [step] at steps
      split at steps
      · cases steps
        exact ⟨List.forall_mem_cons.mpr ⟨expected, frames⟩, trivial⟩
      · cases steps
  | after value =>
      cases stack with
      | nil => cases steps
      | cons frame outer =>
          obtain ⟨held, frames⟩ := List.forall_mem_cons.mp frames
          exact regular_of_continueFrame steps held frames expected

theorem regular_of_run {limit : Nat} {stack : List Frame} {expect : Expect}
    {tokens : List Located} {value : Json} (ran : run limit stack expect tokens = .ok value)
    (regular : Configuration.Regular (stack, expect))
    (scalars : ∀ t ∈ tokens, ∀ value, t.token = .scalar value → Regular True value) :
    Regular True value := by
  fun_induction run limit stack expect tokens with
  | case1 =>
      cases ran
      exact regular.2
  | case2 => cases ran
  | case3 => cases ran
  | case4 stack expect t rest _ next expectNext steps ih =>
      obtain ⟨scalar, others⟩ := List.forall_mem_cons.mp scalars
      exact ih ran (regular_of_step steps regular scalar) others

theorem regular_of_read {limit : Nat} {text : List Point} {value : Json}
    (read : read limit text = .ok value) : Regular True value := by
  refine regular_of_run (read_eq_ok_iff.mp read) ⟨nofun, trivial⟩ ?_
  intro t mem value scalar
  exact regular_of_mem_tokensFrom mem scalar

end Deduction.Json
