import Deduction.Json.Same
import Deduction.Proofs.Json.Reading
import Deduction.Proofs.Script.Decoding

/-!
Formulas as objects.

An object denotes a formula exactly if it equals what is written of the formula, once the keys that
the types of its nodes do not use are deleted. Decoding what is written of a formula goes through
its variables from left to right, and stops at the first one that has no name.
-/

namespace Deduction

/-! ### Values without unused keys -/

namespace Json

/-- No object holds a key twice. -/
inductive Keyed : Json → Prop
  | null : Keyed .null
  | bool (value : Bool) : Keyed (.bool value)
  | int (value : Int) : Keyed (.int value)
  | real (value : Decimal.Double) : Keyed (.real value)
  | str (value : Text) : Keyed (.str value)
  | arr {items : List Json} : (∀ item ∈ items, Keyed item) → Keyed (.arr items)
  | obj {fields : List (Text × Json)} : Ordered.Distinct fields →
      (∀ field ∈ fields, Keyed field.2) → Keyed (.obj fields)

theorem Regular.keyed {reals : Prop} {value : Json} (regular : Regular reals value) :
    value.Keyed := by
  induction regular with
  | null => exact .null
  | bool value => exact .bool value
  | int _ => exact .int _
  | real _ value => exact .real value
  | str value => exact .str value
  | arr _ ih => exact .arr ih
  | obj distinct _ ih => exact .obj distinct ih

theorem Keyed.of_find? {fields : List (Text × Json)} {key : Text} {value : Json}
    (keyed : Keyed (.obj fields)) (found : Ordered.find? key fields = some value) :
    value.Keyed := by
  cases keyed with
  | obj distinct all => exact all (key, value) ((Ordered.find?_eq_some_iff distinct).mp found)

/-- The keys that the type of an object uses. -/
def usedKeys (fields : List (Text × Json)) : List Text :=
  match Ordered.find? (.plain "type") fields with
  | some (.str (.plain "var")) => ["type", "name"]
  | some (.str (.plain "conj")) | some (.str (.plain "disj")) | some (.str (.plain "impl")) =>
      ["type", "lhs", "rhs"]
  | _ => []

mutual

/-- Delete from every object the keys that its type does not use. -/
def pruned : Json → Json
  | .obj fields => .obj (prunedFields (usedKeys fields) fields)
  | value => value

def prunedFields (used : List Text) : List (Text × Json) → List (Text × Json)
  | [] => []
  | (key, value) :: rest =>
      if used.contains key then (key, value.pruned) :: prunedFields used rest
      else prunedFields used rest

end

theorem find?_prunedFields (used : List Text) (key : Text) (fields : List (Text × Json)) :
    Ordered.find? key (prunedFields used fields) =
      if used.contains key then (Ordered.find? key fields).map pruned else none := by
  induction fields with
  | nil => simp [prunedFields, Ordered.find?]
  | cons head rest ih =>
      obtain ⟨k, value⟩ := head
      by_cases same : k = key
      · subst same
        by_cases kept : used.contains k = true <;> simp_all [prunedFields, Ordered.find?]
      · by_cases kept : used.contains k = true <;> simp_all [prunedFields, Ordered.find?]

theorem map_fst_prunedFields (used : List Text) (fields : List (Text × Json)) :
    (prunedFields used fields).map Prod.fst = (fields.map Prod.fst).filter used.contains := by
  induction fields with
  | nil => rfl
  | cons head rest ih =>
      obtain ⟨key, value⟩ := head
      by_cases kept : used.contains key = true <;> simp_all [prunedFields]

/-- As many fields are kept as keys are used, if every one of them is there. -/
theorem length_prunedFields {used : List Text} {fields : List (Text × Json)}
    (nodup : used.Nodup) (distinct : Ordered.Distinct fields)
    (present : ∀ key ∈ used, ∃ value, Ordered.find? key fields = some value) :
    (prunedFields used fields).length = used.length := by
  rw [← List.length_map Prod.fst, map_fst_prunedFields]
  refine List.Perm.length_eq ?_
  rw [List.perm_ext_iff_of_nodup (distinct.nodup_keys.filter _) nodup]
  intro key
  simp only [List.mem_filter, List.contains_iff_mem, and_iff_right_iff_imp]
  intro mem
  obtain ⟨value, found⟩ := present key mem
  exact List.mem_map.mpr ⟨(key, value), (Ordered.find?_eq_some_iff distinct).mp found, rfl⟩

/-! ### Equality by meaning -/

theorem same_str_iff {text : Text} {value : Json} :
    same (.str text) value = true ↔ value = .str text := by
  cases value with
  | str other =>
      rw [same, beq_iff_eq, Json.str.injEq]
      exact eq_comm
  | null | bool _ | int _ | real _ | arr _ | obj _ => simp [same, sameNumber, numeral?]

theorem sameFields_iff {fields others : List (Text × Json)} :
    sameFields fields others = true ↔
      ∀ entry ∈ fields, ∃ value, Ordered.find? entry.1 others = some value ∧
        entry.2.same value = true := by
  induction fields with
  | nil => simp [sameFields]
  | cons head rest ih =>
      obtain ⟨key, value⟩ := head
      cases found : Ordered.find? key others <;> simp [sameFields, found, ih]

theorem same_obj_iff {fields : List (Text × Json)} {value : Json} :
    same (.obj fields) value = true ↔
      ∃ others, value = .obj others ∧ fields.length = others.length ∧
        sameFields fields others = true := by
  cases value with
  | obj others => simp [same]
  | null | bool _ | int _ | real _ | str _ | arr _ => simp [same, sameNumber, numeral?]

theorem pruned_eq_str_iff {text : Text} {value : Json} :
    value.pruned = .str text ↔ value = .str text := by
  cases value <;> simp [pruned]

/-- An object without its unused keys equals one that has exactly the used keys if the values of
these are equal. -/
theorem same_pruned_iff {wanted fields : List (Text × Json)}
    (distinct : Ordered.Distinct fields) (keys : wanted.map Prod.fst = usedKeys fields)
    (nodup : (usedKeys fields).Nodup) :
    same (.obj wanted) (pruned (.obj fields)) = true ↔
      ∀ entry ∈ wanted, ∃ value, Ordered.find? entry.1 fields = some value ∧
        entry.2.same value.pruned = true := by
  have used : ∀ entry ∈ wanted, (usedKeys fields).contains entry.1 = true := by
    intro entry mem
    rw [List.contains_iff_mem, ← keys]
    exact List.mem_map_of_mem mem
  have each : sameFields wanted (prunedFields (usedKeys fields) fields) = true ↔
      ∀ entry ∈ wanted, ∃ value, Ordered.find? entry.1 fields = some value ∧
        entry.2.same value.pruned = true := by
    rw [sameFields_iff]
    refine forall₂_congr fun entry mem => ?_
    rw [find?_prunedFields, if_pos (used entry mem)]
    simp
  rw [pruned, same_obj_iff]
  simp only [Json.obj.injEq, exists_eq_left', each, and_iff_right_iff_imp]
  intro equal
  rw [length_prunedFields nodup distinct, ← keys, List.length_map]
  intro key mem
  rw [← keys] at mem
  obtain ⟨entry, listed, rfl⟩ := List.mem_map.mp mem
  obtain ⟨value, found, -⟩ := equal entry listed
  exact ⟨value, found⟩

/-- The type of an object is told by what equals it. -/
theorem exists_fields_of_same_pruned {kind : String} {rest : List (Text × Json)} {value : Json}
    (equal : same (.obj (("type", .str kind) :: rest)) value.pruned = true) :
    ∃ fields, value = .obj fields ∧ Ordered.find? (.plain "type") fields = some (.str kind) := by
  obtain ⟨others, object, -, equal⟩ := same_obj_iff.mp equal
  obtain ⟨found, held, same⟩ := sameFields_iff.mp equal _ List.mem_cons_self
  cases value with
  | obj fields =>
      rw [pruned, Json.obj.injEq] at object
      rw [← object, find?_prunedFields] at held
      split at held
      · obtain ⟨own, known, rfl⟩ := Option.map_eq_some_iff.mp held
        rw [pruned_eq_str_iff.mp (same_str_iff.mp same)] at known
        exact ⟨fields, rfl, known⟩
      · cases held
  | null | bool _ | int _ | real _ | str _ | arr _ => simp [pruned] at object

end Json

/-! ### Formulas -/

namespace Formula

theorem same_pruned_var_iff {name : String} {fields : List (Text × Json)}
    (distinct : Ordered.Distinct fields)
    (typed : Ordered.find? (.plain "type") fields = some (.str "var")) :
    (toJson (.var name)).same (Json.pruned (.obj fields)) = true ↔
      Ordered.find? (.plain "name") fields = some (.str name) := by
  have used : Json.usedKeys fields = ["type", "name"] := by simp [Json.usedKeys, typed]
  have keys : [(.plain "type", Json.str "var"), (.plain "name", .str name)].map Prod.fst =
      Json.usedKeys fields := used.symm
  rw [toJson, Json.same_pruned_iff distinct keys (by rw [used]; decide)]
  simp [typed, Json.same_str_iff, Json.pruned_eq_str_iff]

/-- The three types of formulas with two sides use the same keys. -/
theorem same_pruned_sides_iff {kind : String} {lhs rhs : Json} {fields : List (Text × Json)}
    (distinct : Ordered.Distinct fields)
    (typed : Ordered.find? (.plain "type") fields = some (.str kind))
    (used : Json.usedKeys fields = ["type", "lhs", "rhs"]) :
    Json.same (.obj [("type", .str kind), ("lhs", lhs), ("rhs", rhs)])
        (Json.pruned (.obj fields)) = true ↔
      (∃ left, Ordered.find? (.plain "lhs") fields = some left ∧ lhs.same left.pruned = true) ∧
        ∃ right, Ordered.find? (.plain "rhs") fields = some right ∧
          rhs.same right.pruned = true := by
  have keys : [(.plain "type", Json.str kind), (.plain "lhs", lhs), (.plain "rhs", rhs)].map
      Prod.fst = Json.usedKeys fields := used.symm
  rw [Json.same_pruned_iff distinct keys (by rw [used]; decide)]
  simp [typed, Json.same_str_iff, Json.pruned]

theorem Encoded.same_pruned {value : Json} {f : Formula String} (encoded : Encoded value f)
    (keyed : value.Keyed) : f.toJson.same value.pruned = true := by
  induction encoded with
  | var typed named _ =>
      cases keyed with
      | obj distinct _ => exact (same_pruned_var_iff distinct typed).mpr named
  | conj typed left _ right _ ihl ihr | disj typed left _ right _ ihl ihr
  | impl typed left _ right _ ihl ihr =>
      have sameLeft := ihl (keyed.of_find? left)
      have sameRight := ihr (keyed.of_find? right)
      cases keyed with
      | obj distinct _ =>
          refine (same_pruned_sides_iff distinct typed (by simp [Json.usedKeys, typed])).mpr ?_
          exact ⟨⟨_, left, sameLeft⟩, _, right, sameRight⟩

/-- The sides of an object that equals what is written of a formula with two sides. -/
theorem exists_sides_of_same_pruned {kind : String} {lhs rhs value : Json} (keyed : value.Keyed)
    (binary : kind ∈ ["conj", "disj", "impl"])
    (equal : Json.same (.obj [("type", .str kind), ("lhs", lhs), ("rhs", rhs)])
      value.pruned = true) :
    ∃ fields left right, value = .obj fields ∧
      Ordered.find? (.plain "type") fields = some (.str kind) ∧
      (Ordered.find? (.plain "lhs") fields = some left ∧ left.Keyed ∧ lhs.same left.pruned = true) ∧
      Ordered.find? (.plain "rhs") fields = some right ∧ right.Keyed ∧
        rhs.same right.pruned = true := by
  obtain ⟨fields, rfl, typed⟩ := Json.exists_fields_of_same_pruned equal
  have used : Json.usedKeys fields = ["type", "lhs", "rhs"] := by
    rcases List.mem_cons.mp binary with rfl | binary
    · simp [Json.usedKeys, typed]
    · rcases List.mem_pair.mp binary with rfl | rfl <;> simp [Json.usedKeys, typed]
  have distinct : Ordered.Distinct fields := by
    cases keyed with
    | obj distinct _ => exact distinct
  obtain ⟨⟨left, foundLeft, sameLeft⟩, right, foundRight, sameRight⟩ :=
    (same_pruned_sides_iff distinct typed used).mp equal
  exact ⟨fields, left, right, rfl, typed, ⟨foundLeft, keyed.of_find? foundLeft, sameLeft⟩,
    foundRight, keyed.of_find? foundRight, sameRight⟩

theorem encoded_of_same_pruned {value : Json} {f : Formula String} (keyed : value.Keyed)
    (named : ∀ name ∈ f.occurrences, isIdentifier name = true)
    (equal : f.toJson.same value.pruned = true) : Encoded value f := by
  induction f generalizing value with
  | var name =>
      obtain ⟨fields, rfl, typed⟩ := Json.exists_fields_of_same_pruned equal
      cases keyed with
      | obj distinct _ =>
          have held := (same_pruned_var_iff distinct typed).mp equal
          exact .var typed held (named name (by simp [occurrences]))
  | conj lhs rhs ihl ihr =>
      obtain ⟨namedLeft, namedRight⟩ := List.forall_mem_append.mp named
      obtain ⟨fields, _, _, rfl, typed, ⟨left, keyedLeft, sameLeft⟩, right, keyedRight,
          sameRight⟩ := exists_sides_of_same_pruned keyed (by decide) equal
      exact .conj typed left (ihl keyedLeft namedLeft sameLeft) right
        (ihr keyedRight namedRight sameRight)
  | disj lhs rhs ihl ihr =>
      obtain ⟨namedLeft, namedRight⟩ := List.forall_mem_append.mp named
      obtain ⟨fields, _, _, rfl, typed, ⟨left, keyedLeft, sameLeft⟩, right, keyedRight,
          sameRight⟩ := exists_sides_of_same_pruned keyed (by decide) equal
      exact .disj typed left (ihl keyedLeft namedLeft sameLeft) right
        (ihr keyedRight namedRight sameRight)
  | impl lhs rhs ihl ihr =>
      obtain ⟨namedLeft, namedRight⟩ := List.forall_mem_append.mp named
      obtain ⟨fields, _, _, rfl, typed, ⟨left, keyedLeft, sameLeft⟩, right, keyedRight,
          sameRight⟩ := exists_sides_of_same_pruned keyed (by decide) equal
      exact .impl typed left (ihl keyedLeft namedLeft sameLeft) right
        (ihr keyedRight namedRight sameRight)

/-- Decoding stops at the leftmost variable that has no name. -/
theorem ofJsonWithin_toJson {room : Nat} {f : Formula String} (low : f.height < room) :
    ofJsonWithin room f.toJson =
      (f.occurrences.find? fun name => !isIdentifier name).elim (.ok f)
        fun name => .error (.invalidName (.str name)) := by
  induction f generalizing room with
  | var name =>
      obtain ⟨room, rfl⟩ := Nat.exists_eq_add_one_of_ne_zero (Nat.ne_zero_of_lt low)
      by_cases identifier : isIdentifier name = true <;>
        simp [ofJsonWithin, toJson, field, Ordered.find?, ofName, occurrences, identifier]
  | conj lhs rhs ihl ihr | disj lhs rhs ihl ihr | impl lhs rhs ihl ihr =>
      obtain ⟨room, rfl⟩ := Nat.exists_eq_add_one_of_ne_zero (Nat.ne_zero_of_lt low)
      simp only [height] at low
      have left := @ihl room (by omega)
      have right := @ihr room (by omega)
      simp only [occurrences, List.find?_append]
      cases badLeft : lhs.occurrences.find? fun name => !isIdentifier name <;>
        cases badRight : rhs.occurrences.find? fun name => !isIdentifier name <;>
        simp [ofJsonWithin, toJson, field, Ordered.find?, left, right, badLeft, badRight, Bind.bind,
          Except.bind, pure, Except.pure]

/-- Decoding what is written of a formula gives the formula back if its variables have names, and
else the complaint about the leftmost one that has none. A value in which no object holds a key
twice, like all values that are read, is decoded as a formula exactly if it equals what is written
of the formula, once the keys are deleted that the types of its objects do not use. This holds for
any limit on the levels of a formula that leaves room for it, and so for that of `ofJson`. -/
theorem ofJsonWithin_exact (room : Nat) (f : Formula String) :
    (f.height < room →
      ((∀ name ∈ f.occurrences, IsVariableName name) → ofJsonWithin room f.toJson = .ok f) ∧
      ∀ before name after, f.occurrences = before ++ name :: after →
        (∀ earlier ∈ before, IsVariableName earlier) → ¬IsVariableName name →
          ofJsonWithin room f.toJson = .error (.invalidName (.str name))) ∧
    (∀ value : Json, value.Keyed →
      (ofJsonWithin room value = .ok f ↔
        (f.height < room ∧ ∀ name ∈ f.occurrences, IsVariableName name) ∧
          f.toJson.same value.pruned = true)) ∧
    ∀ limit text value, Json.read limit text = .ok value → value.Keyed := by
  simp only [← isIdentifier_iff]
  refine ⟨fun low => ⟨fun named => ?_, ?_⟩, fun value keyed => ?_, ?_⟩
  · have all : (f.occurrences.find? fun name => !isIdentifier name) = none := by
      simpa using named
    rw [ofJsonWithin_toJson low, all, Option.elim_none]
  · intro before name after split valid bad
    have first : (f.occurrences.find? fun name => !isIdentifier name) = some name := by
      rw [List.find?_eq_some_iff_append]
      exact ⟨by simpa using bad, before, after, split, by simpa using valid⟩
    rw [ofJsonWithin_toJson low, first, Option.elim_some]
  · rw [ofJsonWithin_eq_ok_iff]
    constructor
    · rintro ⟨encoded, low⟩
      exact ⟨⟨low, encoded.isIdentifier⟩, encoded.same_pruned keyed⟩
    · rintro ⟨⟨low, named⟩, equal⟩
      exact ⟨encoded_of_same_pruned keyed named equal, low⟩
  · intro limit text value read
    exact (Json.regular_of_read read).keyed

/-- An implication with its keys in another order, and with keys that no formula or only other ones
have. -/
def annotated : Json :=
  .obj [("rhs", .obj [("name", .str "q'"), ("lhs", .null), ("type", .str "var")]),
    ("note", .arr [.int 5]), ("type", .str "impl"),
    ("lhs", .obj [("type", .str "var"), ("name", .str "p")])]

theorem annotated_decoded :
    annotated.Keyed ∧ ofJsonWithin 3 annotated = .ok (.impl (.var "p") (.var "q'")) ∧
      (toJson (.impl (.var "p") (.var "q'"))).same annotated.pruned = true ∧
      ofJsonWithin 3 (toJson (.conj (.disj (.var "p") (.var "1st")) (.var "2nd"))) =
        .error (.invalidName (.str "1st")) := by
  have left : Json.Keyed (.obj [("type", .str "var"), ("name", .str "p")]) :=
    .obj (by simp [Ordered.Distinct]) (by simp [Json.Keyed.str])
  have right :
      Json.Keyed (.obj [("name", .str "q'"), ("lhs", .null), ("type", .str "var")]) :=
    .obj (by simp [Ordered.Distinct]) (by simp [Json.Keyed.str, Json.Keyed.null])
  have note : Json.Keyed (.arr [.int 5]) := .arr (by simp [Json.Keyed.int])
  have keyed : annotated.Keyed :=
    .obj (by simp [Ordered.Distinct]) (by simp [Json.Keyed.str, left, right, note])
  have decoded : ofJsonWithin 3 annotated = .ok (.impl (.var "p") (.var "q'")) := by
    with_unfolding_all rfl
  have equal := ((ofJsonWithin_exact 3 _).2.1 annotated keyed).mp decoded
  have refused := ((ofJsonWithin_exact 3
    (.conj (.disj (.var "p") (.var "1st")) (.var "2nd"))).1 (by decide)).2 ["p"] "1st" ["2nd"]
      rfl (by decide) (by decide)
  exact ⟨keyed, decoded, equal.2, refused⟩

end Formula

end Deduction
