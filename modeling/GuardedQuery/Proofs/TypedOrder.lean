import GuardedQuery.Predicate.Compile
import GuardedQuery.Predicate.Matching
import GuardedQuery.Proofs.Binary64
import GuardedQuery.Proofs.Identities
import GuardedQuery.Proofs.Sorting
import GuardedQuery.Proofs.Uuid

/-!
# Sorting and range filters

A filter compares what values stand for under the declared type of their column, and a sort key compares the values as
they are written; of the type it only knows whether the column holds instants. The two orders are one for texts,
integers, truth values and instants. Numbers are rounded for a filter, whereas a sort key compares two signed 64-bit
integers exactly. UUIDs are sorted by their texts.

## Main definitions

* `Value.ComparedAlike`: values of a type that both orders compare alike.
* `SortKey.ofColumn`: the ascending key of a column.

## Main statements

* `SortKey.order_eq_scalar_order`: a sort key orders values of a type as the scalars that they stand for.
* `SortKey.sort_agrees_with_filter`: the rows with a greater value than an operand are those that the sort puts last.
-/

namespace GuardedQuery

/-! ## Places of scalars -/

namespace Scalar

/-- The place of a scalar among the scalars of its type. -/
def place : Scalar → Value.Place
  | bool b => { kind := 2, number := if b then 1 else 0 }
  | int n => { kind := 4, number := n }
  | float x => { kind := 4, number := x.key }
  | text s => { kind := 7, text := s }
  | instant i => { kind := 6, number := i.seconds, fraction := i.nanos }
  | uuid u => { kind := 7, fraction := u.value }

/-- Scalars of one type are compared by their places. -/
theorem compare?_eq_place {x y : Scalar} (h : x.type = y.type) : x.compare? y = some (x.place.compare y.place) := by
  have hbools : ∀ x y : Bool, Ord.compare x y = Ord.compare (if x then 1 else 0 : Int) (if y then 1 else 0) := by
    decide
  cases x <;> cases y <;> simp [type] at h <;>
    simp [compare?, place, Value.Place.compare_of_kind_eq, Std.ReflCmp.compare_self, Instant.compare, Binary64.compare,
      hbools]

end Scalar

/-! ## Values that are compared alike -/

/-- Values of a type stand for scalars of the type. -/
theorem ScalarType.exists_ofValue? {t : ScalarType} {v : Value} (h : t.conforms v = true) :
    ∃ x, Scalar.ofValue? t v = some x := by
  cases t <;> cases v <;> simp [conforms, Value.asInt64?, Value.asBinary64?, Option.isSome_iff_exists] at h <;>
    simp [Scalar.ofValue?, Value.asInt64?, Value.asBinary64?, h]

/-- A value of a column is `null`, or stands for a scalar. -/
theorem ScalarType.null_or_ofValue? {t : ScalarType} {v : Value} (h : (FieldType.scalar t).conforms v = true) :
    v = .null ∨ ∃ x, Scalar.ofValue? t v = some x := by
  have hcases : v.isNull = true ∨ t.conforms v = true := by simpa [FieldType.conforms] using h
  rcases hcases with hnull | hconforms
  · cases v <;> simp [Value.isNull] at hnull
    exact .inl rfl
  · exact .inr (exists_ofValue? hconforms)

/-- No scalar is `null`. -/
theorem Scalar.isNull_of_ofValue? {t : ScalarType} {v : Value} {x : Scalar} (h : ofValue? t v = some x) :
    v.isNull = false := by
  cases v with
  | null => cases t <;> simp [ofValue?, Value.asInt64?, Value.asBinary64?] at h
  | bool | int | float | string | array | object => rfl

namespace Value

/-- Values that filters and sort keys compare alike in a column of a type: numbers, unless they are different signed
64-bit integers with one rounding, and UUIDs, if their texts are spelled alike. -/
def ComparedAlike (t : ScalarType) (a b : Value) : Prop :=
  (t = .float → ∀ m ∈ a.asInt64?, ∀ n ∈ b.asInt64?, (Binary64.ofInt m).key = (Binary64.ofInt n).key → m = n) ∧
  (t = .uuid → ∀ s ∈ a.asString?, ∀ u ∈ b.asString?, Uuid.SpelledAlike s u)

instance (t : ScalarType) (a b : Value) : Decidable (ComparedAlike t a b) :=
  inferInstanceAs (Decidable (
    (t = .float → ∀ m ∈ a.asInt64?, ∀ n ∈ b.asInt64?, (Binary64.ofInt m).key = (Binary64.ofInt n).key → m = n) ∧
    (t = .uuid → ∀ s ∈ a.asString?, ∀ u ∈ b.asString?, Uuid.SpelledAlike s u)))

theorem comparedAlike_float {a b : Value} : ComparedAlike .float a b ↔
    ∀ m ∈ a.asInt64?, ∀ n ∈ b.asInt64?, (Binary64.ofInt m).key = (Binary64.ofInt n).key → m = n := by
  simp [ComparedAlike]

theorem comparedAlike_of_ne {t : ScalarType} {a b : Value} (hfloat : t ≠ .float) (huuid : t ≠ .uuid) :
    ComparedAlike t a b := by
  simp [ComparedAlike, hfloat, huuid]

/-- Integers are in the order of their roundings, unless two of them have one. -/
theorem compare_ofInt_iff {m n : ℤ} : (Binary64.ofInt m).compare (Binary64.ofInt n) = Ord.compare m n ↔
    ((Binary64.ofInt m).key = (Binary64.ofInt n).key → m = n) := by
  rw [Binary64.compare]
  rcases lt_trichotomy m n with h | rfl | h
  · have hkeys := Binary64.key_ofInt_le_key_ofInt h.le
    rw [compare_lt_iff_lt.mpr h, compare_lt_iff_lt]
    omega
  · simp
  · have hkeys := Binary64.key_ofInt_le_key_ofInt h.le
    rw [compare_gt_iff_gt.mpr h, compare_gt_iff_gt]
    omega

end Value

/-! ## Comparisons -/

namespace Predicate

variable {t : ScalarType} {r : Record} {field : String} {x y : Scalar}

/-- The value of a field that a test looks at. -/
theorem actual?_eq (r : Record) (field : String) :
    actual? r field = if (Record.value r field).isNull then none else some (Record.value r field) := by
  rw [actual?, Record.value]
  cases Dict.get? r field with
  | none => rfl
  | some v => cases v <;> rfl

/-- A missing value only differs. -/
theorem holds_compare_of_null {op : CompareOp} (hnull : Record.value r field = .null) :
    (compare field op y).holds r = (op == .ne) := by
  rw [holds, actual?_eq, hnull]
  rfl

/-- A value passes a comparison by the scalar that it stands for. -/
theorem holds_compare_of_value {op : CompareOp} {b : Value} (hx : Scalar.ofValue? t (Record.value r field) = some x)
    (hy : Scalar.ofValue? t b = some y) : (compare field op y).holds r = (x.compare? y).any op.holds := by
  rw [holds, actual?_eq, Scalar.isNull_of_ofValue? hx]
  simp [comparesWith, Scalar.readLike?, Scalar.type_of_ofValue? hy, hx]

end Predicate

/-- The predicate of a comparison with an operand of the declared type. -/
theorem Columns.compile_compare (columns : Columns) (op : CompareOp) {field symbol : String} {t : ScalarType}
    {v : Value} {y : Scalar} (hsymbol : FilterOperator.parse? symbol = some op.operator)
    (hfield : Dict.get? columns.fields field = some (.scalar t)) (hy : Scalar.ofValue? t v = some y) :
    columns.compile (.leaf field symbol (some v)) = .ok (.compare field op y) := by
  have hplain : op.operator.forbidsValue = false ∧ TextOp.ofOperator? op.operator = none ∧
      CompareOp.ofOperator? op.operator = some op := by cases op <;> decide
  obtain ⟨hvalue, htext, hop⟩ := hplain
  simp [compile, compileLeaf, fieldType, hfield, hsymbol, hvalue, compileTest, htext, compileComparison, hop, operand,
    hy, Except.map, bind, Except.bind]

namespace SortKey

/-- The ascending key of a column. -/
def ofColumn (field : String) (t : ScalarType) : SortKey := SortKey.typed { field } (some (.scalar t))

@[simp] theorem field_ofColumn (field : String) (t : ScalarType) : (ofColumn field t).field = field := rfl

theorem compare_ofColumn (field : String) (t : ScalarType) (a b : Value) :
    (ofColumn field t).compare a b = if t = .datetime then a.compareTemporal b else a.compare b := by
  simp [ofColumn, typed, SortKey.compare, orient, FieldType.isA]

/-- Numbers are in the order of their roundings, unless they are different signed 64-bit integers with one rounding. -/
theorem compare_numbers_iff {a b : Value} {x y : Binary64} (hx : a.asBinary64? = some x) (hy : b.asBinary64? = some y) :
    x.compare y = a.compare b ↔ Value.ComparedAlike .float a b := by
  cases a <;> simp [Value.asBinary64?] at hx <;> cases b <;> simp [Value.asBinary64?] at hy <;> subst hx hy
  case int.int m n =>
    have hcompare : Value.compare (.int m) (.int n) = Value.compareNumbers (.int m) (.int n) := rfl
    rw [hcompare]
    by_cases hsmall : m ≤ int64Max ∧ n ≤ int64Max
    · simpa [Value.compareNumbers, Value.asInt64?, hsmall, Value.ComparedAlike] using Value.compare_ofInt_iff
    · -- Of integers beyond the signed ones a sort key compares the roundings, too.
      have hrounded : Value.compareNumbers (.int m) (.int n) = (Binary64.ofInt m).compare (Binary64.ofInt n) := by
        rw [Value.compareNumbers]
        split
        · rename_i hm hn
          simp [Value.asInt64?] at hm hn
          exact absurd ⟨hm.1, hn.1⟩ hsmall
        · rfl
      refine iff_of_true hrounded.symm (Value.comparedAlike_float.mpr fun m' hm n' hn => ?_)
      simp [Value.asInt64?] at hm hn
      exact absurd ⟨hm.1, hn.1⟩ hsmall
  all_goals
    simp [Value.compare, Value.kindRank, Value.compareNumbers, Value.asInt64?, Value.asBinary64?, Value.ComparedAlike]

variable {t : ScalarType} {a b : Value} {x y : Scalar}

/-- **A sort key orders values as the scalars that they stand for**, if the values are compared alike. -/
theorem order_eq_scalar_order (field : String) (hx : Scalar.ofValue? t a = some x) (hy : Scalar.ofValue? t b = some y)
    (halike : Value.ComparedAlike t a b) : x.compare? y = some ((ofColumn field t).compare a b) := by
  rw [compare_ofColumn]
  cases t with
  | float =>
    obtain ⟨p, hp, rfl⟩ := Option.map_eq_some_iff.mp hx
    obtain ⟨q, hq, rfl⟩ := Option.map_eq_some_iff.mp hy
    exact congrArg some ((compare_numbers_iff hp hq).mpr halike)
  | int =>
    obtain ⟨m, hm, rfl⟩ := Option.map_eq_some_iff.mp hx
    obtain ⟨n, hn, rfl⟩ := Option.map_eq_some_iff.mp hy
    cases a <;> simp [Value.asInt64?] at hm
    cases b <;> simp [Value.asInt64?] at hn
    obtain ⟨hm, rfl⟩ := hm
    obtain ⟨hn, rfl⟩ := hn
    simp [Value.compare, Value.kindRank, Value.compareNumbers, Value.asInt64?, hm, hn, Scalar.compare?]
  | string | bool =>
    cases a <;> simp [Scalar.ofValue?] at hx
    cases b <;> simp [Scalar.ofValue?] at hy
    subst hx hy
    rfl
  | datetime =>
    cases a <;> simp [Scalar.ofValue?] at hx
    cases b <;> simp [Scalar.ofValue?] at hy
    obtain ⟨i, hi, rfl⟩ := hx
    obtain ⟨j, hj, rfl⟩ := hy
    simp [Scalar.compare?, Value.compareTemporal, Value.compareInstantTexts, hi, hj]
  | uuid =>
    cases a <;> simp [Scalar.ofValue?] at hx
    cases b <;> simp [Scalar.ofValue?] at hy
    obtain ⟨u, hu, rfl⟩ := hx
    obtain ⟨v, hv, rfl⟩ := hy
    exact congrArg some (Uuid.compare_text (halike.2 rfl _ rfl _ rfl) hu hv).symm

/-- UUIDs apart, a sort key orders no other values as the scalars that they stand for. -/
theorem alike_of_order_eq {field : String} (ht : t ≠ .uuid) (hx : Scalar.ofValue? t a = some x)
    (hy : Scalar.ofValue? t b = some y) (h : x.compare? y = some ((ofColumn field t).compare a b)) :
    Value.ComparedAlike t a b := by
  cases t with
  | float =>
    obtain ⟨p, hp, rfl⟩ := Option.map_eq_some_iff.mp hx
    obtain ⟨q, hq, rfl⟩ := Option.map_eq_some_iff.mp hy
    rw [compare_ofColumn] at h
    exact (compare_numbers_iff hp hq).mp (Option.some.inj h)
  | uuid => exact absurd rfl ht
  | string | int | bool | datetime => exact Value.comparedAlike_of_ne (by decide) (by decide)

/-! ## Columns of rows -/

/-- The place of a value in a column of a type: `null` comes first. -/
def columnPlace (t : ScalarType) (v : Value) : Value.Place :=
  match Scalar.ofValue? t v with
  | some x => x.place
  | none => { kind := 0 }

/-- Sort keys put nulls before all scalars. -/
theorem compare_null (field : String) (hx : Scalar.ofValue? t a = some x) :
    (ofColumn field t).compare .null a = .lt ∧ (ofColumn field t).compare a .null = .gt := by
  have hnull := Scalar.isNull_of_ofValue? hx
  simp only [compare_ofColumn]
  cases a <;> simp [Value.isNull] at hnull <;> simp [Value.compareTemporal, Value.compare, Value.kindRank] <;> decide

/-- A column is compared by places, if its values are compared alike. -/
theorem compare_columnPlace (field : String) (ha : (FieldType.scalar t).conforms a = true)
    (hb : (FieldType.scalar t).conforms b = true) (halike : Value.ComparedAlike t a b) :
    (ofColumn field t).compare a b = (columnPlace t a).compare (columnPlace t b) := by
  have hnull : columnPlace t .null = { kind := 0 } := by cases t <;> rfl
  have hfirst : ∀ x : Scalar, 0 < x.place.kind := by intro x; cases x <;> simp [Scalar.place]
  rcases ScalarType.null_or_ofValue? ha with rfl | ⟨x, hx⟩ <;> rcases ScalarType.null_or_ofValue? hb with rfl | ⟨y, hy⟩
  · rw [compare_ofColumn, hnull]
    split <;> rfl
  · have hy' : columnPlace t b = y.place := by rw [columnPlace, hy]
    rw [(compare_null field hy).1, hnull, hy', Value.Place.compare_of_kind_ne (hfirst y).ne,
      Nat.compare_eq_lt.mpr (hfirst y)]
  · have hx' : columnPlace t a = x.place := by rw [columnPlace, hx]
    rw [(compare_null field hx).2, hnull, hx', Value.Place.compare_of_kind_ne (hfirst x).ne',
      Nat.compare_eq_gt.mpr (hfirst x)]
  · have htypes : x.type = y.type := (Scalar.type_of_ofValue? hx).trans (Scalar.type_of_ofValue? hy).symm
    have horder := order_eq_scalar_order field hx hy halike
    rw [Scalar.compare?_eq_place htypes, Option.some.injEq] at horder
    rw [← horder, columnPlace, columnPlace, hx, hy]

/-- The key of a column orders rows whose values are compared alike. -/
theorem orders_ofColumn {field : String} {S : Record → Prop}
    (hconforms : ∀ r, S r → (FieldType.scalar t).conforms (Record.value r field) = true)
    (halike : ∀ r s, S r → S s → Value.ComparedAlike t (Record.value r field) (Record.value s field)) :
    Orders [ofColumn field t] S := by
  have hplace : ∀ r s, S r → S s → compareRecords [ofColumn field t] r s =
      (columnPlace t (Record.value r field)).compare (columnPlace t (Record.value s field)) := by
    intro r s hr hs
    rw [compareRecords, compareRecords, Ordering.then_eq]
    exact compare_columnPlace field (hconforms r hr) (hconforms s hs) (halike r s hr hs)
  constructor
  · intro r s hr hs
    rw [hplace r s hr hs, hplace s r hs hr]
    exact Std.OrientedCmp.eq_swap
  · intro r s u hr hs hu
    rw [hplace r s hr hs, hplace s u hs hu, hplace r u hr hu]
    simp only [← Ordering.isLE_iff_ne_gt]
    exact Std.TransCmp.isLE_trans

/-! ## Filters -/

/-- A list whose elements keep a property once they have it is cut in two by the property. -/
theorem exists_cut {α : Type} {p : α → Bool} {l : List α} (h : l.Pairwise fun a b => p a = true → p b = true) :
    ∃ before after, l = before ++ after ∧ (∀ a ∈ before, p a = false) ∧ ∀ a ∈ after, p a = true := by
  induction l with
  | nil => exact ⟨[], [], rfl, by simp, by simp⟩
  | cons a rest ih =>
    obtain ⟨hfirst, hrest⟩ := List.pairwise_cons.mp h
    cases ha : p a with
    | true => exact ⟨[], a :: rest, rfl, by simp, by simpa [ha] using fun b hb => hfirst b hb ha⟩
    | false =>
      obtain ⟨before, after, rfl, hbefore, hafter⟩ := ih hrest
      exact ⟨a :: before, after, rfl, by simpa [ha] using hbefore, hafter⟩

/-- A range filter passes the rows with a value that its sort key orders after the operand. -/
theorem holds_gt_iff {field : String} {r : Record} (hoperand : Scalar.ofValue? t b = some y)
    (hconforms : (FieldType.scalar t).conforms (Record.value r field) = true)
    (halike : Value.ComparedAlike t (Record.value r field) b) :
    (Predicate.compare field .gt y).holds r = true ↔ (ofColumn field t).compare (Record.value r field) b = .gt := by
  rcases ScalarType.null_or_ofValue? hconforms with hnull | ⟨x, hx⟩
  · rw [Predicate.holds_compare_of_null hnull, hnull, (compare_null field hoperand).1]
    decide
  · rw [Predicate.holds_compare_of_value hx hoperand, order_eq_scalar_order field hx hoperand halike]
    simp [CompareOp.holds]

/-- The rows that a range filter passes are those that the sort of their column puts last. -/
theorem sort_cut {field : String} {rows : List Record} (hoperand : Scalar.ofValue? t b = some y)
    (hconforms : ∀ v ∈ b :: rows.map (Record.value · field), (FieldType.scalar t).conforms v = true)
    (halike : ∀ v ∈ b :: rows.map (Record.value · field), ∀ w ∈ b :: rows.map (Record.value · field),
      Value.ComparedAlike t v w) :
    ∃ before after, sort [ofColumn field t] rows = before ++ after ∧
      (∀ r ∈ before, (Predicate.compare field .gt y).holds r = false) ∧
      ∀ r ∈ after, (Predicate.compare field .gt y).holds r = true := by
  -- The operand takes its place among the rows as the value of one more row.
  obtain ⟨row, hrow⟩ : ∃ row : Record, Record.value row field = b := ⟨[(field, b)], by simp [Record.value, Dict.get?]⟩
  have hmem : ∀ r ∈ row :: rows, Record.value r field ∈ b :: rows.map (Record.value · field) := by
    intro r hr
    simpa only [List.map_cons, hrow] using List.mem_map_of_mem (f := (Record.value · field)) hr
  have horders : Orders [ofColumn field t] (· ∈ row :: rows) :=
    orders_ofColumn (fun r hr => hconforms _ (hmem r hr)) fun r s hr hs => halike _ (hmem r hr) _ (hmem s hs)
  have hholds : ∀ r ∈ rows, (Predicate.compare field .gt y).holds r = true ↔
      compareRecords [ofColumn field t] row r = .lt := by
    intro r hr
    have hr' := List.mem_cons_of_mem row hr
    rw [holds_gt_iff hoperand (hconforms _ (hmem r hr')) (halike _ (hmem r hr') _ (List.mem_cons_self ..)),
      ← horders.gt_iff_lt hr' (List.mem_cons_self ..), compareRecords, compareRecords, Ordering.then_eq, field_ofColumn,
      hrow]
  have hsorted : (sort [ofColumn field t] rows).Pairwise fun r s => compareRecords [ofColumn field t] r s ≠ .gt :=
    pairwise_sortBy horders fun r hr => List.mem_cons_of_mem row hr
  refine exists_cut (hsorted.imp_of_mem fun {r s} hr hs hle hgreater => ?_)
  have hr := mem_sortBy.mp hr
  have hs := mem_sortBy.mp hs
  rw [hholds r hr] at hgreater
  rw [hholds s hs]
  exact horders.lt_of_lt_of_not_gt (List.mem_cons_self ..) (List.mem_cons_of_mem _ hr) (List.mem_cons_of_mem _ hs)
    hgreater hle

/-- **Sorting and range filters agree** on values that are compared alike. Two such values are in the order of the sort
key as the scalars that they stand for are, and UUIDs apart, no others are. A filter for values above an operand passes
the rows whose value the key orders after the operand, and sorting puts just these rows last. -/
theorem sort_agrees_with_filter {columns : Columns} {field : String}
    (hfield : Dict.get? columns.fields field = some (.scalar t)) :
    (∀ a b : Value, t.conforms a = true → t.conforms b = true →
      ∃ x y, Scalar.coerce? a (.scalar t) = some x ∧ Scalar.coerce? b (.scalar t) = some y ∧
        (Value.ComparedAlike t a b → x.compare? y = some ((ofColumn field t).compare a b)) ∧
        (t ≠ .uuid → x.compare? y = some ((ofColumn field t).compare a b) → Value.ComparedAlike t a b)) ∧
    ∀ b : Value, t.conforms b = true → ∃ p, columns.compile (.leaf field "gt" (some b)) = .ok p ∧
      (∀ r : Record, (FieldType.scalar t).conforms (Record.value r field) = true →
        Value.ComparedAlike t (Record.value r field) b →
        (p.holds r = true ↔ (ofColumn field t).compare (Record.value r field) b = .gt)) ∧
      ∀ rows : List Record, (∀ r ∈ rows, (FieldType.scalar t).conforms (Record.value r field) = true) →
        (∀ v ∈ b :: rows.map (Record.value · field), ∀ w ∈ b :: rows.map (Record.value · field),
          Value.ComparedAlike t v w) →
        ∃ before after, sort [ofColumn field t] rows = before ++ after ∧
          (∀ r ∈ before, p.holds r = false) ∧ ∀ r ∈ after, p.holds r = true := by
  refine ⟨fun a b ha hb => ?_, fun b hb => ?_⟩
  · obtain ⟨x, hx⟩ := ScalarType.exists_ofValue? ha
    obtain ⟨y, hy⟩ := ScalarType.exists_ofValue? hb
    exact ⟨x, y, hx, hy, order_eq_scalar_order field hx hy, fun ht => alike_of_order_eq ht hx hy⟩
  · obtain ⟨y, hy⟩ := ScalarType.exists_ofValue? hb
    refine ⟨_, columns.compile_compare .gt (by decide +kernel) hfield hy,
      fun r hr halike => holds_gt_iff hy hr halike, fun rows hconforms halike => sort_cut hy ?_ halike⟩
    intro v hv
    rcases List.mem_cons.mp hv with rfl | hv
    · simp [FieldType.conforms, hb]
    · obtain ⟨r, hr, rfl⟩ := List.mem_map.mp hv
      exact hconforms r hr

/-! ## A column of readings -/

/-- Readings of a gauge. -/
def gaugeColumns : Columns where
  scope := "Gauge"
  fields := [("Id", .scalar .int), ("Reading", .scalar .float)]

/-- Some readings, of which one is missing. -/
def gaugeRows : List Record :=
  [[("Id", .int 1), ("Reading", .int 3)], [("Id", .int 2), ("Reading", .null)],
    [("Id", .int 3), ("Reading", .float (Binary64.ofInt 5))], [("Id", .int 4), ("Reading", .int (-7))]]

/-- The sort of the readings is cut by the filter for readings above 3. -/
theorem sort_agrees_with_filter_gauge :
    ∃ p, gaugeColumns.compile (.leaf "Reading" "gt" (some (.int 3))) = .ok p ∧
      (∀ r ∈ gaugeRows, p.holds r = true ↔
        (ofColumn "Reading" .float).compare (Record.value r "Reading") (.int 3) = .gt) ∧
      ∃ before after, sort [ofColumn "Reading" .float] gaugeRows = before ++ after ∧
        (∀ r ∈ before, p.holds r = false) ∧ ∀ r ∈ after, p.holds r = true := by
  have hconforms : ∀ r ∈ gaugeRows, (FieldType.scalar .float).conforms (Record.value r "Reading") = true := by
    decide +kernel
  have halike : ∀ v ∈ Value.int 3 :: gaugeRows.map (Record.value · "Reading"),
      ∀ w ∈ Value.int 3 :: gaugeRows.map (Record.value · "Reading"), Value.ComparedAlike .float v w := by
    decide +kernel
  have hreading : Dict.get? gaugeColumns.fields "Reading" = some (.scalar .float) := rfl
  obtain ⟨_, hfilter⟩ := sort_agrees_with_filter hreading
  obtain ⟨p, hp, hholds, hcut⟩ := hfilter (.int 3) (by decide +kernel)
  refine ⟨p, hp, fun r hr => hholds r (hconforms r hr) ?_, hcut gaugeRows hconforms halike⟩
  exact halike _ (List.mem_cons_of_mem _ (List.mem_map_of_mem hr)) _ (List.mem_cons_self ..)

/-- Of two large integers in a column of numbers, sorting puts the larger one last, but the filter for numbers above the
smaller one does not pass it. -/
theorem sort_disagrees_with_filter_large :
    ScalarType.float.conforms (.int 9007199254740993) = true ∧
    ScalarType.float.conforms (.int 9007199254740992) = true ∧
    (ofColumn "Reading" .float).compare (.int 9007199254740993) (.int 9007199254740992) = .gt ∧
    (∃ x y, Scalar.coerce? (.int 9007199254740993) (.scalar .float) = some x ∧
      Scalar.coerce? (.int 9007199254740992) (.scalar .float) = some y ∧ x.compare? y = some .eq) ∧
    ∃ p, gaugeColumns.compile (.leaf "Reading" "gt" (some (.int 9007199254740992))) = .ok p ∧
      p.holds [("Reading", .int 9007199254740993)] = false := by
  have hfilter : gaugeColumns.compile (.leaf "Reading" "gt" (some (.int 9007199254740992))) =
      .ok (.compare "Reading" .gt (.float (Binary64.ofInt 9007199254740992))) :=
    gaugeColumns.compile_compare (t := .float) .gt (by decide +kernel) rfl rfl
  exact ⟨by decide +kernel, by decide +kernel, by decide +kernel, ⟨_, _, rfl, rfl, by decide +kernel⟩,
    _, hfilter, by decide +kernel⟩

end SortKey

end GuardedQuery
