import GuardedQuery.Execution.Join
import GuardedQuery.Proofs.TypedOrder

/-!
# Joins and equality filters

A join compares two fields as they are written and knows nothing of their declared types, while an equality filter
reads both values in the declared type. What a join takes for equal, the filter for the row's value finds, too. In
columns of texts, integers and truth values the filter finds nothing else. In columns of numbers it also finds different
integers with one rounding, which a join compares exactly. Instants and identifiers can be spelled in several ways, and
nothing is said of what a join makes of two spellings.

## Main definitions

* `EntitySchema.Conforms`: records whose fields have their declared types.
* `EntitySchema.Finds`: the filter for a value in a field finds a record.
* `Value.DifferentInts`, `Value.SpelledTwice`: different integers, and two spellings of one instant or identifier.

## Main statements

* `Value.isMatch_iff`: when a join takes two scalars for equal.
* `Join.matches_found_by_filters`: a join matches the records that equality filters find.
-/

namespace GuardedQuery

/-! ## Scalars that a join takes for equal -/

namespace Value

/-- Two different signed 64-bit integers. -/
def DifferentInts (a b : Value) : Prop :=
  ∃ m ∈ a.asInt64?, ∃ n ∈ b.asInt64?, m ≠ n

/-- Two different texts for one instant, or for one identifier. -/
def SpelledTwice (t : ScalarType) (a b : Value) : Prop :=
  (t = .datetime ∨ t = .uuid) ∧ a ≠ b ∧ Scalar.ofValue? t a = Scalar.ofValue? t b

variable {t : ScalarType} {a b : Value} {x y : Scalar}

/-- Values that stand for scalars match if they compare equal as they are written. -/
theorem isMatch_iff (hx : Scalar.ofValue? t a = some x) (hy : Scalar.ofValue? t b = some y) :
    a.isMatch b = true ↔ a.compare b = .eq := by
  simp [isMatch, Scalar.isNull_of_ofValue? hx, Scalar.isNull_of_ofValue? hy]

/-- Values other than numbers compare equal, as they are written, only with themselves. -/
theorem compare_eq_iff (ht : t ≠ .float) (hx : Scalar.ofValue? t a = some x) (hy : Scalar.ofValue? t b = some y) :
    a.compare b = .eq ↔ a = b := by
  cases t with
  | float => exact absurd rfl ht
  | int =>
    obtain ⟨m, hm, rfl⟩ := Option.map_eq_some_iff.mp hx
    obtain ⟨n, hn, rfl⟩ := Option.map_eq_some_iff.mp hy
    cases a <;> simp [asInt64?] at hm
    cases b <;> simp [asInt64?] at hn
    obtain ⟨hm, rfl⟩ := hm
    obtain ⟨hn, rfl⟩ := hn
    simp [compare, kindRank, compareNumbers, asInt64?, hm, hn]
  | string | bool | datetime | uuid =>
    cases a <;> simp [Scalar.ofValue?] at hx
    cases b <;> simp [Scalar.ofValue?] at hy
    simp [compare, kindRank]

/-- Different signed 64-bit integers do not compare equal as they are written. -/
theorem not_differentInts_of_compare (h : a.compare b = .eq) : ¬a.DifferentInts b := by
  rintro ⟨m, hm, n, hn, hne⟩
  have hints : ∀ {v : Value} {k : ℤ}, v.asInt64? = some k → Scalar.ofValue? .int v = some (.int k) := by
    intro v k hk
    rw [Scalar.ofValue?, hk, Option.map_some]
  obtain rfl := (compare_eq_iff (t := .int) (by decide) (hints hm) (hints hn)).mp h
  exact hne (Option.some.inj (hm.symm.trans hn))

/-- **Values that compare equal as they are written stand for equal scalars.** -/
theorem equals_of_compare (hx : Scalar.ofValue? t a = some x) (hy : Scalar.ofValue? t b = some y)
    (h : a.compare b = .eq) : y.Equals x := by
  by_cases ht : t = .float
  · subst ht
    obtain ⟨p, hp, rfl⟩ := Option.map_eq_some_iff.mp hx
    obtain ⟨q, hq, rfl⟩ := Option.map_eq_some_iff.mp hy
    have halike : ComparedAlike .float a b := by
      refine comparedAlike_float.mpr fun m hm n hn _ => ?_
      by_contra hne
      exact not_differentInts_of_compare h ⟨m, hm, n, hn, hne⟩
    have hkeys := (SortKey.compare_numbers_iff hp hq).mpr halike
    rw [h, Binary64.compare, compare_eq_iff_eq] at hkeys
    exact Scalar.equals_iff.mpr (.inr ⟨q, p, rfl, rfl, hkeys.symm⟩)
  · obtain rfl := (compare_eq_iff ht hx hy).mp h
    exact Option.some.inj (hy.symm.trans hx) ▸ .refl y

/-- **Values that stand for equal scalars compare equal as they are written**, unless they are different integers, or
two spellings of one instant or identifier. -/
theorem compare_of_equals (hx : Scalar.ofValue? t a = some x) (hy : Scalar.ofValue? t b = some y)
    (hequal : y.Equals x) (hints : t = .float → ¬a.DifferentInts b) (hspelled : ¬SpelledTwice t a b) :
    a.compare b = .eq := by
  cases t with
  | float =>
    obtain ⟨p, hp, rfl⟩ := Option.map_eq_some_iff.mp hx
    obtain ⟨q, hq, rfl⟩ := Option.map_eq_some_iff.mp hy
    have halike : ComparedAlike .float a b := by
      refine comparedAlike_float.mpr fun m hm n hn _ => ?_
      by_contra hne
      exact hints rfl ⟨m, hm, n, hn, hne⟩
    have hkeys : p.key = q.key := by
      rcases Scalar.equals_iff.mp hequal with heq | ⟨_, _, hfirst, hsecond, hkeys⟩
      · rw [Scalar.float.inj heq]
      · rw [Scalar.float.inj hfirst, Scalar.float.inj hsecond, hkeys]
    rw [← (SortKey.compare_numbers_iff hp hq).mpr halike, Binary64.compare, compare_eq_iff_eq, hkeys]
  | string | int | bool =>
    refine (compare_eq_iff (by decide) hx hy).mpr (Scalar.eq_of_ofValue? ?_ hx hy (.trans_symm (.refl x) hequal))
    decide
  | datetime | uuid =>
    refine (compare_eq_iff (by decide) hx hy).mpr ?_
    by_contra hne
    have hsame : y = x := by
      rcases Scalar.equals_iff.mp hequal with hsame | ⟨_, _, -, rfl, -⟩
      · exact hsame
      · cases Scalar.type_of_ofValue? hx
    exact hspelled ⟨by simp, hne, by rw [hx, hy, hsame]⟩

end Value

/-! ## Pairs of records -/

namespace EntitySchema

/-- A record whose fields are declared, and have their declared types. -/
def Conforms (s : EntitySchema) (r : Record) : Prop :=
  ∀ field v, Dict.get? r field = some v → ∃ type, s.fieldType? field = some type ∧ type.conforms v = true

/-- The filter for a value in a field finds a record. -/
def Finds (s : EntitySchema) (field : String) (v : Value) (r : Record) : Prop :=
  ∃ p, s.columns.compile (.leaf field "eq" (some v)) = .ok p ∧ p.holds r = true

variable {s : EntitySchema} {r : Record} {field : String} {t : ScalarType} {v : Value} {x y : Scalar}

theorem Conforms.value (h : s.Conforms r) {type : FieldType} (htype : s.fieldType? field = some type) :
    type.conforms (Record.value r field) = true := by
  cases hget : Dict.get? r field with
  | none =>
    rw [Record.value_of_get?_eq_none hget]
    exact type.conforms_null
  | some v =>
    obtain ⟨declared, hdeclared, hconforms⟩ := h field v hget
    obtain rfl := Option.some.inj (htype.symm.trans hdeclared)
    rwa [Record.value_of_get? hget]

/-- A field with a value stands for a scalar of its declared type. -/
theorem Conforms.exists_scalar (h : s.Conforms r) (htype : s.fieldType? field = some (.scalar t))
    (hvalue : (Record.value r field).isNull = false) : ∃ x, Scalar.ofValue? t (Record.value r field) = some x := by
  rcases ScalarType.null_or_ofValue? (h.value htype) with hnull | hscalar
  · rw [hnull] at hvalue
    cases hvalue
  · exact hscalar

/-- The filter for a value compiles to a comparison. -/
theorem finds_iff_holds (htype : s.fieldType? field = some (.scalar t)) (hx : Scalar.ofValue? t v = some x) :
    s.Finds field v r ↔ (Predicate.compare field .eq x).holds r = true := by
  have hsymbol : FilterOperator.parse? "eq" = some CompareOp.eq.operator := by decide +kernel
  have hcompiled := s.columns.compile_compare .eq hsymbol htype hx
  constructor
  · rintro ⟨p, hp, hpasses⟩
    rw [hcompiled] at hp
    rwa [Except.ok.inj hp]
  · exact fun hpasses => ⟨_, hcompiled, hpasses⟩

/-- The filter for a value finds the records whose values stand for equal scalars. -/
theorem finds_iff (htype : s.fieldType? field = some (.scalar t)) (hx : Scalar.ofValue? t v = some x)
    (hy : Scalar.ofValue? t (Record.value r field) = some y) : s.Finds field v r ↔ y.Equals x := by
  rw [finds_iff_holds htype hx, Predicate.holds_compare_of_value hy hx, Scalar.Equals]
  rcases y.compare? x with _ | (_ | _ | _) <;> simp [CompareOp.holds]

end EntitySchema

namespace Join

/-- Two fields have values, and the filter for the one of the row finds the candidate. -/
def FoundByFilter (joined : EntitySchema) (row candidate : Record) (source target : String) : Prop :=
  (Record.value row source).isNull = false ∧ (Record.value candidate target).isNull = false ∧
    joined.Finds target (Record.value row source) candidate

variable {j : Join} {root joined : EntitySchema} {row candidate : Record} {source target : String} {t : ScalarType}

section

variable (hrow : root.Conforms row) (hcandidate : joined.Conforms candidate)
  (hsource : root.fieldType? source = some (.scalar t)) (htarget : joined.fieldType? target = some (.scalar t))

include hrow hcandidate hsource htarget

/-- What a join takes for equal is found by the filter for the row's value. -/
theorem foundByFilter_of_isMatch (h : (Record.value row source).isMatch (Record.value candidate target) = true) :
    FoundByFilter joined row candidate source target ∧
      ¬(Record.value row source).DifferentInts (Record.value candidate target) := by
  obtain ⟨⟨ha, hb⟩, hcompare⟩ :
      ((Record.value row source).isNull = false ∧ (Record.value candidate target).isNull = false) ∧
        (Record.value row source).compare (Record.value candidate target) = .eq := by
    simpa [Value.isMatch] using h
  obtain ⟨x, hx⟩ := hrow.exists_scalar hsource ha
  obtain ⟨y, hy⟩ := hcandidate.exists_scalar htarget hb
  refine ⟨⟨ha, hb, ?_⟩, Value.not_differentInts_of_compare hcompare⟩
  exact (EntitySchema.finds_iff htarget hx hy).mpr (Value.equals_of_compare hx hy hcompare)

/-- What the filter for the row's value finds a join takes for equal, unless the two are different integers in a column
of numbers, or two spellings of one instant or identifier. -/
theorem isMatch_of_foundByFilter (h : FoundByFilter joined row candidate source target)
    (hints : t = .float → ¬(Record.value row source).DifferentInts (Record.value candidate target))
    (hspelled : ¬Value.SpelledTwice t (Record.value row source) (Record.value candidate target)) :
    (Record.value row source).isMatch (Record.value candidate target) = true := by
  obtain ⟨ha, hb, hfinds⟩ := h
  obtain ⟨x, hx⟩ := hrow.exists_scalar hsource ha
  obtain ⟨y, hy⟩ := hcandidate.exists_scalar htarget hb
  have hequal : y.Equals x := (EntitySchema.finds_iff htarget hx hy).mp hfinds
  exact (Value.isMatch_iff hx hy).mpr (Value.compare_of_equals hx hy hequal hints hspelled)

end

/-- **Joins match what equality filters find.** A pair of fields that a join takes for equal has values, and the filter
for the row's value finds the joined record. Conversely, a join takes for equal what the filter finds

* in columns of texts, integers and truth values;
* in columns of numbers, except for different signed 64-bit integers, which a join compares exactly;
* in columns of instants and identifiers, if the two are not different texts for one of them.

So a record that matches a row is found by the filters for all pairs, and it matches if these find it and no pair holds
different integers or two spellings. -/
theorem matches_found_by_filters (hrow : root.Conforms row) (hcandidate : joined.Conforms candidate) :
    (∀ source target t, root.fieldType? source = some (.scalar t) → joined.fieldType? target = some (.scalar t) →
      let a := Record.value row source
      let b := Record.value candidate target
      (a.isMatch b = true → FoundByFilter joined row candidate source target) ∧
      (t = .string ∨ t = .int ∨ t = .bool →
        (a.isMatch b = true ↔ FoundByFilter joined row candidate source target)) ∧
      (t = .float →
        (a.isMatch b = true ↔ FoundByFilter joined row candidate source target ∧ ¬a.DifferentInts b)) ∧
      (t = .datetime ∨ t = .uuid → ¬Value.SpelledTwice t a b →
        (a.isMatch b = true ↔ FoundByFilter joined row candidate source target))) ∧
    ((∀ pair ∈ j.on, ∃ t, root.fieldType? pair.1 = some (.scalar t) ∧ joined.fieldType? pair.2 = some (.scalar t)) →
      (j.matching row candidate = true → ∀ pair ∈ j.on, FoundByFilter joined row candidate pair.1 pair.2) ∧
      ((∀ pair ∈ j.on, ∀ t, root.fieldType? pair.1 = some (.scalar t) →
          ¬Value.SpelledTwice t (Record.value row pair.1) (Record.value candidate pair.2)) →
        (j.matching row candidate = true ↔ ∀ pair ∈ j.on, FoundByFilter joined row candidate pair.1 pair.2 ∧
          ¬(Record.value row pair.1).DifferentInts (Record.value candidate pair.2)))) := by
  have hmatching : j.matching row candidate = true ↔
      ∀ pair ∈ j.on, (Record.value row pair.1).isMatch (Record.value candidate pair.2) = true := by
    rw [matching, List.all_eq_true]
  constructor
  · intro source target t hsource htarget a b
    have hfound := foundByFilter_of_isMatch hrow hcandidate hsource htarget
    have hmatch := isMatch_of_foundByFilter hrow hcandidate hsource htarget
    refine ⟨fun h => (hfound h).1, fun ht => ⟨fun h => (hfound h).1, fun h => ?_⟩, fun ht => ⟨hfound, fun h => ?_⟩,
      fun ht hspelled => ⟨fun h => (hfound h).1, fun h => ?_⟩⟩
    · rcases ht with rfl | rfl | rfl <;> exact hmatch h nofun (by simp [Value.SpelledTwice])
    · subst ht
      exact hmatch h.1 (fun _ => h.2) (by simp [Value.SpelledTwice])
    · rcases ht with rfl | rfl <;> exact hmatch h nofun hspelled
  · refine fun hdeclared => ⟨fun h pair hpair => ?_, fun hspelled => ?_⟩
    · obtain ⟨t, hsource, htarget⟩ := hdeclared pair hpair
      exact (foundByFilter_of_isMatch hrow hcandidate hsource htarget (hmatching.mp h pair hpair)).1
    · rw [hmatching]
      refine forall₂_congr fun pair hpair => ?_
      obtain ⟨t, hsource, htarget⟩ := hdeclared pair hpair
      exact ⟨foundByFilter_of_isMatch hrow hcandidate hsource htarget, fun h =>
        isMatch_of_foundByFilter hrow hcandidate hsource htarget h.1 (fun _ => h.2) (hspelled pair hpair t hsource)⟩

/-! ## Payments and their receipts -/

/-- Payments with the reading of a counter. -/
def paymentSchema : EntitySchema where
  name := "Payment"
  fields := [("At", .scalar .datetime), ("Counter", .scalar .float), ("Id", .scalar .int)]

/-- Receipts with the reading of the same counter. -/
def receiptSchema : EntitySchema where
  name := "Receipt"
  fields := [("Count", .scalar .float), ("Id", .scalar .int), ("Issued", .scalar .datetime)]

/-- Payments with the receipts that name their reading and their time. -/
def receiptJoin : Join where
  entity := "Receipt"
  on := [("Counter", "Count"), ("At", "Issued")]

/-- A payment. -/
def paymentRecord (counter : Value) : Record :=
  [("At", .string "2024-01-01T00:00:00Z"), ("Counter", counter), ("Id", .int 1)]

/-- A receipt. -/
def receiptRecord (count : Value) : Record :=
  [("Count", count), ("Id", .int 7), ("Issued", .string "2024-01-01T00:00:00Z")]

/-- The reading of a payment is an integer, and that of its receipt the same number with a fraction: the filters find
the receipt, and it matches. -/
theorem matches_found_by_filters_receipt :
    let row := paymentRecord (.int 3)
    let candidate := receiptRecord (.float (Binary64.ofInt 3))
    paymentSchema.Conforms row ∧ receiptSchema.Conforms candidate ∧ receiptJoin.matching row candidate = true ∧
      ∀ pair ∈ receiptJoin.on, FoundByFilter receiptSchema row candidate pair.1 pair.2 ∧
        ¬(Record.value row pair.1).DifferentInts (Record.value candidate pair.2) := by
  intro row candidate
  have hrow : paymentSchema.Conforms row :=
    (EntitySchema.conform_spec (show paymentSchema.conform row = .ok row by decide +kernel)).2
  have hcandidate : receiptSchema.Conforms candidate :=
    (EntitySchema.conform_spec (show receiptSchema.conform candidate = .ok candidate by decide +kernel)).2
  have hdeclared : ∀ pair ∈ receiptJoin.on, ∃ t, paymentSchema.fieldType? pair.1 = some (.scalar t) ∧
      receiptSchema.fieldType? pair.2 = some (.scalar t) := by
    simp only [receiptJoin, List.forall_mem_cons, List.not_mem_nil, false_implies, implies_true, and_true]
    exact ⟨⟨.float, rfl, rfl⟩, ⟨.datetime, rfl, rfl⟩⟩
  have hspelled : ∀ pair ∈ receiptJoin.on, ∀ t, paymentSchema.fieldType? pair.1 = some (.scalar t) →
      ¬Value.SpelledTwice t (Record.value row pair.1) (Record.value candidate pair.2) := by
    simp only [receiptJoin, List.forall_mem_cons, List.not_mem_nil, false_implies, implies_true, and_true]
    refine ⟨fun t ht => ?_, fun t _ h => h.2.1 rfl⟩
    have hcounter : paymentSchema.fieldType? "Counter" = some (.scalar .float) := rfl
    obtain rfl : ScalarType.float = t := FieldType.scalar.inj (Option.some.inj (hcounter.symm.trans ht))
    simp [Value.SpelledTwice]
  have hmatch : receiptJoin.matching row candidate = true := by decide +kernel
  exact ⟨hrow, hcandidate, hmatch, (((matches_found_by_filters hrow hcandidate).2 hdeclared).2 hspelled).mp hmatch⟩

/-- A filter finds the receipt of a payment by a large reading, which is rounded. A join does not take the readings for
equal. -/
theorem joins_miss_found_receipt :
    let row := paymentRecord (.int 9007199254740993)
    let candidate := receiptRecord (.int 9007199254740992)
    paymentSchema.Conforms row ∧ receiptSchema.Conforms candidate ∧
      paymentSchema.fieldType? "Counter" = some (.scalar .float) ∧
      receiptSchema.fieldType? "Count" = some (.scalar .float) ∧
      FoundByFilter receiptSchema row candidate "Counter" "Count" ∧
      (Record.value row "Counter").isMatch (Record.value candidate "Count") = false := by
  intro row candidate
  have hrow : paymentSchema.Conforms row :=
    (EntitySchema.conform_spec (show paymentSchema.conform row = .ok row by decide +kernel)).2
  have hcandidate : receiptSchema.Conforms candidate :=
    (EntitySchema.conform_spec (show receiptSchema.conform candidate = .ok candidate by decide +kernel)).2
  have hreadings : FoundByFilter receiptSchema row candidate "Counter" "Count" := by
    refine ⟨rfl, rfl, (EntitySchema.finds_iff (t := .float) rfl rfl rfl).mpr ?_⟩
    exact Scalar.equals_iff.mpr (.inr ⟨_, _, rfl, rfl, by decide +kernel⟩)
  exact ⟨hrow, hcandidate, rfl, rfl, hreadings, by decide +kernel⟩

end Join

end GuardedQuery
