import GuardedQuery.Proofs.Failures
import GuardedQuery.Proofs.GroupSummaries
import Mathlib.Algebra.Order.BigOperators.Group.List

/-!
# Sums of integers

The integers of a group are added from left to right, and every sum on the way has to be a signed 64-bit integer. So a
sum that a query shows is exact, and it is representable. The converse fails: a sum can be representable and yet the
sums on the way to it are not, and then the query fails for an overflow. Whether that happens depends on the order of
the records. Some order always leads to a representable sum, and every order does if no two integers differ in sign.

## Main definitions

* `IsInt64`: signed 64-bit integers.
* `Column.RunsWithin`: lists of integers whose sums on the way are signed 64-bit integers.
* `Aggregation.SumsInts`: aggregations that sum a field of integers.
* `EntitySchema.HoldsInts`: records with signed 64-bit integers in the fields that are declared so.
* `Group.ShowsSums`: rows that show the sums of the integers of a group.

## Main statements

* `Column.sumInts?_eq_some_iff`: integers have a sum if and only if they run within the signed 64-bit integers.
* `Column.exists_perm_runsWithin`: some order leads to a representable sum.
* `Group.exists_perm_runsWithin`: some order of the records leads to representable sums of all groups.
* `Query.groupRows_exactSums`: the sums that grouped queries show, and when they fail for an overflow.
-/

namespace GuardedQuery

/-- A signed 64-bit integer. -/
def IsInt64 (n : ℤ) : Prop := int64Min ≤ n ∧ n ≤ int64Max

instance (n : ℤ) : Decidable (IsInt64 n) := inferInstanceAs (Decidable (int64Min ≤ n ∧ n ≤ int64Max))

theorem isInt64_zero : IsInt64 0 := by decide

namespace Column

variable {ns ms : List ℤ} {n : ℤ}

/-! ## Sums on the way -/

/-- All sums of first integers of the list are signed 64-bit integers. -/
def RunsWithin (ns : List ℤ) : Prop := ∀ ms, ms <+: ns → IsInt64 ms.sum

theorem runsWithin_nil : RunsWithin [] := by
  intro ms hms
  rw [List.prefix_nil.mp hms]
  exact isInt64_zero

theorem RunsWithin.isInt64_sum (h : RunsWithin ns) : IsInt64 ns.sum := h ns List.prefix_rfl

/-- One more integer is added to the whole sum. -/
theorem runsWithin_concat : RunsWithin (ns ++ [n]) ↔ RunsWithin ns ∧ IsInt64 (ns.sum + n) := by
  have hsum : (ns ++ [n]).sum = ns.sum + n := by simp
  constructor
  · intro h
    refine ⟨fun ms hms => h ms (hms.trans (List.prefix_append ns [n])), ?_⟩
    rw [← hsum]
    exact h.isInt64_sum
  · rintro ⟨hrun, hlast⟩ ms hms
    rcases List.prefix_concat_iff.mp hms with rfl | hms
    · rwa [hsum]
    · exact hrun ms hms

theorem addInt?_eq_some_iff {a b c : ℤ} : addInt? a b = some c ↔ IsInt64 (a + b) ∧ a + b = c := by
  unfold addInt? IsInt64
  split <;> simp_all

/-- **Integers have a sum if and only if they run within the signed 64-bit integers.** -/
theorem sumInts?_eq_some_iff : sumInts? ns = some n ↔ RunsWithin ns ∧ ns.sum = n := by
  induction ns using List.reverseRecOn generalizing n with
  | nil =>
    simp [sumInts?, runsWithin_nil]
  | append_singleton ns m ih =>
    have hstep : sumInts? (ns ++ [m]) = (sumInts? ns).bind fun s => addInt? s m := by
      simp [sumInts?, List.foldlM_append]
    simp only [hstep, Option.bind_eq_some_iff, ih, addInt?_eq_some_iff, runsWithin_concat, List.sum_append,
      List.sum_singleton]
    constructor
    · rintro ⟨s, ⟨hrun, rfl⟩, hlast, hsum⟩
      exact ⟨⟨hrun, hlast⟩, hsum⟩
    · rintro ⟨⟨hrun, hlast⟩, hsum⟩
      exact ⟨ns.sum, ⟨hrun, rfl⟩, hlast, hsum⟩

theorem sumInts?_eq_none_iff : sumInts? ns = none ↔ ¬RunsWithin ns := by
  rw [Option.eq_none_iff_forall_ne_some]
  simp [sumInts?_eq_some_iff]

/-! ## Orders of the integers -/

/-- Integers of one sign run within the signed 64-bit integers if their sum is one of these. -/
theorem runsWithin_of_same_sign (hsign : (∀ n ∈ ns, 0 ≤ n) ∨ ∀ n ∈ ns, n ≤ 0) (hsum : IsInt64 ns.sum) :
    RunsWithin ns := by
  rintro ms ⟨rest, rfl⟩
  have hbounds : int64Min ≤ 0 ∧ 0 ≤ int64Max := by decide
  rw [List.sum_append] at hsum
  unfold IsInt64 at hsum ⊢
  -- The sum on the way lies between zero and the whole sum.
  rcases hsign with hpos | hneg
  · have hms : 0 ≤ ms.sum := List.sum_nonneg fun n hn => hpos n (by simp [hn])
    have hrest : 0 ≤ rest.sum := List.sum_nonneg fun n hn => hpos n (by simp [hn])
    omega
  · have hms : ms.sum ≤ 0 := by simpa using List.sum_le_card_nsmul ms 0 fun n hn => hneg n (by simp [hn])
    have hrest : rest.sum ≤ 0 := by simpa using List.sum_le_card_nsmul rest 0 fun n hn => hneg n (by simp [hn])
    omega

/-- If the sum is representable, then so is the sum of all but one of the integers: one that does not differ from the
sum in sign. -/
theorem exists_last (hns : ∀ n ∈ ns, IsInt64 n) (hne : ns ≠ []) (hsum : IsInt64 ns.sum) :
    ∃ n ∈ ns, IsInt64 (ns.sum - n) := by
  have hbounds : int64Min = -int64Max - 1 ∧ 0 ≤ int64Max := by decide
  by_cases hsign : 0 ≤ ns.sum
  · obtain ⟨n, hn, hpos⟩ : ∃ n ∈ ns, 0 ≤ n :=
      List.exists_le_of_sum_le hne (fun _ => 0) id (by simpa using hsign)
    have hn64 := hns n hn
    refine ⟨n, hn, ?_⟩
    unfold IsInt64 at *
    omega
  · obtain ⟨n, hn, hneg⟩ : ∃ n ∈ ns, n < 0 := List.exists_lt_of_sum_lt _ _ (by simpa using hsign)
    have hn64 := hns n hn
    refine ⟨n, hn, ?_⟩
    unfold IsInt64 at *
    omega

/-- **Some order leads to a representable sum.** -/
theorem exists_perm_runsWithin {α : Type} {number? : α → Option ℤ} {l : List α}
    (hl : ∀ n ∈ l.filterMap number?, IsInt64 n) (hsum : IsInt64 (l.filterMap number?).sum) :
    ∃ l' : List α, l'.Perm l ∧ RunsWithin (l'.filterMap number?) := by
  -- The last integer is chosen first, so that the sum of the others is representable, too.
  induction hlength : l.length generalizing l with
  | zero =>
    obtain rfl := List.length_eq_zero_iff.mp hlength
    exact ⟨[], List.Perm.refl [], runsWithin_nil⟩
  | succ k ih =>
    by_cases hnone : l.filterMap number? = []
    · exact ⟨l, List.Perm.refl l, hnone ▸ runsWithin_nil⟩
    obtain ⟨n, hn, hrest⟩ := exists_last hl hnone hsum
    obtain ⟨a, ha, hnumber⟩ := List.mem_filterMap.mp hn
    obtain ⟨before, after, rfl⟩ := List.append_of_mem ha
    have hothers : ((before ++ after).filterMap number?).sum =
        ((before ++ a :: after).filterMap number?).sum - n := by
      simp only [List.filterMap_append, List.filterMap_cons_some hnumber, List.sum_append, List.sum_cons]
      omega
    have hmem : ∀ m ∈ (before ++ after).filterMap number?, IsInt64 m := by
      intro m hm
      apply hl
      simp only [List.filterMap_append, List.filterMap_cons_some hnumber, List.mem_append, List.mem_cons] at hm ⊢
      tauto
    obtain ⟨l', hperm, hrun⟩ := ih hmem (hothers ▸ hrest) (by simp at hlength ⊢; omega)
    have hconcat : (l' ++ [a]).filterMap number? = l'.filterMap number? ++ [n] := by
      simp [hnumber]
    refine ⟨l' ++ [a], ?_, ?_⟩
    · calc
        (l' ++ [a]).Perm (before ++ after ++ [a]) := hperm.append_right [a]
        (before ++ after ++ [a]).Perm (a :: (before ++ after)) := List.perm_append_singleton a (before ++ after)
        (a :: (before ++ after)).Perm (before ++ a :: after) := List.perm_middle.symm
    · rw [hconcat, runsWithin_concat, (hperm.filterMap number?).sum_eq, hothers, Int.sub_add_cancel]
      exact ⟨hrun, hsum⟩

end Column

/-! ## Integers of records -/

/-- The signed 64-bit integers that records have in a field. -/
def Record.intsOf (records : List Record) (field : String) : List ℤ :=
  (valuesOf records field).filterMap Value.asInt64?

theorem Record.intsOf_eq_filterMap (records : List Record) (field : String) :
    intsOf records field = records.filterMap fun r => (Record.value r field).asInt64? := by
  rw [intsOf, valuesOf, List.filterMap_filter, List.filterMap_map]
  refine List.filterMap_congr ?_
  intro r _
  cases hvalue : Record.value r field <;> simp [hvalue, Value.isNull, Value.asInt64?]

/-- Fields that are declared to hold integers hold signed 64-bit integers, or nothing. -/
def EntitySchema.HoldsInts (schema : EntitySchema) (records : List Record) : Prop :=
  ∀ r ∈ records, ∀ field, schema.fieldType? field = some (.scalar .int) →
    (FieldType.scalar .int).conforms (Record.value r field) = true ∧ (Record.value r field).WellFormed

namespace EntitySchema.HoldsInts

variable {schema : EntitySchema} {records : List Record} {field : String}

theorem mono (h : schema.HoldsInts records) {some : List Record} (hsome : ∀ r ∈ some, r ∈ records) :
    schema.HoldsInts some := fun r hr => h r (hsome r hr)

/-- A field of integers holds nothing, or an integer. -/
theorem null_or_int (h : schema.HoldsInts records) (htype : schema.fieldType? field = some (.scalar .int)) {r : Record}
    (hr : r ∈ records) :
    Record.value r field = .null ∨
      ∃ n, Record.value r field = .int n ∧ (Record.value r field).asInt64? = some n ∧ IsInt64 n := by
  obtain ⟨hconforms, hwell⟩ := h r hr field htype
  cases hvalue : Record.value r field with
  | null => exact .inl rfl
  | int n =>
    rw [hvalue] at hconforms hwell
    have hle : n ≤ int64Max := by
      simpa [FieldType.conforms, ScalarType.conforms, Value.isNull, Value.asInt64?] using hconforms
    exact .inr ⟨n, rfl, by simp [Value.asInt64?, hle], hwell.1, hle⟩
  | bool | float | string | array | object =>
    simp [hvalue, FieldType.conforms, ScalarType.conforms, Value.isNull, Value.asInt64?] at hconforms

/-- The values of a field of integers are its integers. -/
theorem valuesOf_eq (h : schema.HoldsInts records) (htype : schema.fieldType? field = some (.scalar .int)) :
    Record.valuesOf records field = (Record.intsOf records field).map Value.int := by
  rw [Record.intsOf, List.map_filterMap]
  calc
    Record.valuesOf records field = (Record.valuesOf records field).filterMap some := List.filterMap_some.symm
    _ = (Record.valuesOf records field).filterMap fun v => v.asInt64?.map Value.int := by
      refine List.filterMap_congr ?_
      intro v hv
      rw [Record.valuesOf, List.mem_filter, List.mem_map] at hv
      obtain ⟨⟨r, hr, rfl⟩, hvalue⟩ := hv
      rcases h.null_or_int htype hr with hnull | ⟨n, hint, hnumber, -⟩
      · simp [hnull, Value.isNull] at hvalue
      · rw [hnumber, hint, Option.map_some]

theorem isInt64 (h : schema.HoldsInts records) (htype : schema.fieldType? field = some (.scalar .int)) :
    ∀ n ∈ Record.intsOf records field, IsInt64 n := by
  intro n hn
  rw [Record.intsOf_eq_filterMap] at hn
  obtain ⟨r, hr, hnumber⟩ := List.mem_filterMap.mp hn
  rcases h.null_or_int htype hr with hnull | ⟨m, -, hm, h64⟩
  · simp [hnull, Value.asInt64?] at hnumber
  · rwa [← Option.some.inj (hm.symm.trans hnumber)]

end EntitySchema.HoldsInts

/-! ## Sums that grouped queries show -/

/-- An aggregation that sums a field of integers. -/
structure Aggregation.SumsInts (a : Aggregation) (schema : EntitySchema) (field : String) : Prop where
  /-- The function is the sum. -/
  function : AggregateFunction.parse? a.function = some .sum
  /-- It sums the field. -/
  named : a.field? = some field
  /-- The field is declared to hold integers. -/
  type : schema.fieldType? field = some (.scalar .int)

namespace Column

variable {schema : EntitySchema} {a : Aggregation} {c : Column} {field : String} {members : List Record} {v : Value}

/-- A column that sums integers has a value if and only if they run within the signed 64-bit integers, and the value is
their sum. -/
theorem compute_eq_ok_iff (hresolve : resolve schema a = .ok c) (ha : a.SumsInts schema field) :
    c.compute members = .ok v ↔
      RunsWithin (Record.intsOf members field) ∧ v = .int (Record.intsOf members field).sum := by
  obtain ⟨hfunction, hnamed⟩ := resolve_names hresolve
  obtain ⟨-, hdeclared⟩ := resolve_eq_ok hresolve
  have hsum : c.function = .sum := Option.some.inj (hfunction.symm.trans ha.function)
  have hfield : c.field = some (field, .scalar .int) := by
    have hname : c.field.map Prod.fst = some field := hnamed.symm.trans ha.named
    rcases hdeclared with ⟨-, hnone⟩ | ⟨name, t, hsome, ht, -⟩
    · simp [hnone] at hname
    · obtain rfl : name = field := by simpa [hsome] using hname
      rw [hsome, Option.some.inj (ht.symm.trans ha.type)]
  have hvalues : (c.values members).filterMap Value.asInt64? = Record.intsOf members field := by
    rw [values_eq_valuesOf hfield, Record.intsOf]
  simp only [compute, hsum, sum, hfield, hvalues]
  cases htotal : sumInts? (Record.intsOf members field) with
  | none => simp [sumInts?_eq_none_iff.mp htotal]
  | some n =>
    obtain ⟨hrun, rfl⟩ := sumInts?_eq_some_iff.mp htotal
    simp [hrun, eq_comm]

end Column

/-! ## Sums of groups -/

namespace Group

variable {schema : EntitySchema} {aggregations : List Aggregation} {columns : List Column} {fields : List String}
  {records : List Record} {row : Record} {field : String}

/-- The row of a key text shows the sums of the integers of its records. -/
def ShowsSums (schema : EntitySchema) (aggregations : List Aggregation) (fields : List String) (records : List Record)
    (text : String) (row : Record) : Prop :=
  ∀ a ∈ aggregations, ∀ field, a.SumsInts schema field →
    Column.RunsWithin (Record.intsOf (membersWith fields records text) field) ∧
      Dict.get? row a.outputName = some (.int (Record.intsOf (membersWith fields records text) field).sum)

/-- The row of a group shows the sums of the integers of its members. -/
theorem showsSums_row {g : Group} (hg : g ∈ ofRecords fields records)
    (hcolumns : aggregations.mapM (Column.resolve schema) = .ok columns) (hrow : g.row fields columns = .ok row)
    (hnodup : (columns.map Column.output).Nodup) : ShowsSums schema aggregations fields records g.text row := by
  intro a ha field hsums
  obtain ⟨c, hc, hresolve⟩ := Outcome.exists_of_mem_mapM hcolumns ha
  obtain ⟨v, hv, hget⟩ := (get?_foldlM_insert hrow hnodup).2 c hc
  rw [(partition_ofRecords fields records).members g hg] at hv
  obtain ⟨hrun, rfl⟩ := (Column.compute_eq_ok_iff hresolve hsums).mp hv
  rw [(Column.resolve_eq_ok hresolve).1] at hget
  exact ⟨hrun, hget⟩

/-- The rows of groups show the sums of the integers of their members. -/
theorem forall₂_showsSums {all : List Record}
    (hall : (ofRecords fields records).mapM (Group.row fields columns) = .ok all)
    (hcolumns : aggregations.mapM (Column.resolve schema) = .ok columns) (hnodup : (columns.map Column.output).Nodup) :
    List.Forall₂ (ShowsSums schema aggregations fields records) (keyTexts fields records) all := by
  have hrows := Outcome.mapM_eq_ok_iff.mp hall
  rw [← map_text_ofRecords, List.forall₂_map_left_iff]
  rw [List.forall₂_iff_zip] at hrows ⊢
  refine ⟨hrows.1, ?_⟩
  intro g row hpair
  exact showsSums_row (List.of_mem_zip hpair).1 hcolumns (hrows.2 hpair) hnodup

/-! ## Orders of the records -/

/-- The records with one key text can be put into any order without touching those with other key texts. -/
theorem exists_perm_membersWith {text : String} {members : List Record}
    (hperm : members.Perm (membersWith fields records text)) :
    ∃ records' : List Record, records'.Perm records ∧ membersWith fields records' text = members ∧
      ∀ other ≠ text, membersWith fields records' other = membersWith fields records other := by
  have htext : ∀ r ∈ members, keyText (keyOf fields r) = text := by
    intro r hr
    have hmem := hperm.subset hr
    rw [membersWith, List.mem_filter, beq_iff_eq] at hmem
    exact hmem.2
  refine ⟨members ++ records.filter fun r => !(keyText (keyOf fields r) == text), ?_, ?_, ?_⟩
  · exact (hperm.append_right _).trans (List.filter_append_perm _ records)
  · have hall : membersWith fields members text = members := by
      refine List.filter_eq_self.mpr ?_
      intro r hr
      simp [htext r hr]
    have hnone : membersWith fields (records.filter fun r => !(keyText (keyOf fields r) == text)) text = [] := by
      simp [membersWith]
    rw [membersWith, List.filter_append]
    simp only [membersWith] at hall hnone
    rw [hall, hnone, List.append_nil]
  · intro other hother
    have hnone : membersWith fields members other = [] := by
      refine List.filter_eq_nil_iff.mpr ?_
      intro r hr
      simp [htext r hr, Ne.symm hother]
    have hall : membersWith fields (records.filter fun r => !(keyText (keyOf fields r) == text)) other =
        membersWith fields records other := by
      simp only [membersWith, List.filter_filter]
      refine List.filter_congr ?_
      intro r _
      by_cases hr : keyText (keyOf fields r) = other <;> simp [hr, hother]
    rw [membersWith, List.filter_append]
    simp only [membersWith] at hall hnone
    rw [hall, hnone, List.nil_append, membersWith]

/-- Sums do not depend on the order of the records. -/
theorem sum_intsOf_perm {records' : List Record} (h : records'.Perm records) (text : String) :
    (Record.intsOf (membersWith fields records' text) field).sum =
      (Record.intsOf (membersWith fields records text) field).sum := by
  rw [Record.intsOf_eq_filterMap, Record.intsOf_eq_filterMap]
  exact ((h.filter _).filterMap _).sum_eq

/-- If all groups have representable sums, then some order of the records leads to all of them. -/
theorem exists_perm_runsWithin (hrecords : schema.HoldsInts records)
    (htype : schema.fieldType? field = some (.scalar .int)) {texts : List String}
    (hsum : ∀ text ∈ texts, IsInt64 (Record.intsOf (membersWith fields records text) field).sum) :
    ∃ records' : List Record, records'.Perm records ∧
      ∀ text ∈ texts, Column.RunsWithin (Record.intsOf (membersWith fields records' text) field) := by
  -- One group after the other is put into order.
  induction texts with
  | nil => exact ⟨records, List.Perm.refl records, by simp⟩
  | cons text rest ih =>
    obtain ⟨between, hbetween, hrest⟩ := ih fun other hother => hsum other (List.mem_cons_of_mem text hother)
    have hints : schema.HoldsInts (membersWith fields between text) := by
      refine hrecords.mono ?_
      intro r hr
      exact hbetween.subset (List.mem_of_mem_filter hr)
    have htotal : IsInt64 (Record.intsOf (membersWith fields between text) field).sum := by
      rw [sum_intsOf_perm hbetween]
      exact hsum text (List.mem_cons_self ..)
    have hnumbers := hints.isInt64 htype
    rw [Record.intsOf_eq_filterMap] at htotal hnumbers
    obtain ⟨members, hmembers, hrun⟩ := Column.exists_perm_runsWithin hnumbers htotal
    obtain ⟨records', hperm, htext, hothers⟩ := exists_perm_membersWith hmembers
    refine ⟨records', hperm.trans hbetween, ?_⟩
    intro other hother
    by_cases hsame : other = text
    · rw [hsame, htext, Record.intsOf_eq_filterMap]
      exact hrun
    · rw [hothers other hsame]
      exact hrest other ((List.mem_cons.mp hother).resolve_left hsame)

end Group

namespace Query

variable {q : Query} {g : Grouping} {schema : EntitySchema} {records rows : List Record} {keys : List SortKey}
  {field : String}

/-- The integers of a group leave the signed 64-bit integers on the way to a sum that the query asks for. -/
def LeavesInt64 (q : Query) (g : Grouping) (schema : EntitySchema) (records : List Record) (field : String) : Prop :=
  ∃ text ∈ Group.keyTexts g.fields records, ∃ a ∈ q.aggregations, a.SumsInts schema field ∧
    ¬Column.RunsWithin (Record.intsOf (Group.membersWith g.fields records text) field)

/-! ## Overflows -/

/-- Nothing in a filter tree overflows. -/
theorem fault_ne_sumOverflow {c : Columns} {condition : Condition} {e : QueryError} (h : condition.Fault c e) :
    e ≠ .invalidOperation (.sumOverflow field) := by
  rcases h.of_leaf_or_logic with ⟨l, -, hl⟩ | ⟨symbol, rfl⟩
  · cases hl <;> simp
  · simp

/-- A column of a group only overflows if its integers leave the signed 64-bit integers. -/
theorem leavesInt64_of_compute {group : Group} (hgroup : group ∈ Group.ofRecords g.fields records) {a : Aggregation}
    (ha : a ∈ q.aggregations) {c : Column} (hresolve : Column.resolve schema a = .ok c)
    (h : c.compute group.members = .error (.invalidOperation (.sumOverflow field))) :
    q.LeavesInt64 g schema records field := by
  obtain ⟨_, hoverflows, heq⟩ := Column.failsOnly_compute hresolve group.members _ h
  cases heq
  have hsums : a.SumsInts schema field := ⟨hoverflows.function, hoverflows.named, hoverflows.type⟩
  have hmembers := (Group.partition_ofRecords g.fields records).members group hgroup
  have htext : group.text ∈ Group.keyTexts g.fields records := by
    rw [← Group.map_text_ofRecords]
    exact List.mem_map_of_mem hgroup
  refine ⟨group.text, htext, a, ha, hsums, ?_⟩
  intro hrun
  have hcompute : c.compute group.members = .ok (.int (Record.intsOf group.members field).sum) :=
    (Column.compute_eq_ok_iff hresolve hsums).mpr ⟨hmembers ▸ hrun, rfl⟩
  rw [h] at hcompute
  cases hcompute

/-- **A grouped query only overflows if the integers of a group do on the way to their sum.** -/
theorem leavesInt64_of_groupRows (hgrouping : q.groupBy = some g)
    (h : q.groupRows schema records = .error (.invalidOperation (.sumOverflow field))) :
    q.LeavesInt64 g schema records field := by
  suffices hfails : Outcome.FailsOnly
      (fun e => e = .invalidOperation (.sumOverflow field) → q.LeavesInt64 g schema records field)
      (q.groupRows schema records) from hfails _ h rfl
  simp only [groupRows, hgrouping]
  have htypes : Outcome.FailsOnly
      (fun e => e = .invalidOperation (.sumOverflow field) → q.LeavesInt64 g schema records field)
      (groupFieldTypes schema g.fields) := by
    refine .mapM fun f _ => ?_
    split <;> simp
  refine htypes.bind fun fieldTypes _ => ?_
  refine (Outcome.FailsOnly.mapM fun a _ => (Column.failsOnly_resolve schema a).mono ?_).bind fun columns hcolumns => ?_
  · rintro e hfault rfl
    cases hfault
  refine Outcome.FailsOnly.bind ((Columns.failsOnly_compileAll _ _).mono ?_) fun having _ => ?_
  · rintro e ⟨condition, _, hfault⟩ heq
    exact absurd heq (fault_ne_sumOverflow hfault)
  refine Outcome.FailsOnly.bind (Group.failsOnly_rows (fun group hgroup c hc => ?_) _ _) fun rows _ => ?_
  · obtain ⟨a, ha, hresolve⟩ := Outcome.exists_mem_of_mapM hcolumns hc
    rintro e hcompute rfl
    exact leavesInt64_of_compute hgroup ha hresolve hcompute
  refine Outcome.FailsOnly.bind ?_ fun keys _ => .ok _
  refine (Outcome.FailsOnly.mapM fun item _ => ?_).bind fun keys _ => .ok _
  rw [groupKey]
  split
  · refine Outcome.FailsOnly.bind ?_ fun _ _ => .ok _
    rw [SortItem.directionOf]
    split <;> simp
  · simp

/-! ## Sums that are shown -/

/-- What the sums of integers of a grouped query are. -/
structure ExactSums (q : Query) (g : Grouping) (schema : EntitySchema) (records : List Record) : Prop where
  /-- The integers of a group are all of its values. -/
  values : ∀ field, schema.fieldType? field = some (.scalar .int) → ∀ text,
    Record.valuesOf (Group.membersWith g.fields records text) field =
      (Record.intsOf (Group.membersWith g.fields records text) field).map Value.int
  /-- An answer shows the sums, and on the way to them no sum leaves the signed 64-bit integers. -/
  shown : ∀ rows keys, q.groupRows schema records = .ok (rows, keys) →
    ∃ all, ∃ having : Predicate, rows = all.filter having.holds ∧
      List.Forall₂ (Group.ShowsSums schema q.aggregations g.fields records) (Group.keyTexts g.fields records) all
  /-- The query only overflows if a sum on the way leaves them. -/
  overflow : ∀ field, q.groupRows schema records = .error (.invalidOperation (.sumOverflow field)) →
    q.LeavesInt64 g schema records field
  /-- If the integers of a group do not differ in sign, that is whether their sum leaves them. -/
  same_sign : ∀ field text,
    (∀ n ∈ Record.intsOf (Group.membersWith g.fields records text) field, 0 ≤ n) ∨
      (∀ n ∈ Record.intsOf (Group.membersWith g.fields records text) field, n ≤ 0) →
    (Column.RunsWithin (Record.intsOf (Group.membersWith g.fields records text) field) ↔
      IsInt64 (Record.intsOf (Group.membersWith g.fields records text) field).sum)
  /-- If the sums of all groups are signed 64-bit integers, there is an order of the records in which the query does not
  overflow. -/
  reordered : ∀ field, schema.fieldType? field = some (.scalar .int) →
    (∀ text, IsInt64 (Record.intsOf (Group.membersWith g.fields records text) field).sum) →
    ∃ records' : List Record, records'.Perm records ∧
      q.groupRows schema records' ≠ .error (.invalidOperation (.sumOverflow field))

/-- Rows of an answer show sums. -/
theorem forall₂_showsSums_of_groupRows (hgrouping : q.groupBy = some g) (hnodup : q.outputNames.Nodup)
    (h : q.groupRows schema records = .ok (rows, keys)) :
    ∃ all, ∃ having : Predicate, rows = all.filter having.holds ∧
      List.Forall₂ (Group.ShowsSums schema q.aggregations g.fields records) (Group.keyTexts g.fields records) all := by
  simp only [groupRows, hgrouping] at h
  obtain ⟨fieldTypes, -, h⟩ := Outcome.bind_eq_ok_iff.mp h
  obtain ⟨columns, hcolumns, h⟩ := Outcome.bind_eq_ok_iff.mp h
  obtain ⟨having, -, h⟩ := Outcome.bind_eq_ok_iff.mp h
  obtain ⟨passing, hpassing, h⟩ := Outcome.bind_eq_ok_iff.mp h
  obtain ⟨requested, -, h⟩ := Outcome.bind_eq_ok_iff.mp h
  obtain ⟨rfl, -⟩ := Prod.mk.inj (Except.ok.inj h)
  obtain ⟨all, hall, rfl⟩ := Group.rows_eq_ok_iff.mp hpassing
  rw [outputNames, ← Column.outputs_of_resolve hcolumns] at hnodup
  exact ⟨all, having, rfl, Group.forall₂_showsSums hall hcolumns hnodup⟩

/-- **The sums of a grouped query are exact.** It fails for an overflow if a sum on the way to one of them leaves the
signed 64-bit integers, which depends on the order of the records. -/
theorem groupRows_exactSums (hgrouping : q.groupBy = some g) (hnodup : q.outputNames.Nodup)
    (hrecords : schema.HoldsInts records) : q.ExactSums g schema records where
  values field htype text := (hrecords.mono fun _ => List.mem_of_mem_filter).valuesOf_eq htype
  shown _ _ := forall₂_showsSums_of_groupRows hgrouping hnodup
  overflow _ := leavesInt64_of_groupRows hgrouping
  same_sign _ _ hsign := ⟨Column.RunsWithin.isInt64_sum, Column.runsWithin_of_same_sign hsign⟩
  reordered field htype hsum := by
    have hsums : ∀ text ∈ Group.keyTexts g.fields records,
        IsInt64 (Record.intsOf (Group.membersWith g.fields records text) field).sum := fun text _ => hsum text
    obtain ⟨records', hperm, hrun⟩ := Group.exists_perm_runsWithin hrecords htype hsums
    refine ⟨records', hperm, ?_⟩
    intro hfailed
    obtain ⟨text, htext, _, -, -, hleaves⟩ := leavesInt64_of_groupRows hgrouping hfailed
    refine hleaves (hrun text ?_)
    rw [Group.keyTexts, List.mem_eraseDups] at htext ⊢
    exact (hperm.map _).subset htext

/-! ## Entries -/

/-- Entries of accounts. -/
def entrySchema : EntitySchema where
  name := "Entry"
  fields := [("Account", .scalar .string), ("Amount", .scalar .int), ("Id", .scalar .int)]

/-- An entry of an account. -/
def entry (id : ℤ) (amount : Value) : Record := [("Account", .string "A"), ("Amount", amount), ("Id", .int id)]

/-- The sums of the amounts by account. -/
def entryQuery : Query where
  entity := "Entry"
  groupBy := some { fields := ["Account"] }
  aggregations := [{ function := "sum", field := some "Amount" }]

/-- Three entries have a representable sum, and the query overflows. It has an answer if the last two are exchanged. -/
theorem groupRows_exactSums_entries :
    entrySchema.HoldsInts [entry 1 (.int int64Max), entry 2 (.int 1), entry 3 (.int (-1))] ∧
    entryQuery.groupRows entrySchema [entry 1 (.int int64Max), entry 2 (.int 1), entry 3 (.int (-1))] =
      .error (.invalidOperation (.sumOverflow "Amount")) ∧
    IsInt64 (Record.intsOf [entry 1 (.int int64Max), entry 2 (.int 1), entry 3 (.int (-1))] "Amount").sum ∧
    entryQuery.groupRows entrySchema [entry 1 (.int int64Max), entry 3 (.int (-1)), entry 2 (.int 1)] =
      .ok ([[("Account", .string "A"), ("sum_Amount", .int int64Max)]], [{ field := "Account" }]) ∧
    entryQuery.ExactSums { fields := ["Account"] } entrySchema
      [entry 1 (.int int64Max), entry 2 (.int 1), entry 3 (.int (-1))] := by
  have hholds : entrySchema.HoldsInts [entry 1 (.int int64Max), entry 2 (.int 1), entry 3 (.int (-1))] := by
    intro r hr field htype
    have hfield : field = "Amount" ∨ field = "Id" := by
      have hdeclared := Dict.mem_of_get? htype
      simp only [entrySchema, List.mem_cons, Prod.mk.injEq] at hdeclared
      simpa using hdeclared
    simp only [List.mem_cons, List.not_mem_nil, or_false] at hr
    rcases hfield with rfl | rfl <;> rcases hr with rfl | rfl | rfl <;> decide +kernel
  exact ⟨hholds, by decide +kernel, by decide +kernel, by decide +kernel,
    groupRows_exactSums rfl (by decide +kernel) hholds⟩

end Query

end GuardedQuery
