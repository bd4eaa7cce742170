import GuardedQuery.Proofs.ColumnOrder
import GuardedQuery.Proofs.FilterMeaning
import GuardedQuery.Proofs.Groups

/-!
# Grouping is filtering by key

Records are put into groups one after the other, and groups are found again by the texts of their keys. What comes
out is what filtering for one key text after the other gives: the key texts in the order in which they first appear,
one row for each of them, and in the row what its columns say of the records with that text. Conditions on groups
leave some of these rows out.

## Main definitions

* `Group.keyTexts`, `Group.membersWith`: the key texts of records, and the records with a key text.
* `Value.Least`, `Value.Greatest`: least and greatest values of a list, which may be empty.
* `Aggregation.Describes`: the values that an aggregation may have for records.
* `Group.Summarizes`: the row of a key text.

## Main statements

* `Group.map_text_ofRecords`: groups are in the order in which their key texts first appear.
* `Column.describes_compute`: a column has a value that its aggregation may have.
* `Query.groupRows_summarize`: a grouped query has the rows of all key texts that meet its conditions.
-/

namespace GuardedQuery

/-! ## Least and greatest values -/

namespace Value

/-- The values are ordered: what does not come after something that does not come after a third does not come after
it. -/
def OrderedBy (compare : Value → Value → Ordering) (vs : List Value) : Prop :=
  ∀ x ∈ vs, ∀ y ∈ vs, ∀ z ∈ vs, compare x y ≠ .gt → compare y z ≠ .gt → compare x z ≠ .gt

/-- A least value of a list: one of the values, and if the values are ordered, not greater than any of them. There is
none of an empty list. -/
structure Least (compare : Value → Value → Ordering) (vs : List Value) (v : Value) : Prop where
  /-- The value of an empty list. -/
  null : vs = [] → v = .null
  /-- It is one of the values. -/
  mem : vs ≠ [] → v ∈ vs
  /-- It is not greater than any of the values. -/
  le : OrderedBy compare vs → ∀ w ∈ vs, compare v w ≠ .gt

/-- A greatest value of a list: one of the values, and if the values are ordered, not less than any of them. There is
none of an empty list. -/
structure Greatest (compare : Value → Value → Ordering) (vs : List Value) (v : Value) : Prop where
  /-- The value of an empty list. -/
  null : vs = [] → v = .null
  /-- It is one of the values. -/
  mem : vs ≠ [] → v ∈ vs
  /-- It is not less than any of the values. -/
  ge : OrderedBy compare vs → ∀ w ∈ vs, compare v w ≠ .lt

end Value

namespace Column

variable {compare : Value → Value → Ordering}

/-- What is picked out of a list by picking from two values again and again is related to all of them. -/
theorem foldl_pick {R : Value → Value → Prop} {pick : Value → Value → Value} {S : List Value}
    (htrans : ∀ x ∈ S, ∀ y ∈ S, ∀ z ∈ S, R x y → R y z → R x z) (hrefl : ∀ x, R x x)
    (hpick : ∀ x y, (pick x y = x ∧ R x y) ∨ (pick x y = y ∧ R y x)) {m : Value} {vs : List Value} (hm : m ∈ S)
    (hvs : ∀ x ∈ vs, x ∈ S) : vs.foldl pick m ∈ S ∧ ∀ w ∈ m :: vs, R (vs.foldl pick m) w := by
  induction vs generalizing m with
  | nil =>
    refine ⟨hm, ?_⟩
    intro w hw
    obtain rfl := List.mem_singleton.mp hw
    exact hrefl w
  | cons x rest ih =>
    have hx : x ∈ S := hvs x (List.mem_cons_self ..)
    have hpicked : pick m x ∈ S ∧ R (pick m x) m ∧ R (pick m x) x := by
      rcases hpick m x with ⟨heq, hrelated⟩ | ⟨heq, hrelated⟩
      · rw [heq]
        exact ⟨hm, hrefl m, hrelated⟩
      · rw [heq]
        exact ⟨hx, hrelated, hrefl x⟩
    obtain ⟨hpickedMem, hleft, hright⟩ := hpicked
    obtain ⟨hmem, hrest⟩ := ih hpickedMem fun y hy => hvs y (List.mem_cons_of_mem x hy)
    have hlast := hrest _ (List.mem_cons_self ..)
    refine ⟨hmem, ?_⟩
    intro w hw
    rcases List.mem_cons.mp hw with rfl | hw
    · exact htrans _ hmem _ hpickedMem _ hm hlast hleft
    · rcases List.mem_cons.mp hw with rfl | hw
      · exact htrans _ hmem _ hpickedMem _ hx hlast hright
      · exact hrest w (List.mem_cons_of_mem _ hw)

variable [Std.OrientedCmp compare]

theorem compare_self_ne_gt (x : Value) : compare x x ≠ .gt := by
  have hself : compare x x = .eq := Std.ReflCmp.compare_self
  rw [hself]
  decide

theorem compare_ne_gt_of_gt {x y : Value} (h : compare x y = .gt) : compare y x ≠ .gt := by
  have hswap : compare y x = (compare x y).swap := Std.OrientedCmp.eq_swap
  rw [hswap, h]
  decide

/-- The first of the least values is a least value. -/
theorem least_least? (vs : List Value) : Value.Least compare vs (.ofOption (least? compare vs)) := by
  cases vs with
  | nil => exact ⟨fun _ => rfl, fun h => absurd rfl h, fun _ w hw => nomatch hw⟩
  | cons v rest =>
    have hpick : ∀ x y, ((if compare x y == .gt then y else x) = x ∧ compare x y ≠ .gt) ∨
        ((if compare x y == .gt then y else x) = y ∧ compare y x ≠ .gt) := by
      intro x y
      by_cases hgt : compare x y = .gt
      · exact .inr ⟨by simp [hgt], compare_ne_gt_of_gt hgt⟩
      · exact .inl ⟨by simp [hgt], hgt⟩
    refine ⟨nofun, fun _ => mem_of_least? rfl, ?_⟩
    intro hordered
    exact (foldl_pick (R := fun x y => compare x y ≠ .gt) hordered compare_self_ne_gt hpick (List.mem_cons_self ..)
      fun x hx => List.mem_cons_of_mem v hx).2

/-- The last of the greatest values is a greatest value. -/
theorem greatest_greatest? (vs : List Value) : Value.Greatest compare vs (.ofOption (greatest? compare vs)) := by
  cases vs with
  | nil => exact ⟨fun _ => rfl, fun h => absurd rfl h, fun _ w hw => nomatch hw⟩
  | cons v rest =>
    have hpick : ∀ x y, ((if compare x y == .gt then x else y) = x ∧ compare y x ≠ .gt) ∨
        ((if compare x y == .gt then x else y) = y ∧ compare x y ≠ .gt) := by
      intro x y
      by_cases hgt : compare x y = .gt
      · exact .inl ⟨by simp [hgt], compare_ne_gt_of_gt hgt⟩
      · exact .inr ⟨by simp [hgt], hgt⟩
    refine ⟨nofun, fun _ => mem_of_greatest? rfl, ?_⟩
    intro hordered w hw hless
    have hreversed : ∀ x ∈ v :: rest, ∀ y ∈ v :: rest, ∀ z ∈ v :: rest,
        compare y x ≠ .gt → compare z y ≠ .gt → compare z x ≠ .gt := by
      intro x hx y hy z hz hyx hzy
      exact hordered z hz y hy x hx hzy hyx
    have hge := (foldl_pick (R := fun x y => compare y x ≠ .gt) hreversed compare_self_ne_gt hpick
      (List.mem_cons_self ..) fun x hx => List.mem_cons_of_mem v hx).2 w hw
    have hswap : compare w (.ofOption (greatest? compare (v :: rest))) = .gt := by
      rw [Std.OrientedCmp.gt_iff_lt, hless]
    exact hge hswap

end Column

/-! ## Key texts -/

namespace Group

variable {fields : List String} {records : List Record}

/-- The texts of the keys of records, in the order in which they first appear. -/
def keyTexts (fields : List String) (records : List Record) : List String :=
  (records.map fun r => keyText (keyOf fields r)).eraseDups

/-- The records whose keys have a text. -/
def membersWith (fields : List String) (records : List Record) (text : String) : List Record :=
  records.filter fun r => keyText (keyOf fields r) == text

/-- Adding a record adds the text of its key, unless there is a group with it. -/
theorem map_text_add (key : List Value) (record : Record) (groups : List Group) :
    (add key record groups).map text =
      if keyText key ∈ groups.map text then groups.map text else groups.map text ++ [keyText key] := by
  rcases add_eq key record groups with ⟨before, g, after, rfl, htext, hadded⟩ | ⟨hnew, hadded⟩
  · have hmem : keyText key ∈ (before ++ g :: after).map text := by
      rw [← htext]
      exact List.mem_map_of_mem (by simp)
    rw [hadded, if_pos hmem, List.map_append, List.map_append]
    rfl
  · rw [hadded, if_neg hnew, List.map_append]
    rfl

/-- One more text is new, or has been seen before. -/
theorem eraseDups_concat (texts : List String) (text : String) :
    (texts ++ [text]).eraseDups = if text ∈ texts then texts.eraseDups else texts.eraseDups ++ [text] := by
  rw [List.eraseDups_append]
  by_cases hmem : text ∈ texts
  · simp [List.removeAll, hmem]
  · simp [List.removeAll, hmem, List.eraseDups_cons]

/-- **Groups are in the order in which their key texts first appear.** -/
theorem map_text_ofRecords (fields : List String) (records : List Record) :
    (ofRecords fields records).map text = keyTexts fields records := by
  induction records using List.reverseRecOn with
  | nil => rfl
  | append_singleton records r ih =>
    have hadd : ofRecords fields (records ++ [r]) = add (keyOf fields r) r (ofRecords fields records) := by
      rw [ofRecords, ofRecords, List.foldl_append]
      rfl
    rw [hadd, map_text_add, ih, keyTexts, keyTexts, List.map_append, List.map_singleton, eraseDups_concat]
    simp only [List.mem_eraseDups]

/-- Every record has one key text. -/
theorem sum_length_membersWith (fields : List String) (records : List Record) :
    ((keyTexts fields records).map fun text => (membersWith fields records text).length).sum = records.length := by
  have hnodup : (keyTexts fields records).Nodup := by
    rw [← map_text_ofRecords]
    exact (partition_ofRecords fields records).distinct
  have hperm : (keyTexts fields records).Perm (records.map fun r => keyText (keyOf fields r)).dedup := by
    refine (List.perm_ext_iff_of_nodup hnodup (List.nodup_dedup _)).mpr ?_
    intro text
    rw [keyTexts, List.mem_eraseDups, List.mem_dedup]
  have hcount : ∀ text, (membersWith fields records text).length =
      (records.map fun r => keyText (keyOf fields r)).count text := by
    intro text
    rw [membersWith, List.count, List.countP_map, List.countP_eq_length_filter]
    rfl
  simp only [hcount]
  rw [(hperm.map _).sum_eq, List.sum_map_count_dedup_eq_length, List.length_map]

end Group

/-! ## Columns -/

/-- The values of a field in records, without nulls. -/
def Record.valuesOf (records : List Record) (field : String) : List Value :=
  (records.map (Record.value · field)).filter fun v => !v.isNull

/-- The field that an aggregation condenses. A blank one counts as none. -/
def Aggregation.field? (a : Aggregation) : Option String := a.field.filter fun f => !Text.isBlankText f

/-- The ascending order of a declared column. -/
def EntitySchema.columnOrder (s : EntitySchema) (field : String) : Value → Value → Ordering :=
  (SortKey.typed { field } (s.fieldType? field)).compare

instance (s : EntitySchema) (field : String) : Std.OrientedCmp (s.columnOrder field) :=
  inferInstanceAs (Std.OrientedCmp (SortKey.compare _))

/-- The values that an aggregation may have for records: numbers of records and of values, least values and greatest
values. -/
structure Aggregation.Describes (a : Aggregation) (schema : EntitySchema) (records : List Record) (v : Value) :
    Prop where
  /-- Without a field, records are counted. -/
  count_records : AggregateFunction.parse? a.function = some .count → a.field? = none → v = .ofNat records.length
  /-- With a field, its values are counted. -/
  count_values : ∀ field, AggregateFunction.parse? a.function = some .count → a.field? = some field →
    v = .ofNat (Record.valuesOf records field).length
  /-- The least value of a field. -/
  least : ∀ field, AggregateFunction.parse? a.function = some .min → a.field? = some field →
    Value.Least (schema.columnOrder field) (Record.valuesOf records field) v
  /-- The greatest value of a field. -/
  greatest : ∀ field, AggregateFunction.parse? a.function = some .max → a.field? = some field →
    Value.Greatest (schema.columnOrder field) (Record.valuesOf records field) v

namespace Column

variable {schema : EntitySchema} {a : Aggregation} {c : Column} {v : Value}

/-- The values that a column condenses are those of its field. -/
theorem values_eq_valuesOf {name : String} {t : FieldType} (hfield : c.field = some (name, t)) (records : List Record) :
    c.values records = Record.valuesOf records name := by
  rw [values, hfield, Record.valuesOf]
  induction records with
  | nil => rfl
  | cons r rest ih =>
    have hread := Predicate.actual?_eq r name
    cases hnull : (Record.value r name).isNull <;> simp_all

/-- The order of a column is that of its field. -/
theorem compare_eq_columnOrder {name : String} {t : FieldType} (hfield : c.field = some (name, t))
    (ht : schema.fieldType? name = some t) : c.compare = schema.columnOrder name := by
  funext x y
  simp [compare, hfield, EntitySchema.columnOrder, ht, SortKey.typed, SortKey.compare, SortKey.orient]

/-- **A column has a value that its aggregation may have.** -/
theorem describes_compute (hresolve : resolve schema a = .ok c) {records : List Record}
    (h : c.compute records = .ok v) : a.Describes schema records v := by
  obtain ⟨hfunction, hname⟩ := resolve_names hresolve
  obtain ⟨-, hdeclared⟩ := resolve_eq_ok hresolve
  have hof : ∀ function, AggregateFunction.parse? a.function = some function → c.function = function := by
    intro function hparse
    rw [hfunction] at hparse
    exact Option.some.inj hparse
  have hfield : ∀ field, a.field? = some field → ∃ t, c.field = some (field, t) ∧ schema.fieldType? field = some t := by
    intro field ha
    rw [Aggregation.field?, hname] at ha
    rcases hdeclared with ⟨-, hnone⟩ | ⟨name, t, hsome, ht, -⟩
    · simp [hnone] at ha
    · rw [hsome] at ha
      obtain rfl := Option.some.inj ha
      exact ⟨t, hsome, ht⟩
  rw [compute] at h
  refine ⟨?_, ?_, ?_, ?_⟩
  · intro hparse ha
    rw [Aggregation.field?, hname, Option.map_eq_none_iff] at ha
    rw [hof _ hparse, ha] at h
    exact (Except.ok.inj h).symm
  · intro field hparse ha
    obtain ⟨t, hsome, -⟩ := hfield field ha
    rw [hof _ hparse, values_eq_valuesOf hsome, hsome] at h
    exact (Except.ok.inj h).symm
  · intro field hparse ha
    obtain ⟨t, hsome, ht⟩ := hfield field ha
    rw [hof _ hparse, values_eq_valuesOf hsome, compare_eq_columnOrder hsome ht] at h
    obtain rfl := Except.ok.inj h
    exact least_least? _
  · intro field hparse ha
    obtain ⟨t, hsome, ht⟩ := hfield field ha
    rw [hof _ hparse, values_eq_valuesOf hsome, compare_eq_columnOrder hsome ht] at h
    obtain rfl := Except.ok.inj h
    exact greatest_greatest? _

end Column

/-! ## Rows -/

namespace Group

variable {fields : List String} {records : List Record} {schema : EntitySchema} {aggregations : List Aggregation}
  {columns : List Column} {row : Record}

/-- The row of a key text. -/
structure Summarizes (schema : EntitySchema) (aggregations : List Aggregation) (fields : List String)
    (records : List Record) (text : String) (row : Record) : Prop where
  /-- The row shows the key of a record with the text. -/
  keyed : ∃ r ∈ membersWith fields records text, ∀ f ∈ fields, Dict.get? row f = some (Record.value r f)
  /-- The names of the row are in order, and none comes twice. -/
  sorted : Dict.Sorted row
  /-- They are the group fields and the names of the columns. -/
  names : ∀ n, n ∈ Dict.names row ↔ n ∈ fields ∨ n ∈ aggregations.map Aggregation.outputName
  /-- Every column shows a value that its aggregation may have for the records with the text. -/
  described : ∀ a ∈ aggregations, ∃ v,
    Dict.get? row a.outputName = some v ∧ a.Describes schema (membersWith fields records text) v

/-- The row of a group is that of its key text. -/
theorem summarizes_row {g : Group} (hg : g ∈ ofRecords fields records)
    (hcolumns : aggregations.mapM (Column.resolve schema) = .ok columns)
    (hrow : g.row fields columns = .ok row) (hnodup : (columns.map Column.output).Nodup)
    (hother : ∀ f ∈ fields, f ∉ columns.map Column.output) :
    Summarizes schema aggregations fields records g.text row := by
  have hpartition := partition_ofRecords fields records
  obtain ⟨r, hr, hkey⟩ := hpartition.keyed g hg
  have hmembers : g.members = membersWith fields records g.text := hpartition.members g hg
  obtain ⟨hshown, hcomputed⟩ := get?_row hrow hkey hnodup hother
  obtain ⟨hkept, -⟩ := get?_foldlM_insert hrow hnodup
  have hpairs : (fields.zip g.key).map Prod.fst = fields := by
    refine List.map_fst_zip ?_
    rw [hkey, keyOf, List.length_map]
  have hstart : ∀ n, n ∈ Dict.names ((fields.zip g.key).foldl (fun row p => Dict.insert row p.1 p.2) []) ↔
      n ∈ fields := by
    intro n
    rw [Dict.mem_names_foldl_insert, hpairs]
    simp [Dict.names]
  refine ⟨⟨r, ?_, hshown⟩, ?_, ?_, ?_⟩
  · rw [membersWith, List.mem_filter, beq_iff_eq, text, hkey]
    exact ⟨hr, rfl⟩
  · refine Outcome.foldlM_invariant (P := Dict.Sorted) ?_ (Dict.sorted_foldl_insert _ List.Pairwise.nil) hrow
    intro c _ before after hbefore hstep
    obtain ⟨v, -, rfl⟩ := Outcome.map_eq_ok_iff.mp hstep
    exact Dict.sorted_insert hbefore c.output v
  · intro n
    rw [← Column.outputs_of_resolve hcolumns]
    by_cases hn : n ∈ columns.map Column.output
    · obtain ⟨c, hc, rfl⟩ := List.mem_map.mp hn
      obtain ⟨v, -, hget⟩ := hcomputed c hc
      refine iff_of_true ?_ (.inr hn)
      rw [← Dict.contains_iff, Dict.contains, hget]
      rfl
    · rw [← not_iff_not, ← Dict.get?_eq_none_iff, hkept n hn, Dict.get?_eq_none_iff, hstart n]
      simp [hn]
  · intro a ha
    obtain ⟨c, hc, hresolve⟩ := Outcome.exists_of_mem_mapM hcolumns ha
    obtain ⟨v, hv, hget⟩ := hcomputed c hc
    refine ⟨v, (Column.resolve_eq_ok hresolve).1 ▸ hget, ?_⟩
    rw [← hmembers]
    exact Column.describes_compute hresolve hv

/-- The rows of groups are those of the key texts, in their order. -/
theorem forall₂_summarizes {all : List Record}
    (hall : (ofRecords fields records).mapM (Group.row fields columns) = .ok all)
    (hcolumns : aggregations.mapM (Column.resolve schema) = .ok columns) (hnodup : (columns.map Column.output).Nodup)
    (hother : ∀ f ∈ fields, f ∉ columns.map Column.output) :
    List.Forall₂ (Summarizes schema aggregations fields records) (keyTexts fields records) all := by
  have hrows := Outcome.mapM_eq_ok_iff.mp hall
  rw [← map_text_ofRecords, List.forall₂_map_left_iff]
  rw [List.forall₂_iff_zip] at hrows ⊢
  refine ⟨hrows.1, ?_⟩
  intro g row hpair
  exact summarizes_row (List.of_mem_zip hpair).1 hcolumns (hrows.2 hpair) hnodup hother

end Group

namespace Query

variable {q : Query} {schema : EntitySchema} {records rows : List Record} {keys : List SortKey} {g : Grouping}

/-- The declared types of the columns of a grouped query. -/
structure GroupTypes (q : Query) (g : Grouping) (schema : EntitySchema) (types : Dict FieldType) : Prop where
  /-- A group field has the type that the schema declares. -/
  fields : ∀ f ∈ g.fields, Dict.get? types f = schema.fieldType? f
  /-- The column of an aggregation has the type of what is computed for it. -/
  columns : ∀ a ∈ q.aggregations, ∃ c, Column.resolve schema a = .ok c ∧ Dict.get? types a.outputName = some c.type

/-- The rows of a grouped query: of the rows of all key texts those that meet the conditions on groups. -/
structure GroupSummary (q : Query) (g : Grouping) (schema : EntitySchema) (records rows all : List Record)
    (types : Dict FieldType) (having : Predicate) : Prop where
  /-- Every key text has one row, in the order in which the key texts first appear. -/
  summarized : List.Forall₂ (Group.Summarizes schema q.aggregations g.fields records)
    (Group.keyTexts g.fields records) all
  /-- The columns of the rows have declared types. -/
  typed : q.GroupTypes g schema types
  /-- Under these types, the predicate holds of the rows that meet all conditions. -/
  met : ∀ row, having.holds row = true ↔ ∀ condition ∈ g.having, condition.MetBy types row
  /-- These rows are kept. -/
  kept : rows = all.filter having.holds
  /-- Without conditions, the numbers of records add up to the number of all records. -/
  total : g.having = [] → ∀ a ∈ q.aggregations, AggregateFunction.parse? a.function = some .count →
    a.field? = none → ∃ counts : List ℕ,
      rows.map (Record.value · a.outputName) = counts.map Value.ofNat ∧ counts.sum = records.length

/-- Group fields and columns of aggregations have types of their own. -/
theorem contains_ofList {fields : List String} {fieldTypes : List (String × FieldType)} {columns : List Column}
    (hfieldTypes : groupFieldTypes schema fields = .ok fieldTypes) {name : String}
    (hname : name ∈ fields ∨ name ∈ columns.map Column.output) :
    ∃ type, Dict.get? (Dict.ofList (fieldTypes ++ columns.map fun c => (c.output, c.type))) name = some type := by
  rw [← Option.isSome_iff_exists, ← Dict.contains, Dict.contains_iff, Dict.mem_names_ofList, List.map_append,
    List.mem_append]
  refine hname.imp ?_ ?_
  · intro hf
    obtain ⟨p, hp, hpair⟩ := Outcome.exists_of_mem_mapM hfieldTypes hf
    split at hpair
    · obtain rfl := Except.ok.inj hpair
      exact List.mem_map_of_mem hp
    · simp at hpair
  · simp

theorem groupTypes_ofList {fieldTypes : List (String × FieldType)} {columns : List Column}
    (hfieldTypes : groupFieldTypes schema g.fields = .ok fieldTypes)
    (hcolumns : q.aggregations.mapM (Column.resolve schema) = .ok columns) (hnodup : q.outputNames.Nodup)
    (hother : ∀ f ∈ g.fields, f ∉ q.outputNames) :
    q.GroupTypes g schema (Dict.ofList (fieldTypes ++ columns.map fun c => (c.output, c.type))) := by
  rw [outputNames, ← Column.outputs_of_resolve hcolumns] at hnodup hother
  constructor
  · intro f hf
    obtain ⟨type, htype⟩ := contains_ofList hfieldTypes (.inl hf)
    rcases declared_or_column hfieldTypes htype with ⟨-, hdeclared⟩ | ⟨c, hc, rfl, -⟩
    · rw [htype, hdeclared]
    · exact absurd (List.mem_map_of_mem hc) (hother _ hf)
  · intro a ha
    obtain ⟨c, hc, hresolve⟩ := Outcome.exists_of_mem_mapM hcolumns ha
    have houtput := (Column.resolve_eq_ok hresolve).1
    have hmem : c.output ∈ columns.map Column.output := List.mem_map_of_mem hc
    obtain ⟨type, htype⟩ := contains_ofList hfieldTypes (.inr hmem)
    refine ⟨c, hresolve, ?_⟩
    rw [← houtput, htype]
    rcases declared_or_column hfieldTypes htype with ⟨hfield, -⟩ | ⟨c', hc', hsame, rfl⟩
    · exact absurd hmem (hother _ hfield)
    · rw [List.inj_on_of_nodup_map hnodup hc' hc hsame]

/-- Rows that count the records of all key texts. -/
theorem exists_counts {aggregations : List Aggregation} {fields : List String} {all : List Record}
    (hall : List.Forall₂ (Group.Summarizes schema aggregations fields records) (Group.keyTexts fields records) all)
    {a : Aggregation} (ha : a ∈ aggregations) (hcount : AggregateFunction.parse? a.function = some .count)
    (hfield : a.field? = none) : ∃ counts : List ℕ,
      all.map (Record.value · a.outputName) = counts.map Value.ofNat ∧ counts.sum = records.length := by
  refine ⟨_, ?_, Group.sum_length_membersWith fields records⟩
  rw [List.map_map, ← List.forall₂_eq_eq_eq, List.forall₂_map_left_iff, List.forall₂_map_right_iff]
  refine hall.flip.imp ?_
  intro row text hrow
  obtain ⟨v, hget, hdescribed⟩ := hrow.described a ha
  rw [Record.value_of_get? hget]
  exact hdescribed.count_records hcount hfield

/-- **Grouping is filtering by key.** The rows of a grouped query are those of the distinct texts of the records'
keys, in the order in which the texts first appear, as far as they meet the conditions on groups. -/
theorem groupRows_summarize (hgrouping : q.groupBy = some g) (hnodup : q.outputNames.Nodup)
    (hother : ∀ f ∈ g.fields, f ∉ q.outputNames) (h : q.groupRows schema records = .ok (rows, keys)) :
    ∃ all types having, q.GroupSummary g schema records rows all types having := by
  simp only [groupRows, hgrouping] at h
  obtain ⟨fieldTypes, hfieldTypes, h⟩ := Outcome.bind_eq_ok_iff.mp h
  obtain ⟨columns, hcolumns, h⟩ := Outcome.bind_eq_ok_iff.mp h
  obtain ⟨having, hhaving, h⟩ := Outcome.bind_eq_ok_iff.mp h
  obtain ⟨passing, hpassing, h⟩ := Outcome.bind_eq_ok_iff.mp h
  obtain ⟨requested, -, h⟩ := Outcome.bind_eq_ok_iff.mp h
  obtain ⟨rfl, -⟩ := Prod.mk.inj (Except.ok.inj h)
  obtain ⟨all, hall, rfl⟩ := Group.rows_eq_ok_iff.mp hpassing
  have houtputs : columns.map Column.output = q.outputNames := Column.outputs_of_resolve hcolumns
  have hsummarized := Group.forall₂_summarizes hall hcolumns (houtputs ▸ hnodup) (houtputs ▸ hother)
  have hmet := Columns.compileAll_metBy hhaving
  refine ⟨all, _, having, hsummarized, groupTypes_ofList hfieldTypes hcolumns hnodup hother, hmet, rfl, ?_⟩
  intro hnone a ha hcount hfield
  have hkept : all.filter having.holds = all := by
    refine List.filter_eq_self.mpr ?_
    intro row _
    rw [hmet, hnone]
    simp
  rw [hkept]
  exact exists_counts hsummarized ha hcount hfield

/-! ## Trips -/

/-- Trips of drivers. -/
def tripSchema : EntitySchema where
  name := "Trip"
  fields := [("Driver", .scalar .string), ("Id", .scalar .int), ("Km", .scalar .float)]

/-- Some trips. One has no driver, and of one the length is missing. -/
def trips : List Record :=
  [[("Driver", .string "Ada"), ("Id", .int 1), ("Km", .int 12)], [("Id", .int 2), ("Km", .int 3)],
    [("Driver", .string "Bea"), ("Id", .int 3), ("Km", .float (Binary64.ofInt 40))],
    [("Driver", .string "Ada"), ("Id", .int 4), ("Km", .null)],
    [("Driver", .string "Ada"), ("Id", .int 5), ("Km", .float (Binary64.ofInt 7))],
    [("Driver", .null), ("Id", .int 6), ("Km", .int 30)]]

/-- The lengths of trips by driver, if there are at least two. -/
def tripQuery : Query where
  entity := "Trip"
  groupBy := some { fields := ["Driver"], having := [.leaf "Trips" "gte" (some (.int 2))] }
  aggregations :=
    [{ function := "count", outputAlias := some "Trips" },
      { function := "count", field := some "Km", outputAlias := some "Measured" },
      { function := "min", field := some "Km" }, { function := "max", field := some "Km" }]

/-- The rows of the drivers with at least two trips. -/
def tripRows : List Record :=
  [[("Driver", .string "Ada"), ("Measured", .int 2), ("Trips", .int 3), ("max_Km", .int 12),
      ("min_Km", .float (Binary64.ofInt 7))],
    [("Driver", .null), ("Measured", .int 2), ("Trips", .int 2), ("max_Km", .int 30), ("min_Km", .int 3)]]

/-- The rows of three drivers, one of whom is not known, are those with at least two trips. -/
theorem groupRows_summarize_trips :
    tripQuery.groupRows tripSchema trips = .ok (tripRows, [{ field := "Driver" }]) ∧
    Group.keyTexts ["Driver"] trips = ["[\"Ada\"]", "[null]", "[\"Bea\"]"] ∧
    ∃ all types having, tripQuery.GroupSummary
      { fields := ["Driver"], having := [.leaf "Trips" "gte" (some (.int 2))] } tripSchema trips tripRows all types
      having := by
  have hrows : tripQuery.groupRows tripSchema trips = .ok (tripRows, [{ field := "Driver" }]) := by decide +kernel
  exact ⟨hrows, by decide +kernel, groupRows_summarize rfl (by decide +kernel) (by decide +kernel) hrows⟩

end Query

end GuardedQuery
