import GuardedQuery.Proofs.EntityLookups
import GuardedQuery.Proofs.GroupedRows

/-!
# Fields that a query names

A policy lists fields of an entity, and members of its collections under the names of both with a point in between.
When an engine is set up, what stands before a point is taken for a collection. The validator compares whole names,
and a query's fields are looked up by whole names. The three agree on names without points. A member's name with the
point is none of the entity's fields, but the validator accepts it wherever a field may stand, and this is the only
way in which an accepted query on known entities can fail for want of a field.

## Main definitions

* `Dotted`: names with a point.
* `Query.namedFields`: the fields that a query names, with the entities of which it names them.

## Main statements

* `Engine.declared_of_create`: an engine's store declares all fields that its policy lists.
* `Query.declared_of_findings`: a query that finds something names declared fields only.
* `Engine.fields_missed_dotted`: an accepted query only misses fields whose names have a point.
-/

namespace GuardedQuery

/-! ## Names with points -/

/-- Whether a name has a point. -/
def Dotted (name : String) : Prop := '.' ∈ name.toList

instance (name : String) : Decidable (Dotted name) := inferInstanceAs (Decidable ('.' ∈ name.toList))

namespace EntityPolicy

theorem ne_point_of_not_dotted {name : String} (h : ¬Dotted name) : ∀ c ∈ name.toList, (c != '.') = true := by
  intro c hc
  rw [bne_iff_ne]
  rintro rfl
  exact h hc

theorem splitAtPoint?_of_not_dotted {name : String} (h : ¬Dotted name) : splitAtPoint? name = none := by
  rw [splitAtPoint?, List.span_eq_takeWhile_dropWhile, List.dropWhile_eq_nil_iff.mpr (ne_point_of_not_dotted h)]

/-- A collection is what stands before the first point. -/
theorem splitAtPoint?_append {collection : String} (h : ¬Dotted collection) (member : String) :
    splitAtPoint? (collection ++ "." ++ member) = some (collection, member) := by
  have hchars : (collection ++ "." ++ member).toList = collection.toList ++ '.' :: member.toList := by
    simp
  rw [splitAtPoint?, hchars, List.span_eq_takeWhile_dropWhile, List.takeWhile_append_of_pos (ne_point_of_not_dotted h),
    List.dropWhile_append_of_pos (ne_point_of_not_dotted h)]
  simp

theorem declares_of_not_dotted {schema : EntitySchema} {name : String} (h : ¬Dotted name) :
    declares schema name = schema.hasField name := by
  rw [declares, splitAtPoint?_of_not_dotted h]

theorem declares_append {schema : EntitySchema} {collection : String} (h : ¬Dotted collection) (member : String) :
    declares schema (collection ++ "." ++ member) =
      ((schema.fieldType? collection).bind FieldType.memberFields?).any fun fields => Dict.contains fields member := by
  rw [declares, splitAtPoint?_append h]

theorem mem_referencedFields {e : EntityPolicy} {field : String} (h : field ∈ e.filterable ∨ field ∈ e.selectable) :
    field ∈ e.referencedFields := by
  rw [referencedFields, Dict.mem_nameSet]
  simp only [List.mem_append]
  tauto

end EntityPolicy

/-! ## What a query names -/

/-- The field of its entity that an operation names. -/
def Operation.namedField? (o : Operation) : Option String :=
  match OperationKind.parse? o.kind with
  | some .selectMany => o.textParameter? "field"
  | some .any | some .all => o.textParameter? "collection"
  | _ => none

/-- The field that an aggregation names; a blank one counts as none. -/
def Aggregation.namedField? (a : Aggregation) : Option String := a.field.filter fun f => !Text.isBlankText f

/-- The fields of the joined entity that a join names. -/
def Join.joinedFields (j : Join) : List String := j.on.map Prod.snd ++ j.select

namespace Query

/-- The fields of its entity that a query names. -/
def rootFields (q : Query) : List String :=
  (Condition.leavesList q.filters).map Leaf.field ++ q.operations.filterMap Operation.namedField? ++ q.groupFields ++
    q.aggregations.filterMap Aggregation.namedField? ++ q.joins.flatMap fun j => j.on.map Prod.fst

/-- The fields that a query names, with the entities of which it names them. -/
def namedFields (q : Query) : List (String × String) :=
  q.rootFields.map (fun f => (q.entity, f)) ++ q.joins.flatMap fun j => j.joinedFields.map fun f => (j.entity, f)

variable {q : Query} {name field : String}

theorem mem_namedFields : (name, field) ∈ q.namedFields ↔
    (name = q.entity ∧ field ∈ q.rootFields) ∨ ∃ j ∈ q.joins, name = j.entity ∧ field ∈ j.joinedFields := by
  simp only [namedFields, List.mem_append, List.mem_map, List.mem_flatMap, Prod.mk.injEq]
  constructor
  · rintro (⟨f, hf, rfl, rfl⟩ | ⟨j, hj, f, hf, rfl, rfl⟩)
    · exact .inl ⟨rfl, hf⟩
    · exact .inr ⟨j, hj, rfl, hf⟩
  · rintro (⟨rfl, hf⟩ | ⟨j, hj, rfl, hf⟩)
    · exact .inl ⟨field, hf, rfl, rfl⟩
    · exact .inr ⟨j, hj, field, hf, rfl, rfl⟩

theorem mem_rootFields : field ∈ q.rootFields ↔
    (∃ l ∈ Condition.leavesList q.filters, l.field = field) ∨ (∃ o ∈ q.operations, o.namedField? = some field) ∨
      field ∈ q.groupFields ∨ (∃ a ∈ q.aggregations, a.namedField? = some field) ∨
      ∃ j ∈ q.joins, ∃ pair ∈ j.on, pair.1 = field := by
  simp only [rootFields, List.mem_append, List.mem_map, List.mem_filterMap, List.mem_flatMap, or_assoc]

theorem mem_entityNames_of_namedFields (h : (name, field) ∈ q.namedFields) : name ∈ q.entityNames := by
  obtain ⟨rfl, _⟩ | ⟨j, hj, rfl, _⟩ := mem_namedFields.mp h
  · exact List.mem_cons_self
  · exact List.mem_cons_of_mem _ (List.mem_map_of_mem hj)

end Query

/-! ## What a policy lists -/

/-- The field that an admissible operation names is listed. -/
theorem Operation.Admissible.referenced {p : Policy} {e : EntityPolicy} {o : Operation} (h : o.Admissible p e)
    {field : String} (hnamed : o.namedField? = some field) : field ∈ e.referencedFields := by
  rw [namedField?] at hnamed
  cases h with
  | selectMany hkind htext _ hmem =>
    simp only [hkind, htext, Option.some.injEq] at hnamed
    exact EntityPolicy.mem_referencedFields (.inr (hnamed ▸ hmem))
  | quantified hkind hq hcollection _ hmem =>
    obtain rfl : _ = field := by
      rcases hq with rfl | rfl <;> simpa [hkind, hcollection] using hnamed
    exact EntityPolicy.mem_referencedFields (.inl hmem)
  | skip hkind | take hkind => simp [hkind] at hnamed
  | plain hkind hmem =>
    simp only [List.mem_cons, List.not_mem_nil, or_false] at hmem
    rcases hmem with rfl | rfl | rfl | rfl | rfl | rfl <;> simp [hkind] at hnamed

/-- **The fields that an accepted query names are listed** in the policies of the entities of which it names them. -/
theorem Policy.referenced_of_accepts {p : Policy} {q : Query} (h : p.accepts q = true) {name field : String}
    (hnamed : (name, field) ∈ q.namedFields) : ∃ e, p.entity? name = some e ∧ field ∈ e.referencedFields := by
  obtain ⟨_, e, he, hadmissible⟩ := admissibleOn_of_accepts h
  obtain ⟨rfl, hroot⟩ | ⟨j, hj, rfl, hjoined⟩ := Query.mem_namedFields.mp hnamed
  · refine ⟨e, he, ?_⟩
    rcases Query.mem_rootFields.mp hroot with ⟨l, hl, rfl⟩ | ⟨o, ho, hfield⟩ | hfield | ⟨a, ha, hfield⟩ |
      ⟨j, hj, pair, hpair, rfl⟩
    · obtain ⟨condition, hcondition, hl⟩ := Condition.mem_leavesList.mp hl
      obtain ⟨_, hgranted, _⟩ | _ := (hadmissible.filters.trees condition hcondition).of_mem_leaves hl
      exact EntityPolicy.mem_referencedFields (.inl hgranted)
    · exact (hadmissible.operations o ho).referenced hfield
    · exact EntityPolicy.mem_referencedFields (.inr (hadmissible.grouping.fields field hfield))
    · obtain ⟨hsome, hblank⟩ := Option.filter_eq_some_iff.mp hfield
      obtain ⟨_, hsome', _, hmem⟩ | ⟨_, hall⟩ := hadmissible.grouping.aggregations a ha
      · obtain rfl := Option.some.inj (hsome.symm.trans hsome')
        exact EntityPolicy.mem_referencedFields (.inr hmem)
      · simp [hall field hsome] at hblank
    · obtain ⟨_, _, hpairs, _⟩ := (hadmissible.joins j hj).joined
      exact EntityPolicy.mem_referencedFields (.inl (hpairs pair hpair).1)
  · obtain ⟨joined, hentity, hpairs, hselect⟩ := (hadmissible.joins j hj).joined
    refine ⟨joined, hentity, ?_⟩
    rcases List.mem_append.mp hjoined with hfield | hfield
    · obtain ⟨pair, hpair, rfl⟩ := List.mem_map.mp hfield
      exact EntityPolicy.mem_referencedFields (.inl (hpairs pair hpair).2)
    · exact EntityPolicy.mem_referencedFields (.inr (hselect field hfield))

/-! ## Fields that are missed -/

theorem Operation.namedField?_of_quantifies {o : Operation} {kind : OperationKind}
    (hkind : OperationKind.parse? o.kind = some kind) (hq : kind = .any ∨ kind = .all) {collection : String}
    (hcollection : o.textParameter? "collection" = some collection) : o.namedField? = some collection := by
  rcases hq with rfl | rfl <;> simp [namedField?, hkind, hcollection]

/-- The field that an admissible tree misses is the field of a leaf. -/
theorem Condition.Admissible.of_unknownField {g : Grant} {c : Columns} {condition : Condition} {scope field : String}
    (hadmissible : condition.Admissible g) (h : condition.Fault c (.unknownField scope field)) :
    ∃ l ∈ condition.leaves, l.field = field ∧ c.scope = scope ∧ Dict.contains c.fields field = false := by
  obtain ⟨l, hl, hfault⟩ := hadmissible.exists_leaf_of_fault h
  cases hfault with
  | undeclared hnone => exact ⟨l, hl, rfl, rfl, Dict.contains_eq_false_iff.mpr hnone⟩

/-- The field that an operation misses is the one that it names. -/
theorem Operation.Fault.of_unknownField {o : Operation} {schema : EntitySchema} {scope field : String}
    (h : o.Fault schema (.unknownField scope field)) :
    o.namedField? = some field ∧ schema.name = scope ∧ schema.hasField field = false := by
  cases h with
  | undeclared hkind htext hnone =>
    exact ⟨by simp [namedField?, hkind, htext], rfl, Dict.contains_eq_false_iff.mpr hnone⟩
  | unknownCollection hkind hq hcollection hnone =>
    exact ⟨namedField?_of_quantifies hkind hq hcollection, rfl, Dict.contains_eq_false_iff.mpr hnone⟩

/-- The field that a join misses is one that it names on either side. -/
theorem Join.Fault.of_unknownField {s : Store} {root : EntitySchema} {j : Join} {scope field : String}
    (h : j.Fault s root (.unknownField scope field)) :
    ((∃ pair ∈ j.on, pair.1 = field) ∧ root.name = scope ∧ root.hasField field = false) ∨
    ∃ joined, s.schema? j.entity = some joined ∧ field ∈ j.joinedFields ∧ joined.name = scope ∧
      joined.hasField field = false := by
  cases h with
  | source hpair hnone => exact .inl ⟨⟨_, hpair, rfl⟩, rfl, hnone⟩
  | @target joined pair hknown hpair hnone =>
    have hcompared : pair.2 ∈ j.on.map Prod.snd := List.mem_map_of_mem hpair
    exact .inr ⟨joined, hknown, List.mem_append_left _ hcompared, rfl, hnone⟩
  | @select joined _ hknown hfield hnone => exact .inr ⟨joined, hknown, List.mem_append_right _ hfield, rfl, hnone⟩

namespace Columns

variable {c elements : Columns}

/-- The columns of a collection's elements are the members of its declared type. -/
theorem elementColumns_eq_ok {collection : String} (h : c.elementColumns collection = .ok elements) :
    elements.scope = s!"{c.scope}.{collection}" ∧
      (Dict.get? c.fields collection).bind FieldType.memberFields? = some elements.fields := by
  obtain ⟨hscope, t, htype, hfields⟩ := exists_array_of_elementColumns h
  exact ⟨hscope, by rw [htype, Option.bind_some, FieldType.memberFields?, hfields]⟩

/-- Compiled conditions test declared fields only. -/
theorem declared_of_compileAll {conditions : List Condition} {p : Predicate} (h : c.compileAll conditions = .ok p)
    {l : Leaf} (hl : l ∈ Condition.leavesList conditions) : Dict.contains c.fields l.field = true := by
  obtain ⟨p, _, hp⟩ := Outcome.exists_of_mem_mapM (compileAll_tests h) hl
  obtain ⟨type, htype, _⟩ := Outcome.bind_eq_ok_iff.mp hp
  rw [Dict.contains, fieldType_eq_ok_iff.mp htype]
  rfl

end Columns

namespace Query

variable {q : Query} {s : Store} {p policy : Policy} {e : EntityPolicy} {schema : EntitySchema} {c : Columns}

/-- The conditions on groups of an accepted query test columns that the groups have. -/
theorem GroupColumns.declared (h : q.GroupColumns schema c) (hadmissible : q.AdmissibleGrouping p e)
    {condition : Condition} (hcondition : condition ∈ q.groupConditions) {l : Leaf} (hl : l ∈ condition.leaves) :
    Dict.contains c.fields l.field = true := by
  obtain ⟨fieldTypes, columns, hfieldTypes, hcolumns, rfl⟩ := h
  obtain ⟨_, hgranted, _⟩ | _ := (hadmissible.having.trees condition hcondition).of_mem_leaves hl
  rw [Dict.contains_iff, Dict.mem_names_ofList, List.map_append, List.mem_append, List.map_map]
  rcases hgranted with houtput | ⟨hfield, _⟩
  · refine .inr ?_
    rw [outputNames, ← Column.outputs_of_resolve hcolumns] at houtput
    exact houtput
  · obtain ⟨pair, hpair, htype⟩ := Outcome.exists_of_mem_mapM hfieldTypes hfield
    refine .inl (List.mem_map.mpr ⟨pair, hpair, ?_⟩)
    split at htype
    · rw [← Except.ok.inj htype]
    · simp at htype

/-- A field that an accepted query misses is one that it names, or a member of a collection that it names. -/
theorem Fault.of_unknownField (haccepts : p.accepts q = true) {scope field : String}
    (h : q.Fault policy s (.unknownField scope field)) :
    (∃ name schema, (name, field) ∈ q.namedFields ∧ s.schema? name = some schema ∧ scope = schema.name ∧
      schema.hasField field = false) ∨
    ∃ e schema collection c, p.entity? q.entity = some e ∧ s.schema? q.entity = some schema ∧
      (q.entity, collection) ∈ q.namedFields ∧ collection ++ "." ++ field ∈ e.filterable ∧
      schema.columns.elementColumns collection = .ok c ∧ scope = c.scope ∧ Dict.contains c.fields field = false := by
  obtain ⟨_, e, he, hadmissible⟩ := Policy.admissibleOn_of_accepts haccepts
  have hroot : ∀ {f}, f ∈ q.rootFields → (q.entity, f) ∈ q.namedFields := fun hf => mem_namedFields.mpr (.inl ⟨rfl, hf⟩)
  cases h with
  | condition htests hfault =>
    cases htests with
    | @filter schema _ hschema hmem =>
      obtain ⟨l, hl, rfl, rfl, hnone⟩ := (hadmissible.filters.trees _ hmem).of_unknownField hfault
      have hleaf : l ∈ Condition.leavesList q.filters := Condition.mem_leavesList.mpr ⟨_, hmem, hl⟩
      exact .inl ⟨q.entity, schema, hroot (mem_rootFields.mpr (.inl ⟨l, hleaf, rfl⟩)), hschema, rfl, hnone⟩
    | @element schema o _ _ hschema ho htest =>
      obtain ⟨kind, collection, v, conditions, hkind, hq, hcollection, hv, hread, hmem, hc⟩ := htest
      have hadmits := (hadmissible.operations o ho).element_admitted hkind hq hcollection hv hread
      obtain ⟨l, hl, rfl, rfl, hnone⟩ := (hadmits.trees _ hmem).of_unknownField hfault
      obtain ⟨_, hlisted, _⟩ | _ := (hadmits.trees _ hmem).of_mem_leaves hl
      have hnamed := Operation.namedField?_of_quantifies hkind hq hcollection
      exact .inr ⟨e, schema, collection, _, he, hschema, hroot (mem_rootFields.mpr (.inr (.inl ⟨o, ho, hnamed⟩))),
        hlisted, hc, rfl, hnone⟩
    | having hschema hcolumns hmem =>
      -- Conditions on groups test columns that the groups have.
      obtain ⟨l, hl, rfl, rfl, hnone⟩ := (hadmissible.grouping.having.trees _ hmem).of_unknownField hfault
      rw [hcolumns.declared hadmissible.grouping hmem hl] at hnone
      simp at hnone
  | @join schema j _ hschema hj hfault =>
    obtain ⟨⟨pair, hpair, rfl⟩, rfl, hnone⟩ | ⟨joined, hknown, hjoined, rfl, hnone⟩ := hfault.of_unknownField
    · have hnamed := mem_rootFields.mpr (.inr (.inr (.inr (.inr ⟨j, hj, pair, hpair, rfl⟩))))
      exact .inl ⟨q.entity, schema, hroot hnamed, hschema, rfl, hnone⟩
    · exact .inl ⟨j.entity, joined, mem_namedFields.mpr (.inr ⟨j, hj, rfl, hjoined⟩), hknown, rfl, hnone⟩
  | @operation schema o _ hschema ho hfault =>
    obtain ⟨hnamed, rfl, hnone⟩ := hfault.of_unknownField
    exact .inl ⟨q.entity, schema, hroot (mem_rootFields.mpr (.inr (.inl ⟨o, ho, hnamed⟩))), hschema, rfl, hnone⟩
  | @groupField schema _ hschema hfield hnone =>
    have hnamed := mem_rootFields.mpr (.inr (.inr (.inl hfield)))
    exact .inl ⟨q.entity, schema, hroot hnamed, hschema, rfl, Dict.contains_eq_false_iff.mpr hnone⟩
  | @aggregation schema a _ hschema ha hfault =>
    cases hfault with
    | undeclared hfield hnone =>
      have hnamed := mem_rootFields.mpr (.inr (.inr (.inr (.inl ⟨a, ha, hfield⟩))))
      exact .inl ⟨q.entity, schema, hroot hnamed, hschema, rfl, Dict.contains_eq_false_iff.mpr hnone⟩

end Query

/-! ## Queries that find something -/

theorem EntitySchema.hasField_of_fieldType? {schema : EntitySchema} {field : String} {t : FieldType}
    (h : schema.fieldType? field = some t) : schema.hasField field = true := by
  rw [hasField, Dict.contains, ← fieldType?, h]
  rfl

namespace Operation

variable {o : Operation} {schema : EntitySchema} {field : String}

theorem declared_of_quantifier {kind : OperationKind} {pred : Predicate} (h : o.quantifier kind schema = .ok pred)
    (hcollection : o.textParameter? "collection" = some field) : schema.hasField field = true := by
  rw [quantifier, hcollection] at h
  cases hv : o.parameter? "predicate" with
  | none => simp [hv] at h
  | some v =>
    simp only [hv] at h
    cases hread : Condition.ofPredicate v with
    | error reason => simp [hread] at h
    | ok conditions =>
      simp only [hread] at h
      obtain ⟨c, hc, _⟩ := Outcome.bind_eq_ok_iff.mp h
      obtain ⟨type, htype, _⟩ := Outcome.bind_eq_ok_iff.mp hc
      exact EntitySchema.hasField_of_fieldType? (Columns.fieldType_eq_ok_iff.mp htype)

/-- An operation that has been applied names a declared field. -/
theorem declared_of_onRecords {maxTake : Nat} {rows rows' : List Record}
    (h : o.onRecords schema maxTake rows = .ok rows') (hnamed : o.namedField? = some field) :
    schema.hasField field = true := by
  obtain ⟨kind, hkind, h⟩ := Outcome.bind_eq_ok_iff.mp h
  rw [namedField?, kindOf_eq_ok_iff.mp hkind] at hnamed
  cases kind with
  | selectMany =>
    obtain ⟨name, hname, _⟩ := Outcome.bind_eq_ok_iff.mp h
    obtain ⟨htext, t, ht⟩ := unwoundField_eq_ok hname
    obtain rfl := Option.some.inj (hnamed.symm.trans htext)
    exact EntitySchema.hasField_of_fieldType? ht
  | any | all =>
    obtain ⟨pred, hpred, _⟩ := Outcome.bind_eq_ok_iff.mp h
    exact declared_of_quantifier hpred hnamed
  | distinct | skip | take | reverse | first | firstOrDefault | single | singleOrDefault => exact nomatch hnamed

theorem declared_of_onAllRecords {maxTake : Nat} {os : List Operation} {rows rows' : List Record}
    (h : onAllRecords schema maxTake os rows = .ok rows') :
    ∀ o ∈ os, ∀ field, o.namedField? = some field → schema.hasField field = true := by
  induction os generalizing rows with
  | nil => exact nofun
  | cons o rest ih =>
    obtain ⟨between, hfirst, hrest⟩ := Outcome.bind_eq_ok_iff.mp h
    exact List.forall_mem_cons.mpr ⟨fun _ hnamed => declared_of_onRecords hfirst hnamed, ih hrest⟩

end Operation

namespace Join

theorem requireField_eq_ok_iff {schema : EntitySchema} {field : String} :
    requireField schema field = .ok () ↔ schema.hasField field = true := by
  rw [requireField]
  cases schema.hasField field <;> simp

/-- A join that has been made names declared fields on either side. -/
theorem declared_of_requireFields {j : Join} {root joined : EntitySchema} (h : j.requireFields root joined = .ok ()) :
    (∀ pair ∈ j.on, root.hasField pair.1 = true) ∧ ∀ f ∈ j.joinedFields, joined.hasField f = true := by
  obtain ⟨_, hon, hselect⟩ := Outcome.bind_eq_ok_iff.mp h
  have hpairs : ∀ pair ∈ j.on, root.hasField pair.1 = true ∧ joined.hasField pair.2 = true := by
    intro pair hpair
    obtain ⟨_, hsource, htarget⟩ := Outcome.bind_eq_ok_iff.mp (Outcome.forM_eq_ok_iff.mp hon pair hpair)
    exact ⟨requireField_eq_ok_iff.mp hsource, requireField_eq_ok_iff.mp htarget⟩
  refine ⟨fun pair hpair => (hpairs pair hpair).1, fun f hf => ?_⟩
  rcases List.mem_append.mp hf with hcompared | hattached
  · obtain ⟨pair, hpair, rfl⟩ := List.mem_map.mp hcompared
    exact (hpairs pair hpair).2
  · exact requireField_eq_ok_iff.mp (Outcome.forM_eq_ok_iff.mp hselect f hattached)

end Join

namespace Query

variable {q : Query} {s : Store} {p : Policy} {e : EntityPolicy} {registry : Registry} {label : String} {f : Findings}

theorem isGrouped_iff : q.isGrouped = true ↔ q.groupFields ≠ [] := by
  rw [isGrouped, groupFields]
  cases q.groupBy <;> simp

/-- A grouped query that finds something groups by declared fields, and condenses declared fields. -/
theorem declared_of_groupStaged {schema : EntitySchema} {st : GroupStages} (hst : q.GroupStaged p s schema st) :
    (∀ field ∈ q.groupFields, schema.hasField field = true) ∧
      ∀ a ∈ q.aggregations, ∀ field, a.namedField? = some field → schema.hasField field = true := by
  constructor
  · intro field hfield
    obtain ⟨g, hg, hfields, _⟩ := hst.grouping
    obtain ⟨fieldTypes, hfieldTypes, _⟩ := hst.types
    rw [groupFields, hg, Option.map_some, Option.getD_some, hfields] at hfield
    obtain ⟨pair, _, htype⟩ := Outcome.exists_of_mem_mapM hfieldTypes hfield
    cases hdeclared : schema.fieldType? field with
    | none => simp [hdeclared] at htype
    | some t => exact EntitySchema.hasField_of_fieldType? hdeclared
  · intro a ha field hnamed
    obtain ⟨c, _, hc⟩ := Outcome.exists_of_mem_mapM hst.columns ha
    obtain ⟨_, hnames⟩ := Column.resolve_names hc
    rw [Aggregation.namedField?, hnames] at hnamed
    obtain ⟨_, ⟨_, hnone⟩ | ⟨name, t, hname, ht, _⟩⟩ := Column.resolve_eq_ok hc
    · simp [hnone] at hnamed
    · obtain rfl : name = field := by simpa [hname] using hnamed
      exact EntitySchema.hasField_of_fieldType? ht

/-- **A query that finds something names declared fields only.** -/
theorem declared_of_findings (hsound : s.Sound) (hadmissible : q.AdmissibleGrouping p e)
    (h : q.findings p s registry label = .ok f) {name field : String} (hnamed : (name, field) ∈ q.namedFields)
    {schema : EntitySchema} (hschema : s.schema? name = some schema) : schema.hasField field = true := by
  obtain ⟨root, hroot⟩ := exists_schema_of_findings h q.entity List.mem_cons_self
  obtain ⟨predicate, joined, worked, shaped, _, hpredicate, hjoined, hworked, _⟩ := findings_eq_ok hsound hroot h
  obtain ⟨rfl, hfield⟩ | ⟨j, hj, rfl, hfield⟩ := mem_namedFields.mp hnamed
  · obtain rfl := Option.some.inj (hroot.symm.trans hschema)
    rcases mem_rootFields.mp hfield with ⟨l, hl, rfl⟩ | ⟨o, ho, hfield⟩ | hfield | ⟨a, ha, hfield⟩ |
      ⟨j, hj, pair, hpair, rfl⟩
    · exact Columns.declared_of_compileAll hpredicate hl
    · exact Operation.declared_of_onAllRecords hworked o ho field hfield
    · obtain ⟨st, hst, _⟩ := exists_groupStages hsound hroot (isGrouped_iff.mpr (List.ne_nil_of_mem hfield)) h
      exact (declared_of_groupStaged hst).1 field hfield
    · -- Records are only condensed in groups.
      have hgrouped : q.groupFields ≠ [] := fun hnone => by simp [(hadmissible.ungrouped hnone).2] at ha
      obtain ⟨st, hst, _⟩ := exists_groupStages hsound hroot (isGrouped_iff.mpr hgrouped) h
      exact (declared_of_groupStaged hst).2 a ha field hfield
    · obtain ⟨_, _, hfields⟩ := Join.exists_schema_of_allOnStore hjoined j hj
      exact (Join.declared_of_requireFields hfields).1 pair hpair
  · obtain ⟨known, hknown, hfields⟩ := Join.exists_schema_of_allOnStore hjoined j hj
    obtain rfl := Option.some.inj (hknown.symm.trans hschema)
    exact (Join.declared_of_requireFields hfields).2 field hfield

end Query

/-! ## Engines -/

namespace Engine

variable {policy : Policy} {store : Store} {registry : Registry} {created e : Engine Store}

/-- What an accepted query names under trimmed entity names is declared, or has a point in its name. -/
theorem declared_of_accepts (hkeyed : policy.WellKeyed) (hstore : store.Reachable)
    (hcreate : create policy store registry = .ok created) {q : Query} (haccepts : policy.accepts q = true)
    {name field : String} (hnamed : (name, field) ∈ q.namedFields) (htrim : Text.trim name = name) :
    ∃ schema, store.schema? name = some schema ∧ (schema.hasField field = true ∨ Dotted field) := by
  obtain ⟨p, hp, hlisted⟩ := Policy.referenced_of_accepts haccepts hnamed
  obtain ⟨schema, hschema, _, hdeclares⟩ := declared_of_create hkeyed hstore hcreate hp
  rw [htrim] at hschema
  refine ⟨schema, hschema, ?_⟩
  by_cases hdotted : Dotted field
  · exact .inr hdotted
  · exact .inl ((EntityPolicy.declares_of_not_dotted hdotted).symm.trans (hdeclares field hlisted))

/-- A collection whose listed members are not all declared has a point in its name: without one it is the collection
that the policy means, and an engine's store declares its listed members. -/
theorem dotted_of_undeclared_member (hkeyed : policy.WellKeyed) (hstore : store.Reachable)
    (hcreate : create policy store registry = .ok created) {name : String} {p : EntityPolicy}
    (hp : policy.entity? name = some p) (htrim : Text.trim name = name) {schema : EntitySchema}
    (hschema : store.schema? name = some schema) {collection member : String}
    (hlisted : collection ++ "." ++ member ∈ p.filterable) {columns : Columns}
    (hcolumns : schema.columns.elementColumns collection = .ok columns)
    (hundeclared : Dict.contains columns.fields member = false) : Dotted collection := by
  by_contra hdotted
  obtain ⟨schema', hschema', _, hdeclares⟩ := declared_of_create hkeyed hstore hcreate hp
  rw [htrim] at hschema'
  obtain rfl := Option.some.inj (hschema.symm.trans hschema')
  have hmembers : (schema.fieldType? collection).bind FieldType.memberFields? = some columns.fields :=
    (Columns.elementColumns_eq_ok hcolumns).2
  have hdeclared := hdeclares _ (EntityPolicy.mem_referencedFields (.inl hlisted))
  rw [EntityPolicy.declares_append hdotted, hmembers, Option.any_some, hundeclared] at hdeclared
  exact absurd hdeclared Bool.false_ne_true

/-- **Fields are missed under names with points only.** On known entities, an accepted query names declared fields,
except for names with points. If it fails for want of a field, then it names an entity by a name with white space
around it that the store knows, or it names a field with a point that is not declared, or it tests members of a
collection whose own name has a point. It has no answer if it names a field that is not declared. -/
theorem fields_missed_dotted {α : Type} (hkeyed : policy.WellKeyed) (hstore : store.Reachable)
    (hcreate : create policy store registry = .ok created) (hparts : created.SameParts e) (target : Target α)
    {q : Query} (haccepts : policy.accepts q = true) (c : Circumstances) :
    (∀ name field, (name, field) ∈ q.namedFields → Text.trim name = name → ¬Dotted field →
      ∃ schema, store.schema? name = some schema ∧ schema.hasField field = true) ∧
    (∀ scope field, (e.execute target q false c).1 = .error (.query (.unknownField scope field)) →
      (∃ name ∈ q.entityNames, Text.trim name ≠ name ∧ (store.schema? name).isSome = true) ∨
      (∃ name schema, (name, field) ∈ q.namedFields ∧ store.schema? name = some schema ∧ scope = schema.name ∧
        schema.hasField field = false ∧ Dotted field) ∨
      ∃ schema collection, store.schema? q.entity = some schema ∧ (q.entity, collection) ∈ q.namedFields ∧
        scope = s!"{schema.name}.{collection}" ∧ schema.hasField collection = true ∧ Dotted collection) ∧
    (∀ name schema field, (name, field) ∈ q.namedFields → store.schema? name = some schema →
      schema.hasField field = false → ∀ r, (e.execute target q false c).1 ≠ .ok r) := by
  obtain ⟨_, rfl⟩ := create_eq_ok_iff.mp hcreate
  obtain ⟨rfl, rfl, rfl⟩ := hparts
  refine ⟨?_, ?_, ?_⟩
  · intro name field hnamed htrim hdotted
    obtain ⟨schema, hschema, hdeclared⟩ := declared_of_accepts hkeyed hstore hcreate haccepts hnamed htrim
    exact ⟨schema, hschema, hdeclared.resolve_right hdotted⟩
  · intro scope field hfailed
    obtain ⟨name, schema, hnamed, hschema, rfl, hundeclared⟩ |
      ⟨p, schema, collection, columns, hp, hschema, hnamed, hlisted, hcolumns, rfl, hundeclared⟩ :=
      (fault_of_execute hstore.sound hfailed).of_unknownField haccepts
    · by_cases htrim : Text.trim name = name
      · obtain ⟨_, hschema', hdeclared⟩ := declared_of_accepts hkeyed hstore hcreate haccepts hnamed htrim
        obtain rfl := Option.some.inj (hschema.symm.trans hschema')
        have hdotted := hdeclared.resolve_left (by simp [hundeclared])
        exact .inr (.inl ⟨name, schema, hnamed, hschema, rfl, hundeclared, hdotted⟩)
      · exact .inl ⟨name, Query.mem_entityNames_of_namedFields hnamed, htrim, by simp [hschema]⟩
    · by_cases htrim : Text.trim q.entity = q.entity
      · obtain ⟨hscope, hmembers⟩ := Columns.elementColumns_eq_ok hcolumns
        obtain ⟨type, htype, _⟩ := Option.bind_eq_some_iff.mp hmembers
        have hdotted := dotted_of_undeclared_member hkeyed hstore hcreate hp htrim hschema hlisted hcolumns hundeclared
        exact .inr (.inr ⟨schema, collection, hschema, hnamed, hscope, EntitySchema.hasField_of_fieldType? htype,
          hdotted⟩)
      · exact .inl ⟨q.entity, List.mem_cons_self, htrim, by simp [hschema]⟩
  · intro name schema field hnamed hschema hundeclared r hr
    obtain ⟨_, hresult⟩ := execute_eq_ok_iff.mp hr
    obtain ⟨f, hfound, _⟩ := Outcome.bind_eq_ok_iff.mp hresult
    obtain ⟨_, p, _, hadmissible⟩ := Policy.admissibleOn_of_accepts haccepts
    have hdeclared := Query.declared_of_findings hstore.sound hadmissible.grouping hfound hnamed hschema
    rw [hundeclared] at hdeclared
    exact absurd hdeclared Bool.false_ne_true

/-! ## Guests with addresses -/

/-- Guests with an address. -/
def guestSchema : EntitySchema where
  name := "Guest"
  fields := [("Address", .object [("City", .scalar .string)]), ("Id", .scalar .int)]

/-- A guest. -/
def guestEntities : List EntityData :=
  [{ schema := guestSchema, records := [[("Address", .object [("City", .string "Rome")]), ("Id", .int 1)]] }]

/-- The city of a guest is listed for filters. -/
def guestPolicy : Policy :=
  ({} : Policy).withEntity { name := "Guest", filterable := ["Address.City"], selectable := ["Id"] }

theorem guestEntities_wellFormed : ∀ data ∈ guestEntities, data.WellFormed := by decide +kernel

/-- An engine for guests. -/
def guestEngine : Engine Store where
  policy := guestPolicy
  store := .ofEntities guestEntities

theorem create_guestEngine : create guestPolicy guestEngine.store {} = .ok guestEngine := by
  have hdeclared : ∀ entry ∈ guestPolicy.entities,
      (entry.2.undeclared? guestEngine.store.schema?).isNone = true := by decide +kernel
  exact create_eq_ok_iff.mpr ⟨fun entry hentry => Option.isNone_iff_eq_none.mp (hdeclared entry hentry), rfl⟩

/-- The guests from Rome, one group for each of them. -/
def guestQuery : Query where
  entity := "Guest"
  filters := [.leaf "Address.City" "eq" (some (.string "Rome"))]
  groupBy := some { fields := ["Id"] }

/-- The policy accepts the query for the guests from Rome, and the query has no answer for want of the city. -/
theorem fields_missed_dotted_guests :
    guestPolicy.accepts guestQuery = true ∧
      (∀ r, (guestEngine.execute Target.value guestQuery false {}).1 ≠ .ok r) ∧
      (guestEngine.execute Target.value guestQuery false {}).1 =
        .error (.query (.unknownField "Guest" "Address.City")) := by
  have hstore : guestEngine.store.Reachable := Store.reachable_ofEntities guestEntities_wellFormed
  have hkeyed : guestPolicy.WellKeyed := (Policy.wellKeyed_of_entities_eq_nil rfl).withEntity _
  have haccepts : guestPolicy.accepts guestQuery = true := by decide +kernel
  have hschema : guestEngine.store.schema? "Guest" = some guestSchema :=
    Store.schema?_ofEntities guestEntities_wellFormed (by simp [guestEntities]) (by decide +kernel)
  obtain ⟨_, _, hunanswered⟩ := fields_missed_dotted hkeyed hstore create_guestEngine (.refl _) Target.value haccepts {}
  refine ⟨haccepts, hunanswered "Guest" guestSchema "Address.City" ?_ hschema (by decide +kernel), ?_⟩
  · exact Query.mem_namedFields.mpr (.inl ⟨rfl, by decide +kernel⟩)
  · have hdeclaration : guestEngine.store.declaration guestQuery.entity = .ok guestSchema :=
      Store.declaration_eq_ok_iff.mpr hschema
    refine execute_eq_query_error {} haccepts ?_ nofun
    rw [Query.result, Query.findings, Query.stock, hdeclaration]
    rfl

end Engine

end GuardedQuery
