import GuardedQuery.Proofs.Admission
import GuardedQuery.Proofs.EntityName
import GuardedQuery.Proofs.Failures
import GuardedQuery.Proofs.Loading
import GuardedQuery.Proofs.Policies

/-!
# Entities that a query names

The validator looks the entities of a query up by their trimmed names, and the store by their names as they
stand. An engine is only set up if the store declares every entity of the policy, so the two agree on names
without white space around them. The store may not know a name with white space around it, and this is the only
way in which an accepted query can fail for want of an entity.

## Main definitions

* `MissesOnly`: computations that fail for want of an entity under names of a kind only.
* `Query.entityNames`: the names under which a query looks entities up.

## Main statements

* `Engine.declared_of_create`: an engine's store knows the trimmed names of all entities with a policy, and declares
  all fields that the policy lists.
* `Query.missesOnly_result`: a query can only miss the entities that it names.
* `Engine.entities_missed_untrimmed`: an accepted query only misses entities under names that are not trimmed.
-/

namespace GuardedQuery

/-! ## Computations that miss entities -/

/-- If the computation fails for want of an entity, then under a name of the given kind. -/
def MissesOnly {α : Type} (missing : String → Prop) (x : Except QueryError α) : Prop :=
  ∀ name, x = .error (.unknownEntity name) → missing name

/-- No leaf and no group of conditions looks an entity up. -/
theorem Condition.not_fault_unknownEntity {c : Columns} {condition : Condition} {name : String} :
    ¬condition.Fault c (.unknownEntity name) := by
  intro h
  obtain ⟨l, _, hl⟩ | ⟨symbol, hsymbol⟩ := h.of_leaf_or_logic
  · exact nomatch hl
  · exact nomatch hsymbol

namespace Query

/-- The names under which a query looks entities up. -/
def entityNames (q : Query) : List String := q.entity :: q.joins.map Join.entity

/-- **A query can only miss the entities that it names**, and it misses those only that the store does not know. -/
theorem missesOnly_result {α : Type} {s : Store} {missing : String → Prop} {q : Query} (hs : s.Sound)
    (h : ∀ name ∈ q.entityNames, s.schema? name = none → missing name) (policy : Policy) (registry : Registry)
    (target : Target α) (hsorts : ¬q.Upset policy s registry target.label) :
    MissesOnly missing (q.result policy s registry target) := by
  intro name hmissed
  cases failsOnly_result hs q policy registry target hsorts _ hmissed with
  | entity hnone => exact h q.entity List.mem_cons_self hnone
  | @join _ j _ _ hj hfault =>
    cases hfault with
    | entity hnone => exact h j.entity (List.mem_cons_of_mem _ (List.mem_map_of_mem hj)) hnone
  | condition _ hfault => exact absurd hfault Condition.not_fault_unknownEntity
  | operation _ _ hfault => exact nomatch hfault
  | aggregation _ _ hfault => exact nomatch hfault

end Query

/-! ## Names that the store does not know -/

/-- Every entity that rows have been joined with is known, and so are the fields that the join names. -/
theorem Join.exists_schema_of_allOnStore {s : Store} {root : EntitySchema} {joins : List Join}
    {rows rows' : List Record} {n n' : Nat} (h : allOnStore s root joins rows n = .ok (rows', n')) :
    ∀ j ∈ joins, ∃ joined, s.schema? j.entity = some joined ∧ j.requireFields root joined = .ok () := by
  induction joins generalizing rows n with
  | nil => exact nofun
  | cons j rest ih =>
    obtain ⟨⟨between, m⟩, hfirst, hrest⟩ := Outcome.bind_eq_ok_iff.mp h
    obtain ⟨kind, _, hfirst⟩ := Outcome.bind_eq_ok_iff.mp hfirst
    obtain ⟨joined, hjoined, hfirst⟩ := Outcome.bind_eq_ok_iff.mp hfirst
    obtain ⟨_, hfields, _⟩ := Outcome.bind_eq_ok_iff.mp hfirst
    exact List.forall_mem_cons.mpr ⟨⟨joined, Store.declaration_eq_ok_iff.mp hjoined, hfields⟩, ih hrest⟩

namespace Query

/-- A query that finds something names known entities only. -/
theorem exists_schema_of_findings {q : Query} {policy : Policy} {s : Store} {registry : Registry}
    {label : String} {f : Findings} (h : q.findings policy s registry label = .ok f) :
    ∀ name ∈ q.entityNames, ∃ schema, s.schema? name = some schema := by
  obtain ⟨st, h, _⟩ := Outcome.bind_eq_ok_iff.mp h
  obtain ⟨schema, hschema, h⟩ := Outcome.bind_eq_ok_iff.mp h
  obtain ⟨binding, _, h⟩ := Outcome.bind_eq_ok_iff.mp h
  obtain ⟨predicate, _, h⟩ := Outcome.bind_eq_ok_iff.mp h
  obtain ⟨found, _, h⟩ := Outcome.bind_eq_ok_iff.mp h
  obtain ⟨⟨rows, n⟩, hjoined, _⟩ := Outcome.bind_eq_ok_iff.mp h
  refine List.forall_mem_cons.mpr ⟨⟨schema, Store.declaration_eq_ok_iff.mp hschema⟩, ?_⟩
  refine List.forall_mem_map.mpr fun j hj => ?_
  obtain ⟨joined, hknown, _⟩ := Join.exists_schema_of_allOnStore hjoined j hj
  exact ⟨joined, hknown⟩

end Query

/-- The entities that an accepted query names have policies. -/
theorem Policy.exists_entity_of_accepts {p : Policy} {q : Query} (h : p.accepts q = true) :
    ∀ name ∈ q.entityNames, ∃ e, p.entity? name = some e := by
  obtain ⟨_, e, he, hadmissible⟩ := admissibleOn_of_accepts h
  refine List.forall_mem_cons.mpr ⟨⟨e, he⟩, List.forall_mem_map.mpr fun j hj => ?_⟩
  obtain ⟨joined, hjoined, _⟩ := (hadmissible.joins j hj).joined
  exact ⟨joined, hjoined⟩

/-! ## Engines that have been set up -/

/-- Nothing that a policy names is undeclared if its entity is known and all listed fields are declared. -/
theorem EntityPolicy.undeclared?_eq_none_iff {e : EntityPolicy} {lookUp : String → Option EntitySchema} :
    e.undeclared? lookUp = none ↔
      ∃ schema, lookUp e.name = some schema ∧ ∀ f ∈ e.referencedFields, declares schema f = true := by
  rw [undeclared?]
  cases lookUp e.name <;> simp

namespace Engine

variable {policy : Policy} {store : Store} {registry : Registry} {created e : Engine Store}

/-- An engine is set up if and only if the store declares all that the policy names. -/
theorem create_eq_ok_iff : create policy store registry = .ok created ↔
    (∀ entry ∈ policy.entities, entry.2.undeclared? store.schema? = none) ∧
      created = { policy, store, registry } := by
  have hlookUp : (Storage.schema? store : String → Option EntitySchema) = store.schema? := rfl
  rw [create, hlookUp]
  cases hfound : policy.entities.findSome? fun entry => entry.2.undeclared? store.schema? with
  | none =>
    have hnone := List.findSome?_eq_none_iff.mp hfound
    exact ⟨fun h => ⟨hnone, (Except.ok.inj h).symm⟩, fun h => congrArg Except.ok h.2.symm⟩
  | some error =>
    obtain ⟨entry, hentry, hsome⟩ := List.exists_of_findSome?_eq_some hfound
    simp only [reduceCtorEq, false_iff, not_and]
    intro hnone
    rw [hnone entry hentry] at hsome
    exact nomatch hsome

/-- The store of an engine knows the trimmed name of every entity with a policy, means that entity by it, and declares
all that the policy lists. -/
theorem declared_of_create (hkeyed : policy.WellKeyed) (hstore : store.Reachable)
    (hcreate : create policy store registry = .ok created) {name : String} {p : EntityPolicy}
    (hp : policy.entity? name = some p) :
    ∃ schema, store.schema? (Text.trim name) = some schema ∧ schema.key = p.key ∧
      ∀ f ∈ p.referencedFields, EntityPolicy.declares schema f = true := by
  have hentry : (Policy.lookupKey name, p) ∈ policy.entities := Dict.mem_of_get? hp
  -- The policy is found under the key of its own name, under which its entity was looked up at the start.
  have hkey : Policy.lookupKey name = p.key := hkeyed (Policy.lookupKey name, p) hentry
  rw [Policy.lookupKey, EntityPolicy.key] at hkey
  obtain ⟨schema, hschema, hlisted⟩ :=
    EntityPolicy.undeclared?_eq_none_iff.mp ((create_eq_ok_iff.mp hcreate).1 _ hentry)
  obtain ⟨t, ht, rfl⟩ := Option.map_eq_some_iff.mp hschema
  have htrimmed : store.table? (Text.trim name) = some t := by
    rw [Store.table?] at ht ⊢
    rw [hkey, ht]
  exact ⟨t.schema, Store.schema?_of_table htrimmed, (hstore.sound _ t ht).2, hlisted⟩

/-- The store of an engine knows the trimmed name of every entity with a policy, and means that entity by it. -/
theorem schema?_trim_of_create (hkeyed : policy.WellKeyed) (hstore : store.Reachable)
    (hcreate : create policy store registry = .ok created) {name : String} {p : EntityPolicy}
    (hp : policy.entity? name = some p) :
    ∃ schema, store.schema? (Text.trim name) = some schema ∧ schema.key = p.key := by
  obtain ⟨schema, hschema, hkey, _⟩ := declared_of_create hkeyed hstore hcreate hp
  exact ⟨schema, hschema, hkey⟩

/-- **Entities are missed under names with white space around them only.** The validator finds the policy of
every entity that an accepted query names, and the store knows the entity by its trimmed name. If the query fails
for want of an entity, then under one of its names that is not trimmed and that the store does not know; and it
has no answer if there is such a name. -/
theorem entities_missed_untrimmed {α : Type} (hkeyed : policy.WellKeyed) (hstore : store.Reachable)
    (hcreate : create policy store registry = .ok created) (hparts : created.SameParts e) (target : Target α)
    {q : Query} (haccepts : policy.accepts q = true) (c : Circumstances) :
    (∀ name ∈ q.entityNames, ∃ p schema, policy.entity? name = some p ∧
      store.schema? (Text.trim name) = some schema ∧ schema.key = p.key) ∧
    (∀ name, (e.execute target q false c).1 = .error (.query (.unknownEntity name)) →
      name ∈ q.entityNames ∧ Text.trim name ≠ name ∧ store.schema? name = none) ∧
    (∀ name ∈ q.entityNames, store.schema? name = none → ∀ r, (e.execute target q false c).1 ≠ .ok r) ∧
    (store.schema? q.entity = none →
      (e.execute target q false c).1 = .error (.query (.unknownEntity q.entity))) := by
  obtain ⟨_, rfl⟩ := create_eq_ok_iff.mp hcreate
  obtain ⟨rfl, rfl, rfl⟩ := hparts
  have hknown : ∀ name ∈ q.entityNames, ∃ p schema, e.policy.entity? name = some p ∧
      e.store.schema? (Text.trim name) = some schema ∧ schema.key = p.key := by
    intro name hname
    obtain ⟨p, hp⟩ := Policy.exists_entity_of_accepts haccepts name hname
    obtain ⟨schema, hschema, hkey⟩ := schema?_trim_of_create hkeyed hstore hcreate hp
    exact ⟨p, schema, hp, hschema, hkey⟩
  -- A name that is not known is not trimmed, since the trimmed ones are known.
  have huntrimmed : ∀ name ∈ q.entityNames, e.store.schema? name = none →
      name ∈ q.entityNames ∧ Text.trim name ≠ name ∧ e.store.schema? name = none := by
    intro name hname hnone
    refine ⟨hname, fun htrim => ?_, hnone⟩
    obtain ⟨_, schema, _, hschema, _⟩ := hknown name hname
    rw [htrim, hnone] at hschema
    exact nomatch hschema
  refine ⟨hknown, ?_, ?_, ?_⟩
  · intro name hmissed
    obtain ⟨_, hsorts, hresult⟩ := execute_eq_query_error_iff.mp hmissed
    exact Query.missesOnly_result hstore.sound huntrimmed e.policy e.registry target hsorts name hresult
  · intro name hname hnone r hr
    obtain ⟨_, hresult⟩ := execute_eq_ok_iff.mp hr
    obtain ⟨f, hfound, _⟩ := Outcome.bind_eq_ok_iff.mp hresult
    obtain ⟨schema, hschema⟩ := Query.exists_schema_of_findings hfound name hname
    rw [hnone] at hschema
    exact nomatch hschema
  · intro hnone
    refine execute_eq_query_error c haccepts ?_ nofun
    rw [Query.result, Query.findings, Query.stock, Store.declaration, hnone]
    rfl

/-- Tasks with a title. -/
def taskSchema : EntitySchema where
  name := "Task"
  fields := [("Id", .scalar .int), ("Title", .scalar .string)]

/-- A task. -/
def taskEntities : List EntityData :=
  [{ schema := taskSchema, records := [[("Id", .int 1), ("Title", .string "Sort the mail")]] }]

/-- Tasks may be found by their identity. -/
def taskPolicy : Policy :=
  ({} : Policy).withEntity { name := "Task", filterable := ["Id"], selectable := ["Id", "Title"] }

theorem taskEntities_wellFormed : ∀ data ∈ taskEntities, data.WellFormed := by decide +kernel

/-- An engine for tasks. -/
def taskEngine : Engine Store where
  policy := taskPolicy
  store := .ofEntities taskEntities

theorem create_taskEngine : create taskPolicy taskEngine.store {} = .ok taskEngine := by
  have hdeclared : ∀ entry ∈ taskPolicy.entities,
      (entry.2.undeclared? taskEngine.store.schema?).isNone = true := by decide +kernel
  exact create_eq_ok_iff.mpr ⟨fun entry hentry => Option.isNone_iff_eq_none.mp (hdeclared entry hentry), rfl⟩

/-- Tasks, and tasks beside themselves, under names with white space: the policy accepts both queries, and neither
has an answer. -/
theorem entities_missed_untrimmed_task :
    (taskEngine.execute Target.value { entity := " Task " } false {}).1 = .error (.query (.unknownEntity " Task ")) ∧
      ∀ r, (taskEngine.execute Target.value
        { entity := "Task", joins := [{ entity := "Task ", on := [("Id", "Id")] }] } false {}).1 ≠ .ok r := by
  have hstore : taskEngine.store.Reachable := Store.reachable_ofEntities taskEntities_wellFormed
  have hkeyed : taskPolicy.WellKeyed := (Policy.wellKeyed_of_entities_eq_nil rfl).withEntity _
  have hunknown : ∀ name ∈ [" Task ", "Task "], (taskEngine.store.schema? name).isNone = true := by decide +kernel
  constructor
  · obtain ⟨_, _, _, hroot⟩ := entities_missed_untrimmed (q := { entity := " Task " }) hkeyed hstore
      create_taskEngine (.refl _) Target.value (by decide +kernel) {}
    exact hroot (Option.isNone_iff_eq_none.mp (hunknown _ (by simp)))
  · obtain ⟨_, _, hjoined, _⟩ := entities_missed_untrimmed
      (q := { entity := "Task", joins := [{ entity := "Task ", on := [("Id", "Id")] }] }) hkeyed hstore
      create_taskEngine (.refl _) Target.value (by decide +kernel) {}
    exact hjoined "Task " (by simp [Query.entityNames]) (Option.isNone_iff_eq_none.mp (hunknown _ (by simp)))

end Engine

end GuardedQuery
