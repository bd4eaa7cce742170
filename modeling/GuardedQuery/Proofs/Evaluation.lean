import GuardedQuery.Engine.Basic
import GuardedQuery.Proofs.Runs
import GuardedQuery.Storage.Store
import Mathlib

/-!
# Answers from the store in memory

A store in memory replies at once, so a query that nobody cancels meets no incident except an unusable
cursor. Its answer is then a plain computation: the stock, which is sorted unless the sort gives up, the findings, which
do not depend on the page either, and the response, which cuts the page out of the findings.

## Main definitions

* `Progress.Undisturbed`, `Run.Yields`: runs that nothing disturbs, and their outcomes.
* `Query.Stock`, `Query.stock`: what a query works out before it sorts.
* `Query.Upset`: queries whose sort gives up.
* `Query.Findings`, `Query.findings`: what a query works out before it cuts out its page.
* `Query.respond`, `Query.result`: the response to findings, and the outcome of a query.
* `Engine.SameParts`: engines that differ in what they have noted only.

## Main statements

* `Query.answer_store`: the answer of a query from a store in memory.
* `Engine.execute_eq_ok_iff`, `Engine.execute_eq_query_error_iff`, `Engine.execute_eq_task_iff`: what an engine hands on
  from it.
* `Engine.sameParts_execute`: answering a query changes no part of the engine.
-/

namespace GuardedQuery

/-! ## Undisturbed runs -/

/-- Nobody has cancelled the run, and the store has replied at once. -/
structure Progress.Undisturbed (p : Progress) : Prop where
  /-- The run is not cancelled. -/
  cancelled : p.cancelled = false
  /-- The store has replied at once. -/
  conduct : p.conduct = .prompt

namespace Run

variable {α β γ : Type}

/-- A run that, unless something disturbs it, comes to the given outcome and then goes on in the given way. -/
def Reaches (r : Run β) (outcome : Except QueryError α) (rest : α → Run β) : Prop :=
  ∀ p : Progress, p.Undisturbed → r p = match outcome with
    | .ok a => rest a p
    | .error e => (.error e, p)

/-- A run that, unless something disturbs it, has the given outcome and meets no incident. -/
def Yields (r : Run α) (outcome : Except QueryError α) : Prop :=
  ∀ p : Progress, p.Undisturbed → r p = (outcome, p)

theorem yields_pure (a : α) : Yields (pure a) (.ok a) := fun _ _ => rfl

theorem yields_ofExcept (outcome : Except QueryError α) : Yields (Step.ofExcept outcome) outcome :=
  fun _ _ => rfl

theorem yields_unlessCancelled : Yields unlessCancelled (.ok ()) := by
  intro p hp
  simp [unlessCancelled, hp.cancelled]

/-- A sequence of runs has the outcome of its parts in sequence. -/
theorem Yields.bind {r : Run α} {outcome : Except QueryError α} {f : α → Run β}
    {g : α → Except QueryError β} (hr : Yields r outcome) (hf : ∀ a, Yields (f a) (g a)) :
    Yields (r >>= f) (outcome >>= g) := by
  intro p hp
  rw [Step.bind_apply, hr p hp]
  cases outcome with
  | error e => rfl
  | ok a => exact hf a p hp

/-- A run followed by one that comes to an outcome comes to the outcomes in sequence. -/
theorem Yields.reaches {r : Run α} {outcome : Except QueryError α} {f : α → Run γ}
    {g : α → Except QueryError β} {rest : β → Run γ} (hr : Yields r outcome)
    (hf : ∀ a, outcome = .ok a → Reaches (f a) (g a) rest) : Reaches (r >>= f) (outcome >>= g) rest := by
  intro p hp
  rw [Step.bind_apply, hr p hp]
  cases outcome with
  | error e => rfl
  | ok a => exact hf a rfl p hp

/-- A run that yields a value may be left out. -/
theorem Yields.skip {r : Run α} {a : α} {f : α → Run γ} {outcome : Except QueryError β} {rest : β → Run γ}
    (hr : Yields r (.ok a)) (hf : Reaches (f a) outcome rest) : Reaches (r >>= f) outcome rest := by
  intro p hp
  rw [Step.bind_apply, hr p hp]
  exact hf p hp

end Run

/-! ## Reading the store -/

namespace Store

/-- The declaration of an entity that must be there. -/
def declaration (s : Store) (entity : String) : Except QueryError EntitySchema :=
  match s.schema? entity with
  | some schema => .ok schema
  | none => .error (.unknownEntity entity)

/-- The records that a query finds. -/
def find (s : Store) (entity : String) (p : Predicate) : Except QueryError Scan :=
  (s.scan entity p false).mapError .ofStorage

theorem yields_declaration (s : Store) (entity : String) :
    Run.Yields (Step.require (.unknownEntity entity) (Storage.schema? s entity)) (s.declaration entity) := by
  intro p _
  have hlookUp : Storage.schema? s entity = s.schema? entity := rfl
  rw [declaration]
  rw [hlookUp]
  cases s.schema? entity <;> rfl

theorem yields_find (s : Store) (entity : String) (pred : Predicate) :
    Run.Yields (Run.scan s entity pred) (s.find entity pred) := by
  intro p hp
  have hreply : Storage.scan s entity pred p.cancelled =
      { result := s.scan entity pred p.cancelled, cancelled := p.cancelled } := rfl
  obtain ⟨cancelled, conduct, incidents⟩ := p
  obtain ⟨hcancelled, hconduct⟩ := hp
  dsimp only at hcancelled hconduct hreply
  subst hcancelled hconduct
  simp [Run.scan, Run.receive, Step.bind_apply, hreply, find]

theorem declaration_eq_ok_iff {s : Store} {entity : String} {schema : EntitySchema} :
    s.declaration entity = .ok schema ↔ s.schema? entity = some schema := by
  rw [declaration]
  cases s.schema? entity <;> simp

theorem declaration_of_table {s : Store} {entity : String} {t : Table} (ht : s.table? entity = some t) :
    s.declaration entity = .ok t.schema := by
  rw [declaration_eq_ok_iff, schema?, ht, Option.map_some]

theorem find_of_table {s : Store} {entity : String} {t : Table} (ht : s.table? entity = some t)
    (p : Predicate) :
    s.find entity p = .ok { records := t.records.filter p.holds, examined := t.records.length } := by
  simp [find, scan, table, ht, Table.read, Except.mapError, bind, Except.bind]

/-- A table that has been read once has a number of records. -/
theorem yields_count {s : Store} {entity : String} {pred : Predicate} {found : Scan}
    (h : s.find entity pred = .ok found) :
    Run.Yields (Run.count s entity pred) (.ok (some found.records.length)) := by
  intro p hp
  have hreply : Storage.count s entity pred p.cancelled =
      { result := s.count entity pred p.cancelled, cancelled := p.cancelled } := rfl
  have hcount : s.count entity pred false = .ok found.records.length := by
    rw [find, scan] at h
    rw [count]
    cases htable : s.table entity with
    | error e => simp [htable, Except.mapError, bind, Except.bind] at h
    | ok t =>
      have hfound : { records := t.records.filter pred.holds, examined := t.records.length } = found := by
        simpa [htable, Table.read, Except.mapError, bind, Except.bind] using h
      simp [Table.read, bind, Except.bind, ← hfound, List.countP_eq_length_filter]
  obtain ⟨cancelled, conduct, incidents⟩ := p
  obtain ⟨hcancelled, hconduct⟩ := hp
  dsimp only at hcancelled hconduct hreply
  subst hcancelled hconduct
  simp [Run.count, Run.receive, Step.bind_apply, hreply, hcount]

end Store

theorem Operation.kindOf_eq_ok_iff {o : Operation} {kind : OperationKind} :
    o.kindOf = .ok kind ↔ OperationKind.parse? o.kind = some kind := by
  rw [Operation.kindOf]
  cases OperationKind.parse? o.kind <;> simp

namespace Join

theorem kindOf_eq_ok_iff {j : Join} {kind : JoinKind} :
    j.kindOf = .ok kind ↔ JoinKind.parse? j.kind = some kind := by
  rw [kindOf]
  cases JoinKind.parse? j.kind <;> simp

/-- A join of rows with records of a store. -/
def onStore (s : Store) (root : EntitySchema) (j : Join) (rows : List Record) (examined : Nat) :
    Except QueryError (List Record × Nat) := do
  let kind ← j.kindOf
  let joined ← s.declaration j.entity
  j.requireFields root joined
  let found ← s.find joined.name .always
  return (rows.flatMap (j.attach kind joined found.records), examined + found.examined)

/-- Joins of rows with records of a store, in order. -/
def allOnStore (s : Store) (root : EntitySchema) :
    List Join → List Record → Nat → Except QueryError (List Record × Nat)
  | [], rows, examined => .ok (rows, examined)
  | j :: rest, rows, examined => do
    let (rows, examined) ← j.onStore s root rows examined
    allOnStore s root rest rows examined

theorem yields_onStore (s : Store) (root : EntitySchema) (j : Join) (rows : List Record) (examined : Nat) :
    Run.Yields (j.apply s root rows examined) (j.onStore s root rows examined) := by
  refine (Run.yields_ofExcept _).bind fun kind => ?_
  refine (s.yields_declaration j.entity).bind fun joined => ?_
  refine (Run.yields_ofExcept _).bind fun _ => ?_
  refine (s.yields_find joined.name .always).bind fun found => ?_
  cases rows with
  | nil => exact Run.yields_pure _
  | cons row rest => exact Run.yields_unlessCancelled.bind fun _ => Run.yields_pure _

theorem yields_allOnStore (s : Store) (root : EntitySchema) (joins : List Join) (rows : List Record)
    (examined : Nat) :
    Run.Yields (applyAll s root joins rows examined) (allOnStore s root joins rows examined) := by
  induction joins generalizing rows examined with
  | nil => exact Run.yields_pure _
  | cons j rest ih => exact (yields_onStore s root j rows examined).bind fun joined => ih joined.1 joined.2

end Join

/-! ## Answers -/

namespace Query

theorem mem_withTieBreaker {keys : List SortKey} {field : String} {type : Option FieldType} {k : SortKey}
    (h : k ∈ withTieBreaker keys field type) : k ∈ keys ∨ k = SortKey.typed { field } type := by
  rw [withTieBreaker] at h
  split at h
  · exact .inl h
  · simpa using h

theorem exists_mem_withTieBreaker (keys : List SortKey) (field : String) (type : Option FieldType) :
    ∃ k ∈ withTieBreaker keys field type, k.field = field := by
  rw [withTieBreaker]
  split
  · rename_i hnamed
    simpa using hnamed
  · exact ⟨SortKey.typed { field } type, by simp, rfl⟩

/-- Only ungrouped queries have a binding, and it is the registered one. -/
theorem bindingFor_eq_ok_iff {q : Query} {registry : Registry} {label : String} {schema : EntitySchema}
    {binding : Option Binding} :
    q.bindingFor registry label schema = .ok binding ↔
      (q.isGrouped = true ∧ binding = none) ∨
        (q.isGrouped = false ∧ binding.isSome = true ∧ registry.get? label schema.name = binding) := by
  rw [bindingFor]
  cases q.isGrouped with
  | true => cases binding <;> simp
  | false =>
    cases registry.get? label schema.name with
    | none => cases binding <;> simp
    | some b => cases binding <;> simp

/-- An ungrouped query has the registered binding. -/
theorem exists_of_bindingFor {q : Query} {registry : Registry} {label : String} {schema : EntitySchema}
    {binding : Option Binding} (hungrouped : q.isGrouped = false)
    (h : q.bindingFor registry label schema = .ok binding) :
    ∃ b, binding = some b ∧ registry.get? label schema.name = some b := by
  rcases bindingFor_eq_ok_iff.mp h with ⟨hgrouped, _⟩ | ⟨_, hsome, hget⟩
  · rw [hungrouped] at hgrouped
    cases hgrouped
  · obtain ⟨b, rfl⟩ := Option.isSome_iff_exists.mp hsome
    exact ⟨b, rfl, hget⟩

/-- What a query works out before it sorts. -/
structure Stock where
  /-- The declaration of the entity. -/
  schema : EntitySchema
  /-- The binding of the answer. -/
  binding : Option Binding
  /-- The rows. -/
  rows : List Record
  /-- The keys that order the rows. -/
  keys : List SortKey
  /-- The number of records that pass the filters. -/
  passing : Nat
  /-- The number of records looked at. -/
  examined : Nat

/-- What a query works out before it cuts out its page. -/
structure Findings where
  /-- The declaration of the entity. -/
  schema : EntitySchema
  /-- The binding of the answer. -/
  binding : Option Binding
  /-- The sorted rows. -/
  rows : List ShapedRow
  /-- The keys that order the rows. -/
  keys : List SortKey
  /-- The number of records that pass the filters. -/
  passing : Nat
  /-- The number of records looked at. -/
  examined : Nat

/-- The stock of a query in a store. -/
def stock (q : Query) (policy : Policy) (s : Store) (registry : Registry) (label : String) :
    Except QueryError Stock := do
  let schema ← s.declaration q.entity
  let binding ← q.bindingFor registry label schema
  let predicate ← schema.columns.compileAll q.filters
  let found ← s.find schema.name predicate
  let (rows, examined) ← Join.allOnStore s schema q.joins found.records found.examined
  let rows ← Operation.onAllRecords schema policy.maxPageSize q.operations rows
  let (rows, keys) ← q.sorting s.schema? schema binding rows
  return { schema, binding, rows, keys, passing := found.records.length, examined }

/-- The stock has the declaration of the query's entity. -/
theorem declaration_of_stock {q : Query} {policy : Policy} {s : Store} {registry : Registry} {label : String}
    {st : Stock} (h : q.stock policy s registry label = .ok st) : s.declaration q.entity = .ok st.schema := by
  obtain ⟨schema, hschema, h⟩ := Outcome.bind_eq_ok_iff.mp h
  obtain ⟨binding, _, h⟩ := Outcome.bind_eq_ok_iff.mp h
  obtain ⟨predicate, _, h⟩ := Outcome.bind_eq_ok_iff.mp h
  obtain ⟨found, _, h⟩ := Outcome.bind_eq_ok_iff.mp h
  obtain ⟨joined, _, h⟩ := Outcome.bind_eq_ok_iff.mp h
  obtain ⟨worked, _, h⟩ := Outcome.bind_eq_ok_iff.mp h
  obtain ⟨unsorted, _, h⟩ := Outcome.bind_eq_ok_iff.mp h
  exact Except.ok.inj h ▸ hschema

/-- The findings that a query makes of its stock, given the sorted rows. -/
def Stock.finish (st : Stock) (q : Query) (sorted : List Record) : Except QueryError Findings := do
  let rows ← Operation.onAllRows ShapedRow.shaped q.operations (sorted.map (ShapedRow.ofRecord st.binding))
  return { schema := st.schema, binding := st.binding, rows, keys := st.keys, passing := st.passing,
           examined := st.examined }

/-- The sorted rows of a stock. A sort that gives up cancels the query. -/
def Stock.sorted (st : Stock) : Except QueryError (List Record) :=
  match SortKey.sort? st.keys st.rows with
  | some sorted => .ok sorted
  | none => .error .cancelled

theorem Stock.sorted_eq_ok_iff {st : Stock} {sorted : List Record} :
    st.sorted = .ok sorted ↔ SortKey.sort? st.keys st.rows = some sorted := by
  rw [Stock.sorted]
  cases SortKey.sort? st.keys st.rows <;> simp

/-- The sort of the query's stock gives up. -/
def Upset (q : Query) (policy : Policy) (s : Store) (registry : Registry) (label : String) : Prop :=
  ∃ st, q.stock policy s registry label = .ok st ∧ SortKey.sort? st.keys st.rows = none

/-- The findings of a query in a store. -/
def findings (q : Query) (policy : Policy) (s : Store) (registry : Registry) (label : String) :
    Except QueryError Findings := do
  let st ← q.stock policy s registry label
  let sorted ← st.sorted
  st.finish q sorted

/-- The page of a query, and why its cursor could not be used. -/
def pageOf (q : Query) (policy : Policy) (f : Findings) : Page ShapedRow × Option CursorError :=
  Page.ofRequest f.keys (policy.effectivePageSize (q.page.bind PageRequest.size))
    (q.page.bind PageRequest.cursor) ShapedRow.source f.rows

/-- The incidents of a query that nothing disturbs. -/
def incidents (q : Query) (policy : Policy) (f : Findings) : List Incident :=
  ((q.pageOf policy f).2.map (Incident.cursorRejected f.schema.name)).toList

/-- The response to findings. -/
def respond {α : Type} (q : Query) (policy : Policy) (target : Target α) (f : Findings) :
    Except QueryError (Response α) := do
  let page := (q.pageOf policy f).1
  let items ← page.rows.mapM (q.item target f.binding)
  return {
    items
    size := policy.effectivePageSize (q.page.bind PageRequest.size)
    nextCursor := page.next
    totalCount := if q.wantsCount then some f.passing else none
    rowsExamined := f.examined }

/-- The outcome of an accepted query. -/
def result {α : Type} (q : Query) (policy : Policy) (s : Store) (registry : Registry) (target : Target α) :
    Except QueryError (Response α) :=
  q.findings policy s registry target.label >>= q.respond policy target

/-- Cutting out the page only meets an unusable cursor. -/
theorem page_apply (q : Query) (policy : Policy) (f : Findings) (p : Progress) :
    Run.page f.schema.name f.keys (policy.effectivePageSize (q.page.bind PageRequest.size))
      (q.page.bind PageRequest.cursor) ShapedRow.source f.rows p =
      (.ok (q.pageOf policy f).1, { p with incidents := p.incidents ++ q.incidents policy f }) := by
  rw [Run.page, incidents, pageOf]
  cases Page.ofRequest f.keys (policy.effectivePageSize (q.page.bind PageRequest.size))
    (q.page.bind PageRequest.cursor) ShapedRow.source f.rows with
  | mk page problem =>
    cases problem with
    | none => simp
    | some e => rfl

/-- The rest of a run, once the stock is sorted. -/
def remainder {α : Type} (q : Query) (policy : Policy) (target : Target α) (s : Store) (predicate : Predicate)
    (st : Stock) (sorted : List Record) : Run (Response α) := do
  let rows ← Step.ofExcept
    (Operation.onAllRows ShapedRow.shaped q.operations (sorted.map (ShapedRow.ofRecord st.binding)))
  let size := policy.effectivePageSize (q.page.bind PageRequest.size)
  let page ← Run.page st.schema.name st.keys size (q.page.bind PageRequest.cursor) ShapedRow.source rows
  let total ← if q.wantsCount then Run.count s st.schema.name predicate else pure none
  let items ← Step.ofExcept (page.rows.mapM (q.item target st.binding))
  return { items, size, nextCursor := page.next, totalCount := total, rowsExamined := st.examined }

section

variable {α : Type} (q : Query) (policy : Policy) (target : Target α) {s : Store} {predicate : Predicate} {found : Scan}
  (st : Stock) (hfound : s.find st.schema.name predicate = .ok found) (hpassing : st.passing = found.records.length)

include hfound hpassing

/-- The rest of a run comes to findings, and then to their response. -/
theorem reaches_remainder (sorted : List Record) :
    Run.Reaches (q.remainder policy target s predicate st sorted) (st.finish q sorted) fun f p =>
      (q.respond policy target f, { p with incidents := p.incidents ++ q.incidents policy f }) := by
  refine (Run.yields_ofExcept _).reaches fun finished _ => ?_
  intro p hp
  let f : Findings :=
    { schema := st.schema, binding := st.binding, rows := finished, keys := st.keys, passing := st.passing,
      examined := st.examined }
  have hundisturbed : Progress.Undisturbed { p with incidents := p.incidents ++ q.incidents policy f } :=
    ⟨hp.cancelled, hp.conduct⟩
  have hitems : Run.Yields (do
      let items ← Step.ofExcept ((q.pageOf policy f).1.rows.mapM (q.item target st.binding))
      return {
        items
        size := policy.effectivePageSize (q.page.bind PageRequest.size)
        nextCursor := (q.pageOf policy f).1.next
        totalCount := if q.wantsCount then some st.passing else none
        rowsExamined := st.examined }) (q.respond policy target f) :=
    (Run.yields_ofExcept _).bind fun items => Run.yields_pure _
  rw [Step.bind_apply, page_apply q policy f]
  dsimp only
  cases hcount : q.wantsCount with
  | true =>
    rw [if_pos rfl, Step.bind_apply, Store.yields_count hfound _ hundisturbed]
    rw [hcount, hpassing] at hitems
    exact hitems _ hundisturbed
  | false =>
    rw [hcount] at hitems
    exact hitems _ hundisturbed

/-- From the sort on, a run breaks down if the sort gives up, and otherwise comes to findings and their response. -/
theorem sort_remainder {p : Progress} (hp : p.Undisturbed) :
    (Run.sort st.keys st.rows >>= q.remainder policy target s predicate st) p =
      match SortKey.sort? st.keys st.rows with
      | none => (.error .cancelled, { p with conduct := .broken })
      | some sorted =>
        match st.finish q sorted with
        | .error e => (.error e, p)
        | .ok f => (q.respond policy target f, { p with incidents := p.incidents ++ q.incidents policy f }) := by
  rw [Step.bind_apply, Run.sort]
  cases SortKey.sort? st.keys st.rows with
  | none => rfl
  | some sorted =>
    have hrest := q.reaches_remainder policy target st hfound hpassing sorted p hp
    dsimp only
    rw [hrest]
    cases st.finish q sorted <;> rfl

end

/-- **Answering from a store in memory is a plain computation** of a stock, findings and their response. A sort that
gives up breaks the run down, and the only incident that can happen is an unusable cursor. -/
theorem answer_store {α : Type} (q : Query) (policy : Policy) (s : Store) (registry : Registry)
    (target : Target α) :
    Run.Reaches (q.answer policy s registry target) (q.stock policy s registry target.label) fun st p =>
      match SortKey.sort? st.keys st.rows with
      | none => (.error .cancelled, { p with conduct := .broken })
      | some sorted =>
        match st.finish q sorted with
        | .error e => (.error e, p)
        | .ok f => (q.respond policy target f, { p with incidents := p.incidents ++ q.incidents policy f }) := by
  refine (s.yields_declaration q.entity).reaches fun schema _ => ?_
  refine (Run.yields_ofExcept _).reaches fun binding _ => ?_
  refine (Run.yields_ofExcept _).reaches fun predicate _ => ?_
  refine (s.yields_find schema.name predicate).reaches fun found hfound => ?_
  refine (Join.yields_allOnStore s schema q.joins _ _).reaches fun joined _ => ?_
  refine (Run.yields_ofExcept _).reaches fun rows _ => ?_
  refine Run.yields_unlessCancelled.skip ?_
  rw [arrange, bind_assoc]
  refine (Run.yields_ofExcept _).reaches fun unsorted _ => ?_
  let st : Stock :=
    { schema, binding, rows := unsorted.1, keys := unsorted.2, passing := found.records.length, examined := joined.2 }
  rw [bind_assoc]
  simp only [pure_bind]
  intro p hp
  exact q.sort_remainder policy target st hfound rfl hp

end Query

namespace Engine

/-- An engine concludes a run in which the store has replied at once. -/
theorem finish_eq_conclude {σ α : Type} (e : Engine σ) (q : Query) (outcome : Except QueryError (Response α))
    {p : Progress} (hp : p.conduct = .prompt) (c : Circumstances) :
    e.finish q outcome p c = (e.absorb p.incidents).conclude q outcome c := by
  rw [finish, hp]

/-- An engine hands on the outcome of a run in which the store has replied at once. -/
theorem finish_prompt {σ α : Type} (e : Engine σ) (q : Query) (outcome : Except QueryError (Response α))
    {p : Progress} (hp : p.conduct = .prompt) (c : Circumstances) :
    (e.finish q outcome p c).1 = outcome.mapError .query := by
  rw [finish_eq_conclude e q outcome hp]
  cases outcome <;> rfl

/-- Accepting a query is logged and counted. -/
theorem accept_eq_of_accepts {σ : Type} {e : Engine σ} {q : Query} (h : e.policy.accepts q = true)
    (stamp : AuditStamp) :
    e.accept q stamp =
      (.ok (), { e.tell .queryReceived [("entity", q.entity)] with metrics := e.metrics.validated }) := by
  have hnone : (e.tell .queryReceived [("entity", q.entity)]).policy.violations q = [] :=
    List.isEmpty_iff.mp h
  simp only [accept, hnone]
  rfl

/-- A query that the policy does not accept is refused. -/
theorem accept_eq_of_not_accepts {σ : Type} {e : Engine σ} {q : Query} (h : e.policy.accepts q = false)
    (stamp : AuditStamp) :
    e.accept q stamp = (.error (.rejected (e.policy.violations q)),
      (e.tell .queryReceived [("entity", q.entity)]).refuse q (e.policy.violations q) stamp) := by
  have hsome : e.policy.violations q ≠ [] := fun hnil => by simp [Policy.accepts, hnil] at h
  obtain ⟨v, vs, hcons⟩ := List.exists_cons_of_ne_nil hsome
  have htold : (e.tell .queryReceived [("entity", q.entity)]).policy.violations q = v :: vs := hcons
  simp only [accept, htold, hcons]

/-- The store is never asked about a query that the policy does not accept. -/
theorem execute_of_not_accepts {σ α : Type} [Storage σ] {e : Engine σ} {q : Query} (h : e.policy.accepts q = false)
    (target : Target α) (cancelled : Bool) (c : Circumstances) :
    e.execute target q cancelled c = (.error (.rejected (e.policy.violations q)),
      (e.tell .queryReceived [("entity", q.entity)]).refuse q (e.policy.violations q) c.stamp) := by
  simp only [execute, accept_eq_of_not_accepts h]

/-- Accepting a query only adds notes. -/
theorem accept_of_accepts {σ : Type} {e : Engine σ} {q : Query} (h : e.policy.accepts q = true)
    (stamp : AuditStamp) :
    ∃ noted : Engine σ, e.accept q stamp = (.ok (), noted) ∧ noted.policy = e.policy ∧
      noted.store = e.store ∧ noted.registry = e.registry :=
  ⟨_, accept_eq_of_accepts h stamp, rfl, rfl, rfl⟩

/-- What an engine with a store in memory hands on from an accepted query: nothing but a breakdown if its sort gives up,
and its outcome otherwise. -/
theorem execute_store {α : Type} {e : Engine Store} {q : Query} (haccepts : e.policy.accepts q = true)
    (target : Target α) (c : Circumstances) :
    (q.Upset e.policy e.store e.registry target.label ∧ (e.execute target q false c).1 = .error .task ∧
        q.result e.policy e.store e.registry target = .error .cancelled) ∨
      ¬q.Upset e.policy e.store e.registry target.label ∧
        (e.execute target q false c).1 = (q.result e.policy e.store e.registry target).mapError .query := by
  obtain ⟨noted, hnoted, hpolicy, hstore, hregistry⟩ := accept_of_accepts haccepts c.stamp
  have hstart : Progress.Undisturbed { cancelled := false } := ⟨rfl, rfl⟩
  have hanswer := q.answer_store e.policy e.store e.registry target _ hstart
  have hexecute : (e.execute target q false c).1 =
      (noted.finish q (q.answer e.policy e.store e.registry target { cancelled := false }).1
        (q.answer e.policy e.store e.registry target { cancelled := false }).2 c).1 := by
    simp only [execute, hnoted, run, hpolicy, hstore, hregistry]
  rw [hexecute, hanswer, Query.Upset, Query.result, Query.findings]
  cases q.stock e.policy e.store e.registry target.label with
  | error error => exact .inr ⟨by simp, finish_prompt _ q _ rfl c⟩
  | ok st =>
    cases hsort : SortKey.sort? st.keys st.rows with
    | none =>
      refine .inl ⟨⟨st, rfl, hsort⟩, by simp [hsort, finish], ?_⟩
      simp [Query.Stock.sorted, hsort, bind, Except.bind]
    | some sorted =>
      refine .inr ⟨?_, ?_⟩
      · rintro ⟨_, hst, hnone⟩
        obtain rfl := Except.ok.inj hst
        simp [hsort] at hnone
      · have hsorted : st.sorted = .ok sorted := by rw [Query.Stock.sorted, hsort]
        simp only [hsort, hsorted, bind, Except.bind]
        cases st.finish q sorted with
        | error error => exact finish_prompt _ q _ rfl c
        | ok f => exact finish_prompt _ q _ rfl c

/-- An engine hands on a response if and only if the policy accepts the query and the response is the
outcome of the query. -/
theorem execute_eq_ok_iff {α : Type} {e : Engine Store} {target : Target α} {q : Query} {c : Circumstances}
    {r : Response α} :
    (e.execute target q false c).1 = .ok r ↔
      e.policy.accepts q = true ∧ q.result e.policy e.store e.registry target = .ok r := by
  cases haccepts : e.policy.accepts q with
  | false => simp [execute_of_not_accepts haccepts]
  | true =>
    rcases execute_store haccepts target c with ⟨_, hexecute, hresult⟩ | ⟨_, hexecute⟩
    · simp [hexecute, hresult]
    · rw [hexecute]
      cases q.result e.policy e.store e.registry target <;> simp [Except.mapError]

/-- An engine hands on that a query has no answer if and only if the policy accepts the query and this is its
outcome, although its sort does not give up. -/
theorem execute_eq_query_error_iff {α : Type} {e : Engine Store} {target : Target α} {q : Query}
    {c : Circumstances} {error : QueryError} :
    (e.execute target q false c).1 = .error (.query error) ↔
      e.policy.accepts q = true ∧ ¬q.Upset e.policy e.store e.registry target.label ∧
        q.result e.policy e.store e.registry target = .error error := by
  cases haccepts : e.policy.accepts q with
  | false => simp [execute_of_not_accepts haccepts]
  | true =>
    rcases execute_store haccepts target c with ⟨hupset, hexecute, _⟩ | ⟨hupset, hexecute⟩
    · simp [hexecute, hupset]
    · rw [hexecute]
      cases q.result e.policy e.store e.registry target <;> simp [Except.mapError, hupset]

/-- An engine hands on that a run broke down if and only if the policy accepts the query and its sort gives up. -/
theorem execute_eq_task_iff {α : Type} {e : Engine Store} {target : Target α} {q : Query} {c : Circumstances} :
    (e.execute target q false c).1 = .error .task ↔
      e.policy.accepts q = true ∧ q.Upset e.policy e.store e.registry target.label := by
  cases haccepts : e.policy.accepts q with
  | false => simp [execute_of_not_accepts haccepts]
  | true =>
    rcases execute_store haccepts target c with ⟨hupset, hexecute, _⟩ | ⟨hupset, hexecute⟩
    · simp [hexecute, hupset]
    · rw [hexecute]
      cases q.result e.policy e.store e.registry target <;> simp [Except.mapError, hupset]

/-- An outcome other than that of a cancelled query is handed on. -/
theorem execute_eq_query_error {α : Type} {e : Engine Store} {target : Target α} {q : Query} (c : Circumstances)
    {error : QueryError} (haccepts : e.policy.accepts q = true)
    (hresult : q.result e.policy e.store e.registry target = .error error) (herror : error ≠ .cancelled) :
    (e.execute target q false c).1 = .error (.query error) := by
  rcases execute_store haccepts target c with ⟨_, _, hcancelled⟩ | ⟨_, hexecute⟩
  · exact absurd (Except.error.inj (hresult.symm.trans hcancelled)) herror
  · rw [hexecute, hresult]
    rfl

/-! ## What an engine keeps -/

/-- Two engines with the same policy, store and bindings; they may have noted different things. -/
structure SameParts {σ : Type} (e e' : Engine σ) : Prop where
  /-- The policy is the same. -/
  policy : e'.policy = e.policy
  /-- The store is the same. -/
  store : e'.store = e.store
  /-- The bindings are the same. -/
  registry : e'.registry = e.registry

theorem SameParts.refl {σ : Type} (e : Engine σ) : SameParts e e := ⟨rfl, rfl, rfl⟩

theorem SameParts.trans {σ : Type} {e₁ e₂ e₃ : Engine σ} (h : SameParts e₁ e₂) (h' : SameParts e₂ e₃) :
    SameParts e₁ e₃ :=
  ⟨h'.policy.trans h.policy, h'.store.trans h.store, h'.registry.trans h.registry⟩

theorem sameParts_keep {σ : Type} (e : Engine σ) (r : AuditRecord) : SameParts e (e.keep r) := by
  rw [keep]
  split <;> exact ⟨rfl, rfl, rfl⟩

theorem sameParts_finish {σ α : Type} (e : Engine σ) (q : Query)
    (outcome : Except QueryError (Response α)) (p : Progress) (c : Circumstances) :
    SameParts e (e.finish q outcome p c).2 := by
  have habsorb : SameParts e (e.absorb p.incidents) := ⟨rfl, rfl, rfl⟩
  have hconclude : SameParts (e.absorb p.incidents) ((e.absorb p.incidents).conclude q outcome c).2 := by
    cases outcome with
    | ok r =>
      refine SameParts.trans ?_ (sameParts_keep _ _)
      exact ⟨rfl, rfl, rfl⟩
    | error error =>
      refine SameParts.trans ?_ (sameParts_keep _ _)
      exact ⟨rfl, rfl, rfl⟩
  rw [finish]
  cases p.conduct with
  | broken => exact habsorb
  | prompt | stalled => exact habsorb.trans hconclude

theorem sameParts_accept {σ : Type} (e : Engine σ) (q : Query) (stamp : AuditStamp) :
    SameParts e (e.accept q stamp).2 := by
  unfold accept
  dsimp only
  split
  · exact ⟨rfl, rfl, rfl⟩
  · refine SameParts.trans ?_ (sameParts_keep _ _)
    exact ⟨rfl, rfl, rfl⟩

/-- Answering a query changes neither the policy nor the store nor the bindings. -/
theorem sameParts_execute {σ α : Type} [Storage σ] (e : Engine σ) (target : Target α) (q : Query)
    (cancelled : Bool) (c : Circumstances) : SameParts e (e.execute target q cancelled c).2 := by
  have haccept := sameParts_accept e q c.stamp
  rw [execute]
  cases houtcome : e.accept q c.stamp with
  | mk outcome noted =>
    rw [houtcome] at haccept
    cases outcome with
    | error error => exact haccept
    | ok _ => exact haccept.trans (sameParts_finish noted q _ _ c)

/-- An accepted query with a response is answered by an engine with the same parts. -/
theorem exists_execute_eq {α : Type} {e : Engine Store} {target : Target α} {q : Query} (c : Circumstances)
    {r : Response α} (haccepts : e.policy.accepts q = true)
    (hresult : q.result e.policy e.store e.registry target = .ok r) :
    ∃ e', e.execute target q false c = (.ok r, e') ∧ SameParts e e' :=
  ⟨(e.execute target q false c).2, Prod.ext (execute_eq_ok_iff.mpr ⟨haccepts, hresult⟩) rfl,
    sameParts_execute e target q false c⟩

end Engine

end GuardedQuery
