import GuardedQuery.Proofs.ExactKeys
import Mathlib.Logic.Relation

/-!
# Walks through a growing store

A client walks through the pages of a query: every request carries the cursor of the response before it, and
between two requests records may be added to the store, to any entity. As long as the keys are over exact
columns, the walk never returns a record twice, returns records in the order of the keys, and has returned every
record that was there from the start when it ends.

## Main definitions

* `Walk`, `Walk.Step`: a walk, and what may happen next.

## Main statements

* `Walk.keyset_paging_exact`: what a walk returns.
-/

namespace GuardedQuery

theorem Policy.effectivePageSize_pos (p : Policy) (requested : Option Int) :
    0 < p.effectivePageSize requested := by
  unfold effectivePageSize
  dsimp only
  omega

/-- A client on its way through the pages of a query. -/
structure Walk where
  /-- The engine that answers, with its store. -/
  engine : Engine Store
  /-- The cursor of the last response. -/
  cursor : Option String := none
  /-- The items of all responses so far. -/
  items : List Value := []
  /-- Whether the last response had no cursor. -/
  ended : Bool := false

namespace Walk

open SortKey (compareRecords)

/-- The walk over a store with more records. -/
def stocked (w : Walk) (store : Store) : Walk := { w with engine := { w.engine with store } }

/-- The walk after a response, which an engine has handed on and noted. -/
def after (w : Walk) (r : Response Value) (engine : Engine Store) : Walk where
  engine := engine
  cursor := r.nextCursor
  items := w.items ++ r.items
  ended := r.nextCursor.isNone

/-- What may happen next: records are added to the store, or the client requests the next page, of any size
that the policy admits. -/
inductive Step (q : Query) : Walk → Walk → Prop
  /-- Well-formed records are added to an entity. -/
  | grow {w : Walk} {entity : String} {records : List Record} {store : Store}
      (hwell : ∀ r ∈ records, (Value.object r).WellFormed)
      (hinsert : w.engine.store.insert entity records = .ok store) :
      Step q w (w.stocked store)
  /-- A request with the cursor of the last response is answered. -/
  | fetch {w : Walk} {page : Option PageRequest} {c : Circumstances} {r : Response Value}
      {engine : Engine Store} (hopen : w.ended = false) (hcursor : page.bind PageRequest.cursor = w.cursor)
      (hexecute : w.engine.execute Target.value { q with page } false c = (.ok r, engine)) :
      Step q w (w.after r engine)

/-- The records of a query's entity that pass its filters. -/
def passing (q : Query) (plan : Query.Plan) (s : Store) : List Record :=
  (s.recordsOf q.entity).filter plan.predicate.holds

/-- A walk that belongs to a trail: the engine has kept its policy and its bindings, the store has only grown,
and the items are those of the records on the trail, which is faithful. -/
structure Follows (e : Engine Store) (q : Query) (schema : EntitySchema) (plan : Query.Plan) (trail : Trail)
    (w : Walk) : Prop where
  /-- The policy is the same. -/
  policy : w.engine.policy = e.policy
  /-- The bindings are the same. -/
  registry : w.engine.registry = e.registry
  /-- The store can come about. -/
  reachable : w.engine.store.Reachable
  /-- The declaration is the same. -/
  declared : w.engine.store.schema? q.entity = some schema
  /-- The items are those of the records on the trail. -/
  items : w.items = trail.visited.map (q.itemOf plan)
  /-- The cursor is that of the trail. -/
  cursor : w.cursor = trail.cursor
  /-- The walk ends with the trail. -/
  ended : w.ended = trail.ended
  /-- The trail is faithful. -/
  faithful : trail.Faithful plan.keys (passing q plan e.store) (passing q plan w.engine.store)

variable {e : Engine Store} {q : Query} {schema : EntitySchema} {plan : Query.Plan} {trail : Trail} {w w' : Walk}

theorem Follows.exists_table (h : Follows e q schema plan trail w) :
    ∃ t, w.engine.store.table? q.entity = some t ∧ w.engine.store.table? t.schema.name = some t ∧
      t.schema = schema ∧ t.Sound ∧ (∀ r ∈ t.records, ∀ m ∈ r, m.2.WellFormed) ∧
      passing q plan w.engine.store = t.records.filter plan.predicate.holds := by
  obtain ⟨t, ht, hschema⟩ := Option.map_eq_some_iff.mp h.declared
  have hsound := h.reachable.sound
  refine ⟨t, ht, hsound.table?_name ht, hschema, (hsound _ t ht).1, h.reachable.wellFormed _ t ht, ?_⟩
  rw [passing, Store.recordsOf, ht]
  rfl

/-- The keys of the plan tell the records that pass apart. -/
theorem Follows.separates (h : Follows e q schema plan trail w) (hplain : q.IsPlain)
    (hexact : q.ExactKeys schema) (hplan : q.Planned e.registry Target.value.label schema plan) :
    SortKey.Separates plan.keys (passing q plan w.engine.store) := by
  obtain ⟨t, _, _, rfl, hsound, hwell, hpassing⟩ := h.exists_table
  rw [hpassing]
  exact hplan.separates hplain.joins hexact hsound hwell _

/-- Added records keep a walk on its trail. -/
theorem Follows.grow (h : Follows e q schema plan trail w) {entity : String} {records : List Record}
    {store : Store} (hwell : ∀ r ∈ records, (Value.object r).WellFormed)
    (hinsert : w.engine.store.insert entity records = .ok store) :
    Follows e q schema plan trail (w.stocked store) := by
  obtain ⟨t, ht, _, hschema, _, _, hpassing⟩ := h.exists_table
  obtain ⟨t', added, ht', hschema', hrecords⟩ :=
    Store.grows_insert h.reachable.sound hinsert q.entity t ht
  have hheld : ∀ r ∈ passing q plan w.engine.store, r ∈ passing q plan store := by
    intro r hr
    rw [hpassing] at hr
    rw [passing, Store.recordsOf, ht', Option.map_some, Option.getD_some, hrecords, List.filter_append]
    exact List.mem_append_left _ hr
  have hdeclared : store.schema? q.entity = some schema := by
    rw [Store.schema?, ht', Option.map_some, hschema', hschema]
  exact
    { policy := h.policy
      registry := h.registry
      reachable := .insert h.reachable hwell hinsert
      declared := hdeclared
      items := h.items
      cursor := h.cursor
      ended := h.ended
      faithful := h.faithful.grow hheld }

/-- The response to a request is the page that follows the trail. -/
theorem Follows.result_eq (h : Follows e q schema plan trail w) (hplain : q.IsPlain) (hexact : q.ExactKeys schema)
    (hplan : q.Planned e.registry Target.value.label schema plan) (page : Option PageRequest) :
    ∃ r, Query.result { q with page } w.engine.policy w.engine.store w.engine.registry Target.value = .ok r ∧
      (page.bind PageRequest.cursor = w.cursor →
        r.items = (trail.page plan.keys (e.policy.effectivePageSize (page.bind PageRequest.size))
          (passing q plan w.engine.store)).rows.map (q.itemOf plan) ∧
        r.nextCursor = (trail.page plan.keys (e.policy.effectivePageSize (page.bind PageRequest.size))
          (passing q plan w.engine.store)).next) := by
  have hkeys := h.separates hplain hexact hplan
  obtain ⟨t, ht, hname, rfl, _, _, hpassing⟩ := h.exists_table
  have hplain' : Query.IsPlain { q with page } := ⟨hplain.ungrouped, hplain.joins, hplain.operations⟩
  have hplan' : Query.Planned { q with page } e.registry Target.value.label t.schema plan :=
    ⟨hplan.binding, hplan.predicate, hplan.keys⟩
  have hresult := Query.result_plain hplain' e.policy ht hname hplan' (hpassing ▸ hkeys.orders)
  rw [h.policy, h.registry]
  refine ⟨_, hresult, ?_⟩
  intro hcursor
  rw [h.cursor] at hcursor
  rw [hpassing]
  simp only [Query.recordPage, hcursor, Trail.page]
  exact ⟨rfl, trivial⟩

/-- An answered request leads a walk further along its trail. -/
theorem Follows.fetch (h : Follows e q schema plan trail w) (hplain : q.IsPlain) (hexact : q.ExactKeys schema)
    (hplan : q.Planned e.registry Target.value.label schema plan) {page : Option PageRequest}
    {c : Circumstances} {r : Response Value} {engine : Engine Store} (hopen : w.ended = false)
    (hcursor : page.bind PageRequest.cursor = w.cursor)
    (hexecute : w.engine.execute Target.value { q with page } false c = (.ok r, engine)) :
    Follows e q schema plan
      (trail.turn plan.keys (e.policy.effectivePageSize (page.bind PageRequest.size))
        (passing q plan w.engine.store)) (w.after r engine) := by
  have hparts : Engine.SameParts w.engine engine := by
    have := w.engine.sameParts_execute Target.value { q with page } false c
    rwa [hexecute] at this
  obtain ⟨_, hresult⟩ := Engine.execute_eq_ok_iff.mp (congrArg Prod.fst hexecute)
  obtain ⟨r', hresult', hpage⟩ := h.result_eq hplain hexact hplan page
  obtain rfl : r = r' := Except.ok.inj (hresult.symm.trans hresult')
  obtain ⟨hitems, hnext⟩ := hpage hcursor
  have hopen' : trail.ended = false := h.ended ▸ hopen
  have hstore : (w.after r engine).engine.store = w.engine.store := hparts.store
  exact
    { policy := hparts.policy.trans h.policy
      registry := hparts.registry.trans h.registry
      reachable := by rw [hstore]; exact h.reachable
      declared := by rw [hstore]; exact h.declared
      items := by rw [after, h.items, hitems, Trail.turn, List.map_append]
      cursor := hnext
      ended := by rw [after, hnext]; rfl
      faithful := by
        rw [hstore]
        exact h.faithful.turn (h.separates hplain hexact hplan) hopen' (e.policy.effectivePageSize_pos _) }

/-- Whatever happens, a walk stays on a trail. -/
theorem Follows.run (h : Follows e q schema plan trail w) (hplain : q.IsPlain) (hexact : q.ExactKeys schema)
    (hplan : q.Planned e.registry Target.value.label schema plan)
    (hrun : Relation.ReflTransGen (Step q) w w') : ∃ trail', Follows e q schema plan trail' w' := by
  induction hrun with
  | refl => exact ⟨trail, h⟩
  | tail _ hstep ih =>
    obtain ⟨trail', h'⟩ := ih
    cases hstep with
    | grow hwell hinsert => exact ⟨trail', h'.grow hwell hinsert⟩
    | fetch hopen hcursor hexecute => exact ⟨_, h'.fetch hplain hexact hplan hopen hcursor hexecute⟩

/-- **Keyset paging is exact while the store grows.** Take an ungrouped query without joins and operations
whose keys are over exact columns and which an engine answers, and any walk through its pages. The items are
those of stored records that pass the filters, strictly increasing in the order of the requested keys followed
by the identity, so none of them is returned twice; once the walk has ended, every record that was in the store
when it began and passes the filters has been returned once. No admitted request goes unanswered. -/
theorem keyset_paging_exact (hreachable : e.store.Reachable)
    (hschema : e.store.schema? q.entity = some schema) (hplain : q.IsPlain) (hexact : q.ExactKeys schema)
    {c : Circumstances} {first : Response Value} (hfirst : (e.execute Target.value q false c).1 = .ok first)
    (hwalk : Relation.ReflTransGen (Step q) { engine := e } w) :
    ∃ (binding : Binding) (predicate : Predicate) (sources : List Record),
      e.registry.get? Target.value.label schema.name = some binding ∧
      schema.columns.compileAll q.filters = .ok predicate ∧
      w.items = sources.map (fun r => .object (binding.narrow q.select (binding.project r))) ∧
      (∀ r ∈ sources, r ∈ w.engine.store.recordsOf q.entity ∧ predicate.holds r = true) ∧
      sources.Nodup ∧
      sources.Pairwise (fun a b =>
        compareRecords (q.requestedKeys schema ++ [{ field := schema.identity }]) a b = .lt) ∧
      (w.ended = true →
        ∀ r ∈ e.store.recordsOf q.entity, predicate.holds r = true → sources.count r = 1) ∧
      ∀ page c, w.engine.policy.accepts { q with page } = true →
        ∃ r, (w.engine.execute Target.value { q with page } false c).1 = .ok r := by
  obtain ⟨t, ht, rfl⟩ := Option.map_eq_some_iff.mp hschema
  obtain ⟨_, hresult⟩ := Engine.execute_eq_ok_iff.mp hfirst
  obtain ⟨found, hfindings, _⟩ := Outcome.bind_eq_ok_iff.mp hresult
  obtain ⟨plan, hplan⟩ := Query.exists_plan hplain ht hfindings
  have hstart : Follows e q t.schema plan {} { engine := e } :=
    { policy := rfl
      registry := rfl
      reachable := hreachable
      declared := hschema
      items := rfl
      cursor := rfl
      ended := rfl
      faithful := Trail.faithful_start plan.keys _ }
  obtain ⟨trail, h⟩ := hstart.run hplain hexact hplan hwalk
  have hkeys := h.separates hplain hexact hplan
  refine ⟨plan.binding, plan.predicate, trail.visited, hplan.binding, hplan.predicate, h.items, ?_,
    h.faithful.nodup hkeys, ?_, ?_, ?_⟩
  · intro r hr
    exact List.mem_filter.mp (h.faithful.genuine r hr)
  · exact h.faithful.increasing.imp fun hlt => hplan.lt_of_lt hplain.joins hexact hlt
  · intro hended r hr hholds
    rw [h.ended] at hended
    exact h.faithful.count_eq_one hkeys hended (List.mem_filter.mpr ⟨hr, hholds⟩)
  · intro page c haccepts
    obtain ⟨r, hr, _⟩ := h.result_eq hplain hexact hplan page
    exact ⟨r, Engine.execute_eq_ok_iff.mpr ⟨haccepts, hr⟩⟩

/-! ## Tasks that are added between two pages -/

/-- Tasks with a due date. -/
def taskSchema : EntitySchema where
  name := "Task"
  fields := [("Due", .scalar .datetime), ("Id", .scalar .int)]

/-- The record of a task. -/
def taskRecord (id : Int) (due : Value) : Record := [("Due", due), ("Id", .int id)]

/-- The due date of a task. -/
def taskDue : Value := .string "2024-05-01T00:00:00Z"

/-- A store of tasks. -/
def taskStore (records : List Record) (identities : List String) : Store where
  tables := [("task", { schema := taskSchema, records, identities })]

/-- The store before the first page. -/
def twoTasks : Store := taskStore [taskRecord 1 .null, taskRecord 2 .null] ["1", "2"]

/-- The store once a task has been added behind the cursor and another one beyond it. -/
def fourTasks : Store :=
  taskStore ([taskRecord 1 .null, taskRecord 2 .null] ++ [taskRecord 0 .null, taskRecord 3 taskDue])
    (["1", "2"] ++ ["0", "3"])

/-- An engine over a store of tasks, which sorts by due dates. -/
def taskEngine (store : Store) : Engine Store where
  policy := { entities := [("task", { name := "Task", sortable := ["Due"] })] }
  store := store
  registry := { entries := [{ entity := "task", target := "<value>", binding := .ofFields ["Due", "Id"] }] }

/-- The tasks by due date, one on a page. -/
def taskQuery : Query where
  entity := "Task"
  sort := [{ field := "Due" }]
  page := some { size := some 1 }

/-- The first page of the first two tasks. -/
def taskFirst : Response Value where
  items := [.object (taskRecord 1 .null)]
  size := 1
  nextCursor := some "eyJ2YWx1ZXMiOnsiRHVlIjpudWxsLCJJZCI6MX0sInRpbWVzdGFtcCI6bnVsbH0="
  totalCount := none
  rowsExamined := 2

/-- The page after it, once two more tasks have been added. -/
def taskLast : Response Value where
  items := [.object (taskRecord 2 .null), .object (taskRecord 3 taskDue)]
  size := 5
  nextCursor := none
  totalCount := none
  rowsExamined := 4

theorem task_key : entityKey "Task" = "task" := by decide +kernel

/-- Two new tasks can be added to a store of tasks. -/
theorem insert_tasks {records : List Record} {identities : List String} {m n : Int} {a b : String} {due : Value}
    (hm : m ≤ int64Max) (hn : n ≤ int64Max) (hdue : (FieldType.scalar .datetime).conforms due = true)
    (ha : (Value.int m).toText = a) (hb : (Value.int n).toText = b) (hnew : a ∉ identities)
    (hnew' : ¬(b ∈ identities ∨ b = a)) :
    (taskStore records identities).insert "Task" [taskRecord m .null, taskRecord n due] =
      .ok (taskStore (records ++ [taskRecord m .null, taskRecord n due]) (identities ++ [a, b])) := by
  have hconform : ∀ {id : Int} {due : Value}, id ≤ int64Max →
      (FieldType.scalar .datetime).conforms due = true →
      taskSchema.conform (taskRecord id due) = .ok (taskRecord id due) := by
    intro id due hid hdue
    have hint : (FieldType.scalar .int).conforms (.int id) = true := by
      simp [FieldType.conforms, ScalarType.conforms, Value.asInt64?, hid]
    simp [EntitySchema.conform, taskSchema, taskRecord, EntitySchema.conformField, Dict.get?, hint, hdue, bind,
      Except.bind, pure, Except.pure]
  have hidentity : ∀ {records : List Record} {identities : List String} {id : Int} {due : Value},
      Table.identityText? { schema := taskSchema, records, identities } (taskRecord id due) =
        some (Value.int id).toText := by
    intro records identities id due
    simp [Table.identityText?, taskSchema, taskRecord, Predicate.actual?, Dict.get?, Value.isNull]
  have hnull := hconform hm (FieldType.conforms_null _)
  simp [Store.insert, Store.table, Store.table?, taskStore, task_key, Dict.get?, Table.insertAll, Table.insert,
    hnull, hconform hn hdue, hidentity, ha, hb, hnew, hnew', Dict.insert, bind,
    Except.bind, pure, Except.pure]

/-- Records of tasks are well formed. -/
theorem wellFormed_task {id : Int} {due : Value} (hleast : int64Min ≤ id) (hgreatest : id ≤ uint64Max)
    (hdue : due.WellFormed) : (Value.object (taskRecord id due)).WellFormed := by
  have hnames : List.Pairwise (· < ·) ["Due", "Id"] := by decide
  exact ⟨Dict.sorted_iff_names.mpr hnames, hdue, ⟨hleast, hgreatest⟩, trivial⟩

theorem twoTasks_reachable : twoTasks.Reachable := by
  have hsorted : Dict.Sorted taskSchema.fields := by
    rw [Dict.sorted_iff_names]
    decide
  have hkey : taskSchema.key = "task" := task_key
  have hempty : (taskStore [] []).Reachable := by
    have hfresh := Store.Reachable.ofSchema (by decide : taskSchema.hasValidIdentity = true) hsorted
    rwa [hkey] at hfresh
  have hwell : ∀ r ∈ [taskRecord 1 .null, taskRecord 2 .null], (Value.object r).WellFormed := by
    simp only [List.forall_mem_cons, List.not_mem_nil, false_imp_iff, implies_true, and_true]
    exact ⟨wellFormed_task (by decide) (by decide) trivial, wellFormed_task (by decide) (by decide) trivial⟩
  have hinsert : (taskStore [] []).insert "Task" [taskRecord 1 .null, taskRecord 2 .null] = .ok twoTasks :=
    insert_tasks (by decide) (by decide) (FieldType.conforms_null _) (by decide +kernel) (by decide +kernel)
      (by decide) (by decide)
  exact .insert hempty hwell hinsert

theorem taskFirst_eq : ((taskEngine twoTasks).execute Target.value taskQuery false {}).1 = .ok taskFirst :=
  Engine.execute_eq_ok_iff.mpr ⟨by decide +kernel, by decide +kernel⟩

/-- Between two pages of one and five tasks, two more tasks are added. -/
theorem exists_taskWalk : ∃ w, Relation.ReflTransGen (Step taskQuery) { engine := taskEngine twoTasks } w ∧
    w.ended = true ∧
    w.items = [.object (taskRecord 1 .null), .object (taskRecord 2 .null), .object (taskRecord 3 taskDue)] := by
  let request : Option PageRequest := some { size := some 5, cursor := taskFirst.nextCursor }
  obtain ⟨haccepts, hresult⟩ := Engine.execute_eq_ok_iff.mp taskFirst_eq
  obtain ⟨engine, hexecute, hparts⟩ := Engine.exists_execute_eq {} haccepts hresult
  have hpage : { taskQuery with page := some { size := some 1 } } = taskQuery := rfl
  rw [← hpage] at hexecute
  have hwell : ∀ r ∈ [taskRecord 0 .null, taskRecord 3 taskDue], (Value.object r).WellFormed := by
    simp only [List.forall_mem_cons, List.not_mem_nil, false_imp_iff, implies_true, and_true]
    exact ⟨wellFormed_task (by decide) (by decide) trivial, wellFormed_task (by decide) (by decide) trivial⟩
  have hinsert : engine.store.insert "Task" [taskRecord 0 .null, taskRecord 3 taskDue] = .ok fourTasks := by
    rw [hparts.store]
    exact insert_tasks (by decide) (by decide) (by decide +kernel) (by decide +kernel) (by decide +kernel)
      (by decide) (by decide)
  have haccepts' : engine.policy.accepts { taskQuery with page := request } = true := by
    rw [hparts.policy]
    decide +kernel
  have hresult' : Query.result { taskQuery with page := request } engine.policy fourTasks engine.registry
      Target.value = .ok taskLast := by
    rw [hparts.policy, hparts.registry]
    decide +kernel
  obtain ⟨last, hexecute', _⟩ :=
    Engine.exists_execute_eq (e := { engine with store := fourTasks }) {} haccepts' hresult'
  let w : Walk := { engine := taskEngine twoTasks }
  have hfetch : Step taskQuery w (w.after taskFirst engine) := .fetch rfl rfl hexecute
  have hgrow : Step taskQuery (w.after taskFirst engine) ((w.after taskFirst engine).stocked fourTasks) :=
    .grow hwell hinsert
  have hend : Step taskQuery ((w.after taskFirst engine).stocked fourTasks)
      (((w.after taskFirst engine).stocked fourTasks).after taskLast last) := .fetch rfl rfl hexecute'
  exact ⟨_, ((Relation.ReflTransGen.single hfetch).tail hgrow).tail hend, rfl, rfl⟩

/-- A walk over two tasks in pages of one and five. After the first page, a task is added behind the cursor and
another one beyond it. Both of the first tasks are returned once, and the new one beyond the cursor follows. -/
theorem keyset_paging_exact_sample :
    ∃ (w : Walk) (sources : List Record),
      Relation.ReflTransGen (Step taskQuery) { engine := taskEngine twoTasks } w ∧
      w.ended = true ∧
      w.items = [.object (taskRecord 1 .null), .object (taskRecord 2 .null), .object (taskRecord 3 taskDue)] ∧
      w.items = sources.map (fun r => .object ((Binding.ofFields ["Due", "Id"]).project r)) ∧
      sources.Nodup ∧ ∀ r ∈ [taskRecord 1 .null, taskRecord 2 .null], sources.count r = 1 := by
  obtain ⟨w, hwalk, hended, hw⟩ := exists_taskWalk
  have hschema : twoTasks.schema? taskQuery.entity = some taskSchema := by
    simp [twoTasks, taskStore, taskQuery, Store.schema?, Store.table?, task_key, Dict.get?]
  have hexact : taskQuery.ExactKeys taskSchema := by
    refine ⟨⟨.int, by decide, rfl⟩, ?_⟩
    intro item hitem
    obtain rfl : item = { field := "Due" } := by simpa [taskQuery] using hitem
    exact ⟨.datetime, by decide, rfl⟩
  obtain ⟨binding, predicate, sources, hbinding, hpredicate, hitems, _, hnodup, _, hcount, _⟩ :=
    keyset_paging_exact twoTasks_reachable hschema ⟨rfl, rfl, rfl⟩ hexact taskFirst_eq hwalk
  have hregistered : (taskEngine twoTasks).registry.get? Target.value.label taskSchema.name =
      some (.ofFields ["Due", "Id"]) := by decide +kernel
  obtain rfl : Binding.ofFields ["Due", "Id"] = binding := Option.some.inj (hregistered.symm.trans hbinding)
  obtain rfl : Predicate.always = predicate := Except.ok.inj hpredicate
  have hrecords : twoTasks.recordsOf taskQuery.entity = [taskRecord 1 .null, taskRecord 2 .null] := by
    simp [twoTasks, taskStore, taskQuery, Store.recordsOf, Store.table?, task_key, Dict.get?]
  refine ⟨w, sources, hwalk, hended, hw, hitems, hnodup, ?_⟩
  intro r hr
  exact hcount hended r (hrecords ▸ hr) rfl

end Walk

end GuardedQuery
