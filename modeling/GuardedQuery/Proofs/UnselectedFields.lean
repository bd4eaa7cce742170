import GuardedQuery.Command.Projections
import GuardedQuery.Proofs.EntityLookups
import GuardedQuery.Proofs.Selections

/-!
# Unselected fields

A query that selects fields shows the members of rows that are bound to these fields, and the members that joins
attach. Which members joins attach is not looked up: where a policy configures a projection, it goes by the name of the
source. A source with a point in its name, or with the name of an entity, is taken for a member that a join attaches,
even if it is a declared field of the entity that is asked for. Such a field is shown whether it is selected or not. All
other fields are hidden unless they are selected, and entities without a projection show nothing else.

## Main definitions

* `Policy.Binds`: the bindings that a policy gives an entity.
* `Response.HidesUnselected`: the items of a response show no declared field that is not selected.

## Main statements

* `Policy.supplies_of_registry`: a registry that is made for a policy holds its bindings.
* `Engine.unselected_hidden_unless_taken_for_joined`: a query shows an unselected field if and only if its binding takes
  one for a member that a join attaches.
-/

namespace GuardedQuery

/-! ## The bindings of a policy -/

namespace Policy

variable {p : Policy} {store : Store}

/-- The bindings that a policy gives an entity, and whether they are configured. -/
inductive Binds (p : Policy) (store : Store) (schema : EntitySchema) : Bool → Binding → Prop
  /-- A projection is configured. -/
  | configured {name : String} {members : Dict String} : (name, members) ∈ p.projections →
      store.schema? name = some schema → Binds p store schema true (p.configuredBinding members)
  /-- The entity has no projection. -/
  | default {key : String} {e : EntityPolicy} : (key, e) ∈ p.entities → p.projection? e.name = none →
      store.schema? e.name = some schema → Binds p store schema false (defaultBinding e schema)

/-- Bindings are given to known entities. -/
theorem Binds.exists_name {schema : EntitySchema} {configured : Bool} {b : Binding}
    (h : p.Binds store schema configured b) : ∃ name, store.schema? name = some schema := by
  cases h with
  | configured _ hschema => exact ⟨_, hschema⟩
  | default _ _ hschema => exact ⟨_, hschema⟩

/-- The members of a configured binding, in order. -/
theorem members_configuredBinding (p : Policy) (members : Dict String) :
    (p.configuredBinding members).members =
      members.map fun m => { target := m.1, source := m.2, joined := p.isJoinedSource m.2 } := by
  have hfold : ∀ b : Binding, (members.foldl (fun b m => b.bind m.1 m.2 (p.isJoinedSource m.2)) b).members =
      b.members ++ members.map fun m => { target := m.1, source := m.2, joined := p.isJoinedSource m.2 } := by
    induction members with
    | nil => exact fun b => (List.append_nil _).symm
    | cons m rest ih =>
      intro b
      rw [List.foldl_cons, ih, Binding.bind, List.append_assoc, List.map_cons, List.singleton_append]
  exact hfold {}

/-- **A member is taken for one that a join attaches** if it is configured and its source is named like one. -/
theorem Binds.joined_eq {schema : EntitySchema} {configured : Bool} {b : Binding}
    (h : p.Binds store schema configured b) :
    ∀ m ∈ b.members, m.joined = (configured && p.isJoinedSource m.source) := by
  intro m hm
  cases h with
  | configured _ _ =>
    rw [members_configuredBinding] at hm
    obtain ⟨_, _, rfl⟩ := List.mem_map.mp hm
    rfl
  | default _ _ _ =>
    obtain ⟨_, _, rfl⟩ := List.mem_map.mp hm
    rfl

/-! ## Registries for policies -/

/-- A registry that holds nothing but bindings of a policy. -/
structure Supplies (p : Policy) (store : Store) (r : Registry) : Prop where
  /-- The bindings were registered. -/
  reachable : r.Reachable
  /-- They are bindings of the policy, for the entities under whose keys they are found. -/
  entries : ∀ entry ∈ r.entries, ∃ schema configured, entry.entity = schema.key ∧
    p.Binds store schema configured entry.binding

variable {r : Registry} {schema : EntitySchema} {configured : Bool} {b : Binding}

theorem Supplies.register (hr : p.Supplies store r) (hb : p.Binds store schema configured b) {label : String}
    {r' : Registry} (h : r.register label schema b = .ok r') : p.Supplies store r' where
  reachable := .register hr.reachable h
  entries := by
    obtain ⟨_, _, rfl⟩ := Registry.register_eq_ok h
    exact List.forall_mem_append.mpr ⟨hr.entries, List.forall_mem_singleton.mpr ⟨schema, configured, rfl, hb⟩⟩

theorem Supplies.addBinding (hr : p.Supplies store r) (hb : p.Binds store schema configured b) :
    Step.Meets (fun _ => True) (p.Supplies store) (addBinding r schema b) := by
  rw [Policy.addBinding]
  refine (Step.meets_ofExcept (P := p.Supplies store) fun r' h => ?_).bind fun r' hr' => ?_
  · cases hregister : r.register Target.value.label schema b with
    | error e => simp [hregister, Except.mapError] at h
    | ok r' =>
      rw [hregister] at h
      exact Except.ok.inj h ▸ hr.register hb hregister
  · intro t _
    exact ⟨trivial, fun _ h => Except.ok.inj h ▸ hr'⟩

/-- **A registry that is made for a policy holds its bindings.** -/
theorem supplies_of_registry {t : Transcript} (h : (p.registry store t).1 = .ok r) : p.Supplies store r := by
  have hstart : p.Supplies store {} := ⟨.empty, List.forall_mem_nil _⟩
  have hmade : Step.Meets (fun _ => True) (p.Supplies store) (p.registry store) := by
    rw [registry]
    refine (Step.Meets.foldlM ?_ hstart).bind fun r hr => Step.Meets.foldlM ?_ hr
    · intro projection hprojection r hr
      exact (Step.meets_require _ _).bind fun schema hschema => hr.addBinding (.configured hprojection hschema)
    · intro entity hentity r hr
      rw [addDefault]
      split
      · exact Step.meets_pure hr
      · rename_i hnone
        refine (Step.meets_require _ _).bind fun schema hschema => hr.addBinding (.default hentity ?_ hschema)
        simpa using hnone
  exact (hmade t trivial).2 r h

/-- What is found for an entity is its binding. -/
theorem Supplies.binds (hr : p.Supplies store r) (hstore : store.Reachable) {name label : String}
    (hschema : store.schema? name = some schema) (hget : r.get? label schema.name = some b) :
    ∃ configured, p.Binds store schema configured b := by
  obtain ⟨entry, hentry, rfl⟩ := Option.map_eq_some_iff.mp hget
  obtain ⟨other, configured, hkey, hbinds⟩ := hr.entries entry (List.mem_of_find?_eq_some hentry)
  have hmatch := List.find?_some hentry
  simp only [Bool.and_eq_true, beq_iff_eq] at hmatch
  -- Only one entity is known under a key.
  obtain ⟨_, hother⟩ := hbinds.exists_name
  obtain ⟨t, ht, rfl⟩ := Option.map_eq_some_iff.mp hschema
  obtain ⟨u, hu, rfl⟩ := Option.map_eq_some_iff.mp hother
  have ht' := hstore.sound.table?_name ht
  have hu' := hstore.sound.table?_name hu
  have hsame : entityKey u.schema.name = entityKey t.schema.name := hkey.symm.trans hmatch.1
  rw [Store.table?] at ht' hu'
  rw [hsame, ht'] at hu'
  obtain rfl := Option.some.inj hu'
  exact ⟨configured, hbinds⟩

end Policy

/-! ## What items show -/

/-- A page holds some of the rows that it is cut out of. -/
theorem Page.mem_of_mem_ofRequest {α : Type} {keys : List SortKey} {size : Nat} {cursor : Option String}
    {record : α → Record} {rows : List α} {row : α}
    (h : row ∈ (ofRequest keys size cursor record rows).1.rows) : row ∈ rows := by
  have hslice : ∀ place, row ∈ (slice keys size place record rows).rows → row ∈ rows := by
    intro place hmem
    exact (List.mem_filter.mp (List.mem_of_mem_take (List.mem_of_mem_take hmem))).1
  rw [ofRequest] at h
  split at h
  · exact hslice _ h
  · exact hslice _ h

/-- The items show no declared field that is not selected: all members that read one are bound to selected fields. -/
def Response.HidesUnselected (b : Binding) (schema : EntitySchema) (select : List String) (r : Response Value) : Prop :=
  ∀ row : Record, .object row ∈ r.items → ∀ m ∈ b.members, m.target ∈ Dict.names row →
    schema.hasField m.source = true → m.source ∈ select

/-- The item that a selection shows of a record. -/
def Binding.shown (b : Binding) (select : List String) (source : Record) : Record :=
  (b.project source).filter fun m => b.Shows select m.1

namespace Binding

variable {b : Binding} {select : List String}

/-- An item has the members that the selection shows. -/
theorem mem_names_shown {source : Record} {target : String} :
    target ∈ Dict.names (b.shown select source) ↔ b.Shows select target := by
  rw [Dict.names, shown, List.mem_map]
  constructor
  · rintro ⟨m, hm, rfl⟩
    simpa using (List.mem_filter.mp hm).2
  · intro hshows
    obtain ⟨bound, hbound, htarget, _⟩ := id hshows
    have hname : target ∈ Dict.names (b.project source) := by
      rw [project, Dict.mem_names_ofList, List.map_map]
      exact List.mem_map.mpr ⟨bound, hbound, htarget⟩
    obtain ⟨m, hm, rfl⟩ := List.mem_map.mp hname
    exact ⟨m, List.mem_filter.mpr ⟨hm, by simpa using hshows⟩, rfl⟩

end Binding

/-- **Items hide unselected fields** if and only if the binding takes none of them for a member that a join attaches. -/
theorem Response.hidesUnselected_iff {b : Binding} {schema : EntitySchema} {select : List String} {r : Response Value}
    (htargets : (b.members.map BoundMember.target).Nodup)
    (hitems : ∀ item ∈ r.items, ∃ source, item = .object (b.shown select source)) :
    r.HidesUnselected b schema select ↔ r.items = [] ∨
      ∀ m ∈ b.members, schema.hasField m.source = true → m.joined = true → m.source ∈ select := by
  constructor
  · intro hhides
    cases hfirst : r.items with
    | nil => exact .inl rfl
    | cons item rest =>
      refine .inr fun m hm hdeclared hjoined => ?_
      have hitem : item ∈ r.items := by rw [hfirst]; exact List.mem_cons_self
      obtain ⟨source, rfl⟩ := hitems item hitem
      exact hhides _ hitem m hm (Binding.mem_names_shown.mpr ⟨m, hm, rfl, .inr hjoined⟩) hdeclared
  · rintro (hnone | hselected) row hrow m hm hname hdeclared
    · rw [hnone] at hrow
      exact absurd hrow List.not_mem_nil
    · obtain ⟨source, hsource⟩ := hitems _ hrow
      obtain rfl : row = b.shown select source := Value.object.inj hsource
      obtain ⟨shown, hshown, htarget, hwhy⟩ := Binding.mem_names_shown.mp hname
      obtain rfl := List.inj_on_of_nodup_map htargets hshown hm htarget
      exact hwhy.elim id (hselected shown hm hdeclared)

/-! ## Engines with the bindings of their policy -/

namespace Engine

variable {e : Engine Store} {q : Query} {c : Circumstances} {r : Response Value}

/-- The items of an ungrouped query with a selection are what the selection shows of records. -/
theorem exists_binding_of_execute (hstore : e.store.Reachable) (hregistry : e.registry.Reachable)
    (hungrouped : q.isGrouped = false) (hselect : q.select ≠ [])
    (hexecute : (e.execute Target.value q false c).1 = .ok r) :
    ∃ schema b, e.store.schema? q.entity = some schema ∧
      e.registry.get? Target.value.label schema.name = some b ∧ (b.members.map BoundMember.target).Nodup ∧
      ∀ item ∈ r.items, ∃ source, item = .object (b.shown q.select source) := by
  obtain ⟨_, hresult⟩ := execute_eq_ok_iff.mp hexecute
  obtain ⟨f, hfound, hrespond⟩ := Outcome.bind_eq_ok_iff.mp hresult
  obtain ⟨schema, hschema⟩ := Query.exists_schema_of_findings hfound q.entity List.mem_cons_self
  obtain ⟨st, hst⟩ := Query.exists_stages hstore.sound hschema hungrouped hfound
  obtain ⟨_, _, hfits⟩ := hregistry.fits hst.binding
  refine ⟨schema, st.binding, hschema, hst.binding, hfits.targets, ?_⟩
  obtain ⟨items, hitems, hresponse⟩ := Outcome.bind_eq_ok_iff.mp hrespond
  rw [Query.mapM_item] at hitems
  obtain rfl := Except.ok.inj hitems
  obtain rfl := Except.ok.inj hresponse
  intro item hitem
  obtain ⟨row, hrow, rfl⟩ := List.mem_map.mp hitem
  -- The row is projected from a record.
  have hrow : row ∈ st.shaped := Operation.onAllRows_sublist hst.rows |>.subset (Page.mem_of_mem_ofRequest hrow)
  obtain ⟨source, _, rfl⟩ := List.mem_map.mp hrow
  rw [hst.binding_eq]
  exact ⟨source, (Query.rowItem_unselected hfits.targets hselect _).2⟩

/-- **Unselected fields are hidden unless they are taken for members that joins attach.** Every item of an ungrouped
query with a selection is what the selection shows of a record, under the binding that the policy gives the entity. The
items show no declared field that is not selected, if and only if there are none, or no member of a configured binding
reads such a field under the name of an entity or under a name with a point. -/
theorem unselected_hidden_unless_taken_for_joined {policy : Policy} {store : Store} {registry : Registry}
    {created : Engine Store} (hstore : store.Reachable) {t : Transcript}
    (hregistry : (policy.registry store t).1 = .ok registry) (hcreate : create policy store registry = .ok created)
    (hparts : created.SameParts e) (hungrouped : q.isGrouped = false) (hselect : q.select ≠ [])
    (hexecute : (e.execute Target.value q false c).1 = .ok r) :
    ∃ schema configured b, store.schema? q.entity = some schema ∧
      registry.get? Target.value.label schema.name = some b ∧ policy.Binds store schema configured b ∧
      (∀ item ∈ r.items, ∃ source, item = .object (b.shown q.select source)) ∧
      (r.HidesUnselected b schema q.select ↔ r.items = [] ∨
        ∀ m ∈ b.members, schema.hasField m.source = true → (configured && policy.isJoinedSource m.source) = true →
          m.source ∈ q.select) := by
  obtain ⟨_, rfl⟩ := create_eq_ok_iff.mp hcreate
  obtain ⟨rfl, rfl, rfl⟩ := hparts
  have hsupplies := Policy.supplies_of_registry hregistry
  obtain ⟨schema, b, hschema, hget, htargets, hitems⟩ :=
    exists_binding_of_execute hstore hsupplies.reachable hungrouped hselect hexecute
  obtain ⟨configured, hbinds⟩ := hsupplies.binds hstore hschema hget
  refine ⟨schema, configured, b, hschema, hget, hbinds, hitems, ?_⟩
  rw [Response.hidesUnselected_iff htargets hitems]
  refine or_congr_right (forall₂_congr fun m hm => ?_)
  rw [hbinds.joined_eq m hm]

/-! ## Memos -/

/-- Memos with a text that has their own name. -/
def memoSchema : EntitySchema where
  name := "Memo"
  fields := [("Id", .scalar .int), ("Memo", .scalar .string)]

/-- A memo. -/
def memoEntities : List EntityData :=
  [{ schema := memoSchema, records := [[("Id", .int 1), ("Memo", .string "Call Ann")]] }]

/-- All of a memo may be selected, and its projection is configured. -/
def memoPolicy : Policy where
  entities := [("memo", { name := "Memo", selectable := ["Id", "Memo"] })]
  projections := [("memo", [("Key", "Id"), ("Text", "Memo")])]

/-- The binding of memos. -/
def memoBinding : Binding where
  members := [{ target := "Key", source := "Id" }, { target := "Text", source := "Memo", joined := true }]

/-- An engine for memos. -/
def memoEngine : Engine Store where
  policy := memoPolicy
  store := .ofEntities memoEntities
  registry := { entries := [{ entity := "memo", target := Target.value.label, binding := memoBinding }] }

/-- The query that selects the identities of memos. -/
def memoQuery : Query where
  entity := "Memo"
  select := ["Id"]

/-- The response shows the text as well. -/
def memoResponse : Response Value where
  items := [.object [("Key", .int 1), ("Text", .string "Call Ann")]]
  size := 20
  nextCursor := none
  totalCount := none
  rowsExamined := 1

/-- The text of a memo is not selected, and shown: it is taken for a member that a join attaches. -/
theorem unselected_hidden_unless_taken_for_joined_memo :
    (memoEngine.execute Target.value memoQuery false {}).1 = .ok memoResponse ∧
      memoEngine.store.schema? "Memo" = some memoSchema ∧
      memoEngine.registry.get? Target.value.label "Memo" = some memoBinding ∧
      ¬memoResponse.HidesUnselected memoBinding memoSchema ["Id"] := by
  have hwell : ∀ data ∈ memoEntities, data.WellFormed := by decide +kernel
  have hstore : memoEngine.store.Reachable := Store.reachable_ofEntities hwell
  have hregistry : (memoPolicy.registry memoEngine.store {}).1 = .ok memoEngine.registry := by
    have hmade : (memoPolicy.registry memoEngine.store {}).1.toOption = some memoEngine.registry := by decide +kernel
    cases hrun : (memoPolicy.registry memoEngine.store {}).1 with
    | error e => rw [hrun] at hmade; exact nomatch hmade
    | ok registry => rw [hrun] at hmade; exact congrArg Except.ok (Option.some.inj hmade)
  have hcreate : create memoPolicy memoEngine.store memoEngine.registry = .ok memoEngine := by
    have hdeclared : ∀ entry ∈ memoPolicy.entities,
        (entry.2.undeclared? memoEngine.store.schema?).isNone = true := by decide +kernel
    exact create_eq_ok_iff.mpr ⟨fun entry hentry => Option.isNone_iff_eq_none.mp (hdeclared entry hentry), rfl⟩
  have hexecute : (memoEngine.execute Target.value memoQuery false {}).1 = .ok memoResponse :=
    execute_eq_ok_iff.mpr ⟨by decide +kernel, by decide +kernel⟩
  obtain ⟨schema, configured, b, hschema, hget, hbinds, _, hhides⟩ :=
    unselected_hidden_unless_taken_for_joined hstore hregistry hcreate (.refl _) rfl (by decide) hexecute
  obtain rfl : schema = memoSchema := List.mem_singleton.mp (Store.schema_ofEntities hwell hschema)
  have hbound : memoEngine.registry.get? Target.value.label "Memo" = some memoBinding := by decide +kernel
  obtain rfl : b = memoBinding := Option.some.inj (hget.symm.trans hbound)
  refine ⟨hexecute, hschema, hbound, fun hhidden => ?_⟩
  have htext : { target := "Text", source := "Memo", joined := true } ∈ memoBinding.members := by decide
  have hjoined := hbinds.joined_eq _ htext
  rcases hhides.mp hhidden with hnone | hselected
  · exact nomatch hnone
  · exact absurd (hselected _ htext (by decide +kernel) hjoined.symm) (by decide +kernel)

end Engine

end GuardedQuery
