import GuardedQuery.Proofs.AlikeAnswers
import GuardedQuery.Proofs.EntityName
import GuardedQuery.Proofs.Loading

/-!
# Hidden fields

A declared field is hidden if no list of its entity's policy names it, no answer is bound to it, and it is
not the identity. Answers do not depend on hidden fields: two stores that differ in hidden fields only give
every query one answer. Whole records are compared only to tell rows apart, and there the identity of a
record decides, which no two records of a store share.

## Main definitions

* `Policy.Hides`: hidden fields.
* `Store.AgreeOff`: stores that differ in hidden fields only.
* `Query.Attaches`: the members that the joins of a query attach.

## Main statements

* `Query.stock_same`: the stock of a query does not depend on hidden fields.
* `Engine.hidden_fields_do_not_interfere`: neither does what an engine hands on.
-/

namespace GuardedQuery

open Outcome (Same)

/-- A declared field that answers of the given form do not show and queries cannot name. -/
structure Policy.Hides (p : Policy) (registry : Registry) (label : String) (schema : EntitySchema) (f : String) :
    Prop where
  /-- The field is declared. -/
  declared : schema.hasField f = true
  /-- It is not the identity. -/
  ordinary : f ≠ schema.identity
  /-- The policy of the entity lists it nowhere. -/
  unlisted : ∀ e, p.entity? schema.name = some e → f ∉ e.filterable ∧ f ∉ e.sortable ∧ f ∉ e.selectable
  /-- No member of an answer is read from it. -/
  unbound : ∀ b, registry.get? label schema.name = some b → ∀ m ∈ b.members, m.source ≠ f

/-! ## Stores that differ in hidden fields -/

/-- Two tables of one entity that hold as many records in the same order, and whose corresponding records
agree on every field that is not hidden. -/
structure Table.AgreeOff (hidden : EntitySchema → String → Prop) (t t' : Table) : Prop where
  /-- The declarations are the same. -/
  schema : t.schema = t'.schema
  /-- Corresponding records agree. -/
  records : List.Forall₂ (fun r r' => ∀ f, ¬hidden t.schema f → Dict.get? r f = Dict.get? r' f)
    t.records t'.records

/-- Two stores with the same entities whose tables agree on every field that is not hidden. -/
def Store.AgreeOff (hidden : EntitySchema → String → Prop) (s s' : Store) : Prop :=
  ∀ name, Option.Rel (Table.AgreeOff hidden) (s.table? name) (s'.table? name)

namespace Table

variable {hidden : EntitySchema → String → Prop} {t t' : Table}

/-- No two records of a table have one identity, so identities determine all there is. -/
theorem Sound.identifies (h : t.Sound) (secret : String → Prop) :
    Record.Identified secret t.schema.identity t.records := by
  refine ⟨?_, ?_, ?_⟩
  · intro r hr
    have hsorted := h.sorted
    rw [Dict.sorted_iff_names] at hsorted ⊢
    rwa [h.names r hr]
  · intro a ha b hb
    rw [h.names a ha, h.names b hb]
  · intro a ha b hb htext f _
    have hvalue : (Record.value a t.schema.identity).toText = (Record.value b t.schema.identity).toText := by
      unfold Record.value
      cases hget : Dict.get? a t.schema.identity <;> cases hget' : Dict.get? b t.schema.identity <;>
        simp_all
    rw [h.eq_of_identity ha hb hvalue]

theorem AgreeOff.alike (h : t.AgreeOff hidden t') (hsound : t.Sound) (hsound' : t'.Sound) :
    Rows.Alike (hidden t.schema) t.schema.identity t.records t'.records := by
  refine ⟨?_, hsound.identifies _, ?_⟩
  · have hmembers := List.forall₂_iff_zip.mp h.records
    refine List.forall₂_iff_zip.mpr ⟨hmembers.1, fun {a b} hab => ⟨?_, hmembers.2 hab⟩⟩
    obtain ⟨ha, hb⟩ := List.of_mem_zip hab
    rw [hsound.names a ha, hsound'.names b hb, h.schema]
  · rw [h.schema]
    exact hsound'.identifies _

end Table

namespace Store

variable {hidden : EntitySchema → String → Prop} {s s' : Store}

theorem AgreeOff.table? (h : s.AgreeOff hidden s') (name : String) :
    (s.table? name = none ∧ s'.table? name = none) ∨
      ∃ t t', s.table? name = some t ∧ s'.table? name = some t' ∧ t.AgreeOff hidden t' := by
  have hrel := h name
  revert hrel
  generalize s.table? name = found
  generalize s'.table? name = found'
  rintro (ht | _)
  · exact .inr ⟨_, _, rfl, rfl, ht⟩
  · exact .inl ⟨rfl, rfl⟩

theorem AgreeOff.schema? (h : s.AgreeOff hidden s') : s'.schema? = s.schema? := by
  funext name
  unfold Store.schema?
  rcases h.table? name with ⟨hnone, hnone'⟩ | ⟨t, t', ht, ht', hagree⟩
  · rw [hnone, hnone']
  · rw [ht, ht', Option.map_some, Option.map_some, hagree.schema]

theorem AgreeOff.declaration (h : s.AgreeOff hidden s') (name : String) :
    s'.declaration name = s.declaration name := by
  rw [Store.declaration, Store.declaration, h.schema?]

/-- A declared entity has a sound table under the name that its declaration gives it. -/
theorem Sound.exists_table (hsound : s.Sound) {name : String} {schema : EntitySchema}
    (h : s.declaration name = .ok schema) :
    ∃ t, s.table? schema.name = some t ∧ t.schema = schema ∧ t.Sound ∧
      entityKey schema.name = entityKey name := by
  obtain ⟨t, ht, rfl⟩ := Option.map_eq_some_iff.mp (declaration_eq_ok_iff.mp h)
  exact ⟨t, hsound.table?_name ht, rfl, (hsound name t ht).1, (hsound name t ht).2⟩

/-- Reading by a predicate that names no hidden field finds rows that are alike. -/
theorem AgreeOff.find_same (h : s.AgreeOff hidden s') (hsound : s.Sound) (hsound' : s'.Sound) {name : String}
    {schema : EntitySchema} (hschema : s.declaration name = .ok schema) {p : Predicate}
    (hp : ∀ f ∈ p.fields, ¬hidden schema f) :
    Same (fun a b => Rows.Alike (hidden schema) schema.identity a.records b.records ∧ a.examined = b.examined)
      (s.find schema.name p) (s'.find schema.name p) := by
  obtain ⟨t, ht, rfl, htable, _⟩ := hsound.exists_table hschema
  rcases h.table? t.schema.name with ⟨hnone, _⟩ | ⟨t₁, t', ht₁, ht', hagree⟩
  · rw [ht] at hnone
    simp at hnone
  · obtain rfl := Option.some.inj (ht.symm.trans ht₁)
    rw [find_of_table ht, find_of_table ht']
    have halike := hagree.alike htable (hsound' _ t' ht').1
    refine .ok ⟨halike.filter fun a b hab => ?_, halike.agree.length_eq⟩
    exact Predicate.holds_congr p fun f hf => hab.agree f (hp f hf)

end Store

/-! ## Joins over both stores -/

/-- Whether a join attaches a member of the given name. -/
def Query.Attaches (lookUp : String → Option EntitySchema) (joins : List Join) (f : String) : Prop :=
  ∃ j ∈ joins, ∃ kind joined, JoinKind.parse? j.kind = some kind ∧ lookUp j.entity = some joined ∧
    f ∈ j.attachedNames kind joined

namespace Join

variable {hidden : EntitySchema → String → Prop} {s s' : Store} {root : EntitySchema} {rows rows' : List Record}

/-- A join over both stores keeps rows alike, or fails in both runs. -/
theorem onStore_same (h : s.AgreeOff hidden s') (hsound : s.Sound) (hsound' : s'.Sound) {secret : String → Prop}
    {j : Join} (hidentity : ¬Query.Attaches s.schema? [j] root.identity)
    (hopen : ∀ joined, s.schema? j.entity = some joined → j.Open secret (hidden joined) joined)
    (hrows : Rows.Alike secret root.identity rows rows') (examined : Nat) :
    Same (fun a b => Rows.Alike (fun f => secret f ∧ ¬Query.Attaches s.schema? [j] f) root.identity a.1 b.1 ∧
      a.2 = b.2) (j.onStore s root rows examined) (j.onStore s' root rows' examined) := by
  unfold onStore
  rw [h.declaration]
  refine Same.bind_left _ fun kind hkind => ?_
  refine Same.bind_left _ fun joined hjoined => ?_
  refine Same.bind_left _ fun _ _ => ?_
  have hparse := kindOf_eq_ok_iff.mp hkind
  have hlookUp := Store.declaration_eq_ok_iff.mp hjoined
  have hattaches : ∀ f, Query.Attaches s.schema? [j] f ↔ f ∈ j.attachedNames kind joined := by
    intro f
    simp only [Query.Attaches, List.mem_singleton, exists_eq_left, hparse, hlookUp, Option.some.injEq,
      exists_and_left, exists_eq_left']
  simp only [hattaches] at hidentity ⊢
  have hnone : ∀ f ∈ Predicate.always.fields, ¬hidden joined f := by simp [Predicate.fields]
  refine (h.find_same hsound hsound' hjoined hnone).bind ?_
  rintro found found' ⟨halike, hexamined⟩
  exact .ok ⟨attach_alike (hopen joined hlookUp) hidentity hrows halike.agree, congrArg (examined + ·) hexamined⟩

/-- Joins over both stores keep rows alike, or fail in both runs. What is attached is a secret no longer. -/
theorem allOnStore_same (h : s.AgreeOff hidden s') (hsound : s.Sound) (hsound' : s'.Sound)
    {secret : String → Prop} {joins : List Join} (hidentity : ¬Query.Attaches s.schema? joins root.identity)
    (hopen : ∀ j ∈ joins, ∀ joined, s.schema? j.entity = some joined → j.Open secret (hidden joined) joined)
    (hrows : Rows.Alike secret root.identity rows rows') (examined : Nat) :
    Same (fun a b => Rows.Alike (fun f => secret f ∧ ¬Query.Attaches s.schema? joins f) root.identity a.1 b.1 ∧
      a.2 = b.2) (allOnStore s root joins rows examined) (allOnStore s' root joins rows' examined) := by
  induction joins generalizing secret rows rows' examined with
  | nil =>
    have hnone : (fun f => secret f ∧ ¬Query.Attaches s.schema? [] f) = secret := by
      funext f
      simp [Query.Attaches]
    rw [hnone]
    exact .ok ⟨hrows, rfl⟩
  | cons j rest ih =>
    have hsplit : ∀ f, Query.Attaches s.schema? (j :: rest) f ↔
        Query.Attaches s.schema? [j] f ∨ Query.Attaches s.schema? rest f := by
      intro f
      simp [Query.Attaches, or_and_right, exists_or]
    have hsecret : (fun f => secret f ∧ ¬Query.Attaches s.schema? (j :: rest) f) =
        fun f => (secret f ∧ ¬Query.Attaches s.schema? [j] f) ∧ ¬Query.Attaches s.schema? rest f := by
      funext f
      rw [hsplit, not_or, and_assoc]
    rw [hsplit, not_or] at hidentity
    obtain ⟨hj, hrest⟩ := List.forall_mem_cons.mp hopen
    rw [hsecret]
    refine (onStore_same h hsound hsound' hidentity.1 hj hrows examined).bind ?_
    rintro ⟨joinedRows, total⟩ ⟨joinedRows', total'⟩ ⟨halike, rfl⟩
    refine ih hidentity.2 ?_ halike total
    intro j' hj' joined hjoined
    obtain ⟨hcompared, hselected, hown⟩ := hrest j' hj' joined hjoined
    exact ⟨fun pair hpair => ⟨fun hs => (hcompared pair hpair).1 hs.1, (hcompared pair hpair).2⟩, hselected, hown⟩

end Join

/-! ## Two runs of one query -/

namespace Query

variable {policy : Policy} {registry : Registry} {label : String} {s s' : Store}

/-- An entity's policy, found under any name of the entity, lists no hidden field. -/
theorem unlisted_of_declaration (hsound : s.Sound) {name : String} {schema : EntitySchema} {e : EntityPolicy}
    (hschema : s.declaration name = .ok schema) (he : policy.entity? name = some e) {f : String}
    (hf : policy.Hides registry label schema f) : f ∉ e.filterable ∧ f ∉ e.sortable ∧ f ∉ e.selectable := by
  obtain ⟨_, _, _, _, hkey⟩ := hsound.exists_table hschema
  exact hf.unlisted e ((policy.entity?_congr hkey).trans he)

/-- The joins of an accepted query read nothing hidden. -/
theorem joins_open (hsound : s.Sound) {q : Query} {e : EntityPolicy} {schema : EntitySchema}
    (hjoins : ∀ j ∈ q.joins, j.Admissible policy e) (hschema : s.declaration q.entity = .ok schema)
    (hentity : policy.entity? q.entity = some e) {j : Join} (hj : j ∈ q.joins) {joined : EntitySchema}
    (hjoined : s.schema? j.entity = some joined) :
    j.Open (policy.Hides registry label schema) (policy.Hides registry label joined) joined := by
  obtain ⟨_, _, _, other, hother, hcompared, hselected⟩ := hjoins j hj
  have hdeclared := Store.declaration_eq_ok_iff.mpr hjoined
  refine ⟨?_, ?_, ?_⟩
  · intro pair hpair
    have hpair := hcompared pair hpair
    constructor
    · intro hhides
      exact (unlisted_of_declaration hsound hschema hentity hhides).1 hpair.1
    · intro hhides
      exact (unlisted_of_declaration hsound hdeclared hother hhides).1 hpair.2
  · intro f hf hhides
    exact (unlisted_of_declaration hsound hdeclared hother hhides).2.2 (hselected f hf)
  · intro hhides
    exact hhides.ordinary rfl

/-- The keys of rows with a binding are visible, or attached by a join. -/
theorem recordKeys_open (hsound : s.Sound) {q : Query} {e : EntityPolicy} {schema : EntitySchema}
    (hsort : ∀ item ∈ q.sort, item.Admissible e q) (hungrouped : q.isGrouped = false)
    (hschema : s.declaration q.entity = .ok schema) (hentity : policy.entity? q.entity = some e) {b : Binding}
    {keys : List SortKey} (hkeys : q.recordKeys s.schema? schema b = .ok keys) {k : SortKey} (hk : k ∈ keys) :
    ¬(policy.Hides registry label schema k.field ∧ ¬Attaches s.schema? q.joins k.field) := by
  rintro ⟨hhides, hattaches⟩
  rcases recordKeys_fields hkeys hk with ⟨item, hitem, hfield⟩ | hfield | ⟨j, hj, hkind, joined, hjoined, hfield⟩
  · rcases (hsort item hitem).sortable with hsortable | ⟨hgrouped, _⟩
    · rw [← hfield] at hsortable
      exact (unlisted_of_declaration hsound hschema hentity hhides).2.1 hsortable
    · simp [hungrouped] at hgrouped
  · exact hhides.ordinary hfield
  · refine hattaches ⟨j, hj, .join, joined, hkind, hjoined, ?_⟩
    rw [hfield]
    exact List.mem_cons_self

/-- The stock of an accepted query does not depend on hidden fields. -/
theorem stock_same {q : Query} (haccepts : policy.accepts q = true)
    (h : s.AgreeOff (policy.Hides registry label) s') (hsound : s.Sound) (hsound' : s'.Sound)
    (hidentity : ∀ schema, s.schema? q.entity = some schema → ¬Attaches s.schema? q.joins schema.identity) :
    Same Stock.Alike (q.stock policy s registry label) (q.stock policy s' registry label) := by
  obtain ⟨_, e, hentity, hadmissible⟩ := Policy.admissibleOn_of_accepts haccepts
  unfold stock
  rw [h.declaration, h.schema?]
  refine Same.bind_left _ fun schema hschema => ?_
  refine Same.bind_left _ fun binding hbinding => ?_
  refine Same.bind_left _ fun predicate hpredicate => ?_
  have hroot : ∀ f, policy.Hides registry label schema f →
      f ∉ e.filterable ∧ f ∉ e.sortable ∧ f ∉ e.selectable :=
    fun f hf => unlisted_of_declaration hsound hschema hentity hf
  have hreads : ∀ f ∈ predicate.fields, ¬policy.Hides registry label schema f := by
    intro f hf hhides
    exact (hroot f hhides).1 (Columns.compileAll_reads hadmissible.filters.trees hpredicate f hf)
  refine (h.find_same hsound hsound' hschema hreads).bind ?_
  rintro found found' ⟨hfound, hexamined⟩
  rw [← hexamined]
  have hroot' := hidentity schema (Store.declaration_eq_ok_iff.mp hschema)
  refine (Join.allOnStore_same h hsound hsound' hroot'
    (fun j hj joined => joins_open hsound hadmissible.joins hschema hentity hj) hfound found.examined).bind ?_
  rintro ⟨rows, examined⟩ ⟨rows', examined'⟩ ⟨hrows, rfl⟩
  have hvalid : schema.hasValidIdentity = true := by
    obtain ⟨t, _, rfl, htable, _⟩ := hsound.exists_table hschema
    exact htable.identity
  refine (Operation.onAllRecords_same hadmissible.operations (fun f hf hs => (hroot f hs.1).1 hf)
    (fun f hf hs => (hroot f hs.1).2.2 hf) (fun hs => hs.1.ordinary rfl) hvalid hrows _).bind ?_
  intro rows rows' hrows
  have hbound : ∀ b, binding = some b → registry.get? label schema.name = some b ∧ q.isGrouped = false := by
    rintro b rfl
    rcases bindingFor_eq_ok_iff.mp hbinding with ⟨_, hnone⟩ | ⟨hungrouped, _, hget⟩
    · simp at hnone
    · exact ⟨hget, hungrouped⟩
  refine (sorting_same hadmissible.grouping (fun f hf hs => (hroot f hs.1).2.2 hf)
    (fun b hb m hm hs => hs.1.unbound b (hbound b hb).1 m hm rfl)
    (fun b hb keys hkeys k hk =>
      recordKeys_open hsound hadmissible.sort (hbound b hb).2 hschema hentity hkeys hk) hrows.agree).bind ?_
  rintro ⟨rows, keys⟩ ⟨rows', keys'⟩ ⟨rfl, hrows⟩
  exact .ok ⟨rfl, rfl, hrows, hfound.agree.length_eq, rfl⟩

end Query

namespace Engine

/-- **Hidden fields do not interfere with answers.** Two engines with one policy and one registry, whose
stores differ in hidden fields only, hand on the same for every query that is not cancelled: one error, or
one response. No join may attach a member under the name of the root entity's identity, since that member
would take the identity's place. -/
theorem hidden_fields_do_not_interfere {α : Type} {e e' : Engine Store} (hpolicy : e'.policy = e.policy)
    (hregistry : e'.registry = e.registry) (hreachable : e.store.Reachable) (hreachable' : e'.store.Reachable)
    (target : Target α) (hagree : e.store.AgreeOff (e.policy.Hides e.registry target.label) e'.store) (q : Query)
    (hidentity : ∀ schema, e.store.schema? q.entity = some schema →
      ¬Query.Attaches e.store.schema? q.joins schema.identity)
    (c c' : Circumstances) : (e.execute target q false c).1 = (e'.execute target q false c').1 := by
  cases haccepts : e.policy.accepts q with
  | false => rw [execute_of_not_accepts haccepts, execute_of_not_accepts (hpolicy ▸ haccepts), hpolicy]
  | true =>
    have hstock := Query.stock_same haccepts hagree hreachable.sound hreachable'.sound hidentity
    have hresult : q.result e.policy e.store e.registry target = q.result e.policy e'.store e.registry target := by
      rw [← Outcome.same_eq_iff]
      refine Same.bind (hstock.bind fun st st' hst => hst.findings q) fun f f' hf => ?_
      exact Outcome.same_eq_iff.mpr (q.respond_congr e.policy target hf)
    have hupset : q.Upset e.policy e.store e.registry target.label ↔
        q.Upset e.policy e'.store e.registry target.label := by
      rw [Query.Upset, Query.Upset]
      generalize q.stock e.policy e.store e.registry target.label = outcome at hstock ⊢
      generalize q.stock e.policy e'.store e.registry target.label = outcome' at hstock ⊢
      cases hstock with
      | error _ => simp
      | ok hst => simp [hst.sort?_eq_none_iff]
    have hexecute := execute_store haccepts target c
    have hexecute' := execute_store (hpolicy ▸ haccepts : e'.policy.accepts q = true) target c'
    rw [hpolicy, hregistry, ← hresult, ← hupset] at hexecute'
    rcases hexecute with ⟨hgivesUp, htask, _⟩ | ⟨hsorted, houtcome⟩
    · rcases hexecute' with ⟨_, htask', _⟩ | ⟨hsorted, _⟩
      · rw [htask, htask']
      · exact absurd hgivesUp hsorted
    · rcases hexecute' with ⟨hgivesUp, _⟩ | ⟨_, houtcome'⟩
      · exact absurd hgivesUp hsorted
      · rw [houtcome, houtcome']

/-! ## Salaries that no answer shows -/

/-- Persons with a name and a salary. -/
def personSchema : EntitySchema where
  name := "Person"
  fields := [("Id", .scalar .int), ("Name", .scalar .string), ("Salary", .scalar .int)]

/-- The records of three persons, two of whom have one name. Two of them get a raise. -/
def personRecords (raise : ℤ) : List Record :=
  [[("Id", .int 1), ("Name", .string "Grace"), ("Salary", .int 10)],
    [("Id", .int 2), ("Name", .string "Ada"), ("Salary", .int (20 + raise))],
    [("Id", .int 3), ("Name", .string "Ada"), ("Salary", .int (30 - raise))]]

/-- The data of three persons. -/
def personEntities (raise : ℤ) : List EntityData := [{ schema := personSchema, records := personRecords raise }]

/-- An engine that shows names, and sorts by them. -/
def personEngine (raise : ℤ) : Engine Store where
  policy := { entities := [("person", { name := "Person", sortable := ["Name"], selectable := ["Name"] })] }
  store := .ofEntities (personEntities raise)
  registry := { entries := [{ entity := "person", target := "<value>", binding := .ofFields ["Id", "Name"] }] }

/-- The distinct persons by name. -/
def personQuery : Query where
  entity := "Person"
  sort := [{ field := "Name" }]
  operations := [{ kind := "Distinct" }]

/-- The salaries of two persons are exchanged, and the answer stays the same. -/
theorem hidden_fields_do_not_interfere_sample :
    (personEngine 0).policy.Hides (personEngine 0).registry Target.value.label personSchema "Salary" ∧
      ((personEngine 0).execute Target.value personQuery false {}).1 =
        ((personEngine 10).execute Target.value personQuery false {}).1 := by
  have hhides :
      (personEngine 0).policy.Hides (personEngine 0).registry Target.value.label personSchema "Salary" := by
    refine ⟨by decide, by decide, ?_, ?_⟩
    · intro e he
      have hpolicy : (personEngine 0).policy.entity? personSchema.name =
          some { name := "Person", sortable := ["Name"], selectable := ["Name"] } := by decide +kernel
      obtain rfl := Option.some.inj (hpolicy.symm.trans he)
      decide
    · intro b hb
      have hbinding : (personEngine 0).registry.get? Target.value.label personSchema.name =
          some (.ofFields ["Id", "Name"]) := by decide +kernel
      obtain rfl := Option.some.inj (hbinding.symm.trans hb)
      decide
  have hstore : (personEngine 0).store.tables =
      [("person", { schema := personSchema, records := personRecords 0, identities := ["1", "2", "3"] })] :=
    rfl
  have hstore' : (personEngine 10).store.tables =
      [("person", { schema := personSchema, records := personRecords 10, identities := ["1", "2", "3"] })] :=
    rfl
  have hagree : (personEngine 0).store.AgreeOff
      ((personEngine 0).policy.Hides (personEngine 0).registry Target.value.label) (personEngine 10).store := by
    intro name
    simp only [Store.table?, hstore, hstore', Dict.get?]
    split
    · have hsalary : ∀ f, ¬(personEngine 0).policy.Hides (personEngine 0).registry Target.value.label personSchema f →
          "Salary" ≠ f := by
        rintro _ hf rfl
        exact hf hhides
      refine .some ⟨rfl, .cons ?_ (.cons ?_ (.cons ?_ .nil))⟩ <;>
        exact fun f hf => by simp [Dict.get?, hsalary f hf]
    · exact .none
  have hreachable : (personEngine 0).store.Reachable :=
    Store.reachable_ofEntities (show ∀ data ∈ personEntities 0, data.WellFormed by decide +kernel)
  have hreachable' : (personEngine 10).store.Reachable :=
    Store.reachable_ofEntities (show ∀ data ∈ personEntities 10, data.WellFormed by decide +kernel)
  have hpolicy : (personEngine 10).policy = (personEngine 0).policy := rfl
  have hregistry : (personEngine 10).registry = (personEngine 0).registry := rfl
  refine ⟨hhides, hidden_fields_do_not_interfere hpolicy hregistry hreachable hreachable' Target.value hagree
    personQuery ?_ {} {}⟩
  rintro schema _ ⟨j, hj, _⟩
  simp [personQuery] at hj

end Engine

end GuardedQuery
