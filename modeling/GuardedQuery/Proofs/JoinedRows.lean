import GuardedQuery.Proofs.Loading
import GuardedQuery.Proofs.Stages

/-!
# Pages of joined rows

Inner joins make several rows of one record, which share its identity. The keys of a query therefore end with the
identities of the inner-joined entities. These columns are named after the entities, so two inner joins with one
entity fill the same column, and the later one wins: then rows may tie, and rows that tie across the end of a page
are passed over. If every inner join has a column of its own, pages visit all joined rows.

## Main definitions

* `Join.identityColumn?`, `Query.joinedColumns`: the identity columns of inner joins.
* `Query.KeepsKeys`: the joins overwrite no key but with another identity.

## Main statements

* `Join.nodup_allOnStore`: joined rows differ in the identities of the records that they are made of.
* `Engine.pairwise_joined`: joined rows do not tie if the inner joins fill different identity columns.
* `Engine.joined_rows_paged`: which joined rows are visited.
-/

namespace GuardedQuery

open SortKey (compareRecords)

/-- An identity whose values are told apart by their order: a text, an integer, a truth value or a UUID. -/
def EntitySchema.HasPlainIdentity (schema : EntitySchema) : Prop :=
  ∃ type ∈ [ScalarType.string, .int, .bool, .uuid], schema.fieldType? schema.identity = some (.scalar type)

theorem EntitySchema.HasPlainIdentity.not_datetime {schema : EntitySchema} (h : schema.HasPlainIdentity) :
    (schema.fieldType? schema.identity).any (fun type => type.isA .datetime) = false := by
  have hall : ∀ type ∈ [ScalarType.string, .int, .bool, .uuid], (FieldType.scalar type).isA .datetime = false := by
    decide
  obtain ⟨type, htype, hdeclared⟩ := h
  rw [hdeclared, Option.any_some, hall type htype]

/-- Identities of these types are plain. -/
theorem Table.Sound.plain_identity {t : Table} (h : t.Sound) (hplain : t.schema.HasPlainIdentity) {r : Record}
    (hr : r ∈ t.records) (hwell : ∀ m ∈ r, m.2.WellFormed) : (Record.value r t.schema.identity).Plain := by
  have hfloat : ∀ type ∈ [ScalarType.string, .int, .bool, .uuid], type ≠ .float := by decide
  obtain ⟨type, htype, hdeclared⟩ := hplain
  exact h.plain_value hr hwell (hfloat type htype) hdeclared

/-! ## Joined identities -/

namespace Join

/-- The column with the identity of the entity, which an inner join fills. -/
def identityColumn? (lookUp : String → Option EntitySchema) (j : Join) : Option String :=
  if JoinKind.parse? j.kind = some .join then (lookUp j.entity).map EntitySchema.joinedIdentity else none

theorem identityColumn?_eq_some_iff {lookUp : String → Option EntitySchema} {j : Join} {column : String} :
    j.identityColumn? lookUp = some column ↔
      JoinKind.parse? j.kind = some .join ∧
        ∃ joined, lookUp j.entity = some joined ∧ joined.joinedIdentity = column := by
  rw [identityColumn?]
  split
  · rename_i hkind
    simp [hkind, Option.map_eq_some_iff]
  · rename_i hkind
    simp [hkind]

/-- An inner join attaches its identity column. -/
theorem attaches_identityColumn {lookUp : String → Option EntitySchema} {j : Join} {column : String}
    (h : j.identityColumn? lookUp = some column) : Query.Attaches lookUp [j] column := by
  obtain ⟨hkind, joined, hlookUp, rfl⟩ := identityColumn?_eq_some_iff.mp h
  exact ⟨j, List.mem_singleton_self j, .join, joined, hkind, hlookUp, List.mem_cons_self⟩

theorem attaches_cons_iff {lookUp : String → Option EntitySchema} {j : Join} {rest : List Join} {f : String} :
    Query.Attaches lookUp (j :: rest) f ↔ Query.Attaches lookUp [j] f ∨ Query.Attaches lookUp rest f := by
  simp only [Query.Attaches, List.mem_cons, List.not_mem_nil, or_false, exists_eq_left, or_and_right, exists_or]

/-- Selecting fields does not change the column with the identity of the record. -/
theorem value_foldl_select (joined : EntitySchema) (candidate : Record) (select : List String) {row : Record}
    (h : Record.value row joined.joinedIdentity = Record.value candidate joined.identity) :
    Record.value (select.foldl
      (fun combined f => Dict.insert combined s!"{joined.name}.{f}" (Record.value candidate f)) row)
      joined.joinedIdentity = Record.value candidate joined.identity := by
  induction select generalizing row with
  | nil => exact h
  | cons f rest ih =>
    refine ih ?_
    rw [Record.value, Dict.get?_insert]
    split
    · rename_i hname
      have hchars := congrArg String.toList hname
      simp only [EntitySchema.joinedIdentity, String.toList_append, List.append_cancel_left_eq] at hchars
      have hfield : f = joined.identity := String.toList_inj.mp hchars
      rw [hfield, Option.getD_some]
    · exact h

theorem value_beside (j : Join) (joined : EntitySchema) (row candidate : Record) :
    Record.value (j.beside joined row candidate) joined.joinedIdentity = Record.value candidate joined.identity := by
  refine value_foldl_select joined candidate j.select ?_
  rw [Record.value, Dict.get?_insert, if_pos rfl, Option.getD_some]

/-- What a join with a store does. -/
theorem onStore_eq_ok {s : Store} (hsound : s.Sound) {root : EntitySchema} {j : Join} {rows rows' : List Record}
    {n n' : Nat} (h : j.onStore s root rows n = .ok (rows', n')) :
    ∃ kind t, JoinKind.parse? j.kind = some kind ∧ s.table? j.entity = some t ∧
      rows' = rows.flatMap (j.attach kind t.schema t.records) := by
  obtain ⟨kind, hkind, h⟩ := Outcome.bind_eq_ok_iff.mp h
  obtain ⟨joined, hjoined, h⟩ := Outcome.bind_eq_ok_iff.mp h
  obtain ⟨_, _, h⟩ := Outcome.bind_eq_ok_iff.mp h
  obtain ⟨found, hfound, h⟩ := Outcome.bind_eq_ok_iff.mp h
  obtain ⟨t, ht, rfl⟩ := Option.map_eq_some_iff.mp (Store.declaration_eq_ok_iff.mp hjoined)
  rw [Store.find_of_table (hsound.table?_name ht)] at hfound
  have hall : t.records.filter Predicate.always.holds = t.records := List.filter_eq_self.mpr fun _ _ => rfl
  obtain rfl := Except.ok.inj hfound
  obtain ⟨rfl, _⟩ := Prod.mk.inj (Except.ok.inj h)
  exact ⟨kind, t, kindOf_eq_ok_iff.mp hkind, ht, by rw [hall]⟩

section Store

variable {s : Store} (hsound : s.Sound) {root : EntitySchema} {joins : List Join} {rows rows' : List Record}
  {n n' : Nat}
include hsound

/-- What a join does not attach is as it was. -/
theorem onStore_keeps {j : Join} (h : j.onStore s root rows n = .ok (rows', n')) {r' : Record} (hr' : r' ∈ rows') :
    ∃ r ∈ rows, ∀ f, ¬Query.Attaches s.schema? [j] f → Dict.get? r' f = Dict.get? r f := by
  obtain ⟨kind, t, hkind, ht, rfl⟩ := onStore_eq_ok hsound h
  obtain ⟨r, hr, hattach⟩ := List.mem_flatMap.mp hr'
  refine ⟨r, hr, fun f hf => attach_keeps hattach fun hmem => hf ?_⟩
  exact ⟨j, List.mem_singleton_self j, kind, t.schema, hkind, Store.schema?_of_table ht, hmem⟩

/-- What no join attaches is as it was. -/
theorem allOnStore_keeps (h : allOnStore s root joins rows n = .ok (rows', n')) {r' : Record} (hr' : r' ∈ rows') :
    ∃ r ∈ rows, ∀ f, ¬Query.Attaches s.schema? joins f → Dict.get? r' f = Dict.get? r f := by
  induction joins generalizing rows n with
  | nil =>
    obtain ⟨rfl, _⟩ := Prod.mk.inj (Except.ok.inj h)
    exact ⟨r', hr', fun _ _ => rfl⟩
  | cons j rest ih =>
    obtain ⟨⟨between, m⟩, hfirst, hrest⟩ := Outcome.bind_eq_ok_iff.mp h
    obtain ⟨r₁, hr₁, hkept⟩ := ih hrest
    obtain ⟨r, hr, hkept'⟩ := onStore_keeps hsound hfirst hr₁
    refine ⟨r, hr, fun f hf => ?_⟩
    rw [attaches_cons_iff, not_or] at hf
    rw [hkept f hf.2, hkept' f hf.1]

/-- A column that joins only fill with identities holds identities once one of them has filled it. -/
theorem allOnStore_identity {P : Value → Prop}
    (hP : ∀ name t, s.table? name = some t → ∀ r ∈ t.records, P (Record.value r t.schema.identity))
    (h : allOnStore s root joins rows n = .ok (rows', n')) {column : String}
    (hown : ∀ j ∈ joins, Query.Attaches s.schema? [j] column → j.identityColumn? s.schema? = some column)
    (hfilled : (∀ r ∈ rows, P (Record.value r column)) ∨ ∃ j ∈ joins, j.identityColumn? s.schema? = some column) :
    ∀ r' ∈ rows', P (Record.value r' column) := by
  induction joins generalizing rows n with
  | nil =>
    obtain ⟨rfl, _⟩ := Prod.mk.inj (Except.ok.inj h)
    exact hfilled.resolve_right (by simp)
  | cons j rest ih =>
    obtain ⟨⟨between, m⟩, hfirst, hrest⟩ := Outcome.bind_eq_ok_iff.mp h
    refine ih hrest (fun i hi => hown i (List.mem_cons_of_mem _ hi)) ?_
    by_cases hattaches : Query.Attaches s.schema? [j] column
    · -- the join fills the column itself
      refine .inl fun r₁ hr₁ => ?_
      obtain ⟨hkind, joined, hlookUp, rfl⟩ := identityColumn?_eq_some_iff.mp (hown j List.mem_cons_self hattaches)
      obtain ⟨kind, t, hkind', ht, rfl⟩ := onStore_eq_ok hsound hfirst
      obtain rfl := Option.some.inj (hkind.symm.trans hkind')
      rw [Store.schema?, ht, Option.map_some, Option.some.injEq] at hlookUp
      obtain ⟨r, _, hattach⟩ := List.mem_flatMap.mp hr₁
      obtain ⟨candidate, hcandidate, rfl⟩ := List.mem_map.mp hattach
      rw [← hlookUp, value_beside]
      exact hP _ t ht candidate (List.mem_of_mem_filter hcandidate)
    · rcases hfilled with hall | ⟨i, hi, hcolumn⟩
      · refine .inl fun r₁ hr₁ => ?_
        obtain ⟨r, hr, hkept⟩ := onStore_keeps hsound hfirst hr₁
        have hvalue : Record.value r₁ column = Record.value r column := by
          rw [Record.value, Record.value, hkept column hattaches]
        rw [hvalue]
        exact hall r hr
      · rcases List.mem_cons.mp hi with rfl | hi
        · exact absurd (attaches_identityColumn hcolumn) hattaches
        · exact .inr ⟨i, hi, hcolumn⟩

end Store

/-! ## Rows told apart by identities -/

/-- The values of a row in some columns. -/
def valuesIn (columns : List String) (r : Record) : List Value := columns.map (Record.value r)

theorem valuesIn_append (columns columns' : List String) (r : Record) :
    valuesIn (columns ++ columns') r = valuesIn columns r ++ valuesIn columns' r := List.map_append

theorem valuesIn_congr {columns : List String} {r r' : Record}
    (h : ∀ c ∈ columns, Dict.get? r' c = Dict.get? r c) : valuesIn columns r' = valuesIn columns r :=
  List.map_congr_left fun c hc => by rw [Record.value, Record.value, h c hc]

/-- A group join keeps rows apart. -/
theorem nodup_groupJoin {columns : List String} {rows : List Record} (h : (rows.map (valuesIn columns)).Nodup)
    {j : Join} {joined : EntitySchema} (hkeeps : ∀ c ∈ columns, c ∉ j.attachedNames .groupJoin joined)
    (candidates : List Record) :
    ((rows.flatMap (j.attach .groupJoin joined candidates)).map (valuesIn columns)).Nodup := by
  have hsame : (rows.flatMap (j.attach .groupJoin joined candidates)).map (valuesIn columns) =
      rows.map (valuesIn columns) := by
    rw [List.map_flatMap]
    have hone : ∀ r, (j.attach .groupJoin joined candidates r).map (valuesIn columns) = [valuesIn columns r] := by
      intro r
      have hvalues : ∀ r' ∈ j.attach .groupJoin joined candidates r, valuesIn columns r' = valuesIn columns r :=
        fun r' hr' => valuesIn_congr fun c hc => attach_keeps hr' (hkeeps c hc)
      rw [List.map_congr_left hvalues]
      rfl
    simp only [hone]
    exact List.flatMap_pure_eq_map _ _
  rwa [hsame]

/-- An inner join keeps rows apart, with the identities it attaches. -/
theorem nodup_innerJoin {columns : List String} {rows : List Record} (h : (rows.map (valuesIn columns)).Nodup)
    {j : Join} {t : Table} (ht : t.Sound) (hkeeps : ∀ c ∈ columns, c ∉ j.attachedNames .join t.schema) :
    ((rows.flatMap (j.attach .join t.schema t.records)).map
      (valuesIn (columns ++ [t.schema.joinedIdentity]))).Nodup := by
  have hvalues : ∀ r, ∀ candidate ∈ t.records.filter (j.matching r),
      valuesIn (columns ++ [t.schema.joinedIdentity]) (j.beside t.schema r candidate) =
        valuesIn columns r ++ [Record.value candidate t.schema.identity] := by
    intro r candidate hcandidate
    have hmem : j.beside t.schema r candidate ∈ j.attach .join t.schema t.records r :=
      List.mem_map_of_mem hcandidate
    rw [valuesIn_append, valuesIn_congr fun c hc => attach_keeps hmem (hkeeps c hc)]
    simp only [valuesIn, List.map_cons, List.map_nil, value_beside]
  have hrow : ∀ r, (j.attach .join t.schema t.records r).map (valuesIn (columns ++ [t.schema.joinedIdentity])) =
      (t.records.filter (j.matching r)).map fun candidate =>
        valuesIn columns r ++ [Record.value candidate t.schema.identity] := by
    intro r
    rw [attach, List.map_map]
    exact List.map_congr_left (hvalues r)
  have hidentities : t.records.Pairwise fun a b =>
      Record.value a t.schema.identity ≠ Record.value b t.schema.identity := by
    have hdistinct := ht.distinct
    rw [ht.identities, List.Nodup, List.pairwise_map] at hdistinct
    exact hdistinct.imp fun hne heq => hne (by rw [heq])
  rw [List.map_flatMap, List.nodup_flatMap]
  constructor
  · intro r _
    rw [hrow, List.Nodup, List.pairwise_map]
    refine (hidentities.filter _).imp ?_
    intro a b hne heq
    exact hne (List.singleton_injective (List.append_cancel_left heq))
  · rw [List.Nodup, List.pairwise_map] at h
    refine h.imp ?_
    intro a b hne
    rw [Function.onFun, hrow, hrow]
    intro values hleft hright
    obtain ⟨x, _, rfl⟩ := List.mem_map.mp hleft
    obtain ⟨y, _, heq⟩ := List.mem_map.mp hright
    exact hne (List.append_inj_left' heq.symm rfl)

/-- **Joined rows differ in the identities of the records that they are made of**, as long as every inner join has an
identity column of its own and no other join fills it. -/
theorem nodup_allOnStore {s : Store} (hsound : s.Sound) {root : EntitySchema} {joins : List Join}
    {rows rows' : List Record} {n n' : Nat} (h : allOnStore s root joins rows n = .ok (rows', n'))
    {columns : List String} (hapart : (rows.map (valuesIn columns)).Nodup)
    (hkeeps : ∀ c ∈ columns, ¬Query.Attaches s.schema? joins c)
    (hcolumns : (joins.filterMap (identityColumn? s.schema?)).Nodup)
    (hown : ∀ j ∈ joins, ∀ c ∈ joins.filterMap (identityColumn? s.schema?), Query.Attaches s.schema? [j] c →
      j.identityColumn? s.schema? = some c) :
    (rows'.map (valuesIn (columns ++ joins.filterMap (identityColumn? s.schema?)))).Nodup := by
  induction joins generalizing rows n columns with
  | nil =>
    obtain ⟨rfl, _⟩ := Prod.mk.inj (Except.ok.inj h)
    rwa [List.filterMap_nil, List.append_nil]
  | cons j rest ih =>
    obtain ⟨⟨between, m⟩, hfirst, hrest⟩ := Outcome.bind_eq_ok_iff.mp h
    obtain ⟨kind, t, hkind, ht, rfl⟩ := onStore_eq_ok hsound hfirst
    have hlookUp : s.schema? j.entity = some t.schema := Store.schema?_of_table ht
    have hkeepsFirst : ∀ c ∈ columns, c ∉ j.attachedNames kind t.schema := fun c hc hmem =>
      hkeeps c hc ⟨j, List.mem_cons_self, kind, t.schema, hkind, hlookUp, hmem⟩
    have hkeepsRest : ∀ c ∈ columns, ¬Query.Attaches s.schema? rest c := fun c hc hattaches =>
      hkeeps c hc (attaches_cons_iff.mpr (.inr hattaches))
    cases kind with
    | groupJoin =>
      have hnone : j.identityColumn? s.schema? = none := by simp [identityColumn?, hkind]
      rw [List.filterMap_cons_none hnone] at hcolumns hown ⊢
      exact ih hrest (nodup_groupJoin hapart hkeepsFirst _) hkeepsRest hcolumns
        fun i hi => hown i (List.mem_cons_of_mem _ hi)
    | join =>
      have hsome : j.identityColumn? s.schema? = some t.schema.joinedIdentity :=
        identityColumn?_eq_some_iff.mpr ⟨hkind, t.schema, hlookUp, rfl⟩
      rw [List.filterMap_cons_some hsome] at hcolumns hown ⊢
      obtain ⟨hnew, hcolumnsRest⟩ := List.nodup_cons.mp hcolumns
      have hfinal := ih hrest (nodup_innerJoin hapart (hsound _ t ht).1 hkeepsFirst) ?_ hcolumnsRest
        fun i hi c hc => hown i (List.mem_cons_of_mem _ hi) c (List.mem_cons_of_mem _ hc)
      · rwa [List.append_assoc, List.singleton_append] at hfinal
      · intro c hc hattaches
        rcases List.mem_append.mp hc with hc | hc
        · exact hkeepsRest c hc hattaches
        · -- another join with this column would have it as its own
          obtain rfl := List.mem_singleton.mp hc
          obtain ⟨i, hi, kind', joined, hkind', hlookUp', hmem⟩ := hattaches
          refine hnew (List.mem_filterMap.mpr ⟨i, hi, ?_⟩)
          exact hown i (List.mem_cons_of_mem _ hi) _ List.mem_cons_self
            ⟨i, List.mem_singleton_self i, kind', joined, hkind', hlookUp', hmem⟩

end Join

/-! ## Keys of joined rows -/

namespace Query

variable {q : Query} {lookUp : String → Option EntitySchema} {schema : EntitySchema} {keys : List SortKey}

/-- The identity columns that the inner joins of a query fill. -/
def joinedColumns (q : Query) (lookUp : String → Option EntitySchema) : List String :=
  q.joins.filterMap (Join.identityColumn? lookUp)

/-- The joins of a query attach nothing under the name of the identity or of a requested key, and nothing under the
name of an identity column but identities. -/
structure KeepsKeys (q : Query) (lookUp : String → Option EntitySchema) (schema : EntitySchema) : Prop where
  /-- Keys of the entity are kept. -/
  root : ∀ f, Attaches lookUp q.joins f → f ≠ schema.identity ∧ ∀ item ∈ q.sort, f ≠ item.field
  /-- Identity columns hold identities. -/
  joined : ∀ j ∈ q.joins, ∀ c ∈ q.joinedColumns lookUp, Attaches lookUp [j] c → j.identityColumn? lookUp = some c

theorem attaches_of_mem_joinedColumns {c : String} (h : c ∈ q.joinedColumns lookUp) : Attaches lookUp q.joins c := by
  obtain ⟨j, hj, hcolumn⟩ := List.mem_filterMap.mp h
  obtain ⟨i, hi, kind, joined, hkind, hlookUp, hmem⟩ := Join.attaches_identityColumn hcolumn
  obtain rfl := List.mem_singleton.mp hi
  exact ⟨i, hj, kind, joined, hkind, hlookUp, hmem⟩

/-- The keys of an ungrouped query: the requested ones, the identity, and the identities of inner joins. -/
theorem mem_recordKeys {b : Binding} (h : q.recordKeys lookUp schema b = .ok keys) {k : SortKey} (hk : k ∈ keys) :
    (∃ item ∈ q.sort, k = requestedKey schema item) ∨
      k = SortKey.typed { field := schema.identity } (schema.fieldType? schema.identity) ∨
      ∃ j ∈ q.joins, JoinKind.parse? j.kind = some .join ∧ ∃ joined, lookUp j.entity = some joined ∧
        k = SortKey.typed { field := joined.joinedIdentity } (joined.fieldType? joined.identity) := by
  obtain ⟨requested, hrequested, h⟩ := Outcome.bind_eq_ok_iff.mp h
  split at h
  · simp at h
  · rcases mem_foldlM_withJoinedIdentity h hk with hmem | hjoined
    · rcases mem_withTieBreaker hmem with hmem | rfl
      · obtain ⟨item, hitem, hkey⟩ := Outcome.exists_mem_of_mapM hrequested hmem
        exact .inl ⟨item, hitem, (recordKey_eq hkey).symm⟩
      · exact .inr (.inl rfl)
    · exact .inr (.inr hjoined)

theorem mem_withTieBreaker_of_mem {field : String} {type : Option FieldType} {k : SortKey} (hk : k ∈ keys) :
    k ∈ withTieBreaker keys field type := by
  rw [withTieBreaker]
  split
  · exact hk
  · exact List.mem_append_left _ hk

/-- Every identity column has a key. -/
theorem exists_mem_foldlM_withJoinedIdentity {joins : List Join} {keys' : List SortKey}
    (h : joins.foldlM (withJoinedIdentity lookUp) keys = .ok keys') :
    (∀ k ∈ keys, k ∈ keys') ∧
      ∀ c ∈ joins.filterMap (Join.identityColumn? lookUp), ∃ k ∈ keys', k.field = c := by
  induction joins generalizing keys with
  | nil =>
    obtain rfl := Except.ok.inj h
    exact ⟨fun _ hk => hk, by simp⟩
  | cons j rest ih =>
    rw [List.foldlM_cons] at h
    obtain ⟨between, hbetween, h⟩ := Outcome.bind_eq_ok_iff.mp h
    obtain ⟨hkept, hcolumns⟩ := ih h
    rw [withJoinedIdentity] at hbetween
    split at hbetween
    · rename_i hkind
      split at hbetween
      · rename_i joined hlookUp
        obtain rfl := Except.ok.inj hbetween
        have hsome : j.identityColumn? lookUp = some joined.joinedIdentity :=
          Join.identityColumn?_eq_some_iff.mpr ⟨hkind, joined, hlookUp, rfl⟩
        refine ⟨fun k hk => hkept k (mem_withTieBreaker_of_mem hk), ?_⟩
        rw [List.filterMap_cons_some hsome]
        refine List.forall_mem_cons.mpr ⟨?_, hcolumns⟩
        obtain ⟨k, hk, hfield⟩ := exists_mem_withTieBreaker keys joined.joinedIdentity
          (joined.fieldType? joined.identity)
        exact ⟨k, hkept k hk, hfield⟩
      · simp at hbetween
    · rename_i hkind
      obtain rfl := Except.ok.inj hbetween
      have hnone : j.identityColumn? lookUp = none := by simp [Join.identityColumn?, hkind]
      rw [List.filterMap_cons_none hnone]
      exact ⟨hkept, hcolumns⟩

/-- The identity and every identity column has a key. -/
theorem exists_mem_recordKeys {b : Binding} (h : q.recordKeys lookUp schema b = .ok keys) {c : String}
    (hc : c ∈ schema.identity :: q.joinedColumns lookUp) : ∃ k ∈ keys, k.field = c := by
  obtain ⟨requested, _, h⟩ := Outcome.bind_eq_ok_iff.mp h
  split at h
  · simp at h
  · obtain ⟨hkept, hcolumns⟩ := exists_mem_foldlM_withJoinedIdentity h
    rcases List.mem_cons.mp hc with rfl | hc
    · obtain ⟨k, hk, hfield⟩ := exists_mem_withTieBreaker requested schema.identity
        (schema.fieldType? schema.identity)
      exact ⟨k, hkept k hk, hfield⟩
    · exact hcolumns c hc

/-- Keys for identities do not read texts as instants. -/
theorem KeepsKeys.not_temporal (hkeeps : q.KeepsKeys lookUp schema) (hroot : schema.HasPlainIdentity)
    (hjoined : ∀ name joined, lookUp name = some joined → joined.HasPlainIdentity) {b : Binding}
    (h : q.recordKeys lookUp schema b = .ok keys) {k : SortKey} (hk : k ∈ keys)
    (hfield : k.field ∈ schema.identity :: q.joinedColumns lookUp) : k.temporal = false := by
  have hcolumn : k.field ∈ q.joinedColumns lookUp →
      k.field ≠ schema.identity ∧ ∀ item ∈ q.sort, k.field ≠ item.field :=
    fun hmem => hkeeps.root _ (attaches_of_mem_joinedColumns hmem)
  rcases mem_recordKeys h hk with ⟨item, hitem, rfl⟩ | rfl | ⟨j, _, _, joined, hlookUp, rfl⟩
  · rcases List.mem_cons.mp hfield with hidentity | hmem
    · have hitemField : item.field = schema.identity := hidentity
      simp only [requestedKey, SortKey.typed, hitemField, hroot.not_datetime]
    · exact absurd rfl ((hcolumn hmem).2 item hitem)
  · exact hroot.not_datetime
  · exact (hjoined j.entity joined hlookUp).not_datetime

end Query

/-! ## What pages of joined rows visit -/

namespace Engine

variable {e : Engine Store} {q : Query} {schema : EntitySchema}

section Joined

variable {s : Store} (hreachable : s.Reachable) {t : Table} (ht : s.table? q.entity = some t)
  (hidentities : ∀ name joined, s.schema? name = some joined → joined.HasPlainIdentity)
  (hsort : ∀ item ∈ q.sort, t.schema.fieldType? item.field ≠ some (.scalar .float))
  (hdepth : ∀ r ∈ t.records, ∀ item ∈ q.sort, (Record.value r item.field).depth ≤ 125)
  (hkeeps : q.KeepsKeys s.schema? t.schema) {p : Record → Bool} {rows : List Record} {n n' : Nat}
  (hjoined : Join.allOnStore s t.schema q.joins (t.records.filter p) n = .ok (rows, n')) {b : Binding}
  {keys : List SortKey} (hkeys : q.recordKeys s.schema? t.schema b = .ok keys)

include hreachable ht hidentities hsort hdepth hkeeps hjoined hkeys

/-- Values of the keys of joined rows are orderly. -/
theorem orderly_joined {r : Record} (hr : r ∈ rows) {k : SortKey} (hk : k ∈ keys) :
    (Record.value r k.field).Orderly ∧
      (k.field ∈ t.schema.identity :: q.joinedColumns s.schema? → (Record.value r k.field).Plain) := by
  have hsound := hreachable.sound
  have hwell := hreachable.wellFormed
  have hplain : ∀ name u, s.table? name = some u → ∀ candidate ∈ u.records,
      (Record.value candidate u.schema.identity).Plain := by
    intro name u hu candidate hcandidate
    have hidentity := hidentities name u.schema (Store.schema?_of_table hu)
    exact (hsound name u hu).1.plain_identity hidentity hcandidate (hwell name u hu _ hcandidate)
  obtain ⟨source, hsource, hkept⟩ := Join.allOnStore_keeps hsound hjoined hr
  have hsource := List.mem_of_mem_filter hsource
  have hvalue : ∀ f, ¬Query.Attaches s.schema? q.joins f → Record.value r f = Record.value source f := by
    intro f hf
    rw [Record.value, Record.value, hkept f hf]
  rcases Query.mem_recordKeys hkeys hk with ⟨item, hitem, rfl⟩ | rfl | ⟨j, hj, hkind, joined, hlookUp, rfl⟩
  · have hnot : ¬Query.Attaches s.schema? q.joins item.field := fun hattaches =>
      (hkeeps.root _ hattaches).2 item hitem rfl
    have horderly := (hsound _ t ht).1.orderly_value hsource (hwell _ t ht _ hsource) (hsort item hitem)
      (hdepth _ hsource item hitem)
    have hfield : (Query.requestedKey t.schema item).field = item.field := rfl
    rw [hfield, hvalue _ hnot]
    refine ⟨horderly, fun hmem => ?_⟩
    rcases List.mem_cons.mp hmem with hidentity | hmem
    · rw [hidentity]
      exact hplain _ t ht _ hsource
    · exact absurd (Query.attaches_of_mem_joinedColumns hmem) hnot
  · have hnot : ¬Query.Attaches s.schema? q.joins t.schema.identity := fun hattaches =>
      (hkeeps.root _ hattaches).1 rfl
    have hfield : (SortKey.typed { field := t.schema.identity }
        (t.schema.fieldType? t.schema.identity)).field = t.schema.identity := rfl
    rw [hfield, hvalue _ hnot]
    exact ⟨(hplain _ t ht _ hsource).orderly, fun _ => hplain _ t ht _ hsource⟩
  · have hcolumn : j.identityColumn? s.schema? = some joined.joinedIdentity :=
      Join.identityColumn?_eq_some_iff.mpr ⟨hkind, joined, hlookUp, rfl⟩
    have hmem : joined.joinedIdentity ∈ q.joinedColumns s.schema? := List.mem_filterMap.mpr ⟨j, hj, hcolumn⟩
    have hidentity := Join.allOnStore_identity hsound hplain hjoined (fun i hi => hkeeps.joined i hi _ hmem)
      (.inr ⟨j, hj, hcolumn⟩) r hr
    exact ⟨hidentity.orderly, fun _ => hidentity⟩

/-- If the inner joins fill different identity columns, then no two joined rows tie: rows that tie have the same
identities. -/
theorem pairwise_joined (hcolumns : (q.joinedColumns s.schema?).Nodup) :
    rows.Pairwise fun a b => compareRecords keys a b ≠ .eq := by
  have hsound := hreachable.sound
  have hstart : ((t.records.filter p).map (Join.valuesIn [t.schema.identity])).Nodup := by
    have hdistinct := (hsound _ t ht).1.distinct
    rw [(hsound _ t ht).1.identities, List.Nodup, List.pairwise_map] at hdistinct
    rw [List.Nodup, List.pairwise_map]
    refine (hdistinct.filter _).imp ?_
    intro a b hne heq
    exact hne (by rw [List.singleton_injective heq])
  have hnodup := Join.nodup_allOnStore hsound hjoined hstart
    (fun c hc hattaches => (hkeeps.root c hattaches).1 (List.mem_singleton.mp hc)) hcolumns hkeeps.joined
  rw [List.Nodup, List.pairwise_map] at hnodup
  refine hnodup.imp_of_mem ?_
  intro a b ha hb hne heq
  refine hne (List.map_congr_left fun column hcolumn => ?_)
  obtain ⟨k, hk, rfl⟩ := Query.exists_mem_recordKeys hkeys hcolumn
  have hroot := hidentities q.entity t.schema (Store.schema?_of_table ht)
  have htemporal := hkeeps.not_temporal hroot hidentities hkeys hk hcolumn
  have hplain : ∀ r ∈ rows, (Record.value r k.field).Plain := fun r hr =>
    (orderly_joined hreachable ht hidentities hsort hdepth hkeeps hjoined hkeys hr hk).2 hcolumn
  exact SortKey.value_eq_of_compareRecords heq hk htemporal (hplain a ha) (hplain b hb)

end Joined

/-- **Which joined rows pages visit.** Take an ungrouped query with joins and without operations, whose requested
keys are no floats and are kept by the joins, and which an engine answers. Whatever page size a client asks for, it
comes to an end and has seen joined rows in order, none of them twice. It has seen all of them for every page size if
and only if no two of them tie, which is so if the inner joins fill different identity columns. -/
theorem joined_rows_paged (hreachable : e.store.Reachable)
    (hidentities : ∀ name joined, e.store.schema? name = some joined → joined.HasPlainIdentity)
    (hschema : e.store.schema? q.entity = some schema) (hgrouped : q.isGrouped = false)
    (hoperations : q.operations = [])
    (hsort : ∀ item ∈ q.sort, schema.fieldType? item.field ≠ some (.scalar .float))
    (hdepth : ∀ r ∈ e.store.recordsOf q.entity, ∀ item ∈ q.sort, (Record.value r item.field).depth ≤ 125)
    (hkeeps : q.KeepsKeys e.store.schema? schema) {c : Circumstances} {first : Response Value}
    (hfirst : (e.execute Target.value q false c).1 = .ok first) :
    ∃ (binding : Binding) (predicate : Predicate) (rows : List Record) (examined : Nat) (keys : List SortKey)
      (all : List Value),
      e.registry.get? Target.value.label schema.name = some binding ∧
      schema.columns.compileAll q.filters = .ok predicate ∧
      Join.allOnStore e.store schema q.joins ((e.store.recordsOf q.entity).filter predicate.holds)
        (e.store.recordsOf q.entity).length = .ok (rows, examined) ∧
      q.recordKeys e.store.schema? schema binding = .ok keys ∧
      all = (SortKey.sort keys rows).map (fun r => .object (binding.narrow q.select (binding.project r))) ∧
      (SortKey.sort keys rows).Pairwise (fun a b => compareRecords keys a b ≠ .gt) ∧
      (∀ size, e.policy.AdmitsSize size → ∃ items, e.Pages q size none items ∧ items.Sublist all) ∧
      (e.PagesVisit q all ↔ rows.Pairwise fun a b => compareRecords keys a b ≠ .eq) ∧
      ((q.joinedColumns e.store.schema?).Nodup → e.PagesVisit q all) := by
  have hsound := hreachable.sound
  obtain ⟨haccepts, hresult⟩ := execute_eq_ok_iff.mp hfirst
  obtain ⟨f, hfound, _⟩ := Outcome.bind_eq_ok_iff.mp hresult
  obtain ⟨st, hst⟩ := Query.exists_stages hsound hschema hgrouped hfound
  obtain ⟨t, ht, rfl⟩ := Option.map_eq_some_iff.mp hschema
  have hrecords : e.store.recordsOf q.entity = t.records := Store.recordsOf_of_table ht
  obtain ⟨reversed, keys, hreversed, hkeys, hstKeys⟩ := hst.keys
  have hworked := hst.worked
  have hfinished := hst.rows
  have hjoined := hst.joined
  rw [hoperations] at hreversed hworked hfinished
  have hsame : st.worked = st.joined := (Except.ok.inj hworked).symm
  obtain rfl : false = reversed := Except.ok.inj hreversed
  have hkeysEq : f.keys = keys := hst.keys_eq.trans hstKeys
  have hrows : f.rows = (SortKey.sort f.keys st.joined).map fun r =>
      { source := r, shaped := st.binding.project r } := by
    rw [← Except.ok.inj hfinished, Query.Stages.shaped, hst.keys_eq, hsame]
  rw [hrecords] at hdepth hjoined
  have horderly : ∀ r ∈ st.joined, ∀ k ∈ keys, (Record.value r k.field).Orderly := fun r hr k hk =>
    (orderly_joined hreachable ht hidentities hsort hdepth hkeeps hjoined hkeys hr hk).1
  have horders : SortKey.Orders keys (· ∈ st.joined) :=
    SortKey.orders_exact fun r hr k hk => (horderly r hr k hk).exact
  obtain ⟨hvisit, hends⟩ := pagesVisit_sorted_iff haccepts hfound hrows
    (hkeysEq ▸ horders) (hkeysEq ▸ fun r hr k hk => (horderly r hr k hk).travels)
  have hall : f.rows.map (q.rowItem f.binding) =
      (SortKey.sort keys st.joined).map fun r => .object (st.binding.narrow q.select (st.binding.project r)) := by
    rw [hrows, hst.binding_eq, hkeysEq, List.map_map]
    rfl
  rw [hkeysEq] at hvisit
  rw [hall] at hvisit hends
  refine ⟨st.binding, st.predicate, st.joined, f.examined, keys, _, hst.binding, hst.predicate,
    hrecords.symm ▸ hjoined, hkeys, rfl, SortKey.pairwise_sort horders, hends, hvisit, fun hcolumns => ?_⟩
  exact hvisit.mpr (pairwise_joined hreachable ht hidentities hsort hdepth hkeeps hjoined hkeys hcolumns)

/-! ## Two joins with one entity -/

/-- Customers, and the last order of each. -/
def customerSchema : EntitySchema where
  name := "Customer"
  fields := [("Id", .scalar .int), ("Last", .scalar .int)]

/-- Orders of customers. -/
def orderSchema : EntitySchema where
  name := "Order"
  fields := [("CustomerId", .scalar .int), ("Id", .scalar .int), ("Total", .scalar .int)]

/-- A customer with two orders. -/
def shopEntities : List EntityData :=
  [{ schema := customerSchema, records := [[("Id", .int 1), ("Last", .int 11)]] },
    { schema := orderSchema
      records :=
        [[("CustomerId", .int 1), ("Id", .int 10), ("Total", .int 20)],
          [("CustomerId", .int 1), ("Id", .int 11), ("Total", .int 30)]] }]

/-- An engine that shows customers with the totals of their orders. -/
def shopEngine : Engine Store where
  policy :=
    { entities :=
        [("customer", { name := "Customer", filterable := ["Id", "Last"], selectable := ["Id"] }),
          ("order", { name := "Order", filterable := ["CustomerId", "Id"], selectable := ["Total"] })] }
  store := .ofEntities shopEntities
  registry :=
    { entries :=
        [{ entity := "customer", target := "<value>",
           binding := (Binding.ofFields ["Id"]).bind "Total" "Order.Total" true }] }

/-- All orders of every customer, each beside the last one. -/
def shopQuery : Query where
  entity := "Customer"
  joins :=
    [{ entity := "Order", on := [("Id", "CustomerId")], select := ["Total"] },
      { entity := "Order", on := [("Last", "Id")] }]

theorem shopEntities_wellFormed : ∀ data ∈ shopEntities, data.WellFormed := by decide +kernel

theorem shopEngine_schema : shopEngine.store.schema? shopQuery.entity = some customerSchema :=
  Store.schema?_ofEntities shopEntities_wellFormed (by simp [shopEntities, customerSchema, orderSchema])
    (by decide +kernel)

/-- The joins attach nothing but members of orders. -/
theorem shopQuery_keepsKeys : shopQuery.KeepsKeys shopEngine.store.schema? customerSchema where
  root := by
    have hnames : ∀ j ∈ shopQuery.joins, ∀ kind ∈ [JoinKind.join, .groupJoin],
        (shopEngine.store.schema? j.entity).all
          (fun joined => !(j.attachedNames kind joined).contains customerSchema.identity) = true := by decide +kernel
    rintro f ⟨j, hj, kind, joined, _, hlookUp, hmem⟩
    have hattached := hnames j hj kind (by cases kind <;> decide)
    rw [hlookUp, Option.all_some, Bool.not_eq_true', List.contains_eq_mem, decide_eq_false_iff_not] at hattached
    exact ⟨fun hf => hattached (hf ▸ hmem), nofun⟩
  joined := by
    have hcolumn : ∀ j ∈ shopQuery.joins, j.identityColumn? shopEngine.store.schema? = some "Order.Id" := by
      decide +kernel
    intro j hj c hc _
    obtain ⟨i, hi, hsome⟩ := List.mem_filterMap.mp hc
    rw [hcolumn j hj, ← hcolumn i hi, hsome]

/-- The last order is attached under the name that tells the orders apart, so the two rows tie. The totals of both
orders are found, and pages of a single row do not show the second one. -/
theorem joined_rows_paged_shop :
    ∃ all, all = [Value.object [("Id", .int 1), ("Total", .int 20)], .object [("Id", .int 1), ("Total", .int 30)]] ∧
      ¬shopEngine.PagesVisit shopQuery all := by
  have hfirst : (shopEngine.execute Target.value shopQuery false {}).1 = .ok
      { items := [.object [("Id", .int 1), ("Total", .int 20)], .object [("Id", .int 1), ("Total", .int 30)]]
        size := 20, nextCursor := none, totalCount := none, rowsExamined := 5 } :=
    execute_eq_ok_iff.mpr ⟨by decide +kernel, by decide +kernel⟩
  have hidentities : ∀ name joined, shopEngine.store.schema? name = some joined → joined.HasPlainIdentity := by
    intro name joined hjoined
    have hall : ∀ schema ∈ shopEntities.map EntityData.schema, schema.HasPlainIdentity := by
      rw [shopEntities]
      simp only [List.map_cons, List.map_nil, List.forall_mem_cons, List.not_mem_nil, false_imp_iff, implies_true,
        and_true]
      exact ⟨⟨.int, by decide, rfl⟩, ⟨.int, by decide, rfl⟩⟩
    exact hall joined (Store.schema_ofEntities shopEntities_wellFormed hjoined)
  obtain ⟨binding, predicate, rows, examined, keys, all, hbinding, hpredicate, hjoined, hkeys, hall, _, _, hvisit, _⟩ :=
    joined_rows_paged (Store.reachable_ofEntities shopEntities_wellFormed) hidentities shopEngine_schema rfl rfl
      nofun nofun shopQuery_keepsKeys hfirst
  have hregistered : shopEngine.registry.get? Target.value.label customerSchema.name =
      some ((Binding.ofFields ["Id"]).bind "Total" "Order.Total" true) := by decide +kernel
  obtain rfl := Option.some.inj (hregistered.symm.trans hbinding)
  obtain rfl : Predicate.always = predicate := Except.ok.inj hpredicate
  have hrows : Join.allOnStore shopEngine.store customerSchema shopQuery.joins
      ((shopEngine.store.recordsOf shopQuery.entity).filter Predicate.always.holds)
      (shopEngine.store.recordsOf shopQuery.entity).length = .ok
        ([[("Id", .int 1), ("Last", .int 11), ("Order.Id", .int 11), ("Order.Total", .int 20)],
          [("Id", .int 1), ("Last", .int 11), ("Order.Id", .int 11), ("Order.Total", .int 30)]], 5) := by
    decide +kernel
  obtain ⟨rfl, _⟩ := Prod.mk.inj (Except.ok.inj (hrows.symm.trans hjoined))
  have hties : shopQuery.recordKeys shopEngine.store.schema? customerSchema
      ((Binding.ofFields ["Id"]).bind "Total" "Order.Total" true) =
        .ok [{ field := "Id" }, { field := "Order.Id" }] := by decide +kernel
  obtain rfl := Except.ok.inj (hties.symm.trans hkeys)
  refine ⟨all, ?_, ?_⟩
  · rw [hall]
    decide +kernel
  · rw [hvisit]
    decide +kernel

end Engine

end GuardedQuery
