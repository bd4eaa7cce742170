import GuardedQuery.Proofs.PlainAnswers
import GuardedQuery.Proofs.Storage

/-!
# Keys over exact columns

Columns of texts, signed 64-bit integers, truth values, instants and UUIDs hold plain values. If the requested
keys and the identity are of these types, then the keys of a query tell the records of a table apart, and a
cursor can carry their values.

## Main definitions

* `Query.ExactKeys`: queries whose keys are over exact columns.

## Main statements

* `Query.Planned.separates`: the keys of such a query tell records apart.
* `Query.Planned.lt_of_lt`: they order records by the requested keys, followed by the identity.
-/

namespace GuardedQuery

/-- A value of an exact column is plain. -/
theorem ScalarType.plain_of_conforms {t : ScalarType} (ht : t ≠ .float) {v : Value} (hwell : v.WellFormed)
    (h : (FieldType.scalar t).conforms v = true) : v.Plain := by
  have hcases : v.isNull = true ∨ t.conforms v = true := by simpa [FieldType.conforms] using h
  cases v with
  | null => exact .null
  | bool b => exact .bool b
  | string s => exact .string s
  | int n =>
    have hint : t.conforms (.int n) = true := by
      rcases hcases with hnull | hconforms
      · simp [Value.isNull] at hnull
      · exact hconforms
    cases t with
    | int =>
      by_cases hgreatest : n ≤ int64Max
      · exact .int hwell.1 hgreatest
      · simp [ScalarType.conforms, Value.asInt64?, hgreatest] at hint
    | float => exact absurd rfl ht
    | string | bool | datetime | uuid => simp [ScalarType.conforms] at hint
  | float x | array items | object ms =>
    rcases hcases with hnull | hconforms
    · simp [Value.isNull] at hnull
    · cases t <;> simp [ScalarType.conforms, Value.asInt64?] at hconforms
      exact absurd rfl ht

/-- A cursor can carry plain values. -/
theorem Value.Plain.travels {v : Value} (h : v.Plain) : v.Travels := by
  have hbound : int64Max ≤ uint64Max := by decide
  cases h with
  | int hleast hgreatest =>
    have hgreatest := le_trans hgreatest hbound
    exact ⟨⟨hleast, hgreatest⟩, ⟨hleast, hgreatest⟩, Nat.zero_le _⟩
  | null | bool | string => exact ⟨trivial, trivial, Nat.zero_le _⟩

/-- A value of an exact column of a sound table is plain. -/
theorem Table.Sound.plain_value {t : Table} (h : t.Sound) {r : Record} (hr : r ∈ t.records)
    (hwell : ∀ m ∈ r, m.2.WellFormed) {field : String} {type : ScalarType} (htype : type ≠ .float)
    (hdeclared : t.schema.fieldType? field = some (.scalar type)) : (Record.value r field).Plain := by
  cases hget : Dict.get? r field with
  | none =>
    rw [Record.value, hget]
    exact .null
  | some v =>
    obtain ⟨declared, hfield, hconforms⟩ := h.conforming r hr field v hget
    obtain rfl : FieldType.scalar type = declared := Option.some.inj (hdeclared.symm.trans hfield)
    rw [Record.value, hget]
    exact ScalarType.plain_of_conforms htype (hwell (field, v) (Dict.mem_of_get? hget)) hconforms

namespace Query

open SortKey (compareRecords Separates)

/-- The identity is a text, an integer, a truth value or a UUID, and the requested keys are of these types or
instants. -/
structure ExactKeys (q : Query) (schema : EntitySchema) : Prop where
  /-- The type of the identity. -/
  identity : ∃ t ∈ [ScalarType.string, .int, .bool, .uuid],
    schema.fieldType? schema.identity = some (.scalar t)
  /-- The types of the requested keys. -/
  sort : ∀ item ∈ q.sort, ∃ t ∈ [ScalarType.string, .int, .bool, .datetime, .uuid],
    schema.fieldType? item.field = some (.scalar t)

variable {q : Query} {registry : Registry} {label : String} {t : Table} {plan : Plan}

/-- Every key is over an exact column, and reads its texts as the declared type asks for. -/
theorem Planned.exact_key (hplan : q.Planned registry label t.schema plan) (hjoins : q.joins = [])
    (hexact : q.ExactKeys t.schema) {k : SortKey} (hk : k ∈ plan.keys) :
    k.temporal = (t.schema.fieldType? k.field).any (fun type => type.isA .datetime) ∧
      ∃ type ≠ ScalarType.float, t.schema.fieldType? k.field = some (.scalar type) := by
  have hnone : ∀ type ∈ [ScalarType.string, .int, .bool, .datetime, .uuid], type ≠ .float := by decide
  have hsome : ∀ type ∈ [ScalarType.string, .int, .bool, .uuid], type ≠ .float := by decide
  rw [hplan.keys_eq hjoins] at hk
  rcases mem_withTieBreaker hk with hk | rfl
  · obtain ⟨item, hitem, rfl⟩ := List.mem_map.mp hk
    obtain ⟨type, htype, hdeclared⟩ := hexact.sort item hitem
    exact ⟨rfl, type, hnone type htype, hdeclared⟩
  · obtain ⟨type, htype, hdeclared⟩ := hexact.identity
    exact ⟨rfl, type, hsome type htype, hdeclared⟩

/-- **The keys tell the records of a table apart**, and a cursor can carry their values. -/
theorem Planned.separates (hplan : q.Planned registry label t.schema plan) (hjoins : q.joins = [])
    (hexact : q.ExactKeys t.schema) (ht : t.Sound) (hwell : ∀ r ∈ t.records, ∀ m ∈ r, m.2.WellFormed)
    (p : Record → Bool) : Separates plan.keys (t.records.filter p) := by
  have hplain : ∀ r ∈ t.records.filter p, ∀ k ∈ plan.keys, (Record.value r k.field).Plain := by
    intro r hr k hk
    have hr : r ∈ t.records := List.mem_of_mem_filter hr
    obtain ⟨_, type, htype, hdeclared⟩ := hplan.exact_key hjoins hexact hk
    exact ht.plain_value hr (hwell r hr) htype hdeclared
  refine ⟨?_, ?_, ?_, ?_⟩
  · exact SortKey.orders_exact fun r hr k hk => (hplain r hr k hk).exact
  · intro a ha b hb heq
    obtain ⟨k, hk, hfield⟩ := exists_mem_withTieBreaker (q.requestedKeys t.schema) t.schema.identity
      (t.schema.fieldType? t.schema.identity)
    rw [← hplan.keys_eq hjoins] at hk
    have htemporal : k.temporal = false := by
      have hall : ∀ type ∈ [ScalarType.string, .int, .bool, .uuid], (FieldType.scalar type).isA .datetime = false := by
        decide
      obtain ⟨type, htype, hdeclared⟩ := hexact.identity
      rw [(hplan.exact_key hjoins hexact hk).1, hfield, hdeclared]
      exact hall type htype
    have hvalue := SortKey.value_eq_of_compareRecords heq hk htemporal (hplain a ha k hk) (hplain b hb k hk)
    rw [hfield] at hvalue
    exact ht.eq_of_identity (List.mem_of_mem_filter ha) (List.mem_of_mem_filter hb) (by rw [hvalue])
  · have hnodup := ht.distinct
    rw [ht.identities] at hnodup
    exact (hnodup.of_map _).filter p
  · exact fun r hr k hk => (hplain r hr k hk).travels

/-- Records in the order of the keys are in the order of the requested keys, followed by the identity. -/
theorem Planned.lt_of_lt (hplan : q.Planned registry label t.schema plan) (hjoins : q.joins = [])
    (hexact : q.ExactKeys t.schema) {a b : Record} (h : compareRecords plan.keys a b = .lt) :
    compareRecords (q.requestedKeys t.schema ++ [{ field := t.schema.identity }]) a b = .lt := by
  have hidentity : SortKey.typed { field := t.schema.identity } (t.schema.fieldType? t.schema.identity) =
      { field := t.schema.identity } := by
    obtain ⟨type, htype, hdeclared⟩ := hexact.identity
    have hall : ∀ type ∈ [ScalarType.string, .int, .bool, .uuid], (FieldType.scalar type).isA .datetime = false := by
      decide
    rw [hdeclared, SortKey.typed, Option.any_some, hall type htype]
  rw [hplan.keys_eq hjoins, withTieBreaker, hidentity] at h
  split at h
  · rw [SortKey.compareRecords_append, h]
    rfl
  · exact h

end Query

end GuardedQuery
