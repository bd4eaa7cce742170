import GuardedQuery.Proofs.WrittenQueries

/-!
# Queries that are read

A text cannot hold numbers beyond 64 bits or values beyond the nesting limit. So a query that is read from a text can
be written, and since `null` was read as no operand, reading what was written gives the same query once more.

## Main definitions

* `Query.Within`: well-formed queries of bounded depth.

## Main statements

* `Query.within_ofText`: a query that is read is well formed and within the nesting limit.
* `Query.ofText_toText`: a query that was read is read again from its own text.
-/

namespace GuardedQuery

/-! ## Parts of trees within bounds -/

namespace Decoder

variable {α : Type} {item : Decoder α} {n : Node} {k : ℕ}

/-- A structure is read from a tree that has a level. -/
theorem within_of_ofFields {fields : List (Field α)} {a b : α} (hn : n.Within k) (h : ofFields fields a n = .ok b) :
    ∃ j, k = j + 1 ∧ ∀ m ∈ n.children, m.Within j := by
  cases hn with
  | array hitems => exact ⟨_, rfl, hitems⟩
  | object hms => exact ⟨_, rfl, List.forall_mem_map.mpr hms⟩
  | null | bool | int | float | string | unreadable | cut => simp [ofFields] at h

/-- The items of a list are read from trees that are within one level less. -/
theorem within_of_list {as : List α} (hn : n.Within k) (h : list item n = .ok as) :
    ∃ j, k = j + 1 ∧ ∀ a ∈ as, ∃ m : Node, m.Within j ∧ item m = .ok a := by
  cases hn with
  | array hitems =>
    refine ⟨_, rfl, fun a ha => ?_⟩
    obtain ⟨m, hm, hread⟩ := Outcome.exists_mem_of_mapM h ha
    exact ⟨m, hitems m hm, hread⟩
  | null | bool | int | float | string | unreadable | cut | object => simp [list] at h

theorem sorted_of_dict {d : Dict α} (h : dict item n = .ok d) : Dict.Sorted d := by
  obtain ⟨pairs, _, rfl⟩ := Outcome.map_eq_ok_iff.mp h
  exact Dict.sorted_ofList pairs

/-- The members of a dictionary are read from trees that are within one level less. -/
theorem within_of_dict {d : Dict α} (hn : n.Within k) (h : dict item n = .ok d) :
    ∃ j, k = j + 1 ∧ ∀ p ∈ d, ∃ m : Node, m.Within j ∧ item m = .ok p.2 := by
  obtain ⟨members, hmembers, rfl⟩ := Outcome.map_eq_ok_iff.mp h
  cases hn with
  | object hms =>
    refine ⟨_, rfl, fun p hp => ?_⟩
    obtain ⟨m, hm, hread⟩ := Outcome.exists_mem_of_mapM hmembers (Dict.mem_of_mem_ofList hp)
    obtain ⟨_ | name, inner⟩ := m
    · simp at hread
    · obtain ⟨v, hv, rfl⟩ := Outcome.map_eq_ok_iff.mp hread
      exact ⟨inner, hms _ hm, hv⟩
  | null | bool | int | float | string | unreadable | cut | array => simp [pairs] at hmembers

theorem within_of_value {v : Value} (hn : n.Within k) (h : value n = .ok v) : v.WellFormed ∧ v.depth ≤ k := by
  rw [value] at h
  split at h
  · rename_i w hw
    exact Except.ok.inj h ▸ hn.toValue? hw
  · simp at h

end Decoder

namespace Value

theorem depth_object_le {ms : List (String × Value)} {k : ℕ} :
    (object ms).depth ≤ k + 1 ↔ ∀ m ∈ ms, m.2.depth ≤ k := by
  rw [depth, Nat.add_comm, Nat.succ_le_succ_iff, depthMembers_le_iff]

theorem depth_array_le {items : List Value} {k : ℕ} : (array items).depth ≤ k + 1 ↔ ∀ v ∈ items, v.depth ≤ k := by
  rw [depth, Nat.add_comm, Nat.succ_le_succ_iff, depthItems_le_iff]

theorem depth_map_le {β : Type} {l : List β} {write : β → Value} {k : ℕ} (h : ∀ b ∈ l, (write b).depth ≤ k) :
    (array (l.map write)).depth ≤ k + 1 := depth_array_le.mpr (List.forall_mem_map.mpr h)

theorem filter_isNull_eq_self {value : Option Value} (h : value ≠ some .null) :
    value.filter (fun v => !v.isNull) = value := by
  rcases value with _ | _ | _ | _ | _ | _ | _ | _ <;> first | rfl | exact absurd rfl h

end Value

/-! ## Filter trees -/

namespace Condition

theorem depth_array_le {cs : List Condition} {k : ℕ} (h : ∀ c ∈ cs, c.toValue.depth ≤ k) :
    (Value.array (toValues cs)).depth ≤ k + 1 := by
  rw [toValues_eq_map]
  exact Value.depth_map_le h

theorem depth_leaf_le {field operator : String} {value : Option Value} {k : ℕ}
    (h : ∀ v, value = some v → v.depth ≤ k) : (leaf field operator value).toValue.depth ≤ k + 1 := by
  rw [toValue, Value.depth_object_le, List.append_assoc, List.forall_mem_append, List.forall_mem_append]
  exact ⟨forall_mem_textMember (·.depth ≤ k) _ (Nat.zero_le _), forall_mem_textMember (·.depth ≤ k) _ (Nat.zero_le _),
    forall_mem_optionMember (·.depth ≤ k) _ h⟩

theorem depth_group_le {cs : List Condition} {logic : Option String} {k : ℕ} (h : ∀ c ∈ cs, c.toValue.depth ≤ k) :
    (group cs logic).toValue.depth ≤ k + 2 := by
  rw [toValue, Value.depth_object_le, List.forall_mem_cons]
  exact ⟨depth_array_le h,
    forall_mem_optionMember (·.depth ≤ k + 1) _ fun _ _ => Nat.zero_le _⟩

/-- Parts of a filter node that were read from trees of so many levels. -/
structure Parts.Within (k : ℕ) (p : Parts) : Prop where
  /-- The operand. -/
  value : ∀ v, p.value = some v → v.WellFormed ∧ v.depth ≤ k
  /-- The nested conditions. -/
  conditions : ∀ cs, p.conditions = some cs → ∃ j, k = j + 1 ∧ ∀ c ∈ cs, c.WellFormed ∧ c.toValue.depth ≤ j

/-- **A filter tree that is read is well formed, and no deeper than its part of the text.** -/
theorem within_read {levels k : ℕ} {n : Node} {c : Condition} (hn : n.Within k) (h : read levels n = .ok c) :
    c.WellFormed ∧ c.toValue.depth ≤ k := by
  induction levels generalizing n c k with
  | zero => simp [read] at h
  | succ levels ih =>
    obtain ⟨parts, hparts, hnode⟩ := Outcome.bind_eq_ok_iff.mp h
    obtain ⟨k, rfl, hchildren⟩ := Decoder.within_of_ofFields hn hparts
    have hwithin : parts.Within k := by
      refine Decoder.ofFields_keeps ?_ ⟨by simp, by simp⟩ hparts
      simp only [documentFields, List.forall_mem_cons]
      refine ⟨?_, ?_, ?value, ?conditions, ?_, List.forall_mem_nil _⟩
      case value =>
        refine .optional fun m hm _ hv _ h => { h with value := ?_ }
        rintro v rfl
        exact Decoder.within_of_value (hchildren m hm) (Decoder.of_option hv)
      case conditions =>
        refine .optional fun m hm _ hv _ h => { h with conditions := ?_ }
        rintro cs rfl
        obtain ⟨j, hj, hcs⟩ := Decoder.within_of_list (hchildren m hm) (Decoder.of_option hv)
        refine ⟨j, hj, fun c hc => ?_⟩
        obtain ⟨inner, hinner, hread⟩ := hcs c hc
        exact ih hinner hread
      all_goals exact .optional fun _ _ _ _ _ h => { h with }
    rw [ofParts] at hnode
    split at hnode
    · obtain rfl := Except.ok.inj hnode
      exact ⟨List.forall_mem_singleton.mpr fun v hv => (hwithin.value v hv).1,
        depth_leaf_le fun v hv => (hwithin.value v hv).2⟩
    · rename_i cs hcs
      obtain ⟨j, rfl, hnested⟩ := hwithin.conditions cs hcs
      split at hnode
      · simp at hnode
      · obtain rfl := Except.ok.inj hnode
        exact ⟨forall_mem_leavesList fun c hc => (hnested c hc).1, depth_group_le fun c hc => (hnested c hc).2⟩

theorem within_list {k : ℕ} {n : Node} {cs : List Condition} (hn : n.Within k)
    (h : Decoder.list decoder n = .ok cs) : ∀ c ∈ cs, c.WellFormed ∧ c.toValue.depth + 1 ≤ k := by
  obtain ⟨j, rfl, hcs⟩ := Decoder.within_of_list hn h
  intro c hc
  obtain ⟨m, hm, hread⟩ := hcs c hc
  exact ⟨(within_read hm hread).1, Nat.succ_le_succ (within_read hm hread).2⟩

mutual

/-- A tree without nulls is the same without nulls. -/
theorem withoutNulls_eq_self (c : Condition) (hc : c.NullFree) : c.withoutNulls = c := by
  cases c with
  | leaf field operator value =>
    have hvalue : value ≠ some .null := hc { field, operator, value } (List.mem_singleton_self _)
    rw [withoutNulls, Value.filter_isNull_eq_self hvalue]
  | group cs logic => rw [withoutNulls, withoutNullsList_eq_self cs hc]

theorem withoutNullsList_eq_self (cs : List Condition) (hcs : ∀ l ∈ leavesList cs, l.value ≠ some .null) :
    withoutNullsList cs = cs := by
  cases cs with
  | nil => rfl
  | cons c rest =>
    obtain ⟨hfirst, hrest⟩ := List.forall_mem_append.mp hcs
    rw [withoutNullsList, withoutNulls_eq_self c hfirst, withoutNullsList_eq_self rest hrest]

end

theorem map_withoutNulls_eq_self {cs : List Condition} (h : ∀ c ∈ cs, c.NullFree) : cs.map withoutNulls = cs :=
  (List.map_congr_left fun c hc => withoutNulls_eq_self c (h c hc)).trans (List.map_id' cs)

end Condition

/-! ## Other parts -/

theorem PageRequest.wellFormed_decoder {n : Node} {p : PageRequest} (h : decoder n = .ok p) : p.WellFormed := by
  refine Decoder.ofFields_keeps (P := WellFormed) ?_ (by simp [WellFormed]) h
  simp only [List.forall_mem_cons]
  refine ⟨?_, .optional fun _ _ _ _ _ h => h, List.forall_mem_nil _⟩
  refine .optional fun m _ _ hsize _ _ => ?_
  rintro size rfl
  have hread := Decoder.of_option hsize
  simp only [Decoder.int64, Decoder.intBetween.eq_def] at hread
  split at hread
  · split at hread
    · exact Except.ok.inj hread ▸ ‹_›
    · simp at hread
  · simp at hread

theorem Operation.within_decoder {k : ℕ} {n : Node} {o : Operation} (hn : n.Within k) (h : decoder n = .ok o) :
    o.WellFormed ∧ o.toValue.depth ≤ k := by
  obtain ⟨k, rfl, hchildren⟩ := Decoder.within_of_ofFields hn h
  have hwithin : o.WellFormed ∧ (o.parameters = [] ∨ (Value.object o.parameters).depth ≤ k) := by
    refine Decoder.ofFields_keeps
      (P := fun o : Operation => o.WellFormed ∧ (o.parameters = [] ∨ (Value.object o.parameters).depth ≤ k))
      ?_ (by simp [WellFormed, Value.WellFormed, Value.WellFormedMembers, Dict.Sorted]) h
    simp only [List.forall_mem_cons]
    refine ⟨.mandatory fun _ _ _ _ _ h => h, ?_, List.forall_mem_nil _⟩
    refine .optional fun m hm parameters hread _ _ => ?_
    obtain ⟨j, rfl, hms⟩ := Decoder.within_of_dict (hchildren m hm) hread
    have hvalues : ∀ p ∈ parameters, p.2.WellFormed ∧ p.2.depth ≤ j := by
      intro p hp
      obtain ⟨inner, hinner, hvalue⟩ := hms p hp
      exact Decoder.within_of_value hinner hvalue
    exact ⟨⟨Decoder.sorted_of_dict hread, Value.wellFormedMembers_iff.mpr fun p hp => (hvalues p hp).1⟩,
      .inr (Value.depth_object_le.mpr fun p hp => (hvalues p hp).2)⟩
  refine ⟨hwithin.1, ?_⟩
  rw [toValue, Value.depth_object_le, List.forall_mem_cons]
  refine ⟨Nat.zero_le _, ?_⟩
  rcases hwithin.2 with hnone | hdepth
  · simp [hnone]
  · split
    · exact List.forall_mem_nil _
    · exact List.forall_mem_singleton.mpr hdepth

theorem Grouping.within_decoder {k : ℕ} {n : Node} {g : Grouping} (hn : n.Within k) (h : decoder n = .ok g) :
    ∀ c ∈ g.having, c.WellFormed ∧ c.toValue.depth + 2 ≤ k := by
  obtain ⟨k, rfl, hchildren⟩ := Decoder.within_of_ofFields hn h
  refine Decoder.ofFields_keeps (P := fun g : Grouping => ∀ c ∈ g.having, c.WellFormed ∧ c.toValue.depth + 2 ≤ k + 1)
    ?_ (List.forall_mem_nil _) h
  simp only [List.forall_mem_cons]
  refine ⟨.optional fun _ _ _ _ _ h => h, ?_, List.forall_mem_nil _⟩
  refine .optional fun m hm _ hread _ _ c hc => ?_
  obtain ⟨hwell, hdepth⟩ := Condition.within_list (hchildren m hm) hread c hc
  exact ⟨hwell, Nat.succ_le_succ hdepth⟩

theorem Join.wellFormed_decoder {n : Node} {j : Join} (h : decoder n = .ok j) : j.WellFormed := by
  refine Decoder.ofFields_keeps (P := WellFormed) ?_ (by simp [WellFormed, Dict.Sorted]) h
  simp only [List.forall_mem_cons]
  refine ⟨?_, ?_, .optional fun _ _ _ hread _ _ => Decoder.sorted_of_dict hread, ?_, List.forall_mem_nil _⟩
  all_goals exact .optional fun _ _ _ _ _ h => h

theorem Hints.wellFormed_decoder {n : Node} {h : Hints} (hread : decoder n = .ok h) : h.WellFormed := by
  refine Decoder.ofFields_keeps (P := WellFormed) ?_ (by simp [WellFormed]) hread
  simp only [List.forall_mem_cons]
  refine ⟨.optional fun _ _ _ _ _ h => h, ?_, List.forall_mem_nil _⟩
  refine .optional fun m _ _ hseconds _ _ => ?_
  rintro seconds rfl
  obtain ⟨i, hi, rfl⟩ := Outcome.map_eq_ok_iff.mp (Decoder.of_option hseconds)
  rw [Decoder.intBetween.eq_def] at hi
  split at hi
  · split at hi
    · obtain rfl := Except.ok.inj hi
      omega
    · simp at hi
  · simp at hi

/-! ### How deep they are written -/

theorem SortItem.depth_toValue_le (s : SortItem) {k : ℕ} : s.toValue.depth ≤ k + 1 := by
  rw [toValue, Value.depth_object_le]
  simp [Value.depth]

theorem PageRequest.depth_toValue_le (p : PageRequest) {k : ℕ} : p.toValue.depth ≤ k + 1 := by
  rw [toValue, Value.depth_object_le, List.forall_mem_append]
  exact ⟨forall_mem_optionMember (·.depth ≤ k) _ fun _ _ => Nat.zero_le _,
    forall_mem_optionMember (·.depth ≤ k) _ fun _ _ => Nat.zero_le _⟩

theorem Grouping.depth_toValue_le {g : Grouping} {k : ℕ} (h : ∀ c ∈ g.having, c.toValue.depth ≤ k) :
    g.toValue.depth ≤ k + 2 := by
  rw [toValue, Value.depth_object_le, List.forall_mem_cons]
  exact ⟨Value.depth_map_le fun _ _ => Nat.zero_le _,
    forall_mem_listMember (·.depth ≤ k + 1) _ (Condition.depth_array_le h)⟩

theorem Aggregation.depth_toValue_le (a : Aggregation) {k : ℕ} : a.toValue.depth ≤ k + 1 := by
  rw [toValue, List.cons_append, Value.depth_object_le, List.forall_mem_cons, List.forall_mem_append]
  exact ⟨Nat.zero_le _, forall_mem_optionMember (·.depth ≤ k) _ fun _ _ => Nat.zero_le _,
    forall_mem_optionMember (·.depth ≤ k) _ fun _ _ => Nat.zero_le _⟩

theorem Join.depth_toValue_le (j : Join) {k : ℕ} : j.toValue.depth ≤ k + 2 := by
  rw [toValue, Value.depth_object_le, List.forall_mem_append]
  refine ⟨?_, forall_mem_listMember (·.depth ≤ k + 1) _ (Value.depth_map_le fun _ _ => Nat.zero_le _)⟩
  refine List.forall_mem_cons.mpr ⟨Nat.zero_le _, List.forall_mem_cons.mpr ⟨Nat.zero_le _, ?_⟩⟩
  exact List.forall_mem_singleton.mpr (Value.depth_object_le.mpr (List.forall_mem_map.mpr fun _ _ => Nat.zero_le _))

theorem Hints.depth_toValue_le (h : Hints) {k : ℕ} : h.toValue.depth ≤ k + 1 := by
  rw [toValue, Value.depth_object_le, List.forall_mem_cons]
  exact ⟨Nat.zero_le _, forall_mem_optionMember (·.depth ≤ k) _ fun _ _ => Nat.zero_le _⟩

/-! ## Queries -/

namespace Query

/-- Well-formed queries whose filters, operations and conditions on groups are within so many levels. -/
structure Within (k : ℕ) (q : Query) : Prop extends q.WellFormed where
  /-- The filters are in an array in an object. -/
  depth_filters : ∀ c ∈ q.filters, c.toValue.depth + 2 ≤ k
  /-- The operations are in an array in an object. -/
  depth_operations : ∀ o ∈ q.operations, o.toValue.depth + 2 ≤ k
  /-- The conditions on groups are in an array in an object in an object. -/
  depth_groupBy : ∀ g, q.groupBy = some g → ∀ c ∈ g.having, c.toValue.depth + 3 ≤ k

variable {k : ℕ} {q : Query}

theorem within_default (k : ℕ) : Within k {} := ⟨by constructor <;> simp, by simp, by simp, by simp⟩

/-- **A query that is read is well formed, and no deeper than its tree.** -/
theorem within_decoder {n : Node} (hn : n.Within k) (h : decoder n = .ok q) : q.Within k := by
  obtain ⟨k, rfl, hchildren⟩ := Decoder.within_of_ofFields hn h
  refine Decoder.ofFields_keeps ?_ (within_default (k + 1)) h
  simp only [List.forall_mem_cons]
  refine ⟨?_, ?filters, ?_, ?_, ?page, ?operations, ?groupBy, ?_, ?joins, ?hints, List.forall_mem_nil _⟩
  case filters =>
    refine .optional fun m hm _ hread _ h => { h with filters := ?_, depth_filters := ?_ }
    · exact fun c hc => (Condition.within_list (hchildren m hm) hread c hc).1
    · exact fun c hc => Nat.succ_le_succ (Condition.within_list (hchildren m hm) hread c hc).2
  case page =>
    refine .optional fun m _ _ hread _ h => { h with page := ?_ }
    rintro p rfl
    exact PageRequest.wellFormed_decoder (Decoder.of_option hread)
  case operations =>
    refine .optional fun m hm operations hread _ h => ?_
    obtain ⟨j, rfl, hoperations⟩ := Decoder.within_of_list (hchildren m hm) hread
    have hwithin : ∀ o ∈ operations, o.WellFormed ∧ o.toValue.depth ≤ j := by
      intro o ho
      obtain ⟨inner, hinner, hoperation⟩ := hoperations o ho
      exact Operation.within_decoder hinner hoperation
    exact { h with
      operations := fun o ho => (hwithin o ho).1
      depth_operations := fun o ho => Nat.add_le_add_right (hwithin o ho).2 2 }
  case groupBy =>
    refine .optional fun m hm _ hread _ h => { h with groupBy := ?_, depth_groupBy := ?_ }
    · rintro g rfl c hc
      exact (Grouping.within_decoder (hchildren m hm) (Decoder.of_option hread) c hc).1
    · rintro g rfl c hc
      exact Nat.succ_le_succ (Grouping.within_decoder (hchildren m hm) (Decoder.of_option hread) c hc).2
  case joins =>
    refine .optional fun m _ _ hread _ h => { h with joins := ?_ }
    exact Decoder.forall_of_list (fun _ _ => Join.wellFormed_decoder) hread
  case hints =>
    refine .optional fun m _ _ hread _ h => { h with hints := ?_ }
    rintro hints rfl
    exact Hints.wellFormed_decoder (Decoder.of_option hread)
  all_goals exact .optional fun _ _ _ _ _ h => { h with }

/-- The written form is no deeper, but four levels are always enough for what is written at its default. -/
theorem Within.depth_toValue (hq : q.Within k) (hk : 4 ≤ k) : q.toValue.depth ≤ k := by
  obtain ⟨k, rfl⟩ := Nat.exists_eq_add_of_le' hk
  rw [toValue, Value.depth_object_le]
  simp only [List.cons_append, List.append_assoc, List.forall_mem_cons, List.forall_mem_append]
  refine ⟨Nat.zero_le _, ?_, ?_, ?_, ?_, ?_, ?_, ?_, ?_, ?_⟩
  · refine forall_mem_listMember (·.depth ≤ k + 3) _ (Condition.depth_array_le fun c hc => ?_)
    exact Nat.le_of_add_le_add_right (hq.depth_filters c hc)
  · exact forall_mem_listMember (·.depth ≤ k + 3) _ (Value.depth_map_le fun s _ => s.depth_toValue_le)
  · exact forall_mem_listMember (·.depth ≤ k + 3) _ (Value.depth_map_le fun _ _ => Nat.zero_le _)
  · exact forall_mem_optionMember (·.depth ≤ k + 3) _ fun p _ => p.depth_toValue_le
  · refine forall_mem_listMember (·.depth ≤ k + 3) _ (Value.depth_map_le fun o ho => ?_)
    exact Nat.le_of_add_le_add_right (hq.depth_operations o ho)
  · refine forall_mem_optionMember (·.depth ≤ k + 3) _ fun g hg => Grouping.depth_toValue_le fun c hc => ?_
    exact Nat.le_of_add_le_add_right (hq.depth_groupBy g hg c hc)
  · exact forall_mem_listMember (·.depth ≤ k + 3) _ (Value.depth_map_le fun a _ => a.depth_toValue_le)
  · exact forall_mem_listMember (·.depth ≤ k + 3) _ (Value.depth_map_le fun j _ => j.depth_toValue_le)
  · exact forall_mem_optionMember (·.depth ≤ k + 3) _ fun h _ => h.depth_toValue_le

/-- Queries without nulls are the same without nulls. -/
theorem withoutNulls_eq_self (hfilters : ∀ c ∈ q.filters, c.NullFree) (hhaving : ∀ c ∈ q.groupConditions, c.NullFree) :
    q.withoutNulls = q := by
  have hgroupBy : q.groupBy.map Grouping.withoutNulls = q.groupBy := by
    rw [groupConditions] at hhaving
    cases hg : q.groupBy with
    | none => rfl
    | some g =>
      have hg' : ∀ c ∈ g.having, c.NullFree := by simpa [hg] using hhaving
      rw [Option.map_some, Grouping.withoutNulls, Condition.map_withoutNulls_eq_self hg']
  rw [withoutNulls, Condition.map_withoutNulls_eq_self hfilters, hgroupBy]

/-- A query that is read from a text is well formed and within the nesting limit. -/
theorem within_ofText {text : String} (h : ofText text = .ok q) : q.Within Node.nestingLimit := by
  obtain ⟨read, hread, hended⟩ := Outcome.bind_eq_ok_iff.mp h
  split at hended
  · exact Except.ok.inj hended ▸ within_decoder (Json.within_draft text) hread
  · simp at hended

/-- **A query that was read is read again from its own text**, whether its parts were objects or arrays. -/
theorem ofText_toText {text : String} (h : ofText text = .ok q) : ofText q.toText = .ok q := by
  have hwithin := within_ofText h
  have hfree := nullFree_ofText h
  have hdepth : q.toValue.depth ≤ Node.nestingLimit := hwithin.depth_toValue (by decide)
  calc ofText q.toText
    _ = Decoder.ofValue decoder q.toValue := Value.run_toText decoder (legible_toValue hwithin.toWellFormed) hdepth
    _ = .ok q.withoutNulls := decoder_toValue hwithin.toWellFormed
    _ = .ok q := by rw [withoutNulls_eq_self hfree.1 hfree.2]

/-- A query for orders, with arrays for some of its parts and an operand that is `null`. -/
def orderText : String :=
  "[\"Order\", [[\"Total\", \"gt\", 1.50],
    \x7b\"logic\": \"or\", \"conditions\": [[\"Note\", \"isnull\", null], \x7b\"conditions\": []\x7d]\x7d],
    [], [], \x7b\"size\": 20\x7d, [[\"take\", \x7b\"count\": 3\x7d]], \x7b\x7d]"

/-- What the text is read as. -/
def orderQuery : Query where
  entity := "Order"
  filters := [
    .leaf "Total" "gt" (some (.float { negative := false, magnitude := 0x3FF8000000000000 })),
    .group [.leaf "Note" "isnull" none, .group [] none] (some "or")]
  page := some { size := some 20 }
  operations := [{ kind := "take", parameters := [("count", .int 3)] }]
  groupBy := some {}

theorem ofText_toText_order : ofText orderText = .ok orderQuery ∧ ofText orderQuery.toText = .ok orderQuery := by
  have hread : ofText orderText = .ok orderQuery := by decide +kernel
  exact ⟨hread, ofText_toText hread⟩

end Query

end GuardedQuery
