import GuardedQuery.Proofs.AlikeAnswers
import GuardedQuery.Proofs.RowOrder
import GuardedQuery.Proofs.Storage

/-!
# Groups and their rows

Records are put into groups one after the other. Every record ends up in exactly one group, together with the records
whose keys have the same text. A group's row shows its key in the group fields, so the rows of two groups never have
one text, and what stands in a column is what was computed for it.

## Main definitions

* `Group.Partition`: groups into which records are put by their keys.

## Main statements

* `Group.partition_ofRecords`: every record is in exactly one group.
* `Group.keyOf_row`: a group's row shows its key.
* `Column.plain_compute`: computed values that are no floats are plain.
-/

namespace GuardedQuery

namespace Group

variable {fields : List String}

/-! ## Every record is in one group -/

/-- The text of a group's key. -/
def text (g : Group) : String := keyText g.key

/-- Groups into which records are put by their keys. -/
structure Partition (fields : List String) (records : List Record) (groups : List Group) : Prop where
  /-- No two groups have one key. -/
  distinct : (groups.map text).Nodup
  /-- A group has the key of a record. -/
  keyed : ∀ g ∈ groups, ∃ r ∈ records, g.key = keyOf fields r
  /-- A group has the records with its key. -/
  members : ∀ g ∈ groups, g.members = records.filter fun r => keyText (keyOf fields r) == g.text
  /-- Every record has a group. -/
  covered : ∀ r ∈ records, keyText (keyOf fields r) ∈ groups.map text

/-- A record is added to the group with its key, or makes a new group. -/
theorem add_eq (key : List Value) (record : Record) (groups : List Group) :
    (∃ before g after, groups = before ++ g :: after ∧ g.text = keyText key ∧
      add key record groups = before ++ { g with members := g.members ++ [record] } :: after) ∨
    (keyText key ∉ groups.map text ∧ add key record groups = groups ++ [{ key, members := [record] }]) := by
  induction groups with
  | nil => exact .inr ⟨List.not_mem_nil, rfl⟩
  | cons g rest ih =>
    by_cases hsame : keyText g.key = keyText key
    · exact .inl ⟨[], g, rest, rfl, hsame, by rw [add, if_pos hsame, List.nil_append]⟩
    · have hadd : add key record (g :: rest) = g :: add key record rest := by rw [add, if_neg hsame]
      rcases ih with ⟨before, found, after, hrest, hfound, hadded⟩ | ⟨hnew, hadded⟩
      · exact .inl ⟨g :: before, found, after, by rw [hrest, List.cons_append], hfound,
          by rw [hadd, hadded, List.cons_append]⟩
      · refine .inr ⟨?_, by rw [hadd, hadded, List.cons_append]⟩
        rw [List.map_cons, List.mem_cons, not_or]
        exact ⟨fun heq => hsame heq.symm, hnew⟩

/-- The records with a key among one more record. -/
theorem filter_concat (text : String) (records : List Record) (record : Record) :
    (records ++ [record]).filter (fun r => keyText (keyOf fields r) == text) =
      records.filter (fun r => keyText (keyOf fields r) == text) ++
        if keyText (keyOf fields record) = text then [record] else [] := by
  simp [List.filter_append, List.filter_singleton]

/-- A record is added to the group with its key. -/
theorem Partition.join {records : List Record} {before after : List Group} {g : Group}
    (h : Partition fields records (before ++ g :: after)) {record : Record}
    (htext : g.text = keyText (keyOf fields record)) :
    Partition fields (records ++ [record]) (before ++ { g with members := g.members ++ [record] } :: after) := by
  have htexts : (before ++ { g with members := g.members ++ [record] } :: after).map text =
      (before ++ g :: after).map text := by
    rw [List.map_append, List.map_append]
    rfl
  have hg : g ∈ before ++ g :: after := by simp
  -- No other group has the record's key.
  have hother : ∀ x ∈ before ++ after, x ∈ before ++ g :: after ∧ keyText (keyOf fields record) ≠ x.text := by
    intro x hx
    have hnodup := h.distinct
    rw [List.map_append, List.map_cons, List.nodup_middle, ← List.map_append, List.nodup_cons] at hnodup
    refine ⟨?_, fun heq => hnodup.1 (List.mem_map.mpr ⟨x, hx, heq.symm.trans htext.symm⟩)⟩
    rw [List.mem_append] at hx ⊢
    exact hx.imp_right (List.mem_cons_of_mem g)
  have hcases : ∀ x ∈ before ++ { g with members := g.members ++ [record] } :: after,
      x = { g with members := g.members ++ [record] } ∨ x ∈ before ++ after := by
    intro x hx
    simp only [List.mem_append, List.mem_cons] at hx ⊢
    tauto
  refine ⟨htexts ▸ h.distinct, fun x hx => ?_, fun x hx => ?_, fun r hr => ?_⟩
  · have hkeyed : ∃ r ∈ records, x.key = keyOf fields r := by
      rcases hcases x hx with rfl | hx
      · exact h.keyed g hg
      · exact h.keyed x (hother x hx).1
    obtain ⟨r, hr, hkey⟩ := hkeyed
    exact ⟨r, List.mem_append_left _ hr, hkey⟩
  · rcases hcases x hx with rfl | hx
    · have hsame : keyText (keyOf fields record) = text { g with members := g.members ++ [record] } := htext.symm
      rw [filter_concat, if_pos hsame]
      exact congrArg (· ++ [record]) (h.members g hg)
    · rw [filter_concat, if_neg (hother x hx).2, List.append_nil]
      exact h.members x (hother x hx).1
  · rw [htexts]
    rcases List.mem_append.mp hr with hr | hr
    · exact h.covered r hr
    · obtain rfl := List.mem_singleton.mp hr
      exact List.mem_map.mpr ⟨g, hg, htext⟩

/-- A record with a new key makes a new group. -/
theorem Partition.found {records : List Record} {groups : List Group} (h : Partition fields records groups)
    {record : Record} (hnew : keyText (keyOf fields record) ∉ groups.map text) :
    Partition fields (records ++ [record]) (groups ++ [{ key := keyOf fields record, members := [record] }]) := by
  have hcases : ∀ x ∈ groups ++ [{ key := keyOf fields record, members := [record] }],
      x ∈ groups ∨ x = { key := keyOf fields record, members := [record] } := by simp
  refine ⟨?_, fun x hx => ?_, fun x hx => ?_, fun r hr => ?_⟩
  · rw [List.map_append, List.nodup_append]
    refine ⟨h.distinct, List.nodup_singleton _, ?_⟩
    rintro x hx y hy rfl
    obtain rfl := List.mem_singleton.mp hy
    exact hnew hx
  · rcases hcases x hx with hx | rfl
    · obtain ⟨r, hr, hkey⟩ := h.keyed x hx
      exact ⟨r, List.mem_append_left _ hr, hkey⟩
    · exact ⟨record, by simp, rfl⟩
  · rw [filter_concat]
    rcases hcases x hx with hx | rfl
    · have hother : keyText (keyOf fields record) ≠ x.text := fun heq => hnew (heq ▸ List.mem_map_of_mem hx)
      rw [if_neg hother, List.append_nil]
      exact h.members x hx
    · have hnone : records.filter (fun r => keyText (keyOf fields r) == keyText (keyOf fields record)) = [] := by
        refine List.filter_eq_nil_iff.mpr fun r hr heq => hnew ?_
        rw [← beq_iff_eq.mp heq]
        exact h.covered r hr
      rw [text, if_pos rfl, hnone, List.nil_append]
  · rw [List.map_append, List.mem_append]
    rcases List.mem_append.mp hr with hr | hr
    · exact .inl (h.covered r hr)
    · obtain rfl := List.mem_singleton.mp hr
      exact .inr (List.mem_singleton_self _)

/-- **One more record** is put into one group. -/
theorem Partition.add {records : List Record} {groups : List Group} (h : Partition fields records groups)
    (record : Record) : Partition fields (records ++ [record]) (add (keyOf fields record) record groups) := by
  rcases add_eq (keyOf fields record) record groups with ⟨before, g, after, rfl, htext, hadded⟩ | ⟨hnew, hadded⟩
  · rw [hadded]
    exact h.join htext
  · rw [hadded]
    exact h.found hnew

/-- **Every record is in exactly one group**, together with the records that have its key. -/
theorem partition_ofRecords (fields : List String) (records : List Record) :
    Partition fields records (ofRecords fields records) := by
  have hrun : ∀ (rest before : List Record) (groups : List Group), Partition fields before groups →
      Partition fields (before ++ rest) (rest.foldl (fun groups r => Group.add (keyOf fields r) r groups) groups) := by
    intro rest
    induction rest with
    | nil =>
      intro before groups h
      rwa [List.append_nil]
    | cons r rest ih =>
      intro before groups h
      have hnext := ih (before ++ [r]) _ (h.add r)
      rwa [List.append_assoc, List.singleton_append] at hnext
  exact hrun records [] [] ⟨List.nodup_nil, by simp, by simp, by simp⟩

/-! ## Rows of groups -/

/-- The columns of a row are filled one after the other. -/
theorem get?_foldlM_insert {columns : List Column} {members : List Record} {start row : Record}
    (h : columns.foldlM (fun row c => (c.compute members).map fun v => Dict.insert row c.output v) start = .ok row)
    (hnodup : (columns.map Column.output).Nodup) :
    (∀ f, f ∉ columns.map Column.output → Dict.get? row f = Dict.get? start f) ∧
      ∀ c ∈ columns, ∃ v, c.compute members = .ok v ∧ Dict.get? row c.output = some v := by
  induction columns generalizing start with
  | nil =>
    obtain rfl := Except.ok.inj h
    exact ⟨fun _ _ => rfl, by simp⟩
  | cons c rest ih =>
    rw [List.foldlM_cons] at h
    obtain ⟨between, hbetween, h⟩ := Outcome.bind_eq_ok_iff.mp h
    obtain ⟨v, hv, rfl⟩ := Outcome.map_eq_ok_iff.mp hbetween
    rw [List.map_cons, List.nodup_cons] at hnodup
    obtain ⟨hkept, hfilled⟩ := ih h hnodup.2
    refine ⟨fun f hf => ?_, List.forall_mem_cons.mpr ⟨⟨v, hv, ?_⟩, hfilled⟩⟩
    · rw [List.map_cons, List.mem_cons, not_or] at hf
      rw [hkept f hf.2, Dict.get?_insert, if_neg (Ne.symm hf.1)]
    · rw [hkept c.output hnodup.1, Dict.get?_insert, if_pos rfl]

variable {columns : List Column} {g : Group} {row : Record}

/-- What a group's row shows: its key, and what is computed for its members. -/
theorem get?_row (h : g.row fields columns = .ok row) {r : Record} (hkey : g.key = keyOf fields r)
    (hnodup : (columns.map Column.output).Nodup) (hother : ∀ f ∈ fields, f ∉ columns.map Column.output) :
    (∀ f ∈ fields, Dict.get? row f = some (Record.value r f)) ∧
      ∀ c ∈ columns, ∃ v, c.compute g.members = .ok v ∧ Dict.get? row c.output = some v := by
  obtain ⟨hkept, hfilled⟩ := get?_foldlM_insert h hnodup
  refine ⟨fun f hf => ?_, hfilled⟩
  have hpairs : fields.zip g.key = fields.map fun n => (n, Record.value r n) := by
    rw [hkey, keyOf, List.zip, List.zipWith_map_right, List.zipWith_self]
  rw [hkept f (hother f hf), hpairs, Dict.get?_foldl_insert_map, if_pos hf]

/-- **A group's row shows its key.** -/
theorem keyOf_row (h : g.row fields columns = .ok row) {r : Record} (hkey : g.key = keyOf fields r)
    (hnodup : (columns.map Column.output).Nodup) (hother : ∀ f ∈ fields, f ∉ columns.map Column.output) :
    keyOf fields row = g.key := by
  rw [hkey]
  refine List.map_congr_left fun f hf => ?_
  rw [Record.value, (get?_row h hkey hnodup hother).1 f hf, Option.getD_some]

/-- Rows with one text show keys with one text. -/
theorem keyText_eq_of_toText {a b : Record} (h : (Value.object a).toText = (Value.object b).toText) :
    keyText (keyOf fields a) = keyText (keyOf fields b) := by
  have htexts := Value.object_toText_eq_iff.mp h
  have hvalues : ∀ f, (Record.value a f).chars = (Record.value b f).chars := by
    intro f
    have hget := congrArg (fun d => Dict.get? d f) htexts
    simp only [Dict.get?_mapValues] at hget
    rw [Record.value, Record.value]
    cases ha : Dict.get? a f <;> cases hb : Dict.get? b f <;> simp_all
  have hitems : Value.itemChars (keyOf fields a) = Value.itemChars (keyOf fields b) :=
    Value.itemChars_congr (by simp only [keyOf, List.map_map, Function.comp_def, hvalues])
  rw [keyText, keyText, Value.toText_eq_iff_chars, Value.chars, Value.chars, hitems]

/-- The rows of groups show their keys. -/
theorem map_keyText_rows {groups : List Group} {all : List Record}
    (h : groups.mapM (Group.row fields columns) = .ok all) (hkeyed : ∀ g ∈ groups, ∃ r, g.key = keyOf fields r)
    (hnodup : (columns.map Column.output).Nodup) (hother : ∀ f ∈ fields, f ∉ columns.map Column.output) :
    all.map (fun r => keyText (keyOf fields r)) = groups.map text := by
  induction groups generalizing all with
  | nil =>
    obtain rfl := Except.ok.inj h
    rfl
  | cons g rest ih =>
    obtain ⟨⟨r, hkey⟩, hrest⟩ := List.forall_mem_cons.mp hkeyed
    simp only [List.mapM_cons, Outcome.bind_eq_ok_iff, pure, Except.pure, Except.ok.injEq] at h
    obtain ⟨row, hrow, others, hothers, rfl⟩ := h
    rw [List.map_cons, List.map_cons, ih hothers hrest, keyOf_row hrow hkey hnodup hother, text]

/-- The rows of groups show different keys. -/
theorem Partition.nodup_keyTexts {records : List Record} {groups : List Group} (h : Partition fields records groups)
    {all : List Record} (hall : groups.mapM (Group.row fields columns) = .ok all)
    (hnodup : (columns.map Column.output).Nodup) (hother : ∀ f ∈ fields, f ∉ columns.map Column.output) :
    (all.map fun r => keyText (keyOf fields r)).Nodup := by
  rw [map_keyText_rows hall (fun g hg => (h.keyed g hg).imp fun _ hr => hr.2) hnodup hother]
  exact h.distinct

/-- The rows that pass are those of all groups that pass. -/
theorem rows_eq_ok_iff {having : Predicate} {groups : List Group} {passing : List Record} :
    rows fields columns having groups = .ok passing ↔
      ∃ all, groups.mapM (Group.row fields columns) = .ok all ∧ passing = all.filter having.holds := by
  induction groups generalizing passing with
  | nil =>
    rw [rows, Except.ok.injEq]
    constructor
    · rintro rfl
      exact ⟨[], rfl, rfl⟩
    · rintro ⟨all, hall, rfl⟩
      obtain rfl := Except.ok.inj hall
      rfl
  | cons g rest ih =>
    simp only [rows, List.mapM_cons, Outcome.bind_eq_ok_iff, pure, Except.pure, Except.ok.injEq, ih]
    constructor
    · rintro ⟨r, hr, others, ⟨all, hall, rfl⟩, rfl⟩
      refine ⟨r :: all, ⟨r, hr, all, hall, rfl⟩, ?_⟩
      rw [List.filter_cons]
    · rintro ⟨_, ⟨r, hr, all, hall, rfl⟩, rfl⟩
      refine ⟨r, hr, _, ⟨all, hall, rfl⟩, ?_⟩
      rw [List.filter_cons]

end Group

/-! ## Computed values -/

namespace Column

variable {schema : EntitySchema} {a : Aggregation} {c : Column} {members : List Record} {v : Value}

/-- A resolved column condenses a declared field of a type that its function applies to, or counts records. -/
theorem resolve_eq_ok (h : resolve schema a = .ok c) :
    c.output = a.outputName ∧
      ((c.function = .count ∧ c.field = none) ∨
        ∃ name t, c.field = some (name, t) ∧ schema.fieldType? name = some t ∧ applies c.function t = true) := by
  rw [resolve] at h
  split at h
  · simp at h
  · rename_i function _
    split at h
    · split at h
      · simp at h
      · rename_i hcount
        obtain rfl := Except.ok.inj h
        refine ⟨rfl, .inl ⟨?_, rfl⟩⟩
        cases function <;> first | rfl | exact absurd rfl hcount
    · split at h
      · simp at h
      · rename_i name _ _ t ht
        split at h
        · rename_i happlies
          obtain rfl := Except.ok.inj h
          exact ⟨rfl, .inr ⟨name, t, rfl, ht, happlies⟩⟩
        · simp at h

/-- A resolved column has the function and the field that the aggregation names; a blank field counts as none. -/
theorem resolve_names (h : resolve schema a = .ok c) :
    AggregateFunction.parse? a.function = some c.function ∧
      (a.field.filter fun f => !Text.isBlankText f) = c.field.map Prod.fst := by
  rw [resolve] at h
  cases hfunction : AggregateFunction.parse? a.function with
  | none => simp [hfunction] at h
  | some function =>
    cases hfield : a.field.filter fun f => !Text.isBlankText f with
    | none =>
      simp only [hfunction, hfield] at h
      split at h
      · simp at h
      · obtain rfl := Except.ok.inj h
        exact ⟨rfl, rfl⟩
    | some name =>
      simp only [hfunction, hfield] at h
      split at h
      · simp at h
      · split at h
        · obtain rfl := Except.ok.inj h
          exact ⟨rfl, rfl⟩
        · simp at h

/-- Resolved columns have the names that the aggregations give them. -/
theorem outputs_of_resolve {aggregations : List Aggregation} {columns : List Column}
    (h : aggregations.mapM (resolve schema) = .ok columns) :
    columns.map output = aggregations.map Aggregation.outputName := by
  induction aggregations generalizing columns with
  | nil =>
    obtain rfl := Except.ok.inj h
    rfl
  | cons a rest ih =>
    simp only [List.mapM_cons, Outcome.bind_eq_ok_iff, pure, Except.pure, Except.ok.injEq] at h
    obtain ⟨c, hc, others, hothers, rfl⟩ := h
    rw [List.map_cons, List.map_cons, ih hothers, (resolve_eq_ok hc).1]

/-- The values of a column are values of its field. -/
theorem mem_values {name : String} {t : FieldType} (hfield : c.field = some (name, t)) (hv : v ∈ c.values members) :
    ∃ r ∈ members, Record.value r name = v := by
  rw [values, hfield] at hv
  obtain ⟨r, hr, hactual⟩ := List.mem_filterMap.mp hv
  obtain ⟨hget, _⟩ := Option.filter_eq_some_iff.mp hactual
  exact ⟨r, hr, by rw [Record.value, hget, Option.getD_some]⟩

/-- A least value is one of the values. -/
theorem mem_of_least? {compare : Value → Value → Ordering} {vs : List Value} (h : least? compare vs = some v) :
    v ∈ vs := by
  cases vs with
  | nil => simp [least?] at h
  | cons w rest =>
    obtain rfl := Option.some.inj h
    clear h
    induction rest generalizing w with
    | nil => exact List.mem_singleton_self w
    | cons x rest ih =>
      rw [List.foldl_cons]
      split
      · exact List.mem_cons_of_mem w (ih x)
      · exact List.mem_cons.mpr ((List.mem_cons.mp (ih w)).imp_right (List.mem_cons_of_mem x))

/-- A greatest value is one of the values. -/
theorem mem_of_greatest? {compare : Value → Value → Ordering} {vs : List Value} (h : greatest? compare vs = some v) :
    v ∈ vs := by
  cases vs with
  | nil => simp [greatest?] at h
  | cons w rest =>
    obtain rfl := Option.some.inj h
    clear h
    induction rest generalizing w with
    | nil => exact List.mem_singleton_self w
    | cons x rest ih =>
      rw [List.foldl_cons]
      split
      · exact List.mem_cons.mpr ((List.mem_cons.mp (ih w)).imp_right (List.mem_cons_of_mem x))
      · exact List.mem_cons_of_mem w (ih x)

/-- A sum of integers is a signed 64-bit integer. -/
theorem bounds_of_sumInts? {ns : List Int} {n : Int} (h : sumInts? ns = some n) : int64Min ≤ n ∧ n ≤ int64Max := by
  have hfold : ∀ (ns : List Int) (start : Int), int64Min ≤ start ∧ start ≤ int64Max →
      ns.foldlM addInt? start = some n → int64Min ≤ n ∧ n ≤ int64Max := by
    intro ns
    induction ns with
    | nil =>
      intro start hstart h
      rwa [← Option.some.inj h]
    | cons m rest ih =>
      intro start hstart h
      obtain ⟨next, hnext, h⟩ := Option.bind_eq_some_iff.mp h
      rw [addInt?] at hnext
      split at hnext
      · rename_i hbounds
        exact ih next (Option.some.inj hnext ▸ hbounds) h
      · simp at hnext
  exact hfold ns 0 (by decide) h

/-- **Computed values that are no floats are plain** if the field holds plain values. -/
theorem plain_compute (hresolve : resolve schema a = .ok c) (htype : c.type ≠ .scalar .float)
    (hfew : (members.length : Int) ≤ int64Max)
    (hplain : ∀ name type, c.field = some (name, .scalar type) → type ≠ .float →
      ∀ r ∈ members, (Record.value r name).Plain)
    (h : c.compute members = .ok v) : v.Plain := by
  have hcount : ∀ n : Nat, n ≤ members.length → (Value.ofNat n).Plain := by
    intro n hn
    have hleast : int64Min ≤ 0 := by decide
    exact .int (by omega) (by omega)
  obtain ⟨_, hfield⟩ := resolve_eq_ok hresolve
  rcases hfield with ⟨hfunction, hnone⟩ | ⟨name, t, hsome, _, happlies⟩
  · rw [compute, hfunction] at h
    obtain rfl := Except.ok.inj h
    rw [hnone]
    exact hcount _ le_rfl
  · rw [type, hsome] at htype
    rw [compute] at h
    -- The least and the greatest value are values of the field.
    have hfound : ∀ w : Option Value, (∀ x, w = some x → x ∈ c.values members) → t.isScalar = true →
        t ≠ .scalar .float → (Value.ofOption w).Plain := by
      intro w hw hscalar hfloat
      cases w with
      | none => exact .null
      | some x =>
        obtain ⟨r, hr, hvalue⟩ := mem_values hsome (hw x rfl)
        cases t with
        | scalar type =>
          rw [Value.ofOption, Option.getD_some, ← hvalue]
          exact hplain name type hsome (fun heq => hfloat (heq ▸ rfl)) r hr
        | object | array => simp [FieldType.isScalar] at hscalar
    cases hfunction : c.function with
    | count =>
      rw [hfunction] at h
      obtain rfl := Except.ok.inj h
      rw [hsome]
      refine hcount _ ?_
      rw [values, hsome]
      exact List.length_filterMap_le _ _
    | sum =>
      rw [hfunction] at h htype happlies
      cases t with
      | scalar type =>
        cases type <;> simp [applies, FieldType.isNumeric] at happlies htype
        simp only [sum, hsome] at h
        split at h
        · rename_i n hn
          obtain rfl := Except.ok.inj h
          obtain ⟨hleast, hgreatest⟩ := bounds_of_sumInts? hn
          exact .int hleast hgreatest
        · simp at h
      | object | array => simp [applies, FieldType.isNumeric] at happlies
    | avg =>
      rw [hfunction] at htype
      exact absurd rfl htype
    | min =>
      rw [hfunction] at h htype happlies
      obtain rfl := Except.ok.inj h
      exact hfound _ (fun x hx => mem_of_least? hx) happlies htype
    | max =>
      rw [hfunction] at h htype happlies
      obtain rfl := Except.ok.inj h
      exact hfound _ (fun x hx => mem_of_greatest? hx) happlies htype

end Column

/-! ## Types of columns -/

namespace Query

/-- What has a type in the rows of groups is a group field or a column. -/
theorem declared_or_column {schema : EntitySchema} {fields : List String} {fieldTypes : List (String × FieldType)}
    {columns : List Column} (hfieldTypes : groupFieldTypes schema fields = .ok fieldTypes) {name : String}
    {type : FieldType}
    (h : Dict.get? (Dict.ofList (fieldTypes ++ columns.map fun c => (c.output, c.type))) name = some type) :
    (name ∈ fields ∧ schema.fieldType? name = some type) ∨ ∃ c ∈ columns, c.output = name ∧ c.type = type := by
  rcases List.mem_append.mp (Dict.mem_of_mem_ofList (Dict.mem_of_get? h)) with hmem | hmem
  · obtain ⟨f, hf, hpair⟩ := Outcome.exists_mem_of_mapM hfieldTypes hmem
    split at hpair
    · rename_i declared hdeclared
      obtain ⟨rfl, rfl⟩ := Prod.mk.inj (Except.ok.inj hpair)
      exact .inl ⟨hf, hdeclared⟩
    · simp at hpair
  · obtain ⟨c, hc, hpair⟩ := List.mem_map.mp hmem
    obtain ⟨rfl, rfl⟩ := Prod.mk.inj hpair
    exact .inr ⟨c, hc, rfl, rfl⟩

end Query

end GuardedQuery
