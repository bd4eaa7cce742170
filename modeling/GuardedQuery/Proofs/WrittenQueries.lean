import GuardedQuery.Proofs.Json.Bounds
import GuardedQuery.Proofs.Json.Numbers
import GuardedQuery.Proofs.Json.Reading
import GuardedQuery.Proofs.Mistyped

/-!
# Written queries

Every part of a query is written as an object. What is at its default is mostly left out, and reading puts it back. A
leaf and a group share one kind of object, and are told apart by their members. What is written of a query is read as
the query, except for operands that are `null`: they are read as no operand.

## Main definitions

* `Condition.WellFormed`, `Query.WellFormed`: parts whose numbers and values a text can hold.
* `Condition.withoutNulls`, `Query.withoutNulls`: parts without operands that are `null`.

## Main statements

* `Condition.read_toValue`: a written filter tree is read as the tree without nulls.
* `Query.decoder_toValue`: a written query is read as the query without nulls.
* `Query.legible_toValue`: the numbers of a written query are read back.
-/

namespace GuardedQuery

/-! ## Written members -/

namespace Written

variable {α β : Type} {f : Field α} {fields : List (Field α)} {ms : List (String × Value)} {a a' b : α} {name : String}
  {item : Decoder β}

/-- A mandatory member. -/
theorem mandatory {set : β → α → α} {w : Value} (v : β) (hread : item (Node.ofValue w) = .ok v)
    (hrest : Written fields (Node.ofMembers ms) (set v a) b) :
    Written (.mandatory name item set :: fields) (Node.ofMembers ((name, w) :: ms)) a b :=
  .present (Outcome.map_eq_ok_iff.mpr ⟨v, hread, rfl⟩) hrest

/-- An optional member that is always written. -/
theorem optional {set : β → α → α} {w : Value} (v : β) (hread : item (Node.ofValue w) = .ok v)
    (hrest : Written fields (Node.ofMembers ms) (set v a) b) :
    Written (.optional name item set :: fields) (Node.ofMembers ((name, w) :: ms)) a b :=
  .present (Outcome.map_eq_ok_iff.mpr ⟨v, hread, rfl⟩) hrest

/-- A text that is only written if it is not empty. -/
theorem text {s : String} {set : String → α → α} (hempty : s = "" → set s a = a)
    (hrest : Written fields (Node.ofMembers ms) (set s a) b) :
    Written (.optional name Decoder.string set :: fields) (Node.ofMembers (Condition.textMember name s ++ ms)) a b := by
  by_cases hs : s = ""
  · rw [Condition.textMember, if_pos hs]
    exact .absent rfl (hempty hs ▸ hrest)
  · rw [Condition.textMember, if_neg hs]
    exact .present rfl hrest

/-- A value that is only written if there is one. -/
theorem option {γ : Type} {o : Option γ} (read : Option β) {write : γ → Value} {set : Option β → α → α}
    (hnone : o = none → set read a = a)
    (hsome : ∀ v, o = some v → Decoder.option item (Node.ofValue (write v)) = .ok read)
    (hrest : Written fields (Node.ofMembers ms) (set read a) b) :
    Written (.optional name (Decoder.option item) set :: fields)
      (Node.ofMembers ((o.map fun v => (name, write v)).toList ++ ms)) a b := by
  cases o with
  | none => exact .absent rfl (hnone rfl ▸ hrest)
  | some v => exact .present (Outcome.map_eq_ok_iff.mpr ⟨read, hsome v rfl, rfl⟩) hrest

/-- A list that is only written if it is not empty. -/
theorem list {items : List Value} (read : List β) {set : List β → α → α} (hempty : items = [] → set read a = a)
    (hread : Decoder.list item (Node.ofValue (.array items)) = .ok read)
    (hrest : Written fields (Node.ofMembers ms) (set read a) b) :
    Written (.optional name (Decoder.list item) set :: fields) (Node.ofMembers (listMember name items ++ ms)) a b := by
  cases items with
  | nil => exact .absent rfl (hempty rfl ▸ hrest)
  | cons v rest => exact .present (Outcome.map_eq_ok_iff.mpr ⟨read, hread, rfl⟩) hrest

end Written

namespace Decoder

variable {α : Type} {item : Decoder α}

/-- The items of a written list are read one by one. -/
theorem list_ofItems {β : Type} {l : List β} {write : β → Value} {result : β → α}
    (h : ∀ b ∈ l, item (Node.ofValue (write b)) = .ok (result b)) :
    list item (Node.ofValue (.array (l.map write))) = .ok (l.map result) := by
  have hnodes : ∀ l : List Value, Node.ofItems l = l.map Node.ofValue := by
    intro l
    induction l with
    | nil => rfl
    | cons v rest ih => rw [Node.ofItems, ih, List.map_cons]
  rw [Node.ofValue, hnodes, List.map_map]
  simp only [list]
  rw [Outcome.mapM_eq_ok_iff, List.forall₂_map_left_iff, List.forall₂_map_right_iff, List.forall₂_same]
  exact h

end Decoder

/-- A list of parts that is only written if it is not empty. -/
theorem Written.parts {α β : Type} {fields : List (Field α)} {ms : List (String × Value)} {a b : α} {name : String}
    {item : Decoder β} (l : List β) {write : β → Value} {set : List β → α → α} (hempty : l = [] → set l a = a)
    (hread : ∀ p ∈ l, item (Node.ofValue (write p)) = .ok p)
    (hrest : Written fields (Node.ofMembers ms) (set l a) b) :
    Written (.optional name (Decoder.list item) set :: fields) (Node.ofMembers (listMember name (l.map write) ++ ms))
      a b := by
  refine .list l (fun h => hempty (List.map_eq_nil_iff.mp h)) ?_ hrest
  have hitems : Decoder.list item (Node.ofValue (.array (l.map write))) = .ok (l.map id) :=
    Decoder.list_ofItems hread
  rwa [List.map_id] at hitems

/-- A structure that is only written if there is one. -/
theorem Written.part {α β : Type} {fields : List (Field α)} {ms : List (String × Value)} {a b : α} {name : String}
    {item : Decoder β} (o : Option β) (result : β → β) {write : β → Value} {set : Option β → α → α}
    (hempty : o = none → set none a = a)
    (hread : ∀ p, o = some p → Node.ofValue (write p) ≠ .null ∧ item (Node.ofValue (write p)) = .ok (result p))
    (hrest : Written fields (Node.ofMembers ms) (set (o.map result) a) b) :
    Written (.optional name (Decoder.option item) set :: fields)
      (Node.ofMembers ((o.map fun p => (name, write p)).toList ++ ms)) a b := by
  refine .option (o.map result) (fun h => ?_) (fun p hp => ?_) hrest
  · rw [h]
    exact hempty h
  · obtain ⟨hnull, hitem⟩ := hread p hp
    rw [Decoder.option_of_ne_null hnull, hitem, hp]
    rfl

namespace Decoder

variable {α : Type} {item : Decoder α}

theorem list_strings (l : List String) : list string (Node.ofValue (.array (l.map .string))) = .ok l := by
  have hitems : list string (Node.ofValue (.array (l.map .string))) = .ok (l.map id) := list_ofItems fun _ _ => rfl
  rwa [List.map_id] at hitems

/-- The members of a written dictionary are read one by one. -/
theorem dict_ofMembers {d : Dict α} {write : α → Value} (hsorted : Dict.Sorted d)
    (h : ∀ p ∈ d, item (Node.ofValue (write p.2)) = .ok p.2) :
    dict item (Node.ofValue (.object (Dict.mapValues write d))) = .ok d := by
  have hnodes : ∀ ms : List (String × Value), Node.ofMembers ms = ms.map fun m => (some m.1, Node.ofValue m.2) := by
    intro ms
    induction ms with
    | nil => rfl
    | cons m rest ih => rw [Node.ofMembers, ih, List.map_cons]
  refine Outcome.map_eq_ok_iff.mpr ⟨d, ?_, Dict.ofList_of_sorted hsorted⟩
  rw [Node.ofValue, hnodes, Dict.mapValues, List.map_map]
  simp only [pairs]
  rw [Outcome.mapM_eq_ok_iff, List.forall₂_map_left_iff, List.forall₂_same]
  intro p hp
  exact Outcome.map_eq_ok_iff.mpr ⟨p.2, h p hp, rfl⟩

theorem value_ofValue {v : Value} (h : v.WellFormed) : value (Node.ofValue v) = .ok v := by
  rw [value, Value.toValue?_ofValue v h]

/-- An operand that is written is read again, and `null` is read as none. -/
theorem option_value_ofValue {v : Value} (h : v.WellFormed) :
    option value (Node.ofValue v) = .ok ((some v).filter fun v => !v.isNull) := by
  have hvalue := value_ofValue h
  cases v with
  | null => rfl
  | bool | int | float | string | array | object =>
    rw [Node.ofValue] at hvalue ⊢
    simp only [option, hvalue]
    rfl

end Decoder

mutual

/-- The tree of a value is as deep as the value. -/
theorem Node.depth_ofValue (v : Value) : (Node.ofValue v).depth = v.depth := by
  cases v with
  | null | bool | int | float | string => rfl
  | array items => rw [Node.ofValue, Node.depth, Value.depth, Node.depthItems_ofItems items]
  | object ms => rw [Node.ofValue, Node.depth, Value.depth, Node.depthMembers_ofMembers ms]

theorem Node.depthItems_ofItems (items : List Value) :
    Node.depthItems (Node.ofItems items) = Value.depthItems items := by
  cases items with
  | nil => rfl
  | cons v rest =>
    rw [Node.ofItems, Node.depthItems, Value.depthItems, Node.depth_ofValue v, Node.depthItems_ofItems rest]

theorem Node.depthMembers_ofMembers (ms : List (String × Value)) :
    Node.depthMembers (Node.ofMembers ms) = Value.depthMembers ms := by
  cases ms with
  | nil => rfl
  | cons m rest =>
    rw [Node.ofMembers, Node.depthMembers, Value.depthMembers, Node.depth_ofValue m.2,
      Node.depthMembers_ofMembers rest]

end

/-! ## Filter trees -/

namespace Condition

mutual

/-- The tree without operands that are `null`. -/
def withoutNulls : Condition → Condition
  | leaf field operator value => leaf field operator (value.filter fun v => !v.isNull)
  | group cs logic => group (withoutNullsList cs) logic

/-- The trees of a list without operands that are `null`. -/
def withoutNullsList : List Condition → List Condition
  | [] => []
  | c :: rest => withoutNulls c :: withoutNullsList rest

end

/-- The operands are well formed. -/
def WellFormed (c : Condition) : Prop := ∀ l ∈ c.leaves, ∀ v, l.value = some v → v.WellFormed

theorem WellFormed.operand {field operator : String} {value : Option Value}
    (h : (leaf field operator value).WellFormed) : ∀ v, value = some v → v.WellFormed :=
  h { field, operator, value } (List.mem_singleton_self _)

/-- What holds of the leaves of every tree in a list holds of all its leaves. -/
theorem forall_mem_leavesList {P : Leaf → Prop} {cs : List Condition} (h : ∀ c ∈ cs, ∀ l ∈ c.leaves, P l) :
    ∀ l ∈ leavesList cs, P l := by
  intro l hl
  obtain ⟨c, hc, hl⟩ := mem_leavesList.mp hl
  exact h c hc l hl

theorem toValues_eq_map (cs : List Condition) : toValues cs = cs.map toValue := by
  induction cs with
  | nil => rfl
  | cons c rest ih => rw [toValues, ih, List.map_cons]

theorem withoutNullsList_eq_map (cs : List Condition) : withoutNullsList cs = cs.map withoutNulls := by
  induction cs with
  | nil => rfl
  | cons c rest ih => rw [withoutNullsList, ih, List.map_cons]

theorem nodup_documentFields (nested : Decoder Condition) : ((documentFields nested).map Field.name).Nodup := by
  show ["field", "operator", "value", "conditions", "logic"].Nodup
  decide

/-- The parts of a leaf are read from its written form. -/
theorem ofFields_leaf (nested : Decoder Condition) (field operator : String) {value : Option Value}
    (hvalue : ∀ v, value = some v → v.WellFormed) :
    Decoder.ofFields (documentFields nested) {} (Node.ofValue (leaf field operator value).toValue) =
      .ok { field, operator, value := value.filter fun v => !v.isNull } := by
  rw [toValue, Node.ofValue, List.append_assoc, ← List.append_nil (Option.toList _)]
  refine Decoder.ofFields_of_written (nodup_documentFields nested) ?_
  refine .text (fun h => by rw [h]) (.text (fun h => by rw [h]) ?_)
  refine .option (value.filter fun v => !v.isNull) (fun h => by rw [h]; rfl) ?_ (.absent rfl (.absent rfl (.nil _)))
  rintro v rfl
  exact Decoder.option_value_ofValue (hvalue v rfl)

/-- The parts of a group are read from its written form. -/
theorem ofFields_group {nested : Decoder Condition} {cs read : List Condition} (logic : Option String)
    (hread : Decoder.list nested (Node.ofValue (.array (toValues cs))) = .ok read) :
    Decoder.ofFields (documentFields nested) {} (Node.ofValue (group cs logic).toValue) =
      .ok { conditions := some read, logic } := by
  rw [toValue, Node.ofValue, ← List.append_nil (Option.toList _)]
  refine Decoder.ofFields_of_written (nodup_documentFields nested) ?_
  refine .absent rfl (.absent rfl (.absent rfl (.optional (some read) ?_ (.option logic ?_ ?_ (.nil _)))))
  · exact Outcome.map_eq_ok_iff.mpr ⟨read, hread, rfl⟩
  · exact fun h => by rw [h]
  · rintro s rfl
    rfl

/-- The conditions of a written group are two levels down. -/
theorem depth_group (cs : List Condition) (logic : Option String) :
    Value.depthItems (toValues cs) + 2 ≤ (group cs logic).toValue.depth := by
  simp only [toValue, Value.depth, Value.depthMembers]
  omega

mutual

/-- **A written tree is read as the tree without nulls.** -/
theorem read_toValue (c : Condition) (hc : c.WellFormed) {levels : ℕ} (hlevels : c.toValue.depth ≤ levels) :
    read levels (Node.ofValue c.toValue) = .ok c.withoutNulls := by
  cases levels with
  | zero => cases c <;> simp [toValue, Value.depth] at hlevels
  | succ levels =>
    cases c with
    | leaf field operator value =>
      exact Outcome.bind_eq_ok_iff.mpr ⟨_, ofFields_leaf (read levels) field operator hc.operand, rfl⟩
    | group cs logic =>
      have hdepth := depth_group cs logic
      have hitems : Value.depthItems (toValues cs) ≤ levels := by omega
      have hcs := Decoder.list_ofItems (read_toValues cs hc hitems)
      rw [← toValues_eq_map, ← withoutNullsList_eq_map] at hcs
      exact Outcome.bind_eq_ok_iff.mpr ⟨_, ofFields_group logic hcs, rfl⟩

theorem read_toValues (cs : List Condition) (hcs : ∀ l ∈ leavesList cs, ∀ v, l.value = some v → v.WellFormed)
    {levels : ℕ} (hlevels : Value.depthItems (toValues cs) ≤ levels) :
    ∀ c ∈ cs, read levels (Node.ofValue c.toValue) = .ok c.withoutNulls := by
  cases cs with
  | nil => exact List.forall_mem_nil _
  | cons c rest =>
    rw [toValues, Value.depthItems] at hlevels
    obtain ⟨hfirst, hrest⟩ := List.forall_mem_append.mp hcs
    exact List.forall_mem_cons.mpr ⟨read_toValue c hfirst (by omega), read_toValues rest hrest (by omega)⟩

end

theorem decoder_toValue {c : Condition} (hc : c.WellFormed) :
    decoder (Node.ofValue c.toValue) = .ok c.withoutNulls := by
  rw [decoder, Node.depth_ofValue]
  exact read_toValue c hc (Nat.le_succ _)

/-- A written list of trees is read as the trees without nulls. -/
theorem list_toValues {cs : List Condition} (hcs : ∀ c ∈ cs, c.WellFormed) :
    Decoder.list decoder (Node.ofValue (.array (toValues cs))) = .ok (cs.map withoutNulls) := by
  rw [toValues_eq_map]
  exact Decoder.list_ofItems fun c hc => decoder_toValue (hcs c hc)

end Condition

/-! ## Other parts -/

theorem SortItem.decoder_toValue (s : SortItem) : decoder (Node.ofValue s.toValue) = .ok s :=
  Decoder.ofFields_of_written (by decide) (.mandatory s.field rfl (.optional s.direction rfl (.nil _)))

namespace PageRequest

/-- The size is a signed 64-bit integer. -/
def WellFormed (p : PageRequest) : Prop := ∀ n, p.size = some n → int64Min ≤ n ∧ n ≤ int64Max

theorem decoder_toValue {p : PageRequest} (hp : p.WellFormed) : decoder (Node.ofValue p.toValue) = .ok p := by
  rw [toValue, ← List.append_nil (p.cursor.map _).toList]
  refine Decoder.ofFields_of_written (by decide) (.option p.size ?_ ?_ (.option p.cursor ?_ ?_ (.nil _)))
  · exact fun h => by rw [h]
  · intro n hn
    rw [hn]
    simp only [Node.ofValue, Decoder.option, Decoder.int64, Decoder.intBetween, if_pos (hp n hn)]
    rfl
  · exact fun h => by rw [h]
  · intro s hs
    rw [hs]
    rfl

end PageRequest

namespace Operation

/-- The parameters are well formed. -/
def WellFormed (o : Operation) : Prop := (Value.object o.parameters).WellFormed

theorem decoder_toValue {o : Operation} (ho : o.WellFormed) : decoder (Node.ofValue o.toValue) = .ok o := by
  have hparameters : Decoder.record (Node.ofValue (.object o.parameters)) = .ok o.parameters :=
    Decoder.record_ofValue ho
  obtain ⟨kind, parameters⟩ := o
  refine Decoder.ofFields_of_written (by decide) (.mandatory kind rfl ?_)
  cases parameters with
  | nil => exact .absent rfl (.nil _)
  | cons p rest => exact .optional (p :: rest) hparameters (.nil _)

end Operation

namespace Grouping

/-- The operands in the conditions on groups are well formed. -/
def WellFormed (g : Grouping) : Prop := ∀ c ∈ g.having, c.WellFormed

/-- The grouping without operands that are `null`. -/
def withoutNulls (g : Grouping) : Grouping := { g with having := g.having.map Condition.withoutNulls }

theorem decoder_toValue {g : Grouping} (hg : g.WellFormed) :
    decoder (Node.ofValue g.toValue) = .ok g.withoutNulls := by
  rw [toValue, ← List.append_nil (listMember _ _)]
  refine Decoder.ofFields_of_written (by decide)
    (.optional g.fields (Decoder.list_strings g.fields) (.list (g.having.map Condition.withoutNulls) ?_ ?_ (.nil _)))
  · intro h
    rw [Condition.toValues_eq_map, List.map_eq_nil_iff] at h
    rw [h]
    rfl
  · exact Condition.list_toValues hg

end Grouping

theorem Aggregation.decoder_toValue (a : Aggregation) : decoder (Node.ofValue a.toValue) = .ok a := by
  rw [toValue, List.cons_append, ← List.append_nil (a.outputAlias.map _).toList]
  refine Decoder.ofFields_of_written (by decide)
    (.mandatory a.function rfl (.option a.field ?_ ?_ (.option a.outputAlias ?_ ?_ (.nil _))))
  · exact fun h => by rw [h]
  · intro s hs
    rw [hs]
    rfl
  · exact fun h => by rw [h]
  · intro s hs
    rw [hs]
    rfl

namespace Join

/-- The pairs are in order. -/
def WellFormed (j : Join) : Prop := Dict.Sorted j.on

theorem decoder_toValue {j : Join} (hj : j.WellFormed) : decoder (Node.ofValue j.toValue) = .ok j := by
  rw [toValue, List.cons_append, List.cons_append, List.cons_append, List.nil_append,
    ← List.append_nil (listMember _ _)]
  have hon : Decoder.dict Decoder.string (Node.ofValue (.object (Dict.mapValues .string j.on))) = .ok j.on :=
    Decoder.dict_ofMembers hj fun _ _ => rfl
  refine Decoder.ofFields_of_written (by decide) (.optional j.kind rfl (.optional j.entity rfl (.optional j.on hon
    (.list j.select ?_ (Decoder.list_strings j.select) (.nil _)))))
  intro h
  rw [List.map_eq_nil_iff] at h
  rw [h]

end Join

namespace Hints

/-- The time is an unsigned 64-bit integer. -/
def WellFormed (h : Hints) : Prop := ∀ n, h.cacheTtlSeconds = some n → n ≤ 0xFFFFFFFFFFFFFFFF

theorem decoder_toValue {h : Hints} (hh : h.WellFormed) : decoder (Node.ofValue h.toValue) = .ok h := by
  rw [toValue, ← List.append_nil (h.cacheTtlSeconds.map _).toList]
  refine Decoder.ofFields_of_written (by decide)
    (.optional h.includeCount rfl (.option h.cacheTtlSeconds ?_ ?_ (.nil _)))
  · exact fun hnone => by rw [hnone]
  · intro n hn
    have hbound := hh n hn
    have hrange : (0 : ℤ) ≤ n ∧ (n : ℤ) ≤ (0xFFFFFFFFFFFFFFFF : ℕ) := ⟨by omega, by omega⟩
    rw [hn]
    simp only [Value.ofNat, Node.ofValue, Decoder.option, Decoder.natUpTo, Decoder.intBetween, if_pos hrange]
    rfl

end Hints

/-! ## Queries -/

namespace Query

/-- The numbers fit their types, dictionaries are in order, and values are well formed. -/
structure WellFormed (q : Query) : Prop where
  /-- The filters. -/
  filters : ∀ c ∈ q.filters, c.WellFormed
  /-- The page request. -/
  page : ∀ p, q.page = some p → p.WellFormed
  /-- The operations. -/
  operations : ∀ o ∈ q.operations, o.WellFormed
  /-- The grouping. -/
  groupBy : ∀ g, q.groupBy = some g → g.WellFormed
  /-- The joins. -/
  joins : ∀ j ∈ q.joins, j.WellFormed
  /-- The hints. -/
  hints : ∀ h, q.hints = some h → h.WellFormed

/-- The query without operands that are `null` in its filters and its conditions on groups. -/
def withoutNulls (q : Query) : Query :=
  { q with
    filters := q.filters.map Condition.withoutNulls
    groupBy := q.groupBy.map Grouping.withoutNulls }

/-- **A written query is read as the query without nulls.** -/
theorem decoder_toValue {q : Query} (hq : q.WellFormed) :
    decoder (Node.ofValue q.toValue) = .ok q.withoutNulls := by
  rw [toValue, ← List.append_nil (q.hints.map _).toList]
  simp only [List.cons_append, List.append_assoc]
  refine Decoder.ofFields_of_written (by decide) (.optional q.entity rfl ?_)
  refine .list (q.filters.map Condition.withoutNulls) ?_ (Condition.list_toValues hq.filters) ?_
  · intro h
    rw [Condition.toValues_eq_map, List.map_eq_nil_iff] at h
    rw [h]
    rfl
  refine .parts q.sort (fun h => by rw [h]) (fun s _ => s.decoder_toValue) ?_
  refine .parts q.select (fun h => by rw [h]) (fun _ _ => rfl) ?_
  refine .part q.page id (fun _ => rfl)
    (fun p hp => ⟨Node.noConfusion, PageRequest.decoder_toValue (hq.page p hp)⟩) ?_
  refine .parts q.operations (fun h => by rw [h]) (fun o ho => Operation.decoder_toValue (hq.operations o ho)) ?_
  refine .part q.groupBy Grouping.withoutNulls (fun _ => rfl)
    (fun g hg => ⟨Node.noConfusion, Grouping.decoder_toValue (hq.groupBy g hg)⟩) ?_
  -- What is known of the query by now is written out, so that the fields behind are compared quickly.
  dsimp only
  refine .parts q.aggregations (fun h => by rw [h]) (fun a _ => a.decoder_toValue) ?_
  refine .parts q.joins (fun h => by rw [h]) (fun j hj => Join.decoder_toValue (hq.joins j hj)) ?_
  refine .part q.hints id (fun _ => rfl)
    (fun h hh => ⟨Node.noConfusion, Hints.decoder_toValue (hq.hints h hh)⟩) ?_
  simp only [Option.map_id, id]
  exact .nil _

end Query

/-! ## The numbers of written queries -/

namespace Value

theorem legible_array {items : List Value} : (array items).Legible ↔ ∀ v ∈ items, v.Legible := by
  rw [Legible, legibleItems_iff]

theorem legible_object {ms : List (String × Value)} : (object ms).Legible ↔ ∀ m ∈ ms, m.2.Legible := by
  rw [Legible, legibleMembers_iff]

theorem legible_map {β : Type} {l : List β} {write : β → Value} (h : ∀ b ∈ l, (write b).Legible) :
    (array (l.map write)).Legible := legible_array.mpr (List.forall_mem_map.mpr h)

end Value

/-! ### Members -/

section Members

variable (P : Value → Prop) (name : String)

/-- What holds of all texts holds of the member for a text. -/
theorem Condition.forall_mem_textMember {s : String} (h : P (.string s)) : ∀ m ∈ textMember name s, P m.2 := by
  rw [textMember]
  split
  · exact List.forall_mem_nil _
  · exact List.forall_mem_singleton.mpr h

/-- What holds of an array holds of the member for a list. -/
theorem forall_mem_listMember {l : List Value} (h : P (.array l)) : ∀ m ∈ listMember name l, P m.2 := by
  rw [listMember]
  split
  · exact List.forall_mem_nil _
  · exact List.forall_mem_singleton.mpr h

/-- What holds of a written value holds of the member for a value that may be absent. -/
theorem forall_mem_optionMember {γ : Type} {o : Option γ} {write : γ → Value} (h : ∀ x, o = some x → P (write x)) :
    ∀ m ∈ (o.map fun x => (name, write x)).toList, P m.2 := by
  cases o with
  | none => exact List.forall_mem_nil _
  | some x => exact List.forall_mem_singleton.mpr (h x rfl)

end Members

/-! ### Legible parts -/

mutual

theorem Condition.legible_toValue (c : Condition) (hc : c.WellFormed) : c.toValue.Legible := by
  cases c with
  | leaf field operator value =>
    rw [toValue, Value.legible_object, List.append_assoc, List.forall_mem_append, List.forall_mem_append]
    exact ⟨forall_mem_textMember Value.Legible _ trivial, forall_mem_textMember Value.Legible _ trivial,
      forall_mem_optionMember Value.Legible _ fun v hv => Value.legible_of_wellFormed v (hc.operand v hv)⟩
  | group cs logic =>
    rw [toValue, Value.legible_object, List.forall_mem_cons]
    exact ⟨Value.legible_array.mpr (legible_toValues cs hc), forall_mem_optionMember Value.Legible _ fun _ _ => trivial⟩

theorem Condition.legible_toValues (cs : List Condition)
    (hcs : ∀ l ∈ leavesList cs, ∀ v, l.value = some v → v.WellFormed) : ∀ v ∈ toValues cs, v.Legible := by
  cases cs with
  | nil => exact List.forall_mem_nil _
  | cons c rest =>
    obtain ⟨hfirst, hrest⟩ := List.forall_mem_append.mp hcs
    exact List.forall_mem_cons.mpr ⟨legible_toValue c hfirst, legible_toValues rest hrest⟩

end

/-- The array of well-formed trees. -/
theorem Condition.legible_array {cs : List Condition} (hcs : ∀ c ∈ cs, c.WellFormed) :
    (Value.array (toValues cs)).Legible :=
  Value.legible_array.mpr (legible_toValues cs (forall_mem_leavesList hcs))

theorem PageRequest.legible_toValue {p : PageRequest} (hp : p.WellFormed) : p.toValue.Legible := by
  rw [toValue, Value.legible_object, List.forall_mem_append]
  refine ⟨forall_mem_optionMember Value.Legible _ fun n hn => ?_,
    forall_mem_optionMember Value.Legible _ fun _ _ => trivial⟩
  have hbound : int64Max ≤ uint64Max := by decide
  exact ⟨(hp n hn).1, (hp n hn).2.trans hbound⟩

theorem Operation.legible_toValue {o : Operation} (ho : o.WellFormed) : o.toValue.Legible := by
  rw [toValue, Value.legible_object, List.forall_mem_cons]
  refine ⟨trivial, ?_⟩
  split
  · exact List.forall_mem_nil _
  · exact List.forall_mem_singleton.mpr (Value.legible_of_wellFormed _ ho)

theorem Grouping.legible_toValue {g : Grouping} (hg : g.WellFormed) : g.toValue.Legible := by
  rw [toValue, Value.legible_object, List.forall_mem_cons]
  exact ⟨Value.legible_map fun _ _ => trivial, forall_mem_listMember Value.Legible _ (Condition.legible_array hg)⟩

theorem Aggregation.legible_toValue (a : Aggregation) : a.toValue.Legible := by
  rw [toValue, List.cons_append, Value.legible_object, List.forall_mem_cons, List.forall_mem_append]
  exact ⟨trivial, forall_mem_optionMember Value.Legible _ fun _ _ => trivial,
    forall_mem_optionMember Value.Legible _ fun _ _ => trivial⟩

theorem Join.legible_toValue (j : Join) : j.toValue.Legible := by
  rw [toValue, Value.legible_object, List.forall_mem_append]
  refine ⟨?_, forall_mem_listMember Value.Legible _ (Value.legible_map fun _ _ => trivial)⟩
  refine List.forall_mem_cons.mpr ⟨trivial, List.forall_mem_cons.mpr ⟨trivial, List.forall_mem_singleton.mpr ?_⟩⟩
  exact Value.legible_object.mpr (List.forall_mem_map.mpr fun _ _ => trivial)

theorem Hints.legible_toValue {h : Hints} (hh : h.WellFormed) : h.toValue.Legible := by
  rw [toValue, Value.legible_object, List.forall_mem_cons]
  refine ⟨trivial, forall_mem_optionMember Value.Legible _ fun n hn => ?_⟩
  have hbound := hh n hn
  have hmarks : int64Min = -0x8000000000000000 ∧ uint64Max = 0xFFFFFFFFFFFFFFFF := ⟨rfl, rfl⟩
  show int64Min ≤ n ∧ n ≤ uint64Max
  omega

theorem SortItem.legible_toValue (s : SortItem) : s.toValue.Legible := ⟨trivial, trivial, trivial⟩

/-- **The numbers of a written query are read back.** -/
theorem Query.legible_toValue {q : Query} (hq : q.WellFormed) : q.toValue.Legible := by
  rw [toValue, Value.legible_object]
  simp only [List.cons_append, List.append_assoc, List.forall_mem_cons, List.forall_mem_append]
  refine ⟨trivial, ?_, ?_, ?_, ?_, ?_, ?_, ?_, ?_, ?_⟩
  · exact forall_mem_listMember Value.Legible _ (Condition.legible_array hq.filters)
  · exact forall_mem_listMember Value.Legible _ (Value.legible_map fun s _ => s.legible_toValue)
  · exact forall_mem_listMember Value.Legible _ (Value.legible_map fun _ _ => trivial)
  · exact forall_mem_optionMember Value.Legible _ fun p hp => PageRequest.legible_toValue (hq.page p hp)
  · refine forall_mem_listMember Value.Legible _ (Value.legible_map fun o ho => ?_)
    exact Operation.legible_toValue (hq.operations o ho)
  · exact forall_mem_optionMember Value.Legible _ fun g hg => Grouping.legible_toValue (hq.groupBy g hg)
  · exact forall_mem_listMember Value.Legible _ (Value.legible_map fun a _ => a.legible_toValue)
  · exact forall_mem_listMember Value.Legible _ (Value.legible_map fun j _ => j.legible_toValue)
  · exact forall_mem_optionMember Value.Legible _ fun h hh => Hints.legible_toValue (hq.hints h hh)

end GuardedQuery
