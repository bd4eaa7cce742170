import GuardedQuery.Query.Builder
import GuardedQuery.Proofs.WrittenQueries

/-!
# Built queries

A query that is built step by step has nothing in it that a text cannot hold, as long as the steps hand over well-formed
values. Every condition in it names a field and a known operator, since mistaken steps add none.

## Main definitions

* `ConditionStep.WellFormed`, `QueryStep.WellFormed`: steps whose values and numbers fit their types.
* `ConditionStep.Makes`: properties of the conditions that steps make.
* `Condition.Built`, `Query.Built`: what steps make.

## Main statements

* `ConditionStep.Makes.apply`: every step keeps such a property.
* `QueryDraft.Built.apply`: every step keeps what was built.
* `Query.built_of_build`: finished queries are built.
-/

namespace GuardedQuery

/-! ## Steps -/

mutual

/-- The operands that a step hands over are well formed. -/
def ConditionStep.WellFormed : ConditionStep → Prop
  | filter _ _ value => ∀ v, value = some v → v.WellFormed
  | test _ _ value => ∀ v, value = some v → v.WellFormed
  | group _ steps => WellFormedList steps

/-- The operands that the steps hand over are well formed. -/
def ConditionStep.WellFormedList : List ConditionStep → Prop
  | [] => True
  | s :: rest => WellFormed s ∧ WellFormedList rest

end

/-- The values that a step hands over are well formed. Page sizes are unsigned 32-bit integers, and the other numbers
are unsigned 64-bit integers. -/
def QueryStep.WellFormed : QueryStep → Prop
  | filters steps => ConditionStep.WellFormedList steps
  | having steps => ConditionStep.WellFormedList steps
  | quantified _ _ steps => ConditionStep.WellFormedList steps
  | pageSize n => n ≤ 0xFFFFFFFF
  | cacheTtlSeconds n => n ≤ 0xFFFFFFFFFFFFFFFF
  | skip n => n ≤ 0xFFFFFFFFFFFFFFFF
  | take n => n ≤ 0xFFFFFFFFFFFFFFFF
  | _ => True

theorem FilterOperator.parse?_symbol (op : FilterOperator) : parse? op.symbol = some op := by
  cases op <;> decide +kernel

/-! ## Conditions -/

namespace Condition

/-- A tree with well-formed operands, all of whose leaves name a field and a known operator. -/
structure Built (c : Condition) : Prop where
  /-- The operands. -/
  wellFormed : c.WellFormed
  /-- The fields are named. -/
  named : ∀ l ∈ c.leaves, Text.isBlankText l.field = false
  /-- The operators are known. -/
  known : ∀ l ∈ c.leaves, (FilterOperator.parse? l.operator).isSome = true

theorem Built.leaf {field : String} (op : FilterOperator) {value : Option Value}
    (hfield : Text.isBlankText field = false) (hvalue : ∀ v, value = some v → v.WellFormed) :
    (leaf field op.symbol value).Built where
  wellFormed := List.forall_mem_singleton.mpr hvalue
  named := List.forall_mem_singleton.mpr hfield
  known := List.forall_mem_singleton.mpr (by simp [FilterOperator.parse?_symbol])

theorem Built.group {cs : List Condition} {logic : Option String} (h : ∀ c ∈ cs, c.Built) : (group cs logic).Built where
  wellFormed := forall_mem_leavesList fun c hc => (h c hc).wellFormed
  named := forall_mem_leavesList fun c hc => (h c hc).named
  known := forall_mem_leavesList fun c hc => (h c hc).known

/-- The members of a written leaf are in order. -/
theorem sorted_leaf (field operator : String) (value : Option Value) :
    Dict.Sorted (textMember "field" field ++ textMember "operator" operator ++
      (value.map fun v => ("value", v)).toList) := by
  have hnames : "field" < "operator" ∧ "field" < "value" ∧ "operator" < "value" := by decide
  have hsublist : (textMember "field" field ++ textMember "operator" operator ++
      (value.map fun v => ("value", v)).toList).Sublist
      ([("field", .string field)] ++ [("operator", .string operator)] ++ [("value", value.getD .null)]) := by
    have htext : ∀ name s, (textMember name s).Sublist [(name, .string s)] := by
      intro name s
      rw [textMember]
      split <;> simp
    refine ((htext _ _).append (htext _ _)).append ?_
    cases value <;> simp
  obtain ⟨hoperator, hvalue, hlast⟩ := hnames
  have hsorted : Dict.Sorted
      [("field", .string field), ("operator", .string operator), ("value", value.getD .null)] :=
    .cons (List.forall_mem_cons.mpr ⟨hoperator, List.forall_mem_singleton.mpr hvalue⟩) (List.pairwise_pair.mpr hlast)
  exact List.Pairwise.sublist hsublist hsorted

mutual

/-- A written tree is well formed. -/
theorem wellFormed_toValue (c : Condition) (hc : c.WellFormed) : c.toValue.WellFormed := by
  cases c with
  | leaf field operator value =>
    refine ⟨sorted_leaf field operator value, Value.wellFormedMembers_iff.mpr ?_⟩
    rw [List.append_assoc, List.forall_mem_append, List.forall_mem_append]
    exact ⟨forall_mem_textMember Value.WellFormed _ trivial, forall_mem_textMember Value.WellFormed _ trivial,
      forall_mem_optionMember Value.WellFormed _ hc.operand⟩
  | group cs logic =>
    have hnames : "conditions" < "logic" := by decide
    refine ⟨?_, Value.wellFormedMembers_iff.mpr (List.forall_mem_cons.mpr ⟨?_, ?_⟩)⟩
    · cases logic with
      | none => exact List.pairwise_singleton _ _
      | some l => exact List.pairwise_pair.mpr hnames
    · exact Value.wellFormedItems_iff.mpr (wellFormed_toValues cs hc)
    · exact forall_mem_optionMember Value.WellFormed _ fun _ _ => trivial

theorem wellFormed_toValues (cs : List Condition)
    (hcs : ∀ l ∈ leavesList cs, ∀ v, l.value = some v → v.WellFormed) : ∀ v ∈ toValues cs, v.WellFormed := by
  cases cs with
  | nil => exact List.forall_mem_nil _
  | cons c rest =>
    obtain ⟨hfirst, hrest⟩ := List.forall_mem_append.mp hcs
    exact List.forall_mem_cons.mpr ⟨wellFormed_toValue c hfirst, wellFormed_toValues rest hrest⟩

end

end Condition

theorem ConditionDraft.conditions_of_finish {d : ConditionDraft} {cs : List Condition} (h : d.finish = .ok cs) :
    d.conditions = cs := by
  rw [finish] at h
  split at h
  · exact nomatch h
  · exact Except.ok.inj h

namespace ConditionStep

/-- A property of the conditions that steps make, if they hand over well-formed operands. -/
structure Makes (C : Condition → Prop) : Prop where
  /-- Tests of a named field by a known operator. -/
  leaf : ∀ {field : String} (op : FilterOperator) {value : Option Value}, Text.isBlankText field = false →
    (∀ v, value = some v → v.WellFormed) → C (.leaf field op.symbol value)
  /-- Groups with a known logic. -/
  group : ∀ {cs : List Condition} (logic : Logic), (∀ c ∈ cs, C c) → C (.group cs (some logic.symbol))

namespace Makes

variable {C : Condition → Prop} {d : ConditionDraft}

theorem pushTest (hC : Makes C) (hd : ∀ c ∈ d.conditions, C c) (field : String) (op : FilterOperator)
    {value : Option Value} (hvalue : ∀ v, value = some v → v.WellFormed) :
    ∀ c ∈ (d.pushTest field op value).conditions, C c := by
  rw [ConditionDraft.pushTest]
  split
  · exact hd
  · rename_i hfield
    have hleaf := hC.leaf op (by simpa using hfield) hvalue
    exact List.forall_mem_append.mpr ⟨hd, List.forall_mem_singleton.mpr hleaf⟩

mutual

/-- **Every step keeps a property of the conditions so far**, if what steps make has it. -/
theorem apply (hC : Makes C) {d : ConditionDraft} (hd : ∀ c ∈ d.conditions, C c) (s : ConditionStep)
    (hs : s.WellFormed) : ∀ c ∈ (d.apply s).conditions, C c := by
  cases s with
  | filter field operator value =>
    rw [ConditionDraft.apply]
    split
    · exact hC.pushTest hd field _ hs
    · exact hd
  | test field op value => exact hC.pushTest hd field op hs
  | group logic steps =>
    have hinner := applyAll hC (d := {}) (List.forall_mem_nil _) steps hs
    exact List.forall_mem_append.mpr ⟨hd, List.forall_mem_singleton.mpr (hC.group logic hinner)⟩

theorem applyAll (hC : Makes C) {d : ConditionDraft} (hd : ∀ c ∈ d.conditions, C c) (steps : List ConditionStep)
    (hs : WellFormedList steps) : ∀ c ∈ (d.applyAll steps).conditions, C c := by
  cases steps with
  | nil => exact hd
  | cons s rest => exact applyAll hC (apply hC hd s hs.1) rest hs.2

end

/-- Conditions that are finished as one have the property as well. -/
theorem finishAsOne (hC : Makes C) {steps : List ConditionStep} (hs : WellFormedList steps) {c : Condition}
    (h : (ConditionDraft.applyAll {} steps).finishAsOne = .ok c) : C c := by
  have hd := hC.applyAll (d := {}) (List.forall_mem_nil _) steps hs
  obtain ⟨cs, hcs, h⟩ := Outcome.bind_eq_ok_iff.mp h
  rw [ConditionDraft.conditions_of_finish hcs] at hd
  split at h
  · exact Except.ok.inj h ▸ hd _ (List.mem_singleton_self _)
  · exact Except.ok.inj h ▸ hC.group .and hd

end Makes

end ConditionStep

theorem Condition.Built.makes : ConditionStep.Makes Condition.Built := ⟨.leaf, fun _ => .group⟩

/-- All conditions so far are built. -/
def ConditionDraft.Built (d : ConditionDraft) : Prop := ∀ c ∈ d.conditions, c.Built

/-! ## Queries -/

/-- A well-formed query with built conditions. -/
structure Query.Built (q : Query) : Prop where
  /-- The filters. -/
  filters : ∀ c ∈ q.filters, c.Built
  /-- The page request. -/
  page : ∀ p, q.page = some p → p.WellFormed
  /-- The operations. -/
  operations : ∀ o ∈ q.operations, o.WellFormed
  /-- The conditions on groups. -/
  having : ∀ c ∈ q.groupConditions, c.Built
  /-- The joins. -/
  joins : ∀ j ∈ q.joins, j.WellFormed
  /-- The hints. -/
  hints : ∀ h, q.hints = some h → h.WellFormed

theorem Query.Built.wellFormed {q : Query} (h : q.Built) : q.WellFormed where
  filters c hc := (h.filters c hc).wellFormed
  page := h.page
  operations := h.operations
  groupBy g hg c hc := (h.having c (by rwa [Query.groupConditions, hg])).wellFormed
  joins := h.joins
  hints := h.hints

namespace QueryDraft

/-! ## Names and pairs -/

section Invariants

variable {P : QueryDraft → Prop} (hfail : ∀ d e, P d → P (d.fail e)) {d : QueryDraft} (hd : P d)
include hfail hd

theorem withName_invariant (name : String) (place : NamePlace) {next : QueryDraft → QueryDraft}
    (hnext : Text.isBlankText name = false → P (next d)) : P (d.withName name place next) := by
  rw [withName]
  split
  · exact hfail d _ hd
  · rename_i hblank
    exact hnext (by simpa using hblank)

theorem keepNames_invariant (names : List String) (place : NamePlace) : P (d.keepNames names place).1 := by
  rw [keepNames]
  refine List.foldlRecOn (motive := fun s : QueryDraft × List String => P s.1) names _ hd fun s hs name _ => ?_
  obtain ⟨d, kept⟩ := s
  dsimp only
  split
  · exact hfail d _ hs
  · exact hs

theorem keepPairs_invariant (pairs : List (String × String)) : P (d.keepPairs pairs).1 := by
  rw [keepPairs]
  refine List.foldlRecOn (motive := fun s : QueryDraft × Dict String => P s.1) pairs _ hd fun s hs pair _ => ?_
  obtain ⟨d, kept⟩ := s
  obtain ⟨source, target⟩ := pair
  dsimp only
  split
  · exact hfail d _ hs
  · split
    · exact hfail d _ hs
    · exact hs

end Invariants

/-- The pairs that are kept are in order. -/
theorem sorted_keepPairs (d : QueryDraft) (pairs : List (String × String)) : Dict.Sorted (d.keepPairs pairs).2 := by
  rw [keepPairs]
  refine List.foldlRecOn (motive := fun s : QueryDraft × Dict String => Dict.Sorted s.2) pairs _
    List.Pairwise.nil fun s hs pair _ => ?_
  obtain ⟨d, kept⟩ := s
  obtain ⟨source, target⟩ := pair
  dsimp only
  split
  · exact hs
  · split
    · exact hs
    · exact Dict.sorted_insert hs _ _

/-! ## Drafts -/

/-- Everything so far is built. -/
structure Built (d : QueryDraft) : Prop where
  /-- The query. -/
  query : d.query.Built
  /-- The filters. -/
  filters : d.filters.Built
  /-- The conditions on groups. -/
  having : d.having.Built

variable {d : QueryDraft}

theorem Built.start : Built {} := ⟨⟨by simp, by simp, by simp, by simp [Query.groupConditions], by simp, by simp⟩,
  List.forall_mem_nil _, List.forall_mem_nil _⟩

theorem Built.fail (hd : d.Built) (e : BuilderError) : (d.fail e).Built := { hd with }

/-- A change of the query that keeps it built. -/
theorem Built.modify (hd : d.Built) {f : Query → Query} (hf : d.query.Built → (f d.query).Built) : (d.modify f).Built :=
  { hd with query := hf hd.query }

theorem Built.withName (hd : d.Built) (name : String) (place : NamePlace) {next : QueryDraft → QueryDraft}
    (hnext : (next d).Built) : (d.withName name place next).Built :=
  withName_invariant (fun _ e hd => hd.fail e) hd name place fun _ => hnext

theorem Built.keepNames (hd : d.Built) (names : List String) (place : NamePlace) :
    (d.keepNames names place).1.Built :=
  keepNames_invariant (fun _ e hd => hd.fail e) hd names place

theorem Built.push (hd : d.Built) (kind : OperationKind) {parameters : Record}
    (hparameters : (Value.object parameters).WellFormed) : (d.push kind parameters).Built :=
  hd.modify fun h =>
    { h with operations := List.forall_mem_append.mpr ⟨h.operations, List.forall_mem_singleton.mpr hparameters⟩ }

theorem Built.pushCount (hd : d.Built) (kind : OperationKind) {n : ℕ} (hn : n ≤ 0xFFFFFFFFFFFFFFFF) :
    (d.push kind [("count", .ofNat n)]).Built := by
  have hmarks : int64Min = -0x8000000000000000 ∧ uint64Max = 0xFFFFFFFFFFFFFFFF := ⟨rfl, rfl⟩
  have hcount : (Value.ofNat n).WellFormed := by
    show int64Min ≤ n ∧ n ≤ uint64Max
    omega
  exact hd.push kind ⟨List.pairwise_singleton _ _, hcount, trivial⟩

theorem Built.pushQuantified (hd : d.Built) (universal : Bool) (collection : String) {steps : List ConditionStep}
    (hsteps : ConditionStep.WellFormedList steps) : (d.pushQuantified universal collection steps).Built := by
  rw [QueryDraft.pushQuantified]
  split
  · exact hd.fail _
  · rename_i c hc
    have hpredicate := Condition.Built.makes.finishAsOne hsteps hc
    have hnames : "collection" < "predicate" := by decide
    have hwell := Condition.wellFormed_toValue c hpredicate.wellFormed
    exact hd.push _ ⟨List.pairwise_pair.mpr hnames, trivial, hwell, trivial⟩

theorem Built.pushJoin (hd : d.Built) (kind : JoinKind) (entity : String) (on : List (String × String))
    (select : List String) : (d.pushJoin kind entity on select).Built := by
  have hkept : (d.keepPairs on).1.Built := keepPairs_invariant (fun _ e hd => hd.fail e) hd on
  rw [QueryDraft.pushJoin]
  refine hkept.modify fun h => { h with joins := List.forall_mem_append.mpr ⟨h.joins, ?_⟩ }
  exact List.forall_mem_singleton.mpr (sorted_keepPairs d on)

theorem Built.pushAggregate (hd : d.Built) (function : AggregateFunction) (field column : Option String) :
    (d.pushAggregate function field column).Built := by
  rw [QueryDraft.pushAggregate]
  exact hd.modify fun h => { h with }

theorem Built.modifyPage (hd : d.Built) {f : PageRequest → PageRequest} (hf : ∀ p, p.WellFormed → (f p).WellFormed) :
    (d.modifyPage f).Built := by
  rw [QueryDraft.modifyPage]
  refine hd.modify fun h => { h with page := ?_ }
  intro p hp
  obtain rfl := Option.some.inj hp
  refine hf _ ?_
  cases hpage : d.query.page with
  | none => simp [PageRequest.WellFormed]
  | some p => exact h.page p hpage

theorem Built.modifyHints (hd : d.Built) {f : Hints → Hints} (hf : ∀ h, h.WellFormed → (f h).WellFormed) :
    (d.modifyHints f).Built := by
  rw [QueryDraft.modifyHints]
  refine hd.modify fun h => { h with hints := ?_ }
  intro hints hhints
  obtain rfl := Option.some.inj hhints
  refine hf _ ?_
  cases hhints : d.query.hints with
  | none => simp [Hints.WellFormed]
  | some hints => exact h.hints hints hhints

theorem Built.modifyGrouping (hd : d.Built) {f : Grouping → Grouping} (hf : ∀ g, (f g).having = g.having) :
    (d.modifyGrouping f).Built := by
  rw [QueryDraft.modifyGrouping]
  refine hd.modify fun h => { h with having := ?_ }
  show ∀ c ∈ (f (d.query.groupBy.getD {})).having, c.Built
  rw [hf]
  have hhaving := h.having
  rw [Query.groupConditions] at hhaving
  cases hgroupBy : d.query.groupBy with
  | none => exact List.forall_mem_nil _
  | some g => rwa [hgroupBy] at hhaving

/-- **Every step keeps what was built.** -/
theorem Built.apply (hd : d.Built) {s : QueryStep} (hs : s.WellFormed) : (d.apply s).Built := by
  cases s <;> simp only [QueryDraft.apply]
  case entity name => exact hd.modify fun h => { h with }
  case maxPageSize n => exact { hd with }
  case filters steps => exact { hd with filters := Condition.Built.makes.applyAll hd.filters steps hs }
  case orderBy field direction => exact hd.withName _ _ (hd.modify fun h => { h with })
  case select fields => exact (hd.keepNames fields _).modify fun h => { h with }
  case pageSize n =>
    refine hd.modifyPage fun p _ => ?_
    rintro _ ⟨⟩
    have hbound : n ≤ 0xFFFFFFFF := hs
    have hmarks : int64Min = -0x8000000000000000 ∧ int64Max = 0x7FFFFFFFFFFFFFFF := ⟨rfl, rfl⟩
    omega
  case cursor text => exact hd.modifyPage fun p hp => hp
  case includeCount => exact hd.modifyHints fun h hh => hh
  case cacheTtlSeconds n =>
    refine hd.modifyHints fun h _ => ?_
    rintro _ ⟨⟩
    exact hs
  case selectMany field => exact hd.withName _ _ (hd.push _ ⟨List.pairwise_singleton _ _, trivial, trivial⟩)
  case operation kind => exact hd.push kind ⟨List.Pairwise.nil, trivial⟩
  case skip n => exact hd.pushCount _ hs
  case take n => exact hd.pushCount _ hs
  case quantified universal collection steps => exact hd.withName _ _ (hd.pushQuantified universal collection hs)
  case groupBy fields => exact (hd.keepNames fields _).modifyGrouping fun _ => rfl
  case having steps => exact { hd with having := Condition.Built.makes.applyAll hd.having steps hs }
  case aggregate function field column =>
    split
    · exact hd.pushAggregate function none column
    · exact hd.withName _ _ (hd.pushAggregate function _ column)
  case join kind entity on select => exact hd.withName _ _ (hd.pushJoin kind entity on select)

/-- A finished query names its entity, and has the conditions that were built. -/
theorem finish_eq_ok {q : Query} (h : d.finish = .ok q) :
    Text.isBlankText d.query.entity = false ∧
      (q = { d.query with filters := d.filters.conditions } ∨
        q = { d.query with
          filters := d.filters.conditions
          groupBy := some { d.query.groupBy.getD {} with having := d.having.conditions } }) := by
  rw [QueryDraft.finish] at h
  split at h
  · exact nomatch h
  split at h
  · exact nomatch h
  rename_i hentity
  refine ⟨by simpa using hentity, ?_⟩
  obtain ⟨filters, hfilters, h⟩ := Outcome.bind_eq_ok_iff.mp h
  obtain ⟨having, hhaving, h⟩ := Outcome.bind_eq_ok_iff.mp h
  rw [ConditionDraft.conditions_of_finish hfilters, ConditionDraft.conditions_of_finish hhaving]
  split at h
  · exact .inl (Except.ok.inj h).symm
  · exact .inr (Except.ok.inj h).symm

theorem Built.finish (hd : d.Built) {q : Query} (h : d.finish = .ok q) : q.Built := by
  rcases (finish_eq_ok h).2 with rfl | rfl
  · exact { hd.query with filters := hd.filters }
  · exact { hd.query with filters := hd.filters, having := hd.having }

end QueryDraft

/-- **A finished query is built**, if the steps hand over well-formed values. -/
theorem Query.built_of_build {steps : List QueryStep} (hsteps : ∀ s ∈ steps, s.WellFormed) {q : Query}
    (h : build steps = .ok q) : q.Built := by
  have hdraft : (steps.foldl QueryDraft.apply {}).Built :=
    List.foldlRecOn (motive := QueryDraft.Built) steps _ QueryDraft.Built.start fun _ hd s hs => hd.apply (hsteps s hs)
  exact hdraft.finish h

end GuardedQuery
