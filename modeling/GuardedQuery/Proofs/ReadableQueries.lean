import GuardedQuery.Proofs.SentQueries
import GuardedQuery.Query.Script

/-!
# Queries that can be read

Builder and validator share a vocabulary through texts: the builder writes symbols and parameters into the query, and
the validator reads them. What a step writes can be read. So whatever the policy finds wrong with a built query, it is
never that a part of it is missing, or written in no known way. This holds of the predicates on elements too, which the
builder writes as values and the validator reads back.

## Main definitions

* `Violation.isUnread`: the violations of parts that could not be read.
* `QueryStep.Offered`: the steps that the builder offers.
* `Condition.Readable`, `Query.Readable`: conditions and queries all of whose parts can be read.

## Main statements

* `Condition.Readable.allRead`, `Operation.Written.allRead`: what can be read has no such violation.
* `QueryDraft.Readable.apply`: every step keeps a query readable.
* `Query.built_parts_read`: no part of a built query is missing or cannot be read.
-/

namespace GuardedQuery

/-! ## Violations of parts that could not be read -/

/-- Whether the violation says that a part of the query is missing, or that it is written in no known way. The other
violations are about what parts ask for. -/
def Violation.isUnread : Violation → Bool
  | missingEntity => true
  | emptyField _ => true
  | unknownOperator .. => true
  | unknownLogic _ => true
  | invalidSortDirection .. => true
  | unknownOperation _ => true
  | missingParameter .. => true
  | invalidCount .. => true
  | invalidPredicate .. => true
  | unknownAggregate _ => true
  | aggregateFieldRequired _ => true
  | joinEntityRequired => true
  | unknownJoinType _ => true
  | _ => false

/-- None of the violations is about a part that could not be read. -/
def Violation.AllRead (vs : List Violation) : Prop := ∀ v ∈ vs, v.isUnread = false

namespace Violation.AllRead

variable {vs ws : List Violation}

theorem nil : AllRead [] := List.forall_mem_nil _

theorem append (h : AllRead vs) (h' : AllRead ws) : AllRead (vs ++ ws) := List.forall_mem_append.mpr ⟨h, h'⟩

theorem flatMap {α : Type} {l : List α} {f : α → List Violation} (h : ∀ a ∈ l, AllRead (f a)) :
    AllRead (l.flatMap f) := by
  intro v hv
  obtain ⟨a, ha, hv⟩ := List.mem_flatMap.mp hv
  exact h a ha v hv

/-- A violation of another kind. -/
theorem other {ok : Bool} {v : Violation} (h : v.isUnread = false) : AllRead (violationUnless ok v) := by
  intro w hw
  rw [eq_of_mem_violationUnless hw, h]

/-- A violation that there is not. -/
theorem of_ok {ok : Bool} {v : Violation} (h : ok = true) : AllRead (violationUnless ok v) := by
  rw [(violationUnless_eq_nil_iff ok v).mpr h]
  exact nil

end Violation.AllRead

/-! ## Steps that are offered -/

/-- Whether the operation works with parameters. -/
def OperationKind.takesParameters : OperationKind → Bool
  | selectMany | skip | take | any | all => true
  | _ => false

/-- The steps that the builder offers: operations come with their parameters, and exactly the functions that need a
field come with one. -/
def QueryStep.Offered : QueryStep → Prop
  | operation kind => kind.takesParameters = false
  | aggregate function field _ => field.isSome = function.requiresField
  | _ => True

/-- The steps of scripts are offered. -/
theorem QueryStep.offered_ofCalls (calls : List Value) : ∀ s ∈ ofCalls calls, s.Offered := by
  intro s hs
  obtain ⟨call, _, hs⟩ := List.mem_filterMap.mp hs
  unfold ofCall? at hs
  split at hs
  · exact Option.some.inj hs ▸ trivial
  · unfold ofArguments? at hs
    split at hs <;> cases hs <;> trivial
  · exact nomatch hs

/-! ## Symbols -/

theorem Logic.parse?_symbol (l : Logic) : parse? (some l.symbol) = some l := by
  cases l <;> decide +kernel

theorem Direction.parse?_symbol (d : Direction) : parse? d.symbol = some d := by
  cases d <;> decide +kernel

theorem OperationKind.parse?_symbol (k : OperationKind) : parse? k.symbol = some k := by
  cases k <;> decide +kernel

theorem AggregateFunction.parse?_symbol (f : AggregateFunction) : parse? f.symbol = some f := by
  cases f <;> decide +kernel

theorem JoinKind.parse?_symbol (k : JoinKind) : parse? k.symbol = some k := by
  cases k <;> decide +kernel

/-! ## Conditions -/

namespace Condition

/-- A tree whose leaves name a field and a known operator, and whose groups have a known logic. -/
inductive Readable : Condition → Prop
  /-- A leaf. -/
  | leaf {field operator : String} {value : Option Value} : Text.isBlankText field = false →
      (FilterOperator.parse? operator).isSome = true → Readable (.leaf field operator value)
  /-- A group. -/
  | group {cs : List Condition} {logic : Option String} : (Logic.parse? logic).isSome = true →
      (∀ c ∈ cs, Readable c) → Readable (.group cs logic)

namespace Readable

/-- What steps make can be read. -/
theorem makes : ConditionStep.Makes Readable where
  leaf op _ hfield _ := .leaf hfield (by rw [FilterOperator.parse?_symbol]; rfl)
  group logic hcs := .group (by rw [Logic.parse?_symbol]; rfl) hcs

mutual

theorem withoutNulls {c : Condition} (hc : c.Readable) : c.withoutNulls.Readable := by
  cases hc with
  | leaf hfield hop => exact .leaf hfield hop
  | group hlogic hcs =>
    rw [Condition.withoutNulls]
    exact .group hlogic (withoutNullsList hcs)

theorem withoutNullsList {cs : List Condition} (hcs : ∀ c ∈ cs, c.Readable) :
    ∀ c ∈ Condition.withoutNullsList cs, c.Readable := by
  cases cs with
  | nil => exact List.forall_mem_nil _
  | cons c rest =>
    obtain ⟨hfirst, hrest⟩ := List.forall_mem_cons.mp hcs
    exact List.forall_mem_cons.mpr ⟨withoutNulls hfirst, withoutNullsList hrest⟩

end

variable (scope : FilterScope)

theorem isUnread_fieldViolation (field : String) : (scope.fieldViolation field).isUnread = false := by
  cases scope <;> rfl

theorem leaf_allRead {field operator : String} {value : Option Value} (hfield : Text.isBlankText field = false)
    (hop : (FilterOperator.parse? operator).isSome = true) :
    Violation.AllRead (leafViolations scope field operator value) := by
  obtain ⟨op, hop⟩ := Option.isSome_iff_exists.mp hop
  simp only [leafViolations, hfield, hop, Bool.false_eq_true, if_false]
  exact .append (.other (isUnread_fieldViolation scope field))
    (.append (.append (.other rfl) (.other rfl)) (.other rfl))

mutual

/-- **The validator reads every part of a readable tree.** -/
theorem allRead {c : Condition} (hc : c.Readable) : Violation.AllRead (nodeViolations scope c) := by
  cases hc with
  | leaf hfield hop => exact leaf_allRead scope hfield hop
  | group hlogic hcs =>
    rw [nodeViolations]
    exact .append (.append (.of_ok hlogic) (.other rfl)) (allRead_list hcs)

theorem allRead_list {cs : List Condition} (hcs : ∀ c ∈ cs, c.Readable) :
    Violation.AllRead (listViolations scope cs) := by
  cases cs with
  | nil => exact .nil
  | cons c rest =>
    obtain ⟨hfirst, hrest⟩ := List.forall_mem_cons.mp hcs
    rw [listViolations]
    exact .append (allRead hfirst) (allRead_list hrest)

end

/-- Trees that exceed a limit are not read at all. -/
theorem allRead_filters (p : Policy) {cs : List Condition} (hcs : ∀ c ∈ cs, c.Readable) :
    Violation.AllRead (p.filterViolations scope cs) := by
  rw [Policy.filterViolations]
  split
  · exact List.forall_mem_singleton.mpr rfl
  · split
    · exact List.forall_mem_singleton.mpr rfl
    · exact allRead_list scope hcs

end Readable

/-- **A written tree is read as the predicate of an operation**, without its nulls. -/
theorem ofPredicate_toValue {c : Condition} (hc : c.WellFormed) : ofPredicate c.toValue = .ok [c.withoutNulls] := by
  have hread := decoder_toValue hc
  cases c <;> (rw [toValue] at hread ⊢; simp only [ofPredicate, Decoder.ofValue, hread])

end Condition

/-! ## Other parts -/

/-- A sort key that names a field and a known direction. -/
structure SortItem.Readable (s : SortItem) : Prop where
  /-- The field. -/
  named : Text.isBlankText s.field = false
  /-- The direction. -/
  direction : (Direction.parse? s.direction).isSome = true

/-- An operation with the parameters that steps write for it. -/
inductive Operation.Written : Operation → Prop
  /-- An operation without parameters. -/
  | bare {kind : OperationKind} : kind.takesParameters = false → Written { kind := kind.symbol }
  /-- A collection is unwound. -/
  | unwinding {field : String} : Text.isBlankText field = false →
      Written { kind := OperationKind.selectMany.symbol, parameters := [("field", .string field)] }
  /-- Rows are counted off. -/
  | counting {kind : OperationKind} (n : ℕ) : kind = .skip ∨ kind = .take →
      Written { kind := kind.symbol, parameters := [("count", .ofNat n)] }
  /-- Elements of a collection are tested. -/
  | quantified {kind : OperationKind} {collection : String} {c : Condition} : kind = .any ∨ kind = .all →
      Text.isBlankText collection = false → c.WellFormed → c.Readable →
      Written { kind := kind.symbol, parameters := [("collection", .string collection), ("predicate", c.toValue)] }

/-- An aggregation by a known function, with a field if the function needs one. -/
structure Aggregation.Readable (a : Aggregation) : Prop where
  /-- The function. -/
  known : ∃ function, AggregateFunction.parse? a.function = some function ∧
    (function.requiresField = true → ∃ field, a.field = some field ∧ Text.isBlankText field = false)

/-- A join of a known kind that names an entity. -/
structure Join.Readable (j : Join) : Prop where
  /-- The kind. -/
  kind : (JoinKind.parse? j.kind).isSome = true
  /-- The entity. -/
  named : Text.isBlankText j.entity = false

/-- A query all of whose parts can be read. -/
structure Query.Readable (q : Query) : Prop where
  /-- The filters. -/
  filters : ∀ c ∈ q.filters, c.Readable
  /-- The sort keys. -/
  sort : ∀ s ∈ q.sort, s.Readable
  /-- The operations. -/
  operations : ∀ o ∈ q.operations, o.Written
  /-- The conditions on groups. -/
  having : ∀ c ∈ q.groupConditions, c.Readable
  /-- The aggregations. -/
  aggregations : ∀ a ∈ q.aggregations, a.Readable
  /-- The joins. -/
  joins : ∀ j ∈ q.joins, j.Readable

variable (p : Policy) (e : EntityPolicy)

theorem SortItem.Readable.allRead {s : SortItem} (hs : s.Readable) (q : Query) :
    Violation.AllRead (e.sortViolations q s) := by
  simp only [EntityPolicy.sortViolations, hs.named, Bool.false_eq_true, if_false]
  exact .append (.other rfl) (.of_ok hs.direction)

namespace Operation

/-- A parameter that is found first. -/
theorem parameter?_head {kind name : String} {v : Value} {rest : Record} (hv : v.isNull = false) :
    ({ kind, parameters := (name, v) :: rest } : Operation).parameter? name = some v := by
  simp [parameter?, Dict.get?, Option.filter, hv]

/-- A text that is found first and is not blank. -/
theorem nameParameter?_head {kind name text : String} {rest : Record} (htext : Text.isBlankText text = false) :
    EntityPolicy.nameParameter? { kind, parameters := (name, .string text) :: rest } name = some text := by
  rw [EntityPolicy.nameParameter?, textParameter?, parameter?_head rfl, Option.bind_some, Value.asString?]
  simp [Option.filter, htext]

theorem allRead_counting (kind : OperationKind) (n : ℕ) :
    Violation.AllRead (EntityPolicy.countViolations p kind
      { kind := kind.symbol, parameters := [("count", .ofNat n)] }) := by
  have hn : (Value.ofNat n).asUInt64? = some n := (Value.asUInt64?_eq_some_iff _ n).mpr rfl
  rw [EntityPolicy.countViolations, parameter?_head rfl]
  simp only [hn]
  exact .other rfl

/-- The predicate is read as it was written, without its nulls. -/
theorem allRead_quantified (kind : OperationKind) {collection : String} {c : Condition}
    (hcollection : Text.isBlankText collection = false) (hc : c.WellFormed) (hread : c.Readable) :
    Violation.AllRead (e.quantifiedViolations p kind
      { kind := kind.symbol, parameters := [("collection", .string collection), ("predicate", c.toValue)] }) := by
  have hnull : c.toValue.isNull = false := by cases c <;> rfl
  have hpredicate : ({ kind := kind.symbol, parameters :=
      [("collection", .string collection), ("predicate", c.toValue)] } : Operation).parameter? "predicate" =
        some c.toValue := by
    simp [parameter?, Dict.get?, Option.filter, hnull]
  have helements : Violation.AllRead (e.elementViolations p kind collection c.toValue) := by
    rw [EntityPolicy.elementViolations, Condition.ofPredicate_toValue hc]
    exact Condition.Readable.allRead_filters _ p (List.forall_mem_singleton.mpr hread.withoutNulls)
  rw [EntityPolicy.quantifiedViolations, nameParameter?_head hcollection, hpredicate]
  exact .append (.append (.of_ok rfl) (.of_ok rfl)) (.append (.other rfl) helements)

/-- **The validator reads the parameters that steps write.** -/
theorem Written.allRead {o : Operation} (ho : o.Written) : Violation.AllRead (e.operationViolations p o) := by
  rw [EntityPolicy.operationViolations]
  cases ho with
  | @bare kind hkind =>
    rw [OperationKind.parse?_symbol]
    cases kind <;> first | exact .nil | exact Bool.noConfusion hkind
  | unwinding hfield =>
    simp only [OperationKind.parse?_symbol, nameParameter?_head hfield]
    exact .other rfl
  | counting n hkind =>
    rcases hkind with rfl | rfl
    all_goals
      rw [OperationKind.parse?_symbol]
      exact allRead_counting p _ n
  | quantified hkind hcollection hc hread =>
    rcases hkind with rfl | rfl
    all_goals
      rw [OperationKind.parse?_symbol]
      exact allRead_quantified p e _ hcollection hc hread

end Operation

theorem EntityPolicy.allRead_aggregations {l : List Aggregation} (hl : ∀ a ∈ l, a.Readable) (columns : List String) :
    Violation.AllRead (e.aggregationViolations columns l) := by
  induction l generalizing columns with
  | nil => exact .nil
  | cons a rest ih =>
    obtain ⟨⟨⟨function, hfunction, hfield⟩⟩, hrest⟩ := List.forall_mem_cons.mp hl
    have hcondensed : Violation.AllRead (e.condensedViolations function a.field) := by
      rw [condensedViolations]
      split
      · exact .other rfl
      · rename_i hnone
        refine .of_ok ?_
        by_contra hrequired
        obtain ⟨field, hsome, hblank⟩ := hfield (by simpa using hrequired)
        simp [hsome, Option.filter, hblank] at hnone
    rw [aggregationViolations, hfunction]
    exact .append (.append hcondensed (.other rfl)) (ih hrest _)

theorem Join.Readable.allRead {j : Join} (hj : j.Readable) : Violation.AllRead (e.joinViolations p j) := by
  simp only [EntityPolicy.joinViolations, hj.named, Bool.false_eq_true, if_false]
  refine .append (.of_ok hj.kind) (.append (.other rfl) ?_)
  split
  · exact List.forall_mem_singleton.mpr rfl
  · exact .append (.flatMap fun _ _ => .append (.other rfl) (.other rfl)) (.flatMap fun _ _ => .other rfl)

namespace Query

variable {q : Query}

theorem Readable.allRead_grouping (hq : q.Readable) : Violation.AllRead (e.groupingViolations p q) := by
  rw [EntityPolicy.groupingViolations_eq]
  refine .append (.append (.append (.append (.flatMap fun _ _ => .other rfl) (.other rfl)) (.other rfl)) ?_) ?_
  · exact e.allRead_aggregations hq.aggregations _
  · split
    · exact .nil
    · exact Condition.Readable.allRead_filters _ p hq.having

/-- **The validator reads every part of a readable query** that names its entity. -/
theorem Readable.allRead (hq : q.Readable) (hentity : Text.isBlankText q.entity = false) :
    Violation.AllRead (p.violations q) := by
  have hpage : Violation.AllRead (p.pageViolations q) := by
    rw [Policy.pageViolations]
    split
    · exact .nil
    · exact .other rfl
  simp only [Policy.violations, hentity, Bool.false_eq_true, if_false]
  split
  · exact List.forall_mem_cons.mpr ⟨rfl, hpage⟩
  · rename_i e _
    rw [EntityPolicy.violations]
    refine .append hpage (.append (.append (.append (.append (.append ?_ ?_) ?_) ?_) (hq.allRead_grouping p e)) ?_)
    · exact Condition.Readable.allRead_filters _ p hq.filters
    · exact .flatMap fun s hs => (hq.sort s hs).allRead e q
    · exact .flatMap fun _ _ => .other rfl
    · exact .flatMap fun o ho => (hq.operations o ho).allRead p e
    · exact .flatMap fun j hj => (hq.joins j hj).allRead p e

end Query

/-! ## Steps -/

namespace QueryDraft

/-- All parts of the query so far can be read. -/
structure Readable (d : QueryDraft) : Prop where
  /-- The query. -/
  query : d.query.Readable
  /-- The filters. -/
  filters : ∀ c ∈ d.filters.conditions, c.Readable
  /-- The conditions on groups. -/
  having : ∀ c ∈ d.having.conditions, c.Readable

namespace Readable

variable {d : QueryDraft}

theorem start : Readable {} where
  query := ⟨nofun, nofun, nofun, nofun, nofun, nofun⟩
  filters := nofun
  having := nofun

theorem fail (hd : d.Readable) (e : BuilderError) : (d.fail e).Readable := { hd with }

/-- A change of the query that keeps it readable. -/
theorem modify (hd : d.Readable) {f : Query → Query} (hf : d.query.Readable → (f d.query).Readable) :
    (d.modify f).Readable :=
  { hd with query := hf hd.query }

theorem withName (hd : d.Readable) {name : String} {place : NamePlace} {next : QueryDraft → QueryDraft}
    (hnext : Text.isBlankText name = false → (next d).Readable) : (d.withName name place next).Readable :=
  withName_invariant (fun _ e hd => hd.fail e) hd name place hnext

theorem keepNames (hd : d.Readable) (names : List String) (place : NamePlace) :
    (d.keepNames names place).1.Readable :=
  keepNames_invariant (fun _ e hd => hd.fail e) hd names place

/-- A written operation is added. -/
theorem push (hd : d.Readable) {kind : OperationKind} {parameters : Record}
    (ho : Operation.Written { kind := kind.symbol, parameters }) : (d.push kind parameters).Readable := by
  rw [QueryDraft.push]
  exact hd.modify fun hq =>
    { hq with operations := List.forall_mem_append.mpr ⟨hq.operations, List.forall_mem_singleton.mpr ho⟩ }

theorem pushQuantified (hd : d.Readable) (universal : Bool) {collection : String} {steps : List ConditionStep}
    (hcollection : Text.isBlankText collection = false) (hsteps : ConditionStep.WellFormedList steps) :
    (d.pushQuantified universal collection steps).Readable := by
  rw [QueryDraft.pushQuantified]
  split
  · exact hd.fail _
  · rename_i c hc
    have hkind : (if universal then OperationKind.all else .any) = .any ∨
        (if universal then OperationKind.all else .any) = .all := by cases universal <;> simp
    have hwell := (Condition.Built.makes.finishAsOne hsteps hc).wellFormed
    exact hd.push (.quantified hkind hcollection hwell (Condition.Readable.makes.finishAsOne hsteps hc))

theorem pushAggregate (hd : d.Readable) {function : AggregateFunction} {field : Option String} (column : Option String)
    (hfield : function.requiresField = true → ∃ name, field = some name ∧ Text.isBlankText name = false) :
    (d.pushAggregate function field column).Readable := by
  have ha : Aggregation.Readable { function := function.symbol, field, outputAlias := column } :=
    ⟨function, AggregateFunction.parse?_symbol function, hfield⟩
  rw [QueryDraft.pushAggregate]
  exact hd.modify fun hq =>
    { hq with aggregations := List.forall_mem_append.mpr ⟨hq.aggregations, List.forall_mem_singleton.mpr ha⟩ }

theorem pushJoin (hd : d.Readable) (kind : JoinKind) {entity : String} (hentity : Text.isBlankText entity = false)
    (on : List (String × String)) (select : List String) : (d.pushJoin kind entity on select).Readable := by
  have hkept : (d.keepPairs on).1.Readable := keepPairs_invariant (fun _ e hd => hd.fail e) hd on
  have hkind : (JoinKind.parse? kind.symbol).isSome = true := by rw [JoinKind.parse?_symbol]; rfl
  rw [QueryDraft.pushJoin]
  refine hkept.modify fun hq => { hq with joins := List.forall_mem_append.mpr ⟨hq.joins, ?_⟩ }
  exact List.forall_mem_singleton.mpr ⟨hkind, hentity⟩

/-- Group fields are added, and the conditions on groups stay. -/
theorem pushGroupFields (hd : d.Readable) (fields : List String) :
    (d.modifyGrouping fun g => { g with fields := g.fields ++ fields }).Readable := by
  rw [QueryDraft.modifyGrouping]
  refine hd.modify fun hq => { hq with having := ?_ }
  have hhaving := hq.having
  rw [Query.groupConditions] at hhaving ⊢
  cases hgroupBy : d.query.groupBy with
  | none => exact List.forall_mem_nil _
  | some g => rwa [hgroupBy] at hhaving

/-- **Every step keeps the query readable**, if it is offered and hands over well-formed operands. -/
theorem apply (hd : d.Readable) {s : QueryStep} (hs : s.WellFormed) (hoffered : s.Offered) : (d.apply s).Readable := by
  cases s <;> simp only [QueryDraft.apply]
  case entity name => exact hd.modify fun hq => { hq with }
  case maxPageSize n => exact { hd with }
  case filters steps => exact { hd with filters := Condition.Readable.makes.applyAll hd.filters steps hs }
  case orderBy field direction =>
    have hdirection : (Direction.parse? direction.symbol).isSome = true := by rw [Direction.parse?_symbol]; rfl
    refine hd.withName fun hfield => hd.modify fun hq => { hq with sort := ?_ }
    exact List.forall_mem_append.mpr ⟨hq.sort, List.forall_mem_singleton.mpr ⟨hfield, hdirection⟩⟩
  case select fields => exact (hd.keepNames fields _).modify fun hq => { hq with }
  case pageSize n => exact hd.modify fun hq => { hq with }
  case cursor text => exact hd.modify fun hq => { hq with }
  case includeCount => exact hd.modify fun hq => { hq with }
  case cacheTtlSeconds n => exact hd.modify fun hq => { hq with }
  case selectMany field => exact hd.withName fun hfield => hd.push (.unwinding hfield)
  case operation kind => exact hd.push (.bare hoffered)
  case skip n => exact hd.push (.counting n (.inl rfl))
  case take n => exact hd.push (.counting n (.inr rfl))
  case quantified universal collection steps =>
    exact hd.withName fun hcollection => hd.pushQuantified universal hcollection hs
  case groupBy fields => exact (hd.keepNames fields _).pushGroupFields _
  case having steps => exact { hd with having := Condition.Readable.makes.applyAll hd.having steps hs }
  case aggregate function field column =>
    cases field with
    | none =>
      -- Only counting comes without a field.
      refine hd.pushAggregate column fun hrequired => ?_
      exact Bool.noConfusion (hoffered.trans hrequired)
    | some name => exact hd.withName fun hname => hd.pushAggregate column fun _ => ⟨name, rfl, hname⟩
  case join kind entity on select => exact hd.withName fun hentity => hd.pushJoin kind hentity on select

theorem finish (hd : d.Readable) {q : Query} (h : d.finish = .ok q) : q.Readable := by
  rcases (finish_eq_ok h).2 with rfl | rfl
  · exact { hd.query with filters := hd.filters }
  · exact { hd.query with filters := hd.filters, having := hd.having }

end Readable

end QueryDraft

namespace Query

variable {steps : List QueryStep} {q : Query}

/-- **No part of a built query is missing or cannot be read.** Whatever a policy finds wrong with a query that is built
by steps that are offered and hand over well-formed values, it is about what the query asks for. -/
theorem built_parts_read (hsteps : ∀ s ∈ steps, s.WellFormed) (hoffered : ∀ s ∈ steps, s.Offered)
    (hbuild : build steps = .ok q) (p : Policy) : ∀ v ∈ p.violations q, v.isUnread = false := by
  have hdraft : (steps.foldl QueryDraft.apply {}).Readable :=
    List.foldlRecOn (motive := QueryDraft.Readable) steps _ QueryDraft.Readable.start fun _ hd s hs =>
      hd.apply (hsteps s hs) (hoffered s hs)
  have hentity : Text.isBlankText q.entity = false := by
    obtain ⟨hentity, rfl | rfl⟩ := QueryDraft.finish_eq_ok hbuild <;> exact hentity
  exact (hdraft.finish hbuild).allRead p hentity

/-- Guests by name, with tests in the filter, on elements and on groups. -/
def guestSteps : List QueryStep :=
  [.entity "Guest",
   .filters [.group .or [.test "Name" .eq (some (.string "Ann")), .filter "Age" " GT " (some (.int 30))]],
   .orderBy "Name" .desc, .selectMany "Tags",
   .quantified false "Stays" [.test "Nights" .gte (some (.int 2)), .group .or [.test "Room" .isNull none]],
   .skip 1, .take 1000, .operation .reverse, .groupBy ["Name"], .having [.test "count" .gt (some (.int 1))],
   .aggregate .count none none, .aggregate .max (some "Age") (some "Oldest"),
   .join .groupJoin "Room" [("RoomId", "Id")] ["Floor"]]

/-- Guests may be asked for, and nothing may be asked about them. -/
def guestPolicy : Policy := ({} : Policy).withEntity { name := "Guest" }

/-- The policy finds much wrong with the built query, and reads all of it. -/
theorem built_parts_read_guests :
    ∃ q, build guestSteps = .ok q ∧ (guestPolicy.violations q).length = 11 ∧
      ∀ v ∈ guestPolicy.violations q, v.isUnread = false := by
  have hsteps : ∀ s ∈ guestSteps, s.WellFormed := by
    simp [guestSteps, QueryStep.WellFormed, ConditionStep.WellFormedList, ConditionStep.WellFormed, Value.WellFormed,
      int64Min, uint64Max]
  have hoffered : ∀ s ∈ guestSteps, s.Offered := by
    simp [guestSteps, QueryStep.Offered, OperationKind.takesParameters, AggregateFunction.requiresField]
  have hcount : (build guestSteps).map (fun q => (guestPolicy.violations q).length) = .ok 11 := by decide +kernel
  cases hbuild : build guestSteps with
  | error e =>
    simp [hbuild, Except.map] at hcount
  | ok q =>
    rw [hbuild] at hcount
    exact ⟨q, rfl, Except.ok.inj hcount, built_parts_read hsteps hoffered hbuild guestPolicy⟩

end Query

end GuardedQuery
