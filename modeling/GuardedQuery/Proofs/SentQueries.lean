import GuardedQuery.Proofs.BuiltQueries
import GuardedQuery.Proofs.ReadQueries

/-!
# Queries that are sent

A query that was built can be validated as it is, or sent as a text and validated where it is read. A built condition
may have `null` for an operand, and a condition that is read has no operand instead. To the validator this is not the
same: it asks whether there is an operand. So the verdicts differ by what it says of these conditions. The predicates of
operations make no difference, since a built query has them in their written form already.

## Main definitions

* `Violation.Differ`: two lists of violations, with those that only one of them has.
* `Policy.examined`: the leaves of a query that the validator looks at.

## Main statements

* `Query.eq_withoutNulls_of_ofText`: what is read from the text of a query is the query without nulls.
* `Policy.violations_withoutNulls`: the violations of a query and of the query without nulls.
* `Query.sent_violations`: a built query and the query that was sent have the same violations if and only if the
  validator looks at no operand that is `null`.
-/

namespace GuardedQuery

/-! ## Reading within the nesting limit -/

namespace Condition

/-- Trees are read with more levels as with fewer. -/
theorem readsPruned_read {levels levels' : ℕ} (h : levels ≤ levels') :
    Decoder.ReadsPruned (read levels) (read levels') := by
  induction levels generalizing levels' with
  | zero =>
    intro _ n c hread
    simp [read] at hread
  | succ levels ih =>
    obtain ⟨levels', rfl⟩ := Nat.exists_eq_add_of_le' (Nat.one_le_of_lt h)
    have hnested := ih (Nat.le_of_succ_le_succ h)
    refine .bind ofParts (.ofFields ?_ _)
    exact .cons (.optional .string _) <| .cons (.optional .string _) <| .cons (.optional (.option .value) _) <|
      .cons (.optional (.option (.list hnested)) _) <| .cons (.optional (.option .string) _) .nil

theorem readsPruned : Decoder.ReadsPruned decoder decoder := by
  intro levels n c hread
  exact readsPruned_read (Nat.succ_le_succ (Node.depth_prune_le levels n)) levels n c hread

end Condition

theorem SortItem.readsPruned : Decoder.ReadsPruned decoder decoder :=
  .ofFields (.cons (.mandatory .string _) <| .cons (.optional .string _) .nil) _

theorem PageRequest.readsPruned : Decoder.ReadsPruned decoder decoder :=
  .ofFields (.cons (.optional (.option (.intBetween _ _)) _) <| .cons (.optional (.option .string) _) .nil) _

theorem Operation.readsPruned : Decoder.ReadsPruned decoder decoder :=
  .ofFields (.cons (.mandatory .string _) <| .cons (.optional (.dict .value) _) .nil) _

theorem Grouping.readsPruned : Decoder.ReadsPruned decoder decoder :=
  .ofFields (.cons (.optional (.list .string) _) <| .cons (.optional (.list Condition.readsPruned) _) .nil) _

theorem Aggregation.readsPruned : Decoder.ReadsPruned decoder decoder :=
  .ofFields (.cons (.mandatory .string _) <| .cons (.optional (.option .string) _) <|
    .cons (.optional (.option .string) _) .nil) _

theorem Join.readsPruned : Decoder.ReadsPruned decoder decoder :=
  .ofFields (.cons (.optional .string _) <| .cons (.optional .string _) <| .cons (.optional (.dict .string) _) <|
    .cons (.optional (.list .string) _) .nil) _

theorem Hints.readsPruned : Decoder.ReadsPruned decoder decoder :=
  .ofFields (.cons (.optional .bool _) <|
    .cons (.optional (.option (.map Int.toNat (.intBetween _ _))) _) .nil) _

namespace Query

/-- **A query is read from a tree as from the part of it within the nesting limit.** -/
theorem readsPruned : Decoder.ReadsPruned decoder decoder :=
  .ofFields
    (.cons (.optional .string _) <| .cons (.optional (.list Condition.readsPruned) _) <|
      .cons (.optional (.list SortItem.readsPruned) _) <| .cons (.optional (.list .string) _) <|
      .cons (.optional (.option PageRequest.readsPruned) _) <| .cons (.optional (.list Operation.readsPruned) _) <|
      .cons (.optional (.option Grouping.readsPruned) _) <| .cons (.optional (.list Aggregation.readsPruned) _) <|
      .cons (.optional (.list Join.readsPruned) _) <| .cons (.optional (.option Hints.readsPruned) _) .nil) _

/-- **What is read from the text of a query is the query without nulls**, if the text can be read at all. -/
theorem eq_withoutNulls_of_ofText {q q' : Query} (hq : q.WellFormed) (h : ofText q.toText = .ok q') :
    q' = q.withoutNulls := by
  obtain ⟨read, hread, hended⟩ := Outcome.bind_eq_ok_iff.mp h
  rw [toText, Value.draft_toText_prune (legible_toValue hq)] at hread hended
  obtain rfl : read = q' := Except.ok.inj hended
  exact Except.ok.inj ((readsPruned _ _ _ hread).symm.trans (decoder_toValue hq))

end Query

/-! ## Verdicts -/

/-- Two lists of violations that are the same, in order, but for those that only the second one has and those that only
the first one has. -/
inductive Violation.Differ : (vs vs' added dropped : List Violation) → Prop
  /-- No violations are left. -/
  | nil : Differ [] [] [] []
  /-- A violation in both lists. -/
  | both {vs vs' added dropped : List Violation} (v : Violation) :
    Differ vs vs' added dropped → Differ (v :: vs) (v :: vs') added dropped
  /-- A violation that only the second list has. -/
  | added {vs vs' added dropped : List Violation} (v : Violation) :
    Differ vs vs' added dropped → Differ vs (v :: vs') (v :: added) dropped
  /-- A violation that only the first list has. -/
  | dropped {vs vs' added dropped : List Violation} (v : Violation) :
    Differ vs vs' added dropped → Differ (v :: vs) vs' added (v :: dropped)

namespace Violation.Differ

variable {vs vs' ws ws' as as' ds ds' : List Violation}

theorem refl (vs : List Violation) : Differ vs vs [] [] := by
  induction vs with
  | nil => exact .nil
  | cons v rest ih => exact .both v ih

/-- One list in the place of another one. -/
theorem replace (vs vs' : List Violation) : Differ vs vs' vs' vs := by
  induction vs with
  | nil =>
    induction vs' with
    | nil => exact .nil
    | cons v rest ih => exact .added v ih
  | cons v rest ih => exact .dropped v ih

theorem append (h : Differ vs vs' as ds) (h' : Differ ws ws' as' ds') :
    Differ (vs ++ ws) (vs' ++ ws') (as ++ as') (ds ++ ds') := by
  induction h with
  | nil => exact h'
  | both v _ ih => exact .both v ih
  | added v _ ih => exact .added v ih
  | dropped v _ ih => exact .dropped v ih

theorem append_left (h : Differ ws ws' as ds) (vs : List Violation) : Differ (vs ++ ws) (vs ++ ws') as ds :=
  (refl vs).append h

theorem append_right (h : Differ vs vs' as ds) (ws : List Violation) : Differ (vs ++ ws) (vs' ++ ws) as ds := by
  simpa only [List.append_nil] using h.append (refl ws)

theorem eq_of_nil (h : Differ vs vs' as ds) (has : as = []) (hds : ds = []) : vs = vs' := by
  induction h with
  | nil => rfl
  | both v _ ih => rw [ih has hds]
  | added => exact absurd has (List.cons_ne_nil _ _)
  | dropped => exact absurd hds (List.cons_ne_nil _ _)

/-- What one list has more, the other one has more, if the lists are the same. -/
theorem perm (h : Differ vs vs' as ds) : (vs ++ as).Perm (vs' ++ ds) := by
  induction h with
  | nil => exact .refl _
  | both v _ ih => exact ih.cons v
  | added v _ ih => exact List.perm_middle.trans (ih.cons v)
  | dropped v _ ih => exact (ih.cons v).trans List.perm_middle.symm

end Violation.Differ

namespace Leaf

/-- The operand is `null`. -/
def isNull (l : Leaf) : Bool := l.value.any Value.isNull

theorem isNull_iff {l : Leaf} : l.isNull = true ↔ l.value = some .null := by
  obtain ⟨_, _, value⟩ := l
  rcases value with _ | _ | _ | _ | _ | _ | _ | _ <;> simp [isNull, Value.isNull]

/-- What is wrong with the leaf if it has no operand. -/
def absentViolations (l : Leaf) : List Violation :=
  match FilterOperator.parse? l.operator with
  | some op => violationUnless op.forbidsValue (.valueRequired op.symbol l.field)
  | none => []

/-- What is wrong with the leaf if it has an operand. -/
def presentViolations (l : Leaf) : List Violation :=
  match FilterOperator.parse? l.operator with
  | some op => violationUnless op.requiresValue (.valueForbidden op.symbol l.field)
  | none => []

/-- What is wrong with the leaf only if its operand `null` is taken away. -/
def added (l : Leaf) : List Violation := if l.isNull then l.absentViolations else []

/-- What is wrong with the leaf only because of its operand `null`. -/
def dropped (l : Leaf) : List Violation := if l.isNull then l.presentViolations else []

end Leaf

namespace Condition

/-- Besides its operand, the same is wrong with a leaf, with and without an operand. -/
theorem exists_leafViolations (scope : FilterScope) {field : String} (hfield : Text.isBlankText field = false)
    (operator : String) : ∃ common, ∀ value, leafViolations scope field operator value =
      common ++ if value.isSome then Leaf.presentViolations { field, operator, value }
        else Leaf.absentViolations { field, operator, value } := by
  cases hop : FilterOperator.parse? operator with
  | none =>
    refine ⟨violationUnless (scope.allowsField field) (scope.fieldViolation field) ++ [.unknownOperator operator field],
      fun value => ?_⟩
    simp [leafViolations, hfield, hop, Leaf.presentViolations, Leaf.absentViolations]
  | some op =>
    refine ⟨violationUnless (scope.allowsField field) (scope.fieldViolation field) ++
      violationUnless (scope.allowsOperator field op)
        (.operatorNotAllowed op.symbol (scope.policyName field) scope.policy.name), fun value => ?_⟩
    cases value <;> simp [leafViolations, hfield, hop, Leaf.presentViolations, Leaf.absentViolations, violationUnless,
      FilterOperator.requiresValue]

/-- Taking the operand `null` away changes what is wrong with the operand. -/
theorem differ_leaf (scope : FilterScope) {field : String} (hfield : Text.isBlankText field = false) (operator : String)
    (value : Option Value) :
    Violation.Differ (leafViolations scope field operator value)
      (leafViolations scope field operator (value.filter fun v => !v.isNull))
      (Leaf.added { field, operator, value }) (Leaf.dropped { field, operator, value }) := by
  by_cases hnull : value = some .null
  · obtain ⟨common, hcommon⟩ := exists_leafViolations scope hfield operator
    subst hnull
    rw [hcommon, hcommon]
    exact (Violation.Differ.replace _ _).append_left common
  · have hkept : Leaf.isNull { field, operator, value } = false := by
      rwa [← Bool.not_eq_true, Leaf.isNull_iff]
    rw [Value.filter_isNull_eq_self hnull, Leaf.added, Leaf.dropped, hkept]
    exact .refl _

mutual

theorem differ_node (scope : FilterScope) (c : Condition) (hc : ∀ l ∈ c.leaves, Text.isBlankText l.field = false) :
    Violation.Differ (nodeViolations scope c) (nodeViolations scope c.withoutNulls) (c.leaves.flatMap Leaf.added)
      (c.leaves.flatMap Leaf.dropped) := by
  cases c with
  | leaf field operator value =>
    have hfield : Text.isBlankText field = false := hc { field, operator, value } (List.mem_singleton_self _)
    simpa [nodeViolations, withoutNulls, leaves] using differ_leaf scope hfield operator value
  | group cs logic =>
    have hempty : (withoutNullsList cs).isEmpty = cs.isEmpty := by cases cs <;> rfl
    simp only [nodeViolations, withoutNulls, leaves, hempty]
    exact (differ_list scope cs hc).append_left _

/-- Taking operands that are `null` away changes what is wrong with these operands. -/
theorem differ_list (scope : FilterScope) (cs : List Condition)
    (hcs : ∀ l ∈ leavesList cs, Text.isBlankText l.field = false) :
    Violation.Differ (listViolations scope cs) (listViolations scope (withoutNullsList cs))
      ((leavesList cs).flatMap Leaf.added) ((leavesList cs).flatMap Leaf.dropped) := by
  cases cs with
  | nil => exact .refl _
  | cons c rest =>
    obtain ⟨hfirst, hrest⟩ := List.forall_mem_append.mp hcs
    simp only [listViolations, withoutNullsList, leavesList, List.flatMap_append]
    exact (differ_node scope c hfirst).append (differ_list scope rest hrest)

end

mutual

theorem depth_withoutNulls (c : Condition) : c.withoutNulls.depth = c.depth := by
  cases c with
  | leaf => rfl
  | group cs logic => rw [withoutNulls, depth, depth, depthList_withoutNullsList cs]

theorem depthList_withoutNullsList (cs : List Condition) : depthList (withoutNullsList cs) = depthList cs := by
  cases cs with
  | nil => rfl
  | cons c rest =>
    rw [withoutNullsList, depthList, depthList, depth_withoutNulls c, depthList_withoutNullsList rest]

end

mutual

theorem nodeCount_withoutNulls (c : Condition) : c.withoutNulls.nodeCount = c.nodeCount := by
  cases c with
  | leaf => rfl
  | group cs logic => rw [withoutNulls, nodeCount, nodeCount, nodeCountList_withoutNullsList cs]

theorem nodeCountList_withoutNullsList (cs : List Condition) :
    nodeCountList (withoutNullsList cs) = nodeCountList cs := by
  cases cs with
  | nil => rfl
  | cons c rest =>
    rw [withoutNullsList, nodeCountList, nodeCountList, nodeCount_withoutNulls c, nodeCountList_withoutNullsList rest]

end

end Condition

namespace Policy

/-- The leaves that the validator looks at in a list of trees: none, if a limit is exceeded. -/
def inspected (p : Policy) (cs : List Condition) : List Leaf :=
  if p.maxDepth < Condition.depthList cs ∨ p.maxNodes < Condition.nodeCountList cs then [] else Condition.leavesList cs

/-- The leaves that the validator looks at in the conditions on groups: none, if there are no groups. -/
def inspectedGroups (p : Policy) (q : Query) : List Leaf :=
  if q.groupFields.isEmpty then [] else p.inspected q.groupConditions

/-- The leaves of a query that the validator looks at, apart from those in operations: none, if the entity has no
policy. -/
def examined (p : Policy) (q : Query) : List Leaf :=
  if Text.isBlankText q.entity || (p.entity? q.entity).isNone then []
  else p.inspected q.filters ++ p.inspectedGroups q

theorem differ_filters (p : Policy) (scope : FilterScope) {cs : List Condition}
    (hcs : ∀ c ∈ cs, ∀ l ∈ c.leaves, Text.isBlankText l.field = false) :
    Violation.Differ (p.filterViolations scope cs) (p.filterViolations scope (cs.map Condition.withoutNulls))
      ((p.inspected cs).flatMap Leaf.added) ((p.inspected cs).flatMap Leaf.dropped) := by
  rw [filterViolations, filterViolations, inspected, ← Condition.withoutNullsList_eq_map,
    Condition.depthList_withoutNullsList, Condition.nodeCountList_withoutNullsList]
  by_cases hdepth : p.maxDepth < Condition.depthList cs
  · simpa only [hdepth, if_true, true_or] using .refl _
  by_cases hnodes : p.maxNodes < Condition.nodeCountList cs
  · simpa only [hdepth, hnodes, if_true, if_false, or_true] using .refl _
  · simp only [hdepth, hnodes, if_false, or_self]
    exact Condition.differ_list scope cs (Condition.forall_mem_leavesList hcs)

end Policy

namespace Query

variable (q : Query)

@[simp] theorem groupFields_withoutNulls : q.withoutNulls.groupFields = q.groupFields := by
  simp [groupFields, withoutNulls, Function.comp_def, Grouping.withoutNulls]

@[simp] theorem groupConditions_withoutNulls :
    q.withoutNulls.groupConditions = q.groupConditions.map Condition.withoutNulls := by
  cases h : q.groupBy <;> simp [groupConditions, withoutNulls, h, Grouping.withoutNulls]

@[simp] theorem outputNames_withoutNulls : q.withoutNulls.outputNames = q.outputNames := rfl

@[simp] theorem isGrouped_withoutNulls : q.withoutNulls.isGrouped = q.isGrouped := by
  cases h : q.groupBy <;> simp [isGrouped, withoutNulls, h, Grouping.withoutNulls]

end Query

namespace EntityPolicy

theorem groupingViolations_eq (p : Policy) (e : EntityPolicy) (q : Query) :
    groupingViolations p e q =
      q.groupFields.flatMap (fun f => violationUnless (e.isSelectable f) (e.notAllowed f .grouping))
      ++ violationUnless (!(q.groupFields.isEmpty && !q.groupConditions.isEmpty)) .havingWithoutGroupBy
      ++ violationUnless (!(q.groupFields.isEmpty && !q.aggregations.isEmpty)) .aggregationWithoutGroupBy
      ++ aggregationViolations e q.groupFields q.aggregations
      ++ if q.groupFields.isEmpty || q.groupConditions.isEmpty then []
        else p.filterViolations (.groups e q.groupFields q.outputNames) q.groupConditions := rfl

variable {q : Query}

theorem differ_grouping (p : Policy) (e : EntityPolicy)
    (hhaving : ∀ c ∈ q.groupConditions, ∀ l ∈ c.leaves, Text.isBlankText l.field = false) :
    Violation.Differ (groupingViolations p e q) (groupingViolations p e q.withoutNulls)
      ((p.inspectedGroups q).flatMap Leaf.added) ((p.inspectedGroups q).flatMap Leaf.dropped) := by
  rw [groupingViolations_eq, groupingViolations_eq, Policy.inspectedGroups]
  simp only [Query.groupFields_withoutNulls, Query.groupConditions_withoutNulls, Query.outputNames_withoutNulls,
    List.isEmpty_map]
  refine .append_left ?_ _
  by_cases hfields : q.groupFields.isEmpty
  · simpa only [hfields, Bool.true_or, if_true] using .refl _
  cases hconditions : q.groupConditions with
  | nil => simpa [hfields, Policy.inspected, Condition.leavesList] using .refl _
  | cons c rest =>
    simpa [hfields, hconditions] using p.differ_filters (.groups e q.groupFields q.outputNames) hhaving

theorem differ (p : Policy) (e : EntityPolicy)
    (hfilters : ∀ c ∈ q.filters, ∀ l ∈ c.leaves, Text.isBlankText l.field = false)
    (hhaving : ∀ c ∈ q.groupConditions, ∀ l ∈ c.leaves, Text.isBlankText l.field = false) :
    Violation.Differ (e.violations p q) (e.violations p q.withoutNulls)
      ((p.inspected q.filters ++ p.inspectedGroups q).flatMap Leaf.added)
      ((p.inspected q.filters ++ p.inspectedGroups q).flatMap Leaf.dropped) := by
  have hsort : e.sortViolations q.withoutNulls = e.sortViolations q := by
    funext s
    simp [sortViolations]
  rw [violations, violations, List.flatMap_append, List.flatMap_append]
  rw [hsort]
  refine .append_right (.append ?_ (differ_grouping p e hhaving)) _
  exact .append_right (.append_right (.append_right (p.differ_filters _ hfilters) _) _) _

end EntityPolicy

/-- **The violations of a query and of the query without nulls** are the same, but for what is wrong with the leaves
that have the operand `null`, with it and without it. -/
theorem Policy.violations_withoutNulls (p : Policy) {q : Query}
    (hfilters : ∀ c ∈ q.filters, ∀ l ∈ c.leaves, Text.isBlankText l.field = false)
    (hhaving : ∀ c ∈ q.groupConditions, ∀ l ∈ c.leaves, Text.isBlankText l.field = false) :
    Violation.Differ (p.violations q) (p.violations q.withoutNulls) ((p.examined q).flatMap Leaf.added)
      ((p.examined q).flatMap Leaf.dropped) := by
  have hentity : q.withoutNulls.entity = q.entity := rfl
  have hpage : p.pageViolations q.withoutNulls = p.pageViolations q := rfl
  rw [violations, violations, examined, hentity, hpage]
  by_cases hblank : Text.isBlankText q.entity
  · simpa only [hblank, if_true, Bool.true_or] using .refl _
  cases he : p.entity? q.entity with
  | none => simpa [hblank] using .refl _
  | some e => simpa [hblank] using (EntityPolicy.differ p e hfilters hhaving).append_left _

theorem eq_of_mem_violationUnless {ok : Bool} {v w : Violation} (h : w ∈ violationUnless ok v) : w = v := by
  rw [violationUnless] at h
  split at h
  · exact absurd h List.not_mem_nil
  · exact List.mem_singleton.mp h

namespace Leaf

theorem eq_valueRequired_of_mem_added {l : Leaf} {v : Violation} (h : v ∈ l.added) :
    ∃ operator, v = .valueRequired operator l.field := by
  rw [added, absentViolations] at h
  split at h
  · split at h
    · exact ⟨_, eq_of_mem_violationUnless h⟩
    · exact absurd h List.not_mem_nil
  · exact absurd h List.not_mem_nil

theorem eq_valueForbidden_of_mem_dropped {l : Leaf} {v : Violation} (h : v ∈ l.dropped) :
    ∃ operator, v = .valueForbidden operator l.field := by
  rw [dropped, presentViolations] at h
  split at h
  · split at h
    · exact ⟨_, eq_of_mem_violationUnless h⟩
    · exact absurd h List.not_mem_nil
  · exact absurd h List.not_mem_nil

/-- Either the operand `null` is wrong with a leaf, or its absence is. -/
theorem added_or_dropped {l : Leaf} (hl : (FilterOperator.parse? l.operator).isSome = true) (hnull : l.isNull = true) :
    l.added ≠ [] ∨ l.dropped ≠ [] := by
  obtain ⟨op, hop⟩ := Option.isSome_iff_exists.mp hl
  simp only [added, dropped, hnull, if_true, absentViolations, presentViolations, hop, Ne, violationUnless_eq_nil_iff,
    FilterOperator.requiresValue]
  cases op.forbidsValue <;> simp

end Leaf

/-- Taking nulls away changes nothing about violations if and only if no leaf with a known operator has any. -/
theorem Violation.Differ.eq_iff {vs vs' : List Violation} {ls : List Leaf}
    (h : Differ vs vs' (ls.flatMap Leaf.added) (ls.flatMap Leaf.dropped))
    (hknown : ∀ l ∈ ls, (FilterOperator.parse? l.operator).isSome = true) :
    vs' = vs ↔ ∀ l ∈ ls, l.value ≠ some .null := by
  constructor
  · rintro rfl l hl hnull
    have hsame : (ls.flatMap Leaf.added).Perm (ls.flatMap Leaf.dropped) := (List.perm_append_left_iff _).mp h.perm
    -- What is added is never what is dropped.
    have hdisjoint : ∀ v, v ∈ ls.flatMap Leaf.added → v ∉ ls.flatMap Leaf.dropped := by
      intro v hadded hdropped
      obtain ⟨_, _, hadded⟩ := List.mem_flatMap.mp hadded
      obtain ⟨_, _, hdropped⟩ := List.mem_flatMap.mp hdropped
      obtain ⟨_, rfl⟩ := Leaf.eq_valueRequired_of_mem_added hadded
      obtain ⟨_, hv⟩ := Leaf.eq_valueForbidden_of_mem_dropped hdropped
      exact Violation.noConfusion hv
    rcases Leaf.added_or_dropped (hknown l hl) (Leaf.isNull_iff.mpr hnull) with hsome | hsome
    · obtain ⟨v, hv⟩ := List.exists_mem_of_ne_nil _ hsome
      have hv := List.mem_flatMap.mpr ⟨l, hl, hv⟩
      exact hdisjoint v hv (hsame.mem_iff.mp hv)
    · obtain ⟨v, hv⟩ := List.exists_mem_of_ne_nil _ hsome
      have hv := List.mem_flatMap.mpr ⟨l, hl, hv⟩
      exact hdisjoint v (hsame.mem_iff.mpr hv) hv
  · intro hnone
    have hnone : ∀ l ∈ ls, l.isNull = false := fun l hl => by
      rw [← Bool.not_eq_true, Leaf.isNull_iff]
      exact hnone l hl
    refine (h.eq_of_nil ?_ ?_).symm
    · exact List.flatMap_eq_nil_iff.mpr fun l hl => by simp [Leaf.added, hnone l hl]
    · exact List.flatMap_eq_nil_iff.mpr fun l hl => by simp [Leaf.dropped, hnone l hl]

namespace Query

variable {q q' : Query}

/-- What is examined of a built query are leaves with known operators. -/
theorem Built.known_of_mem_examined (hq : q.Built) {p : Policy} :
    ∀ l ∈ p.examined q, (FilterOperator.parse? l.operator).isSome = true := by
  have hinspected : ∀ cs : List Condition, (∀ c ∈ cs, c.Built) →
      ∀ l ∈ p.inspected cs, (FilterOperator.parse? l.operator).isSome = true := by
    intro cs hcs
    rw [Policy.inspected]
    split
    · exact List.forall_mem_nil _
    · exact Condition.forall_mem_leavesList fun c hc => (hcs c hc).known
  rw [Policy.examined]
  split
  · exact List.forall_mem_nil _
  · refine List.forall_mem_append.mpr ⟨hinspected _ hq.filters, ?_⟩
    rw [Policy.inspectedGroups]
    split
    · exact List.forall_mem_nil _
    · exact hinspected _ hq.having

/-- **What is sent arrives without nulls, and the verdicts differ by them.** What is read from the text of a built query
is the query without nulls. Its violations are those of the built query, but for what is wrong with the leaves that have
the operand `null`. They are the same if and only if no leaf that is examined has this operand. -/
theorem sent_violations {steps : List QueryStep} (hsteps : ∀ s ∈ steps, s.WellFormed) (hbuild : build steps = .ok q)
    (hread : ofText q.toText = .ok q') (p : Policy) :
    q' = q.withoutNulls ∧
      Violation.Differ (p.violations q) (p.violations q') ((p.examined q).flatMap Leaf.added)
        ((p.examined q).flatMap Leaf.dropped) ∧
      (p.violations q' = p.violations q ↔ ∀ l ∈ p.examined q, l.value ≠ some .null) := by
  have hbuilt := built_of_build hsteps hbuild
  obtain rfl := eq_withoutNulls_of_ofText hbuilt.wellFormed hread
  have hdiffer := p.violations_withoutNulls (fun c hc => (hbuilt.filters c hc).named)
    fun c hc => (hbuilt.having c hc).named
  exact ⟨rfl, hdiffer, hdiffer.eq_iff hbuilt.known_of_mem_examined⟩

/-- Users are asked for without a name. -/
def namelessSteps : List QueryStep := [.entity "User", .filters [.test "Name" .eq (some .null)]]

/-- The query that the steps make. -/
def namelessQuery : Query where
  entity := "User"
  filters := [.leaf "Name" "eq" (some .null)]

/-- Users may be tested by their names. -/
def userPolicy : Policy := ({} : Policy).withEntity { name := "User", filterable := ["Name"] }

/-- The policy accepts the built query, and refuses the query that was sent. -/
theorem sent_violations_nameless :
    build namelessSteps = .ok namelessQuery ∧ userPolicy.violations namelessQuery = [] ∧
      ofText namelessQuery.toText = .ok namelessQuery.withoutNulls ∧
      userPolicy.violations namelessQuery.withoutNulls ≠ [] := by
  have hsteps : ∀ s ∈ namelessSteps, s.WellFormed := by
    simp [namelessSteps, QueryStep.WellFormed, ConditionStep.WellFormedList, ConditionStep.WellFormed, Value.WellFormed]
  have hbuild : build namelessSteps = .ok namelessQuery := by decide +kernel
  have hread : ofText namelessQuery.toText = .ok namelessQuery.withoutNulls := by decide +kernel
  have haccepts : userPolicy.violations namelessQuery = [] := by decide +kernel
  obtain ⟨_, _, hverdict⟩ := sent_violations hsteps hbuild hread userPolicy
  refine ⟨hbuild, haccepts, hread, fun hsame => ?_⟩
  have hexamined : (userPolicy.examined namelessQuery).any Leaf.isNull = true := by decide +kernel
  obtain ⟨l, hl, hnull⟩ := List.any_eq_true.mp hexamined
  exact hverdict.mp (hsame.trans haccepts.symm) l hl (Leaf.isNull_iff.mp hnull)

end Query

end GuardedQuery
