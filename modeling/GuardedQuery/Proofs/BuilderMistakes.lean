import GuardedQuery.Query.Builder
import Mathlib.Data.List.Basic
import Mathlib.Data.List.TakeWhile

/-!
# Mistakes in building a query

Every step of building a query makes a mistake or none, whatever stands around it. A draft has three slots for mistakes:
one for those in filters, one for those in conditions on groups, and one for all others. In each slot the first mistake
stays. Finishing looks at the slots in a fixed order, and not in the order of the steps. So a mistake in a filter gives
way to any mistake outside the filters and the conditions on groups, however late, and a mistake in a condition on
groups gives way to any other one.

## Main definitions

* `ConditionStep.mistake?`, `QueryStep.mistake?`: the mistake that a step makes.
* `MistakeSlot`, `QueryStep.slot`: where a draft remembers the mistake of a step.
* `QueryStep.overriding?`: the mistake that is reported in the place of one in a slot.

## Main statements

* `QueryDraft.remembered?_apply`: each step adds its mistake to its slot, unless there is one already.
* `QueryDraft.finish_of_entity`: what finishing reports.
* `Query.first_mistake_reported_unless_overridden`: the first mistake is reported, unless a later step makes another one
  in a slot that is looked at before.
-/

namespace GuardedQuery

/-! ## The mistakes of steps -/

/-- The mistake in a name that must not be blank. -/
def NamePlace.mistake? (place : NamePlace) (name : String) : Option BuilderError :=
  if Text.isBlankText name then some (.emptyField place) else none

mutual

/-- The mistake of a step that adds a condition. The operator is looked at before the field. A group makes the first
mistake of its steps. -/
def ConditionStep.mistake? : ConditionStep → Option BuilderError
  | filter field operator _ =>
    if (FilterOperator.parse? operator).isNone then some (.unknownOperator operator)
    else NamePlace.filter.mistake? field
  | test field _ _ => NamePlace.filter.mistake? field
  | group _ steps => firstMistake? steps

/-- The first mistake of steps that add conditions. -/
def ConditionStep.firstMistake? : List ConditionStep → Option BuilderError
  | [] => none
  | s :: rest => (mistake? s).or (firstMistake? rest)

end

/-- A slot for mistakes. -/
inductive MistakeSlot where
  /-- Mistakes outside filters and conditions on groups. -/
  | query
  /-- Mistakes in filters. -/
  | filters
  /-- Mistakes in conditions on groups. -/
  | having
deriving DecidableEq, Repr

/-- The slots in the order in which finishing looks at them. -/
def MistakeSlot.all : List MistakeSlot := [query, filters, having]

namespace QueryStep

/-- The mistake in a join pair. -/
def pairMistake? (pair : String × String) : Option BuilderError :=
  (NamePlace.joinSource.mistake? pair.1).or (NamePlace.joinTarget.mistake? pair.2)

/-- The mistake of a step: the first one of those that it could report. Conditions on elements are not looked at if
their collection has no name, and neither are pairs of a join without an entity. -/
def mistake? : QueryStep → Option BuilderError
  | filters steps => ConditionStep.firstMistake? steps
  | having steps => ConditionStep.firstMistake? steps
  | orderBy field _ => NamePlace.sort.mistake? field
  | select fields => fields.findSome? NamePlace.select.mistake?
  | selectMany field => NamePlace.selectMany.mistake? field
  | quantified _ collection steps =>
    (NamePlace.collection.mistake? collection).or (ConditionStep.firstMistake? steps)
  | groupBy fields => fields.findSome? NamePlace.groupBy.mistake?
  | aggregate _ field _ => field.bind NamePlace.aggregation.mistake?
  | join _ joined on _ => (NamePlace.joinEntity.mistake? joined).or (on.findSome? pairMistake?)
  | _ => none

/-- Where the mistake of a step is remembered. -/
def slot : QueryStep → MistakeSlot
  | filters _ => .filters
  | having _ => .having
  | _ => .query

/-- The first mistake of those steps that remember theirs in a slot. -/
def firstMistakeIn? (slot : MistakeSlot) (steps : List QueryStep) : Option BuilderError :=
  steps.findSome? fun s => if s.slot = slot then s.mistake? else none

/-- The mistake that is reported in the place of one in a slot: the first mistake of later steps in a slot that is
looked at before. -/
def overriding? (slot : MistakeSlot) (later : List QueryStep) : Option BuilderError :=
  (MistakeSlot.all.takeWhile (· ≠ slot)).findSome? fun before => firstMistakeIn? before later

/-- The entity that a step names. -/
def entityName? : QueryStep → Option String
  | entity name => some name
  | _ => none

/-- The entity that steps name: the last name counts. -/
def entityGiven (steps : List QueryStep) : String := (steps.filterMap entityName?).getLastD ""

end QueryStep

/-! ## Conditions under construction -/

namespace ConditionDraft

theorem error_pushTest (d : ConditionDraft) (field : String) (op : FilterOperator) (value : Option Value) :
    (d.pushTest field op value).error = d.error.or (NamePlace.filter.mistake? field) := by
  by_cases hblank : Text.isBlankText field
  · simp [pushTest, fail, NamePlace.mistake?, hblank]
  · simp [pushTest, push, NamePlace.mistake?, hblank]

mutual

/-- A step adds its mistake, unless there is one already. -/
theorem error_apply (d : ConditionDraft) (s : ConditionStep) : (d.apply s).error = d.error.or s.mistake? := by
  cases s with
  | filter field operator value =>
    cases hop : FilterOperator.parse? operator with
    | none => simp [apply, ConditionStep.mistake?, hop, fail]
    | some op => simp [apply, ConditionStep.mistake?, hop, error_pushTest]
  | test field op value => simp [apply, ConditionStep.mistake?, error_pushTest]
  | group logic steps =>
    have hinner := error_applyAll {} steps
    simpa [apply, ConditionStep.mistake?] using congrArg d.error.or hinner

/-- Steps add their first mistake, unless there is one already. -/
theorem error_applyAll (d : ConditionDraft) (steps : List ConditionStep) :
    (d.applyAll steps).error = d.error.or (ConditionStep.firstMistake? steps) := by
  cases steps with
  | nil => simp [applyAll, ConditionStep.firstMistake?]
  | cons s rest =>
    rw [applyAll, error_applyAll (d.apply s) rest, error_apply d s, ConditionStep.firstMistake?, Option.or_assoc]

end

end ConditionDraft

/-! ## Queries under construction -/

namespace QueryDraft

/-- What a step outside the filters and the conditions on groups does to a draft, unless it names the entity: it adds a
mistake, unless there is one already, and leaves filters, conditions on groups and the entity alone. -/
structure Notes (d : QueryDraft) (mistake : Option BuilderError) (d' : QueryDraft) : Prop where
  /-- The mistake is added. -/
  error : d'.error = d.error.or mistake
  /-- The filters stay. -/
  filters : d'.filters = d.filters
  /-- The conditions on groups stay. -/
  having : d'.having = d.having
  /-- The entity stays. -/
  entity : d'.query.entity = d.query.entity

namespace Notes

variable {d d' d'' : QueryDraft} {mistake later : Option BuilderError}

/-- A draft with the same mistake, filters, conditions on groups and entity. -/
theorem same (herror : d'.error = d.error) (hfilters : d'.filters = d.filters) (hhaving : d'.having = d.having)
    (hentity : d'.query.entity = d.query.entity) : Notes d none d' :=
  ⟨by rw [herror, Option.or_none], hfilters, hhaving, hentity⟩

theorem refl (d : QueryDraft) : Notes d none d := same rfl rfl rfl rfl

theorem fail (d : QueryDraft) (e : BuilderError) : Notes d (some e) (d.fail e) := ⟨rfl, rfl, rfl, rfl⟩

/-- A change of the query that leaves the entity alone. -/
theorem modify (h : Notes d mistake d') {f : Query → Query} (hf : (f d'.query).entity = d'.query.entity) :
    Notes d mistake (d'.modify f) :=
  ⟨h.error, h.filters, h.having, hf.trans h.entity⟩

/-- Of two mistakes the first one stays. -/
theorem trans (h : Notes d mistake d') (h' : Notes d' later d'') : Notes d (mistake.or later) d'' where
  error := by rw [h'.error, h.error, Option.or_assoc]
  filters := h'.filters.trans h.filters
  having := h'.having.trans h.having
  entity := h'.entity.trans h.entity

/-- After a blank name nothing else is looked at. -/
theorem withName {name : String} {place : NamePlace} {next : QueryDraft → QueryDraft} (h : Notes d mistake (next d)) :
    Notes d ((place.mistake? name).or mistake) (d.withName name place next) := by
  by_cases hblank : Text.isBlankText name
  · simpa [QueryDraft.withName, NamePlace.mistake?, hblank] using fail d (.emptyField place)
  · simpa [QueryDraft.withName, NamePlace.mistake?, hblank] using h

/-- A blank name is the only mistake of a step that changes the query otherwise. -/
theorem withName_modify (name : String) (place : NamePlace) {f : Query → Query}
    (hf : (f d.query).entity = d.query.entity) :
    Notes d (place.mistake? name) (d.withName name place fun d => d.modify f) := by
  rw [← Option.or_none (o := place.mistake? name)]
  exact withName ((refl d).modify hf)

/-- If every step of a fold notes a mistake or none, the first mistake is noted. -/
theorem foldl {α β : Type} {step : QueryDraft × β → α → QueryDraft × β} {mistake? : α → Option BuilderError}
    (hstep : ∀ s a, Notes s.1 (mistake? a) (step s a).1) (l : List α) (s : QueryDraft × β) :
    Notes s.1 (l.findSome? mistake?) (l.foldl step s).1 := by
  induction l generalizing s with
  | nil => exact refl s.1
  | cons a rest ih =>
    have hboth := (hstep s a).trans (ih (step s a))
    cases hfirst : mistake? a <;> simpa [hfirst] using hboth

/-- The first blank name is noted. -/
theorem keepNames (d : QueryDraft) (names : List String) (place : NamePlace) :
    Notes d (names.findSome? place.mistake?) (d.keepNames names place).1 := by
  refine foldl (fun s name => ?_) names (d, [])
  by_cases hblank : Text.isBlankText name
  · simpa [NamePlace.mistake?, hblank] using fail s.1 (.emptyField place)
  · simpa [NamePlace.mistake?, hblank] using refl s.1

/-- The first blank name of a pair is noted. -/
theorem keepPairs (d : QueryDraft) (pairs : List (String × String)) :
    Notes d (pairs.findSome? QueryStep.pairMistake?) (d.keepPairs pairs).1 := by
  refine foldl (fun s pair => ?_) pairs (d, [])
  by_cases hsource : Text.isBlankText pair.1
  · simpa [QueryStep.pairMistake?, NamePlace.mistake?, hsource] using fail s.1 (.emptyField .joinSource)
  by_cases htarget : Text.isBlankText pair.2
  · simpa [QueryStep.pairMistake?, NamePlace.mistake?, hsource, htarget] using fail s.1 (.emptyField .joinTarget)
  · simpa [QueryStep.pairMistake?, NamePlace.mistake?, hsource, htarget] using refl s.1

theorem pushJoin (d : QueryDraft) (kind : JoinKind) (entity : String) (on : List (String × String))
    (select : List String) :
    Notes d (on.findSome? QueryStep.pairMistake?) (d.pushJoin kind entity on select) := by
  rw [QueryDraft.pushJoin]
  exact (keepPairs d on).modify rfl

/-- A mistake in the conditions on elements is noted. -/
theorem pushQuantified (d : QueryDraft) (universal : Bool) (collection : String) (steps : List ConditionStep) :
    Notes d (ConditionStep.firstMistake? steps) (d.pushQuantified universal collection steps) := by
  have herror := ConditionDraft.error_applyAll {} steps
  rw [Option.none_or] at herror
  rw [QueryDraft.pushQuantified, ConditionDraft.finishAsOne, ConditionDraft.finish, herror]
  cases ConditionStep.firstMistake? steps with
  | none =>
    generalize (ConditionDraft.applyAll {} steps).conditions = conditions
    rcases conditions with _ | ⟨c, _ | ⟨c', rest⟩⟩ <;> exact (refl d).modify rfl
  | some e => exact fail d e

end Notes

variable (d : QueryDraft) (slot : MistakeSlot)

/-- A step outside the filters and the conditions on groups notes its mistake. -/
theorem notes_apply {s : QueryStep} (hslot : s.slot = .query) (hentity : s.entityName? = none) :
    Notes d s.mistake? (d.apply s) := by
  cases s <;> simp only [apply, QueryStep.mistake?]
  case filters | having => cases hslot
  case entity => cases hentity
  case maxPageSize n => exact .same rfl rfl rfl rfl
  case cursor | includeCount | cacheTtlSeconds | pageSize | operation | skip | take => exact (Notes.refl d).modify rfl
  case select fields => exact (Notes.keepNames d fields _).modify rfl
  case groupBy fields => exact (Notes.keepNames d fields _).modify rfl
  case orderBy field direction => exact .withName_modify field _ rfl
  case selectMany field => exact .withName_modify field _ rfl
  case quantified universal collection steps => exact .withName (.pushQuantified d universal collection steps)
  case aggregate function field column =>
    cases field with
    | none => exact (Notes.refl d).modify rfl
    | some name => exact .withName_modify name _ rfl
  case join kind entity on select => exact .withName (.pushJoin d kind entity on select)

/-- The mistake in a slot. -/
def remembered? : MistakeSlot → Option BuilderError
  | .query => d.error
  | .filters => d.filters.error
  | .having => d.having.error

/-- **Each step adds its mistake to its slot**, unless there is one already, and leaves the other slots alone. -/
theorem remembered?_apply (s : QueryStep) :
    (d.apply s).remembered? slot = (d.remembered? slot).or (if s.slot = slot then s.mistake? else none) := by
  cases hslot : s.slot with
  | query =>
    cases hentity : s.entityName? with
    | none =>
      have hnotes := notes_apply d hslot hentity
      cases slot <;> simp [remembered?, hnotes.error, hnotes.filters, hnotes.having]
    | some name =>
      cases s <;> cases hentity
      cases slot <;> simp [apply, remembered?, modify, QueryStep.mistake?]
  | filters =>
    cases s <;> cases hslot
    cases slot <;> simp [apply, remembered?, QueryStep.mistake?, ConditionDraft.error_applyAll]
  | having =>
    cases s <;> cases hslot
    cases slot <;> simp [apply, remembered?, QueryStep.mistake?, ConditionDraft.error_applyAll]

/-- Steps add the first mistake to each slot, unless there is one already. -/
theorem remembered?_foldl (steps : List QueryStep) :
    (steps.foldl apply d).remembered? slot = (d.remembered? slot).or (QueryStep.firstMistakeIn? slot steps) := by
  induction steps generalizing d with
  | nil => simp [QueryStep.firstMistakeIn?]
  | cons s rest ih =>
    rw [List.foldl_cons, ih, remembered?_apply, Option.or_assoc, QueryStep.firstMistakeIn?, QueryStep.firstMistakeIn?,
      List.findSome?_cons]
    cases (if s.slot = slot then s.mistake? else none) <;> simp

/-! ## Finishing -/

/-- The mistakes that finishing finds in the slots, in its order. -/
def mistakeFound? : Option BuilderError := MistakeSlot.all.findSome? d.remembered?

/-- A draft with an entity is finished unless there is a mistake in a slot; the first one that is found is reported. -/
theorem finish_of_entity (hentity : Text.isBlankText d.query.entity = false) :
    (∀ e, d.mistakeFound? = some e → d.finish = .error e) ∧ (d.mistakeFound? = none → ∃ q, d.finish = .ok q) := by
  rw [mistakeFound?, MistakeSlot.all, finish, ConditionDraft.finish, ConditionDraft.finish]
  cases hquery : d.error with
  | some e => simp [remembered?, hquery]
  | none =>
    cases hfilters : d.filters.error with
    | some e => simp [remembered?, hquery, hfilters, hentity, bind, Except.bind]
    | none =>
      cases hhaving : d.having.error with
      | some e => simp [remembered?, hquery, hfilters, hhaving, hentity, bind, Except.bind]
      | none =>
        cases d.having.conditions <;>
          simp [remembered?, hquery, hfilters, hhaving, hentity, bind, Except.bind, pure, Except.pure]

/-- A step changes the entity only if it names one. -/
theorem entity_apply (s : QueryStep) : (d.apply s).query.entity = s.entityName?.getD d.query.entity := by
  cases hentity : s.entityName? with
  | some name =>
    cases s <;> cases hentity
    rfl
  | none =>
    cases hslot : s.slot with
    | query => exact (notes_apply d hslot hentity).entity
    | filters | having =>
      cases s <;> cases hslot
      rfl

/-- The entity of a draft after steps is the last one that they name. -/
theorem entity_foldl (steps : List QueryStep) :
    (steps.foldl apply d).query.entity = (steps.filterMap QueryStep.entityName?).getLastD d.query.entity := by
  induction steps generalizing d with
  | nil => rfl
  | cons s rest ih =>
    rw [List.foldl_cons, ih, entity_apply, List.filterMap_cons]
    cases s.entityName? with
    | none => rfl
    | some name => rw [List.getLastD_cons, Option.getD_some]

end QueryDraft

/-! ## What is reported -/

namespace Query

open QueryStep (firstMistakeIn? overriding? entityGiven)

variable {steps before after : List QueryStep} {s : QueryStep} {e : BuilderError}

/-- What finishing finds after steps. -/
theorem mistakeFound?_foldl (steps : List QueryStep) :
    (steps.foldl QueryDraft.apply {}).mistakeFound? = MistakeSlot.all.findSome? (firstMistakeIn? · steps) := by
  rw [QueryDraft.mistakeFound?]
  congr 1
  funext slot
  rw [QueryDraft.remembered?_foldl]
  cases slot <;> rfl

/-- Nothing is found if and only if no step is mistaken. -/
theorem mistakeFound?_eq_none_iff :
    MistakeSlot.all.findSome? (firstMistakeIn? · steps) = none ↔ ∀ s ∈ steps, s.mistake? = none := by
  simp only [firstMistakeIn?, List.findSome?_eq_none_iff]
  constructor
  · intro h s hs
    have hslot : s.slot ∈ MistakeSlot.all := by cases s.slot <;> decide
    simpa using h s.slot hslot s hs
  · intro h slot _ s hs
    rw [h s hs, ite_self]

/-- Steps without mistakes do not count. -/
theorem firstMistakeIn?_append (hbefore : ∀ t ∈ before, t.mistake? = none) (slot : MistakeSlot)
    (rest : List QueryStep) : firstMistakeIn? slot (before ++ rest) = firstMistakeIn? slot rest := by
  have hnone : firstMistakeIn? slot before = none := by
    rw [firstMistakeIn?, List.findSome?_eq_none_iff]
    intro t ht
    rw [hbefore t ht, ite_self]
  rw [firstMistakeIn?] at hnone
  rw [firstMistakeIn?, List.findSome?_append, hnone, Option.none_or, firstMistakeIn?]

/-- The first mistake is found, unless a later step makes one in a slot that is looked at before. -/
theorem mistakeFound?_of_first (hbefore : ∀ t ∈ before, t.mistake? = none) (hs : s.mistake? = some e)
    (after : List QueryStep) :
    MistakeSlot.all.findSome? (firstMistakeIn? · (before ++ s :: after)) =
      some ((overriding? s.slot after).getD e) := by
  have hown : firstMistakeIn? s.slot (before ++ s :: after) = some e := by
    rw [firstMistakeIn?_append hbefore, firstMistakeIn?, List.findSome?_cons, if_pos rfl, hs]
  have hother : ∀ slot, slot ≠ s.slot → firstMistakeIn? slot (before ++ s :: after) = firstMistakeIn? slot after := by
    intro slot hslot
    rw [firstMistakeIn?_append hbefore, firstMistakeIn?, List.findSome?_cons, if_neg hslot.symm, firstMistakeIn?]
  -- The slots that are looked at before the slot of the mistake, and those from it on.
  obtain ⟨rest, hall⟩ : ∃ rest, MistakeSlot.all = MistakeSlot.all.takeWhile (· ≠ s.slot) ++ s.slot :: rest := by
    cases s.slot <;> exact ⟨_, rfl⟩
  have hearlier : (MistakeSlot.all.takeWhile (· ≠ s.slot)).findSome? (firstMistakeIn? · (before ++ s :: after)) =
      overriding? s.slot after := by
    rw [overriding?, ← List.head?_filterMap, ← List.head?_filterMap]
    refine congrArg List.head? (List.filterMap_congr fun slot hslot => hother slot ?_)
    simpa using List.mem_takeWhile_imp hslot
  rw [hall, List.findSome?_append, hearlier, List.findSome?_cons, hown]
  cases overriding? s.slot after <;> rfl

/-- **The first mistake is reported, unless a later step overrides it.** If the steps name an entity, they make a query
if and only if none of them is mistaken. The mistake of the first mistaken step is reported, unless a later step makes a
mistake in a slot that is looked at before: then the first such mistake is reported. -/
theorem first_mistake_reported_unless_overridden (hnamed : Text.isBlankText (entityGiven steps) = false) :
    ((∃ q, build steps = .ok q) ↔ ∀ s ∈ steps, s.mistake? = none) ∧
      ∀ before s after e, steps = before ++ s :: after → (∀ t ∈ before, t.mistake? = none) → s.mistake? = some e →
        build steps = .error ((overriding? s.slot after).getD e) ∧
          (build steps = .error e ↔ ∀ e', overriding? s.slot after = some e' → e' = e) := by
  have hentity : Text.isBlankText (steps.foldl QueryDraft.apply {}).query.entity = false := by
    rw [QueryDraft.entity_foldl]
    exact hnamed
  obtain ⟨hreported, hfinished⟩ := QueryDraft.finish_of_entity _ hentity
  rw [mistakeFound?_foldl] at hreported hfinished
  refine ⟨⟨?_, fun hnone => hfinished (mistakeFound?_eq_none_iff.mpr hnone)⟩, ?_⟩
  · rintro ⟨q, hq⟩
    rw [← mistakeFound?_eq_none_iff, Option.eq_none_iff_forall_ne_some]
    intro e he
    exact nomatch hq.symm.trans (hreported e he)
  · rintro before s after e rfl hbefore hs
    have hfirst := hreported _ (mistakeFound?_of_first hbefore hs after)
    refine ⟨hfirst, ?_⟩
    rw [build, hfirst]
    cases overriding? s.slot after <;> simp

/-- Users whose name has a filter without a field, before they are sorted by a field without a name. -/
def namelessUserSteps : List QueryStep :=
  [.entity "User", .filters [.test "" .eq (some (.string "x"))], .orderBy "" .asc]

/-- The first mistake is in the filter, and the one in the sort key is reported. -/
theorem first_mistake_reported_unless_overridden_user :
    namelessUserSteps.findSome? QueryStep.mistake? = some (.emptyField .filter) ∧
      build namelessUserSteps = .error (.emptyField .sort) := by
  have hnamed : Text.isBlankText (entityGiven namelessUserSteps) = false := by decide +kernel
  obtain ⟨_, hreported⟩ := first_mistake_reported_unless_overridden hnamed
  obtain ⟨hfirst, _⟩ := hreported [.entity "User"] (.filters [.test "" .eq (some (.string "x"))]) [.orderBy "" .asc]
    (.emptyField .filter) rfl (by simp [QueryStep.mistake?]) (by decide +kernel)
  refine ⟨by decide +kernel, hfirst.trans ?_⟩
  decide +kernel

end Query

end GuardedQuery
