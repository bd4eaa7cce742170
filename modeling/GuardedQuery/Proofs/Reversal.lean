import GuardedQuery.Proofs.PageBounds
import GuardedQuery.Proofs.StableSorting

/-!
# Reversed answers

A reversal does two things. It turns round the rows that are about to be sorted, and it turns round every key that
they are sorted by. Sorting is stable, so both together turn round the sorted rows, also where the keys leave rows
tied. If all rows fit on one page, the items of the answer come in the opposite order. A second reversal undoes the
first one, whatever the query.

## Main definitions

* `Query.gather`, `Query.present`: what a query does before it sorts, and from then on.
* `Query.followedBy`: a query with one more operation.
* `Query.Mirrors`: ungrouped queries that begin at the first page and work on records only.
* `Query.KeysOrder`: the sort keys of a query order the rows that it gathers.

## Main statements

* `Query.arrange_followedBy`: a reversal turns the sorted rows round.
* `Query.present_followedBy`: a reversal turns the items round if they are all on one page.
* `Engine.reversals_mirror`: a reversal turns the answer round, and one more turns it back.
-/

namespace GuardedQuery

open SortKey (compareRecords Orders)

/-! ## One more operation -/

namespace Operation

variable {schema : EntitySchema} {maxTake : ℕ} {os : List Operation} {o : Operation}

theorem onAllRecords_concat (rows : List Record) :
    onAllRecords schema maxTake (os ++ [o]) rows =
      onAllRecords schema maxTake os rows >>= o.onRecords schema maxTake := by
  induction os generalizing rows with
  | nil =>
    change o.onRecords schema maxTake rows >>= pure = o.onRecords schema maxTake rows
    exact bind_pure _
  | cons first rest ih =>
    rw [List.cons_append, onAllRecords, onAllRecords, bind_assoc]
    simp only [ih]

/-- A reversal is the last operation on records. -/
theorem onAllRecords_reverse (ho : OperationKind.parse? o.kind = some .reverse) (rows : List Record) :
    onAllRecords schema maxTake (os ++ [o]) rows = (onAllRecords schema maxTake os rows).map List.reverse := by
  have hreverse : ∀ rows, o.onRecords schema maxTake rows = .ok rows.reverse := by
    intro rows
    rw [onRecords, kindOf_eq_ok_iff.mpr ho]
    rfl
  rw [onAllRecords_concat]
  cases onAllRecords schema maxTake os rows with
  | error e => rfl
  | ok worked => exact hreverse worked

/-- A reversal turns the final order round once more. -/
theorem reverses_reverse (ho : OperationKind.parse? o.kind = some .reverse) :
    reverses (os ++ [o]) = (reverses os).map not := by
  induction os with
  | nil =>
    simp only [List.nil_append, reverses, kindOf_eq_ok_iff.mpr ho]
    rfl
  | cons first rest ih =>
    rw [List.cons_append, reverses, reverses, ih]
    cases first.kindOf with
    | error e => rfl
    | ok kind =>
      cases reverses rest with
      | error e => rfl
      | ok later => simp [bind, Except.bind, pure, Except.pure, Except.map]

/-- A reversal does not change finished rows. -/
theorem onAllRows_reverse {α : Type} {shape : α → Record} (ho : OperationKind.parse? o.kind = some .reverse)
    (rows : List α) : onAllRows shape (os ++ [o]) rows = onAllRows shape os rows := by
  induction os generalizing rows with
  | nil =>
    simp only [List.nil_append, onAllRows, onRows, kindOf_eq_ok_iff.mpr ho]
    rfl
  | cons first rest ih =>
    rw [List.cons_append, onAllRows, onAllRows]
    simp only [ih]

/-- Operations on records do not change finished rows. -/
theorem onAllRows_eq_ok {α : Type} {shape : α → Record}
    (hos : ∀ o ∈ os, ∀ kind, OperationKind.parse? o.kind = some kind → kind.isPostProjection = false)
    {rows finished : List α} (h : onAllRows shape os rows = .ok finished) (others : List α) :
    onAllRows shape os others = .ok others := by
  induction os generalizing rows others with
  | nil => rfl
  | cons o rest ih =>
    obtain ⟨hfirst, hrest⟩ := List.forall_mem_cons.mp hos
    obtain ⟨between, hbetween, hlast⟩ := Outcome.bind_eq_ok_iff.mp h
    obtain ⟨kind, hkind, -⟩ := Outcome.bind_eq_ok_iff.mp hbetween
    have hkept : o.onRows shape others = .ok others := by
      have hpre := hfirst kind (kindOf_eq_ok_iff.mp hkind)
      simp only [onRows, hkind]
      cases kind with
      | selectMany | skip | take | any | all | reverse => rfl
      | distinct | first | firstOrDefault | single | singleOrDefault => cases hpre
    exact Outcome.bind_eq_ok_iff.mpr ⟨others, hkept, ih hrest hlast others⟩

end Operation

/-! ## Pages of all rows -/

namespace Page

variable {α : Type} {keys : List SortKey} {size : ℕ} {record : α → Record} {rows : List α}

/-- Rows that fit on one page are all on it. -/
theorem ofRows_of_le (h : rows.length ≤ size) : ofRows keys size record rows = { rows, next := none } := by
  have hrows := rows_ofRows keys size record rows
  have hnext := next_ofRows keys size record rows
  rw [List.take_of_length_le h] at hrows
  rw [if_neg (Nat.not_lt.mpr h)] at hnext
  exact congrArg₂ Page.mk hrows hnext

/-- A page without a cursor to a next one has all rows. -/
theorem length_le_of_next (hsize : 0 < size) (h : (ofRows keys size record rows).next = none) : rows.length ≤ size := by
  by_contra hlong
  rw [next_ofRows, if_pos (Nat.lt_of_not_le hlong), Option.map_eq_none_iff, List.getLast?_eq_none_iff,
    List.take_eq_nil_iff] at h
  rcases h with hzero | rfl
  · omega
  · simp at hlong

/-- Without a cursor, the page of a request is that of the first rows. -/
theorem ofRequest_of_blank {cursor : Option String} (h : ∀ text, cursor = some text → Text.isBlankText text = true) :
    ofRequest keys size cursor record rows = (ofRows keys size record rows, none) := by
  have hresume : resume keys cursor = .ok none := by
    cases cursor with
    | none => rfl
    | some text => rw [resume, if_pos (h text rfl)]
  have hall : slice keys size none record rows = ofRows keys size record rows := by
    simp [slice, isAfter]
  rw [ofRequest, hresume]
  exact congrArg (·, none) hall

end Page

/-- Without a cursor, a run cuts out the page of the first rows. -/
theorem Run.page_of_blank {α : Type} {cursor : Option String}
    (h : ∀ text, cursor = some text → Text.isBlankText text = true) (entity : String) (keys : List SortKey) (size : ℕ)
    (record : α → Record) (rows : List α) :
    page entity keys size cursor record rows = pure (Page.ofRows keys size record rows) := by
  rw [page, Page.ofRequest_of_blank h]

/-- Reading elements from the other end gives the results from the other end. -/
theorem Outcome.mapM_reverse {ε α β : Type} {f : α → Except ε β} {l : List α} {bs : List β} (h : l.mapM f = .ok bs) :
    l.reverse.mapM f = .ok bs.reverse := by
  rw [mapM_eq_ok_iff] at h ⊢
  exact List.rel_reverse h

/-! ## Gathering and presenting rows -/

theorem Step.ofExcept_map {σ ε α β : Type} (outcome : Except ε α) (f : α → β) :
    (ofExcept (outcome.map f) : Step σ ε β) = ofExcept outcome >>= fun a => pure (f a) := by
  cases outcome <;> rfl

namespace Query

section Answer

variable {σ α : Type} [Storage σ] (q : Query) (policy : Policy) (store : σ) (registry : Registry) (target : Target α)
  {o : Operation}

/-- The query with one more operation. -/
def followedBy (o : Operation) : Query := { q with operations := q.operations ++ [o] }

@[simp] theorem page_followedBy : (q.followedBy o).page = q.page := rfl

/-- A reversal turns the gathered rows round. -/
theorem gather_followedBy (ho : OperationKind.parse? o.kind = some .reverse) (label : String) :
    (q.followedBy o).gather policy store registry label =
      q.gather policy store registry label >>= fun g => pure { g with rows := g.rows.reverse } := by
  have hbinding : ∀ schema, (q.followedBy o).bindingFor registry label schema = q.bindingFor registry label schema :=
    fun _ => rfl
  simp only [gather, hbinding, bind_assoc, pure_bind]
  simp only [followedBy, Operation.onAllRecords_reverse ho, Step.ofExcept_map, bind_assoc, pure_bind]

/-- Two reversals gather the same rows. -/
theorem gather_followedBy_followedBy {o' : Operation} (ho : OperationKind.parse? o.kind = some .reverse)
    (ho' : OperationKind.parse? o'.kind = some .reverse) (label : String) :
    ((q.followedBy o).followedBy o').gather policy store registry label = q.gather policy store registry label := by
  rw [gather_followedBy _ _ _ _ ho', gather_followedBy _ _ _ _ ho, bind_assoc]
  simp only [pure_bind, List.reverse_reverse]
  exact bind_pure _

/-- Two reversals present the same rows. -/
theorem present_followedBy_followedBy {o' : Operation} (ho : OperationKind.parse? o.kind = some .reverse)
    (ho' : OperationKind.parse? o'.kind = some .reverse) (g : Gathered) :
    ((q.followedBy o).followedBy o').present policy store target g = q.present policy store target g := by
  have hreverses : Operation.reverses ((q.followedBy o).followedBy o').operations =
      Operation.reverses q.operations := by
    simp only [followedBy, Operation.reverses_reverse ho', Operation.reverses_reverse ho]
    cases Operation.reverses q.operations with
    | error e => rfl
    | ok reversed => simp [Except.map]
  have hrows : ∀ rows : List ShapedRow, Operation.onAllRows ShapedRow.shaped ((q.followedBy o).followedBy o').operations
      rows = Operation.onAllRows ShapedRow.shaped q.operations rows := by
    intro rows
    simp only [followedBy, Operation.onAllRows_reverse ho', Operation.onAllRows_reverse ho]
  have harrange : ((q.followedBy o).followedBy o').arrange (Storage.schema? store) g.schema g.binding g.rows =
      q.arrange (Storage.schema? store) g.schema g.binding g.rows := by
    rw [arrange, arrange, sorting, sorting, hreverses]
    rfl
  simp only [present, harrange, hrows]
  rfl

/-! ### One reversal -/

variable {q policy store target} {lookUp : String → Option EntitySchema} {schema : EntitySchema} {b : Binding}
  {rows : List Record} {shaped : List ShapedRow} {keys : List SortKey} {g : Gathered} {r : Response α} {p p' : Progress}

theorem orient_not (reversed : Bool) (keys : List SortKey) :
    orient (!reversed) keys = (orient reversed keys).map SortKey.reversed := by
  cases reversed with
  | false => rfl
  | true => simp [orient, Function.comp_def, SortKey.reversed_reversed]

theorem orders_orient {S : Record → Prop} (h : Orders keys S) (reversed : Bool) : Orders (orient reversed keys) S := by
  cases reversed with
  | false => exact h
  | true => exact h.map_reversed

/-- What a query that sorts its rows has come to. -/
theorem arrange_eq_ok_iff {lookUp : String → Option EntitySchema} {binding : Option Binding} :
    q.arrange lookUp schema binding rows p = (.ok (shaped, keys), p') ↔
      ∃ unsorted sorted, q.sorting lookUp schema binding rows = .ok (unsorted, keys) ∧
        SortKey.sort? keys unsorted = some sorted ∧ shaped = sorted.map (ShapedRow.ofRecord binding) ∧ p = p' := by
  rw [arrange, Step.ofExcept_bind_eq_ok_iff]
  constructor
  · rintro ⟨⟨unsorted, keys⟩, hsorting, h⟩
    obtain ⟨sorted, between, hrun, h⟩ := Step.bind_eq_ok_iff.mp h
    obtain ⟨hsort, rfl⟩ := Run.sort_eq_ok_iff.mp hrun
    obtain ⟨hpair, rfl⟩ := Prod.mk.inj h
    obtain ⟨rfl, rfl⟩ := Prod.mk.inj (Except.ok.inj hpair)
    exact ⟨unsorted, sorted, hsorting, hsort, rfl, rfl⟩
  · rintro ⟨unsorted, sorted, hsorting, hsort, rfl, rfl⟩
    exact ⟨(unsorted, keys), hsorting, Step.bind_eq_ok_iff.mpr ⟨sorted, p, Run.sort_eq_ok_iff.mpr ⟨hsort, rfl⟩, rfl⟩⟩

/-- **A reversal turns the sorted rows round**, if the keys order them. -/
theorem arrange_followedBy (ho : OperationKind.parse? o.kind = some .reverse)
    (horders : ∀ keys, q.recordKeys lookUp schema b = .ok keys → Orders keys (· ∈ rows))
    (h : q.arrange lookUp schema (some b) rows p = (.ok (shaped, keys), p')) :
    (q.followedBy o).arrange lookUp schema (some b) rows.reverse p =
      (.ok (shaped.reverse, keys.map SortKey.reversed), p') := by
  obtain ⟨unsorted, sorted, hsorting, hsort, rfl, rfl⟩ := arrange_eq_ok_iff.mp h
  obtain ⟨reversed, hreversed, hsorting⟩ := Outcome.bind_eq_ok_iff.mp hsorting
  obtain ⟨requested, hrequested, hpair⟩ := Outcome.bind_eq_ok_iff.mp hsorting
  obtain ⟨rfl, rfl⟩ := Prod.mk.inj (Except.ok.inj hpair)
  have hturned : Operation.reverses (q.followedBy o).operations = .ok (!reversed) := by
    rw [followedBy, Operation.reverses_reverse ho, hreversed]
    rfl
  have hkeys : (q.followedBy o).recordKeys lookUp schema b = .ok requested := hrequested
  have hsorting' : (q.followedBy o).sorting lookUp schema (some b) rows.reverse =
      .ok (rows.reverse, (orient reversed requested).map SortKey.reversed) := by
    refine Outcome.bind_eq_ok_iff.mpr ⟨!reversed, hturned, ?_⟩
    refine Outcome.bind_eq_ok_iff.mpr ⟨requested, hkeys, ?_⟩
    rw [orient_not]
    rfl
  have hordered := orders_orient (horders requested hrequested) reversed
  have hordered' : Orders ((orient reversed requested).map SortKey.reversed) (· ∈ rows.reverse) := by
    simpa only [List.mem_reverse] using hordered.map_reversed
  have hsort' := SortKey.sort?_eq_some hordered'
  rw [SortKey.sort_reverse hordered, SortKey.sort_of_sort? hsort] at hsort'
  exact arrange_eq_ok_iff.mpr ⟨_, _, hsorting', hsort', by rw [List.map_reverse], rfl⟩

/-- **A reversal turns the items round** if they are all on one page. -/
theorem present_followedBy (ho : OperationKind.parse? o.kind = some .reverse) (hbinding : g.binding = some b)
    (hcursor : ∀ text, q.page.bind PageRequest.cursor = some text → Text.isBlankText text = true)
    (hplain : ∀ o ∈ q.operations, ∀ kind, OperationKind.parse? o.kind = some kind → kind.isPostProjection = false)
    (horders : ∀ keys, q.recordKeys (Storage.schema? store) g.schema b = .ok keys → Orders keys (· ∈ g.rows))
    (h : q.present policy store target g p = (.ok r, p')) (hone : r.nextCursor = none) :
    (q.followedBy o).present policy store target { g with rows := g.rows.reverse } p =
      (.ok { r with items := r.items.reverse }, p') := by
  obtain ⟨⟨shaped, keys⟩, p₀, harrange, h⟩ := Step.bind_eq_ok_iff.mp h
  obtain ⟨rows, hrows, h⟩ := Step.ofExcept_bind_eq_ok_iff.mp h
  simp only [Run.page_of_blank hcursor, pure_bind] at h
  obtain ⟨total, p₁, htotal, h⟩ := Step.bind_eq_ok_iff.mp h
  obtain ⟨items, hitems, h⟩ := Step.ofExcept_bind_eq_ok_iff.mp h
  obtain ⟨hresponse, rfl⟩ := Prod.mk.inj h
  obtain rfl := Except.ok.inj hresponse
  have hkept := Operation.onAllRows_eq_ok hplain hrows
  obtain rfl : shaped = rows := Except.ok.inj ((hkept shaped).symm.trans hrows)
  have hle := Page.length_le_of_next (policy.effectivePageSize_pos _) hone
  rw [Page.ofRows_of_le hle] at hitems
  -- The rows are turned round, and they are still all on one page.
  have hle' : shaped.reverse.length ≤ policy.effectivePageSize (q.page.bind PageRequest.size) := by
    rwa [List.length_reverse]
  have harrange' : (q.followedBy o).arrange (Storage.schema? store) g.schema g.binding g.rows.reverse p =
      (.ok (shaped.reverse, keys.map SortKey.reversed), p₀) := by
    rw [hbinding] at harrange ⊢
    exact arrange_followedBy ho horders harrange
  have hrows' : Operation.onAllRows ShapedRow.shaped (q.followedBy o).operations shaped.reverse =
      .ok shaped.reverse := by
    rw [followedBy, Operation.onAllRows_reverse ho, hkept]
  refine Step.bind_eq_ok_iff.mpr ⟨_, p₀, harrange', ?_⟩
  refine Step.ofExcept_bind_eq_ok_iff.mpr ⟨_, hrows', ?_⟩
  simp only [page_followedBy, Run.page_of_blank hcursor, Page.ofRows_of_le hle', Page.ofRows_of_le hle, pure_bind]
  refine Step.bind_eq_ok_iff.mpr ⟨total, p₁, htotal, ?_⟩
  exact Step.ofExcept_bind_eq_ok_iff.mpr ⟨items.reverse, Outcome.mapM_reverse hitems, rfl⟩

end Answer

end Query

namespace Policy

/-- A reversal violates nothing. -/
theorem violations_followedBy (p : Policy) (q : Query) {o : Operation}
    (ho : OperationKind.parse? o.kind = some .reverse) : p.violations (q.followedBy o) = p.violations q := by
  have hone : ∀ e, EntityPolicy.operationViolations p e o = [] := by
    intro e
    rw [EntityPolicy.operationViolations, ho]
  have hentity : ∀ e, EntityPolicy.violations p e (q.followedBy o) = EntityPolicy.violations p e q := by
    intro e
    have hall : (q.followedBy o).operations.flatMap (EntityPolicy.operationViolations p e) =
        q.operations.flatMap (EntityPolicy.operationViolations p e) := by
      rw [Query.followedBy, List.flatMap_append, List.flatMap_singleton, hone, List.append_nil]
    rw [EntityPolicy.violations, hall]
    rfl
  have hpage : p.pageViolations (q.followedBy o) = p.pageViolations q := rfl
  simp only [violations, hentity, hpage]
  rfl

end Policy

/-! ## Reversed queries -/

namespace Query

/-- An ungrouped query that begins at the first page and works on records only. -/
structure Mirrors (q : Query) : Prop where
  /-- The query is not grouped. -/
  ungrouped : q.isGrouped = false
  /-- There is no cursor. -/
  fromStart : ∀ text, q.page.bind PageRequest.cursor = some text → Text.isBlankText text = true
  /-- No operation works on finished rows. -/
  onRecords : ∀ o ∈ q.operations, ∀ kind, OperationKind.parse? o.kind = some kind → kind.isPostProjection = false

section KeysOrder

variable {σ : Type} [Storage σ]

/-- The sort keys of a query order the rows that it gathers. -/
def KeysOrder (q : Query) (policy : Policy) (store : σ) (registry : Registry) (label : String) (cancelled : Bool) :
    Prop :=
  ∀ (g : Gathered) (b : Binding) (keys : List SortKey),
    (q.gather policy store registry label { cancelled }).1 = .ok g → g.binding = some b →
    q.recordKeys (Storage.schema? store) g.schema b = .ok keys → Orders keys (· ∈ g.rows)

/-- What an ungrouped query gathers has a binding. -/
theorem exists_binding {q : Query} {policy : Policy} {store : σ} {registry : Registry} {label : String}
    {g : Gathered} {p p' : Progress} (hungrouped : q.isGrouped = false)
    (h : q.gather policy store registry label p = (.ok g, p')) : ∃ b, g.binding = some b := by
  obtain ⟨schema, -, h⟩ := Step.require_bind_eq_ok_iff.mp h
  obtain ⟨binding, hbinding, h⟩ := Step.ofExcept_bind_eq_ok_iff.mp h
  obtain ⟨predicate, -, h⟩ := Step.ofExcept_bind_eq_ok_iff.mp h
  obtain ⟨found, _, -, h⟩ := Step.bind_eq_ok_iff.mp h
  obtain ⟨joined, _, -, h⟩ := Step.bind_eq_ok_iff.mp h
  obtain ⟨rows, -, h⟩ := Step.ofExcept_bind_eq_ok_iff.mp h
  obtain ⟨_, _, -, h⟩ := Step.bind_eq_ok_iff.mp h
  obtain rfl := Except.ok.inj (Prod.mk.inj h).1
  obtain ⟨b, hb, _⟩ := exists_of_bindingFor hungrouped hbinding
  exact ⟨b, hb⟩

/-- All keys order rows of exact values. -/
theorem keysOrder_of_exact {q : Query} {policy : Policy} {store : σ} {registry : Registry} {label : String}
    {cancelled : Bool} {rows : List Record}
    (hrows : (q.gather policy store registry label { cancelled }).1.map Gathered.rows = .ok rows)
    (hexact : ∀ r ∈ rows, ∀ m ∈ r, m.2.Exact) : q.KeysOrder policy store registry label cancelled := by
  intro g b keys hgathered _ _
  rw [hgathered] at hrows
  obtain rfl := Except.ok.inj hrows
  refine SortKey.orders_exact ?_
  intro r hr k _
  cases hget : Dict.get? r k.field with
  | some v =>
    rw [Record.value_of_get? hget]
    exact hexact r hr _ (Dict.mem_of_get? hget)
  | none =>
    rw [Record.value_of_get?_eq_none hget]
    trivial

end KeysOrder

end Query

namespace Engine

variable {σ α : Type} [Storage σ] {e : Engine σ} {target : Target α} {q : Query} {cancelled : Bool} {c : Circumstances}
  {r : Response α} {o o' : Operation}

/-- A response is that of a run whose store did not break down. -/
theorem execute_eq_ok_iff_answer : (e.execute target q cancelled c).1 = .ok r ↔ e.policy.accepts q = true ∧
    ∃ p, q.answer e.policy e.store e.registry target { cancelled } = (.ok r, p) ∧ p.conduct ≠ .broken := by
  cases haccepts : e.policy.accepts q with
  | false => simp [execute_of_not_accepts haccepts]
  | true =>
    obtain ⟨noted, hnoted, hpolicy, hstore, hregistry⟩ := accept_of_accepts haccepts c.stamp
    simp only [execute, hnoted, run, hpolicy, hstore, hregistry]
    obtain ⟨outcome, p⟩ := q.answer e.policy e.store e.registry target { cancelled }
    cases hconduct : p.conduct <;> cases outcome <;> simp [finish, conclude, hconduct]

/-- A query with two more reversals is treated like the query. -/
theorem execute_followedBy_followedBy (ho : OperationKind.parse? o.kind = some .reverse)
    (ho' : OperationKind.parse? o'.kind = some .reverse) :
    e.execute target ((q.followedBy o).followedBy o') cancelled c = e.execute target q cancelled c := by
  have haccept : e.accept ((q.followedBy o).followedBy o') c.stamp = e.accept q c.stamp := by
    have hviolations : ∀ p : Policy, p.violations ((q.followedBy o).followedBy o') = p.violations q := fun p => by
      rw [p.violations_followedBy _ ho', p.violations_followedBy _ ho]
    simp only [accept, hviolations]
    rfl
  have hrun : ∀ noted : Engine σ,
      noted.run target ((q.followedBy o).followedBy o') cancelled = noted.run target q cancelled := by
    intro noted
    have hpresent : ((q.followedBy o).followedBy o').present noted.policy noted.store target =
        q.present noted.policy noted.store target :=
      funext fun g => q.present_followedBy_followedBy noted.policy noted.store target ho ho' g
    rw [run, run, Query.answer_eq_present, Query.answer_eq_present, hpresent,
      q.gather_followedBy_followedBy _ _ _ ho ho']
  have hfinish : ∀ (noted : Engine σ) (outcome : Except QueryError (Response α)) (p : Progress),
      noted.finish ((q.followedBy o).followedBy o') outcome p c = noted.finish q outcome p c := fun _ _ _ => rfl
  simp only [execute, haccept, hrun, hfinish]

/-- **A reversal turns the answer round**, and one more reversal turns it back. -/
theorem reversals_mirror (ho : OperationKind.parse? o.kind = some .reverse)
    (ho' : OperationKind.parse? o'.kind = some .reverse) :
    (q.Mirrors → q.KeysOrder e.policy e.store e.registry target.label cancelled →
      ∀ r, (e.execute target q cancelled c).1 = .ok r → r.nextCursor = none →
        (e.execute target (q.followedBy o) cancelled c).1 = .ok { r with items := r.items.reverse }) ∧
      e.execute target ((q.followedBy o).followedBy o') cancelled c = e.execute target q cancelled c := by
  refine ⟨?_, execute_followedBy_followedBy ho ho'⟩
  intro hmirrors horders r hresponse hone
  obtain ⟨haccepts, p, hanswer, hconduct⟩ := execute_eq_ok_iff_answer.mp hresponse
  rw [Query.answer_eq_present] at hanswer
  obtain ⟨g, p₁, hgathered, hpresented⟩ := Step.bind_eq_ok_iff.mp hanswer
  obtain ⟨b, hbinding⟩ := Query.exists_binding hmirrors.ungrouped hgathered
  have hkeys : ∀ keys, q.recordKeys (Storage.schema? e.store) g.schema b = .ok keys → Orders keys (· ∈ g.rows) :=
    fun keys => horders g b keys (congrArg Prod.fst hgathered) hbinding
  refine execute_eq_ok_iff_answer.mpr ⟨?_, p, ?_, hconduct⟩
  · rwa [Policy.accepts, Policy.violations_followedBy _ _ ho]
  · rw [Query.answer_eq_present, Query.gather_followedBy _ _ _ _ ho, bind_assoc]
    refine Step.bind_eq_ok_iff.mpr ⟨g, p₁, hgathered, ?_⟩
    rw [pure_bind]
    exact Query.present_followedBy ho hbinding hmirrors.fromStart hmirrors.onRecords hkeys hpresented hone

/-- A reversal, as a client asks for it. -/
def reversal : Operation where
  kind := "Reverse"

/-- The two labels of a note tie, and a reversal shows the last one first. -/
theorem reversals_mirror_note :
    OperationKind.parse? reversal.kind = some .reverse ∧ labelQuery.Mirrors ∧
      labelQuery.KeysOrder noteEngine.policy noteEngine.store noteEngine.registry Target.value.label false ∧
      ∃ r, (noteEngine.execute Target.value labelQuery false {}).1 = .ok r ∧ r.nextCursor = none ∧
        r.items =
          [.object [("Id", .int 1), ("Labels", .string "a")], .object [("Id", .int 1), ("Labels", .string "b")]] ∧
        (noteEngine.execute Target.value (labelQuery.followedBy reversal) false {}).1 =
          .ok { r with items := r.items.reverse } := by
  have hreverse : OperationKind.parse? reversal.kind = some .reverse := by decide +kernel
  have hmirrors : labelQuery.Mirrors := by
    refine ⟨rfl, fun text h => by simp [labelQuery] at h, ?_⟩
    intro o ho kind hkind
    have hunwinds : OperationKind.parse? "SelectMany" = some .selectMany := by decide +kernel
    obtain rfl := List.mem_singleton.mp ho
    obtain rfl := Option.some.inj (hunwinds.symm.trans hkind)
    rfl
  have hrows : (labelQuery.gather noteEngine.policy noteEngine.store noteEngine.registry Target.value.label
      { cancelled := false }).1.map Gathered.rows =
        .ok [[("Id", .int 1), ("Labels", .string "a")], [("Id", .int 1), ("Labels", .string "b")]] := by
    decide +kernel
  have horders := Query.keysOrder_of_exact hrows (by simp [-Prod.forall, Value.Exact, int64Max])
  have hresponse : (noteEngine.execute Target.value labelQuery false {}).1 = .ok
      { items := [.object [("Id", .int 1), ("Labels", .string "a")], .object [("Id", .int 1), ("Labels", .string "b")]]
        size := 20, nextCursor := none, totalCount := none, rowsExamined := 1 } :=
    execute_eq_ok_iff.mpr ⟨by decide +kernel, by decide +kernel⟩
  have hmirrored := (reversals_mirror hreverse hreverse).1 hmirrors horders _ hresponse rfl
  exact ⟨hreverse, hmirrors, horders, _, hresponse, rfl, rfl, hmirrored⟩

end Engine

end GuardedQuery
