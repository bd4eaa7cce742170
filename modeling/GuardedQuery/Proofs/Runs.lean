import GuardedQuery.Execution.Answer
import GuardedQuery.Proofs.Outcome
import GuardedQuery.Proofs.Trail

/-!
# What runs keep and come to

Whatever a store replies, and wherever on the way the query is cancelled: a run keeps what its reads and its
incidents keep, and a response that it comes to is a page. A page holds no more rows than its size, and it is full
if it has a cursor, however many rows there are to cut it out of and whatever the text of the request's cursor.

## Main definitions

* `Step.Meets`, `Step.Keeps`: steps that keep a property of states, and may have results with a property.
* `Run.Steady`: what the reads of a store and all incidents keep.
* `Page.Fits`, `Response.Fits`: pages and responses of a size.
* `Query.gather`, `Query.present`: the two parts of an answer, before the sort and from the sort on.

## Main statements

* `Query.meets_answer`: a run keeps what reads, incidents and sorts keep, and its response is a page of the size that
  the policy gives.
-/

namespace GuardedQuery

namespace Step

variable {σ ε α β : Type} {I : σ → Prop} {P : α → Prop} {Q : β → Prop}

theorem bind_pure_eq (r : Step σ ε α) : r >>= pure = r := by
  funext s
  rw [bind_apply]
  rcases r s with ⟨_ | _, _⟩ <;> rfl

theorem bind_bind {γ : Type} (r : Step σ ε α) (f : α → Step σ ε β) (g : β → Step σ ε γ) :
    r >>= f >>= g = r >>= fun a => f a >>= g := by
  funext s
  simp only [bind_apply]
  rcases r s with ⟨_ | _, _⟩ <;> rfl

/-- Sequences of steps do not depend on how they are put together. -/
instance : LawfulMonad (Step σ ε) := LawfulMonad.mk' _ bind_pure_eq (fun _ _ => rfl) bind_bind

/-- A sequence of steps succeeds if its parts do. -/
theorem bind_eq_ok_iff {r : Step σ ε α} {f : α → Step σ ε β} {s t : σ} {b : β} :
    (r >>= f) s = (.ok b, t) ↔ ∃ a u, r s = (.ok a, u) ∧ f a u = (.ok b, t) := by
  rw [bind_apply]
  cases hrun : r s with
  | mk outcome u => cases outcome <;> simp

theorem ofExcept_bind_eq_ok_iff {outcome : Except ε α} {f : α → Step σ ε β} {s t : σ} {b : β} :
    (ofExcept outcome >>= f) s = (.ok b, t) ↔ ∃ a, outcome = .ok a ∧ f a s = (.ok b, t) := by
  rw [bind_apply]
  cases outcome <;> simp

theorem require_bind_eq_ok_iff {e : ε} {found : Option α} {f : α → Step σ ε β} {s t : σ} {b : β} :
    (require e found >>= f) s = (.ok b, t) ↔ ∃ a, found = some a ∧ f a s = (.ok b, t) := by
  rw [bind_apply]
  cases found <;> simp [require, fail]

/-- The step keeps a property of states, whether it succeeds or fails, and its results have a property. -/
def Meets (I : σ → Prop) (P : α → Prop) (r : Step σ ε α) : Prop :=
  ∀ s, I s → I (r s).2 ∧ ∀ a, (r s).1 = .ok a → P a

/-- The step keeps a property of states, whatever its results. -/
abbrev Keeps (I : σ → Prop) (r : Step σ ε α) : Prop := Meets I (fun _ => True) r

theorem meets_pure {a : α} (ha : P a) : Meets I P (pure a : Step σ ε α) :=
  fun _ hs => ⟨hs, fun _ h => Except.ok.inj h ▸ ha⟩

theorem meets_ofExcept {outcome : Except ε α} (h : ∀ a, outcome = .ok a → P a) :
    Meets I P (ofExcept outcome : Step σ ε α) :=
  fun _ hs => ⟨hs, h⟩

theorem keeps_ofExcept (outcome : Except ε α) : Keeps I (ofExcept outcome : Step σ ε α) :=
  meets_ofExcept fun _ _ => trivial

theorem keeps_require (e : ε) (found : Option α) : Keeps I (require e found : Step σ ε α) := by
  cases found with
  | some a => exact keeps_ofExcept _
  | none => exact keeps_ofExcept _

/-- A value that must be there is found if the step succeeds. -/
theorem meets_require (e : ε) (found : Option α) :
    Meets I (fun a => found = some a) (require e found : Step σ ε α) := by
  cases found with
  | some a => exact meets_ofExcept fun _ h => congrArg some (Except.ok.inj h)
  | none => exact meets_ofExcept nofun

/-- A sequence of steps keeps what its parts keep. The second step may rely on what the first one comes to. -/
theorem Meets.bind {r : Step σ ε α} {f : α → Step σ ε β} (hr : Meets I P r) (hf : ∀ a, P a → Meets I Q (f a)) :
    Meets I Q (r >>= f) := by
  intro s hs
  obtain ⟨hkept, hresult⟩ := hr s hs
  rw [bind_apply]
  cases hrun : r s with
  | mk outcome s' =>
    rw [hrun] at hkept hresult
    cases outcome with
    | error e => exact ⟨hkept, fun _ h => nomatch h⟩
    | ok a => exact hf a (hresult a rfl) s' hkept

/-- What every step of a sequence keeps, the sequence keeps. -/
theorem Meets.foldlM {f : β → α → Step σ ε β} {l : List α} (hf : ∀ a ∈ l, ∀ b, Q b → Meets I Q (f b a)) {b : β}
    (hb : Q b) : Meets I Q (l.foldlM f b) := by
  induction l generalizing b with
  | nil => exact meets_pure hb
  | cons a rest ih =>
    obtain ⟨hfirst, hrest⟩ := List.forall_mem_cons.mp hf
    rw [List.foldlM_cons]
    exact (hfirst b hb).bind fun b' hb' => ih hrest hb'

end Step

/-! ## Pages -/

/-- A page has the given size: it has no more rows, and exactly as many if further rows follow. -/
structure Page.Fits {α : Type} (page : Page α) (size : Nat) : Prop where
  /-- There are no more rows than the size. -/
  length_le : page.rows.length ≤ size
  /-- A page with a cursor is full. -/
  full : page.next.isSome = true → page.rows.length = size

/-- A response is a page of the given size. -/
structure Response.Fits {α : Type} (r : Response α) (size : Nat) : Prop where
  /-- The response names the size. -/
  size_eq : r.size = size
  /-- There are no more items than the size. -/
  length_le : r.items.length ≤ size
  /-- A response with a cursor is full. -/
  full : r.nextCursor.isSome = true → r.items.length = size

namespace Page

variable {α : Type}

/-- One row more than the page holds tells whether further rows follow, and it is cut off. -/
theorem fits_ofRows (keys : List SortKey) (size : Nat) (record : α → Record) (rows : List α) :
    (ofRows keys size record rows).Fits size where
  length_le := by
    rw [rows_ofRows]
    exact List.length_take_le size rows
  full h := by
    rw [next_ofRows] at h
    rw [rows_ofRows, List.length_take]
    split at h
    · omega
    · simp at h

/-- The page of a request has the size asked for, whatever the text of the cursor. -/
theorem fits_ofRequest (keys : List SortKey) (size : Nat) (cursor : Option String) (record : α → Record)
    (rows : List α) : (ofRequest keys size cursor record rows).1.Fits size := by
  rw [ofRequest]
  split
  · exact fits_ofRows ..
  · exact fits_ofRows ..

end Page

/-! ## Runs -/

namespace Run

/-- What the reads of a store and all incidents keep. -/
structure Steady {σ : Type} [Storage σ] (store : σ) (I : Progress → Prop) : Prop where
  /-- Every reply to a scan keeps it. -/
  scan : ∀ entity pred, Step.Keeps I (receive (Storage.scan store entity pred))
  /-- Every reply to a count keeps it. -/
  count : ∀ entity pred, Step.Keeps I (receive (Storage.count store entity pred))
  /-- Every incident keeps it. -/
  note : ∀ incident, Step.Keeps I (note incident)

variable {α σ : Type} [Storage σ] {store : σ} {I : Progress → Prop}

theorem sort_eq_ok_iff {keys : List SortKey} {rows sorted : List Record} {p p' : Progress} :
    sort keys rows p = (.ok sorted, p') ↔ SortKey.sort? keys rows = some sorted ∧ p = p' := by
  rw [sort]
  cases SortKey.sort? keys rows <;> simp

theorem keeps_unlessCancelled : Step.Keeps I unlessCancelled := fun _ hp => ⟨hp, fun _ _ => trivial⟩

theorem keeps_scan (h : Steady store I) (entity : String) (pred : Predicate) :
    Step.Keeps I (scan store entity pred) :=
  (h.scan entity pred).bind fun _ _ => Step.keeps_ofExcept _

theorem keeps_count (h : Steady store I) (entity : String) (pred : Predicate) :
    Step.Keeps I (count store entity pred) := by
  refine (h.count entity pred).bind fun result _ => ?_
  cases result with
  | ok n => exact Step.meets_pure trivial
  | error e => exact (h.note _).bind fun _ _ => Step.meets_pure trivial

theorem meets_page (h : Steady store I) (entity : String) (keys : List SortKey) (size : Nat)
    (cursor : Option String) (record : α → Record) (rows : List α) :
    Step.Meets I (fun page => page.Fits size) (page entity keys size cursor record rows) := by
  have hfits := Page.fits_ofRequest keys size cursor record rows
  rw [page]
  dsimp only
  cases (Page.ofRequest keys size cursor record rows).2 with
  | none => exact Step.meets_pure hfits
  | some e => exact (h.note _).bind fun _ _ => Step.meets_pure hfits

end Run

namespace Join

variable {σ : Type} [Storage σ] {store : σ} {I : Progress → Prop}

theorem keeps_apply (h : Run.Steady store I) (root : EntitySchema) (j : Join) (rows : List Record) (examined : Nat) :
    Step.Keeps I (j.apply store root rows examined) := by
  refine (Step.keeps_ofExcept _).bind fun kind _ => ?_
  refine (Step.keeps_require _ _).bind fun joined _ => ?_
  refine (Step.keeps_ofExcept _).bind fun _ _ => ?_
  refine (Run.keeps_scan h _ _).bind fun found _ => ?_
  split
  · exact Step.meets_pure trivial
  · exact Run.keeps_unlessCancelled.bind fun _ _ => Step.meets_pure trivial

theorem keeps_applyAll (h : Run.Steady store I) (root : EntitySchema) (joins : List Join) (rows : List Record)
    (examined : Nat) : Step.Keeps I (applyAll store root joins rows examined) := by
  induction joins generalizing rows examined with
  | nil => exact Step.meets_pure trivial
  | cons j rest ih => exact (keeps_apply h root j rows examined).bind fun _ _ => ih _ _

end Join

/-! ## Answers -/

/-- What a query gathers before it sorts. -/
structure Gathered where
  /-- The declaration of the entity. -/
  schema : EntitySchema
  /-- The binding, which grouped queries do not have. -/
  binding : Option Binding
  /-- The predicate of the filters. -/
  predicate : Predicate
  /-- The rows. -/
  rows : List Record
  /-- The number of records looked at. -/
  examined : ℕ

namespace Query

variable {σ α : Type} [Storage σ] (q : Query) (policy : Policy) (store : σ) (registry : Registry) (target : Target α)

/-- Reads the store and applies the operations on records. -/
def gather (label : String) : Run Gathered := do
  let schema ← Step.require (.unknownEntity q.entity) (Storage.schema? store q.entity)
  let binding ← Step.ofExcept (q.bindingFor registry label schema)
  let predicate ← Step.ofExcept (schema.columns.compileAll q.filters)
  let found ← Run.scan store schema.name predicate
  let joined ← Join.applyAll store schema q.joins found.records found.examined
  let rows ← Step.ofExcept (Operation.onAllRecords schema policy.maxPageSize q.operations joined.1)
  Run.unlessCancelled
  return { schema, binding, predicate, rows, examined := joined.2 }

/-- Finds out the total number if it is wanted. -/
def total (g : Gathered) : Run (Option ℕ) :=
  if q.wantsCount then Run.count store g.schema.name g.predicate else pure none

/-- Sorts the rows, cuts out the page and gives the items their form. -/
def present (g : Gathered) : Run (Response α) := do
  let shaped ← q.arrange (Storage.schema? store) g.schema g.binding g.rows
  let rows ← Step.ofExcept (Operation.onAllRows ShapedRow.shaped q.operations shaped.1)
  let size := policy.effectivePageSize (q.page.bind PageRequest.size)
  let page ← Run.page g.schema.name shaped.2 size (q.page.bind PageRequest.cursor) ShapedRow.source rows
  let total ← q.total store g
  let items ← Step.ofExcept (page.rows.mapM (q.item target g.binding))
  return { items, size, nextCursor := page.next, totalCount := total, rowsExamined := g.examined }

/-- A query gathers rows, and then presents them. -/
theorem answer_eq_present : q.answer policy store registry target =
    q.gather policy store registry target.label >>= q.present policy store target := by
  simp only [answer, gather, present, total, bind_assoc, pure_bind]
  cases q.wantsCount <;> simp only [Bool.false_eq_true, if_false, if_true, pure_bind]

variable {store} {I : Progress → Prop}

/-- Gathering keeps what reads keep, and it comes to nothing unless a run that is not cancelled may come on. -/
theorem meets_gather (h : Run.Steady store I) {P : Prop} (hcancelled : Step.Meets I (fun _ => P) Run.unlessCancelled)
    (label : String) : Step.Meets I (fun _ => P) (q.gather policy store registry label) := by
  refine (Step.keeps_require _ _).bind fun schema _ => ?_
  refine (Step.keeps_ofExcept _).bind fun binding _ => ?_
  refine (Step.keeps_ofExcept _).bind fun predicate _ => ?_
  refine (Run.keeps_scan h _ _).bind fun found _ => ?_
  refine (Join.keeps_applyAll h _ _ _ _).bind fun joined _ => ?_
  refine (Step.keeps_ofExcept _).bind fun worked _ => ?_
  exact hcancelled.bind fun _ hP => Step.meets_pure hP

theorem keeps_total (h : Run.Steady store I) (g : Gathered) : Step.Keeps I (q.total store g) := by
  rw [total]
  split
  · exact Run.keeps_count h _ _
  · exact Step.meets_pure trivial

/-- Presenting rows keeps what reads, incidents and sorts keep, and the response is a page of the size that the policy
gives. -/
theorem meets_present (h : Run.Steady store I) (hsort : ∀ keys rows, Step.Keeps I (Run.sort keys rows)) (g : Gathered) :
    Step.Meets I (fun r => r.Fits (policy.effectivePageSize (q.page.bind PageRequest.size)))
      (q.present policy store target g) := by
  -- However many rows the steps before the page hand on, the response only depends on the page that is cut out.
  have harrange : Step.Keeps I (q.arrange (Storage.schema? store) g.schema g.binding g.rows) :=
    (Step.keeps_ofExcept _).bind fun _ _ => (hsort _ _).bind fun _ _ => Step.meets_pure trivial
  refine harrange.bind fun shaped _ => ?_
  refine (Step.keeps_ofExcept _).bind fun finished _ => ?_
  refine (Run.meets_page h _ _ _ _ _ _).bind fun page hpage => ?_
  refine (q.keeps_total h g).bind fun total _ => ?_
  refine Step.Meets.bind (P := fun items => items.length = page.rows.length)
    (Step.meets_ofExcept fun items hitems => ?_) fun items hlength => Step.meets_pure ?_
  · exact (Outcome.mapM_eq_ok_iff.mp hitems).length_eq.symm
  · exact
      { size_eq := rfl
        length_le := hlength ▸ hpage.length_le
        full := fun hnext => hlength.trans (hpage.full hnext) }

/-- **A run keeps what reads, incidents and sorts keep, and its response is a page** of the size that the policy
gives. -/
theorem meets_answer (h : Run.Steady store I) (hsort : ∀ keys rows, Step.Keeps I (Run.sort keys rows)) :
    Step.Meets I (fun r => r.Fits (policy.effectivePageSize (q.page.bind PageRequest.size)))
      (q.answer policy store registry target) := by
  rw [answer_eq_present]
  exact (q.meets_gather policy registry h Run.keeps_unlessCancelled _).bind fun g _ =>
    q.meets_present policy target h hsort g

/-- A run that stays cancelled keeps what reads keep, since it never comes to a sort. -/
theorem keeps_answer_of_cancelled (h : Run.Steady store I) (hcancelled : ∀ p, I p → p.cancelled = true) :
    Step.Keeps I (q.answer policy store registry target) := by
  have hstops : Step.Meets I (fun _ => False) Run.unlessCancelled := by
    intro p hp
    rw [Run.unlessCancelled, hcancelled p hp]
    exact ⟨hp, nofun⟩
  rw [answer_eq_present]
  exact (q.meets_gather policy registry h hstops _).bind fun _ hfalse => hfalse.elim

end Query

end GuardedQuery
