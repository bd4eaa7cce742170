import GuardedQuery.Proofs.Admission
import GuardedQuery.Proofs.Pages
import GuardedQuery.Proofs.Walk

/-!
# From the first page to the last

A client asks for the first page of a query, then for the page after it, and so on, with the same page size, until
a page has no cursor. What a query finds does not depend on the page that is asked for, so the client sees pages of
one list of rows. If the keys order these rows and cursors can carry their values, then the client comes to an end,
has seen no row twice, and has seen all rows, whatever the page size, if and only if no two rows tie.

## Main definitions

* `Engine.Pages`: the items of all pages from a cursor on.
* `Engine.PagesVisit`: pages of every admitted size have the given items.

## Main statements

* `Engine.Pages.unique`: the items of all pages are determined.
* `Engine.pages_shown`: the items are those of the rows that the pages show.
* `Engine.pagesVisit_iff`: pages of every admitted size have all items if and only if no two rows tie.
-/

namespace GuardedQuery

namespace Policy

/-- Whether the policy admits a page size. -/
def AdmitsSize (p : Policy) (size : Option Int) : Prop := ∀ n, size = some n → 1 ≤ n ∧ n ≤ p.maxPageSize

/-- A query is accepted with any page of an admitted size. -/
theorem accepts_page {p : Policy} {q : Query} (h : p.accepts q = true) {size : Option Int}
    (hsize : p.AdmitsSize size) (cursor : Option String) :
    p.accepts { q with page := some { size, cursor } } = true := by
  obtain ⟨hnamed, entity, hentity, hadmissible⟩ := admissibleOn_of_accepts h
  have hparts := (entity.violations_eq_nil_iff p q).mpr hadmissible
  have hentityParts : entity.violations p { q with page := some { size, cursor } } = [] :=
    (List.append_eq_nil_iff.mp hparts).2
  have hpage : p.pageViolations { q with page := some { size, cursor } } = [] :=
    (p.pageViolations_eq_nil_iff _).mpr hsize
  rw [accepts, violations]
  simp only [hnamed, hentity, hpage, hentityParts, Bool.false_eq_true, if_false, List.append_nil, List.isEmpty_nil]

/-- Every policy admits a page of one row. -/
theorem exists_size_one (p : Policy) : ∃ size, p.AdmitsSize size ∧ p.effectivePageSize size = 1 := by
  rcases Nat.eq_zero_or_pos p.maxPageSize with hzero | hpos
  · refine ⟨none, nofun, ?_⟩
    simp only [effectivePageSize, hzero]
    omega
  · refine ⟨some 1, ?_, ?_⟩
    · rintro n ⟨⟩
      omega
    · simp only [effectivePageSize, Option.getD_some]
      omega

end Policy

namespace Query

/-- The item of a row. -/
def rowItem (q : Query) (binding : Option Binding) (row : ShapedRow) : Value :=
  .object (match binding with
    | some b => b.narrow q.select row.shaped
    | none => row.shaped)

theorem mapM_item (q : Query) (binding : Option Binding) (rows : List ShapedRow) :
    rows.mapM (q.item Target.value binding) = .ok (rows.map (q.rowItem binding)) := by
  induction rows with
  | nil => rfl
  | cons row rest ih =>
    have hfirst : q.item Target.value binding row = .ok (q.rowItem binding row) := rfl
    rw [List.mapM_cons, hfirst, ih]
    rfl

/-- What a query finds does not depend on the page that is asked for. -/
theorem findings_page (q : Query) (page : Option PageRequest) (policy : Policy) (s : Store) (registry : Registry)
    (label : String) : findings { q with page } policy s registry label = q.findings policy s registry label := rfl

/-- The response to findings is a page of them. -/
theorem result_of_findings {q : Query} {policy : Policy} {s : Store} {registry : Registry} {f : Findings}
    (h : q.findings policy s registry Target.value.label = .ok f) (size : Option Int) (cursor : Option String) :
    ∃ r, result { q with page := some { size, cursor } } policy s registry Target.value = .ok r ∧
      r.items = ((Page.ofRequest f.keys (policy.effectivePageSize size) cursor ShapedRow.source f.rows).1.rows.map
        (q.rowItem f.binding)) ∧
      r.nextCursor =
        (Page.ofRequest f.keys (policy.effectivePageSize size) cursor ShapedRow.source f.rows).1.next := by
  have hitems := mapM_item { q with page := some { size, cursor } } f.binding
    (pageOf { q with page := some { size, cursor } } policy f).1.rows
  rw [result, findings_page, h]
  simp only [bind, Except.bind, respond] at hitems ⊢
  rw [hitems]
  exact ⟨_, rfl, rfl, rfl⟩

end Query

namespace Engine

/-- The items of all pages of a query from a cursor on, until a page has no cursor. All pages are asked for with
the same size. -/
inductive Pages (q : Query) (size : Option Int) : Engine Store → Option String → List Value → Prop
  /-- No page follows. -/
  | last {e engine : Engine Store} {cursor : Option String} {c : Circumstances} {r : Response Value}
      (hexecute : e.execute Target.value { q with page := some { size, cursor } } false c = (.ok r, engine))
      (hnext : r.nextCursor = none) : Pages q size e cursor r.items
  /-- Another page follows. -/
  | next {e engine : Engine Store} {cursor : Option String} {c : Circumstances} {r : Response Value}
      {text : String} {items : List Value}
      (hexecute : e.execute Target.value { q with page := some { size, cursor } } false c = (.ok r, engine))
      (hnext : r.nextCursor = some text) (hrest : Pages q size engine (some text) items) :
      Pages q size e cursor (r.items ++ items)

/-- The pages of every admitted size have the given items. -/
def PagesVisit (e : Engine Store) (q : Query) (items : List Value) : Prop :=
  ∀ size, e.policy.AdmitsSize size → e.Pages q size none items

variable {e e' : Engine Store} {q : Query} {size : Option Int} {cursor : Option String} {items items' : List Value}

/-- Engines with the same parts give the same response, and keep their parts. -/
theorem SameParts.execute (h : SameParts e e') {engine engine' : Engine Store} {c c' : Circumstances}
    {r r' : Response Value} (hexecute : e.execute Target.value q false c = (.ok r, engine))
    (hexecute' : e'.execute Target.value q false c' = (.ok r', engine')) : r = r' ∧ SameParts engine engine' := by
  have hparts := e.sameParts_execute Target.value q false c
  have hparts' := e'.sameParts_execute Target.value q false c'
  rw [hexecute] at hparts
  rw [hexecute'] at hparts'
  obtain ⟨_, hresult⟩ := execute_eq_ok_iff.mp (congrArg Prod.fst hexecute)
  obtain ⟨_, hresult'⟩ := execute_eq_ok_iff.mp (congrArg Prod.fst hexecute')
  rw [h.policy, h.store, h.registry, hresult] at hresult'
  refine ⟨Except.ok.inj hresult', ?_, ?_, ?_⟩
  · rw [hparts'.policy, h.policy, hparts.policy]
  · rw [hparts'.store, h.store, hparts.store]
  · rw [hparts'.registry, h.registry, hparts.registry]

/-- **The items of all pages are determined.** -/
theorem Pages.unique (h : e.Pages q size cursor items) (hparts : SameParts e e')
    (h' : e'.Pages q size cursor items') : items = items' := by
  induction h generalizing e' items' with
  | last hexecute hnext =>
    cases h' with
    | last hexecute' => rw [(hparts.execute hexecute hexecute').1]
    | next hexecute' hnext' =>
      rw [(hparts.execute hexecute hexecute').1, hnext'] at hnext
      exact absurd hnext (by simp)
  | next hexecute hnext _ ih =>
    cases h' with
    | last hexecute' hnext' =>
      rw [(hparts.execute hexecute hexecute').1, hnext'] at hnext
      exact absurd hnext (by simp)
    | next hexecute' hnext' hrest' =>
      obtain ⟨rfl, hkept⟩ := hparts.execute hexecute hexecute'
      obtain rfl := Option.some.inj (hnext.symm.trans hnext')
      rw [ih hkept hrest']

/-- Findings that pages can be cut out of: the keys order the rows, which are sorted by them, and cursors can carry
the values of the keys. -/
structure Pageable (f : Query.Findings) : Prop where
  /-- The keys order the rows. -/
  orders : SortKey.Orders f.keys fun r => ∃ row ∈ f.rows, row.source = r
  /-- The rows are sorted. -/
  sorted : f.rows.Pairwise fun a b => SortKey.compareRecords f.keys a.source b.source ≠ .gt
  /-- Cursors can carry the values. -/
  travels : ∀ row ∈ f.rows, ∀ k ∈ f.keys, (Record.value row.source k.field).Travels

/-- The pages from a cursor on have the items of the rows that pages of the rows ahead show. -/
theorem pages_of_ahead {f : Query.Findings} (hf : Pageable f) (haccepts : e.policy.accepts q = true)
    (hfound : q.findings e.policy e.store e.registry Target.value.label = .ok f)
    (hsize : e.policy.AdmitsSize size) {ahead : List ShapedRow}
    (hahead : Page.Ahead f.keys ShapedRow.source f.rows cursor ahead) :
    e.Pages q size cursor ((Page.shown f.keys ShapedRow.source (e.policy.effectivePageSize size) ahead).map
      (q.rowItem f.binding)) := by
  induction hlength : ahead.length using Nat.strongRecOn generalizing e cursor ahead with
  | ind n ih =>
    obtain ⟨r, hresult, hitems, hnext⟩ := Query.result_of_findings hfound size cursor
    obtain ⟨engine, hexecute, hparts⟩ := exists_execute_eq {} (Policy.accepts_page haccepts hsize cursor) hresult
    rw [hahead.page, Page.rows_ofRows] at hitems
    rw [hahead.page, Page.next_ofRows] at hnext
    have hpos := e.policy.effectivePageSize_pos size
    by_cases hmore : e.policy.effectivePageSize size < ahead.length
    · have hindex : e.policy.effectivePageSize size - 1 < ahead.length := by omega
      have hlast : (ahead.take (e.policy.effectivePageSize size)).getLast? =
          some ahead[e.policy.effectivePageSize size - 1] := by
        rw [List.getLast?_take, if_neg hpos.ne', List.getElem?_eq_getElem hindex, Option.some_or]
      rw [if_pos hmore, hlast] at hnext
      have hbehind := hahead.turn hf.orders (fun row hrow => ⟨row, hrow, rfl⟩) hf.sorted hf.travels hpos hmore
      have hless : ((ahead.drop (e.policy.effectivePageSize size)).filter (Page.follows f.keys ShapedRow.source
          ahead[e.policy.effectivePageSize size - 1])).length < n := by
        refine lt_of_le_of_lt (List.length_filter_le _ _) ?_
        rw [List.length_drop]
        omega
      have hrest := ih _ hless (e := engine) (by rwa [hparts.policy])
        (by rwa [hparts.policy, hparts.store, hparts.registry]) (by rwa [hparts.policy]) hbehind rfl
      rw [hparts.policy] at hrest
      rw [Page.shown_of_lt_length hpos hmore, List.map_append, ← hitems]
      exact .next hexecute hnext hrest
    · rw [if_neg hmore] at hnext
      rw [List.take_of_length_le (by omega)] at hitems
      rw [Page.shown_of_length_le (by omega), ← hitems]
      exact .last hexecute hnext

/-- **The pages of a query** have the items of the rows that pages of its findings show. -/
theorem pages_shown {f : Query.Findings} (hf : Pageable f) (haccepts : e.policy.accepts q = true)
    (hfound : q.findings e.policy e.store e.registry Target.value.label = .ok f)
    (hsize : e.policy.AdmitsSize size) :
    e.Pages q size none ((Page.shown f.keys ShapedRow.source (e.policy.effectivePageSize size) f.rows).map
      (q.rowItem f.binding)) :=
  pages_of_ahead hf haccepts hfound hsize (Page.ahead_start _ _ _)

/-- Every client comes to an end, and has seen the items in order, none of them twice. -/
theorem exists_pages {f : Query.Findings} (hf : Pageable f) (haccepts : e.policy.accepts q = true)
    (hfound : q.findings e.policy e.store e.registry Target.value.label = .ok f)
    (hsize : e.policy.AdmitsSize size) :
    ∃ items, e.Pages q size none items ∧ items.Sublist (f.rows.map (q.rowItem f.binding)) :=
  ⟨_, pages_shown hf haccepts hfound hsize, Page.shown_sublist.map _⟩

/-- **Pages of every admitted size visit all rows** if and only if no two rows tie. -/
theorem pagesVisit_iff {f : Query.Findings} (hf : Pageable f) (haccepts : e.policy.accepts q = true)
    (hfound : q.findings e.policy e.store e.registry Target.value.label = .ok f) :
    e.PagesVisit q (f.rows.map (q.rowItem f.binding)) ↔
      f.rows.Pairwise fun a b => SortKey.compareRecords f.keys a.source b.source ≠ .eq := by
  constructor
  · intro h
    obtain ⟨size, hsize, hone⟩ := e.policy.exists_size_one
    have hall := (h size hsize).unique (SameParts.refl e) (pages_shown hf haccepts hfound hsize)
    rw [hone] at hall
    have hshown : Page.shown f.keys ShapedRow.source 1 f.rows = f.rows := by
      refine Page.shown_sublist.eq_of_length ?_
      have hlength := congrArg List.length hall
      rw [List.length_map, List.length_map] at hlength
      exact hlength.symm
    refine (Page.pairwise_of_shown_one hshown).imp ?_
    intro a b hlt heq
    rw [hlt] at heq
    exact absurd heq (by decide)
  · intro h size hsize
    have hstrict : f.rows.Pairwise fun a b => SortKey.compareRecords f.keys a.source b.source = .lt :=
      SortKey.pairwise_lt hf.sorted h
    have hpages := pages_shown hf haccepts hfound hsize
    rwa [Page.shown_eq_of_pairwise hstrict] at hpages

end Engine

end GuardedQuery
