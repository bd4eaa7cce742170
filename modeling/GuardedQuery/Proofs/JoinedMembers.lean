import GuardedQuery.Proofs.JoinKinds

/-!
# Members that joins keep

The members that a join attaches share one dictionary with the members of the rows at hand: the fields of the records,
and what earlier joins attached. Every row of a join comes of one row, in order, and it has the members of that row and
the ones that the join attaches. A member keeps its value if the join attaches none of its name. Otherwise the join
overwrites it: a second inner join with an entity overwrites the identities that the first one attached, and a group
join overwrites a field with the name of its entity.

## Main definitions

* `Join.Extends`: a row that comes of another one in a join.
* `Record.Keeps`: a row that has all members of another one.
* `Join.NewTo`: a join that attaches no member of the rows at hand, nor one that an earlier join attached.
* `Join.MembersKept`: what a join of a list keeps, and what it attaches.

## Main statements

* `Join.extends_attach`: what a join makes of a row extends it.
* `Join.mem_names_applyAll`: joined rows have the members of the rows at hand, and those that joins attach.
* `Join.members_kept`: every join of a list keeps what it does not attach.
-/

namespace GuardedQuery

/-- A row that has all members of another one, with their values. -/
def Record.Keeps (row row' : Record) : Prop := ∀ f ∈ Dict.names row, Dict.get? row' f = Dict.get? row f

namespace Join

/-! ## One row -/

section Row

variable {lookUp : String → Option EntitySchema} {j : Join} {kind : JoinKind} {joined : EntitySchema}
  {records : List Record} {row row' : Record} {f : String}

theorem attaches_singleton_iff (hkind : JoinKind.parse? j.kind = some kind) (hjoined : lookUp j.entity = some joined) :
    Query.Attaches lookUp [j] f ↔ f ∈ j.attachedNames kind joined := by
  simp [Query.Attaches, hkind, hjoined]

/-- A row has the members that it had, and those that the join attaches. -/
theorem mem_names_attach (h : row' ∈ j.attach kind joined records row) :
    f ∈ Dict.names row' ↔ f ∈ Dict.names row ∨ f ∈ j.attachedNames kind joined := by
  cases kind with
  | join =>
    obtain ⟨candidate, -, rfl⟩ := List.mem_map.mp h
    have hselected := Dict.mem_names_foldl_insert
      (j.select.map fun f => (s!"{joined.name}.{f}", Record.value candidate f))
      (Dict.insert row joined.joinedIdentity (Record.value candidate joined.identity)) f
    rw [List.foldl_map, Dict.mem_names_insert, List.map_map] at hselected
    rw [attachedNames, List.mem_cons]
    exact hselected.trans (by simp only [Function.comp_def]; tauto)
  | groupJoin =>
    obtain rfl := List.mem_singleton.mp h
    rw [Dict.mem_names_insert, attachedNames, List.mem_singleton, or_comm]

/-- A row that comes of another one in a join. -/
structure Extends (lookUp : String → Option EntitySchema) (j : Join) (row row' : Record) : Prop where
  /-- What the join does not attach is as it was. -/
  kept : ∀ f, ¬Query.Attaches lookUp [j] f → Dict.get? row' f = Dict.get? row f
  /-- The row has the members that it had and those that the join attaches. -/
  names : ∀ f, f ∈ Dict.names row' ↔ f ∈ Dict.names row ∨ Query.Attaches lookUp [j] f
  /-- An inner join attaches the identity and the selected fields of one match. -/
  beside : JoinKind.parse? j.kind = some .join → ∀ joined, lookUp j.entity = some joined →
    ∃ candidate, j.matching row candidate = true ∧
      Record.value row' joined.joinedIdentity = Record.value candidate joined.identity ∧
      ∀ f ∈ j.select, Record.value row' s!"{joined.name}.{f}" = Record.value candidate f
  /-- A group join attaches a list of matches. -/
  list : JoinKind.parse? j.kind = some .groupJoin → ∀ joined, lookUp j.entity = some joined →
    ∃ found : List Record, (∀ candidate ∈ found, j.matching row candidate = true) ∧
      Record.value row' joined.name = .array (found.map j.element)

/-- **What a join makes of a row extends it.** -/
theorem extends_attach (hkind : JoinKind.parse? j.kind = some kind) (hjoined : lookUp j.entity = some joined)
    (h : row' ∈ j.attach kind joined records row) : j.Extends lookUp row row' := by
  have hattaches : ∀ f, Query.Attaches lookUp [j] f ↔ f ∈ j.attachedNames kind joined :=
    fun f => attaches_singleton_iff hkind hjoined
  refine ⟨?_, ?_, ?_, ?_⟩
  · intro f hf
    rw [hattaches] at hf
    exact attach_keeps h hf
  · intro f
    rw [hattaches]
    exact mem_names_attach h
  · intro hinner other hother
    obtain rfl := Option.some.inj (hkind.symm.trans hinner)
    obtain rfl := Option.some.inj (hjoined.symm.trans hother)
    obtain ⟨candidate, hcandidate, rfl⟩ := List.mem_map.mp h
    exact ⟨candidate, (List.mem_filter.mp hcandidate).2, value_beside j joined row candidate,
      fun f hf => value_beside_of_mem row hf⟩
  · intro hgroup other hother
    obtain rfl := Option.some.inj (hkind.symm.trans hgroup)
    obtain rfl := Option.some.inj (hjoined.symm.trans hother)
    obtain rfl := List.mem_singleton.mp h
    refine ⟨records.filter (j.matching row), fun _ hmem => (List.mem_filter.mp hmem).2, ?_⟩
    exact Record.value_of_get? (by rw [Dict.get?_insert, if_pos rfl])

/-- A row keeps all members unless the join attaches one of them. -/
theorem Extends.keeps (h : j.Extends lookUp row row') (hnew : ∀ f ∈ Dict.names row, ¬Query.Attaches lookUp [j] f) :
    Record.Keeps row row' := fun f hf => h.kept f (hnew f hf)

end Row

/-! ## Runs of joins -/

section Runs

variable {σ : Type} [Storage σ] {store : σ} {root : EntitySchema} {j : Join} {joins before after : List Join}
  {rows rows' : List Record} {n n' : ℕ} {p p' : Progress} {row' : Record} {f : String}

/-- The rows of a join come of the rows at hand, block by block. -/
theorem extends_apply (h : j.apply store root rows n p = (.ok (rows', n'), p')) :
    ∃ block : Record → List Record, rows' = rows.flatMap block ∧
      ∀ row ∈ rows, ∀ row' ∈ block row, j.Extends (Storage.schema? store) row row' := by
  cases hkind : JoinKind.parse? j.kind with
  | none =>
    have hof : j.kindOf = .error (.invalidOperation (.joinKind j.kind)) := by rw [kindOf, hkind]
    obtain ⟨kind, hread, -⟩ := Step.ofExcept_bind_eq_ok_iff.mp h
    simp [hof] at hread
  | some kind =>
    rw [apply_of_parse store root j rows hkind] at h
    obtain ⟨⟨joined, found⟩, p₁, hread, hreturned⟩ := Step.bind_eq_ok_iff.mp h
    obtain ⟨hjoined, -⟩ := scan_of_candidates hread
    obtain ⟨rfl, -⟩ := Prod.mk.inj (Except.ok.inj (Prod.mk.inj hreturned).1)
    exact ⟨j.attach kind joined found.records, rfl, fun row _ row' hrow' => extends_attach hkind hjoined hrow'⟩

/-- Joins are applied one after the other. -/
theorem applyAll_append (before after : List Join) (rows : List Record) (n : ℕ) :
    applyAll store root (before ++ after) rows n =
      applyAll store root before rows n >>= fun joined => applyAll store root after joined.1 joined.2 := by
  induction before generalizing rows n with
  | nil => simp [applyAll]
  | cons j rest ih => simp only [List.cons_append, applyAll, bind_assoc, ih]

/-- Joined rows come of the rows at hand, and what no join attaches is as it was. -/
theorem applyAll_keeps (h : applyAll store root joins rows n p = (.ok (rows', n'), p')) (hrow' : row' ∈ rows') :
    ∃ row ∈ rows, ∀ f, ¬Query.Attaches (Storage.schema? store) joins f → Dict.get? row' f = Dict.get? row f := by
  induction joins generalizing rows n p with
  | nil =>
    obtain ⟨rfl, -⟩ := Prod.mk.inj (Except.ok.inj (Prod.mk.inj h).1)
    exact ⟨row', hrow', fun _ _ => rfl⟩
  | cons j rest ih =>
    obtain ⟨⟨between, m⟩, p₁, hfirst, hrest⟩ := Step.bind_eq_ok_iff.mp h
    obtain ⟨row₁, hrow₁, hkept⟩ := ih hrest
    obtain ⟨block, rfl, hblock⟩ := extends_apply hfirst
    obtain ⟨row, hrow, hmem⟩ := List.mem_flatMap.mp hrow₁
    refine ⟨row, hrow, ?_⟩
    intro f hf
    rw [attaches_cons_iff, not_or] at hf
    rw [hkept f hf.2, (hblock row hrow row₁ hmem).kept f hf.1]

/-- **Joined rows have the members of the rows at hand, and those that joins attach.** -/
theorem mem_names_applyAll (h : applyAll store root joins rows n p = (.ok (rows', n'), p')) (hrow' : row' ∈ rows') :
    ∃ row ∈ rows, ∀ f, f ∈ Dict.names row' ↔ f ∈ Dict.names row ∨ Query.Attaches (Storage.schema? store) joins f := by
  induction joins generalizing rows n p with
  | nil =>
    obtain ⟨rfl, -⟩ := Prod.mk.inj (Except.ok.inj (Prod.mk.inj h).1)
    exact ⟨row', hrow', fun f => by simp [Query.Attaches]⟩
  | cons j rest ih =>
    obtain ⟨⟨between, m⟩, p₁, hfirst, hrest⟩ := Step.bind_eq_ok_iff.mp h
    obtain ⟨row₁, hrow₁, hnames⟩ := ih hrest
    obtain ⟨block, rfl, hblock⟩ := extends_apply hfirst
    obtain ⟨row, hrow, hmem⟩ := List.mem_flatMap.mp hrow₁
    refine ⟨row, hrow, ?_⟩
    intro f
    rw [hnames, (hblock row hrow row₁ hmem).names, or_assoc, ← attaches_cons_iff]

/-- A join that attaches no member of the rows at hand, nor one that an earlier join attached. -/
def NewTo (lookUp : String → Option EntitySchema) (j : Join) (before : List Join) (rows : List Record) : Prop :=
  ∀ f, Query.Attaches lookUp [j] f → ¬Query.Attaches lookUp before f ∧ ∀ row ∈ rows, f ∉ Dict.names row

/-- What a join of a list keeps, and what it attaches. -/
structure MembersKept (store : σ) (j : Join) (before after : List Join) (rows input output rows' : List Record) :
    Prop where
  /-- The rows of the join come of the rows of the joins before, block by block, and keep all their members if the join
  is new to them. -/
  extended : ∃ block : Record → List Record, output = input.flatMap block ∧
    ∀ row ∈ input, ∀ row' ∈ block row, j.Extends (Storage.schema? store) row row' ∧
      (j.NewTo (Storage.schema? store) before rows → Record.Keeps row row')
  /-- What no join after it attaches stays as it is. -/
  lasting : ∀ row' ∈ rows', ∃ row ∈ output,
    ∀ f, ¬Query.Attaches (Storage.schema? store) after f → Dict.get? row' f = Dict.get? row f

/-- **Every join of a list keeps what it does not attach.** The rows that it makes have all members of the rows that it
was given, unless it attaches a member of the first rows, or one that an earlier join attached. -/
theorem members_kept (h : applyAll store root (before ++ j :: after) rows n p = (.ok (rows', n'), p')) :
    ∃ input output m m' p₁ p₂, applyAll store root before rows n p = (.ok (input, m), p₁) ∧
      j.apply store root input m p₁ = (.ok (output, m'), p₂) ∧
      applyAll store root after output m' p₂ = (.ok (rows', n'), p') ∧
      MembersKept store j before after rows input output rows' := by
  rw [applyAll_append] at h
  obtain ⟨⟨input, m⟩, p₁, hbefore, hrest⟩ := Step.bind_eq_ok_iff.mp h
  obtain ⟨⟨output, m'⟩, p₂, happly, hafter⟩ := Step.bind_eq_ok_iff.mp hrest
  obtain ⟨block, houtput, hblock⟩ := extends_apply happly
  refine ⟨input, output, m, m', p₁, p₂, hbefore, happly, hafter, ⟨block, houtput, ?_⟩, ?_⟩
  · intro row hrow row' hrow'
    have hextends := hblock row hrow row' hrow'
    refine ⟨hextends, ?_⟩
    intro hnew
    refine hextends.keeps ?_
    intro f hf hattaches
    -- The member is one of the first rows, or an earlier join has attached it.
    obtain ⟨hbeforeNone, hrowsNone⟩ := hnew f hattaches
    obtain ⟨first, hfirst, hnames⟩ := mem_names_applyAll hbefore hrow
    rcases (hnames f).mp hf with hmem | hmem
    · exact hrowsNone first hfirst hmem
    · exact hbeforeNone hmem
  · intro row' hrow'
    exact applyAll_keeps hafter hrow'

end Runs

/-! ## All orders and the last one -/

/-- The orders of customers. -/
def ordersJoin : Join where
  entity := "Order"
  on := [("Id", "CustomerId")]
  select := ["Total"]

/-- The last orders of customers. -/
def lastOrderJoin : Join where
  entity := "Order"
  on := [("Last", "Id")]
  select := ["Total"]

/-- A customer whose last order is the eleventh. -/
def customerRow : Record := [("Id", .int 1), ("Last", .int 11)]

/-- The row of a customer and an order. -/
def orderRow (id total : ℤ) : Record :=
  [("Id", .int 1), ("Last", .int 11), ("Order.Id", .int id), ("Order.Total", .int total)]

/-- The join with the last order overwrites the identities and the totals that the first join attached. -/
theorem members_kept_shop :
    MembersKept Engine.shopEngine.store lastOrderJoin [ordersJoin] [] [customerRow] [orderRow 10 20, orderRow 11 30]
      [orderRow 11 30, orderRow 11 30] [orderRow 11 30, orderRow 11 30] ∧
    ¬Record.Keeps (orderRow 10 20) (orderRow 11 30) := by
  have hall : (applyAll Engine.shopEngine.store Engine.customerSchema ([ordersJoin] ++ lastOrderJoin :: [])
      [customerRow] 1 {}).1 = .ok ([orderRow 11 30, orderRow 11 30], 5) := by decide +kernel
  have hfirst : (applyAll Engine.shopEngine.store Engine.customerSchema [ordersJoin] [customerRow] 1 {}).1 =
      .ok ([orderRow 10 20, orderRow 11 30], 3) := by decide +kernel
  obtain ⟨input, output, m, m', p₁, p₂, hbefore, -, hafter, hkept⟩ := members_kept (Prod.ext hall rfl)
  rw [hbefore] at hfirst
  obtain ⟨rfl, -⟩ := Prod.mk.inj (Except.ok.inj hfirst)
  obtain ⟨rfl, -⟩ := Prod.mk.inj (Except.ok.inj (Prod.mk.inj hafter).1)
  refine ⟨hkept, ?_⟩
  intro hkeeps
  exact absurd (hkeeps "Order.Id" (by decide +kernel)) (by decide +kernel)

end Join

end GuardedQuery
