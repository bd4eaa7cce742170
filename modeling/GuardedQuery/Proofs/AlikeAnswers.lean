import GuardedQuery.Proofs.AlikeRows

/-!
# Answers of two runs

Rows that agree off the secrets are grouped, sorted, projected and paged to one answer, as long as the
query groups, condenses and sorts by what is not secret and the binding reads no secret.

## Main definitions

* `Group.Alike`: groups with one key whose members agree.
* `ShapedRow.Alike`: rows with one shape that no sort key tells apart.

## Main statements

* `Query.groupRows_congr`: the rows of a grouped query do not depend on secrets.
* `Query.sorting_same`, `Query.Stock.Alike.sort?_rel`, `Operation.onAllRows_same`: the rows do not either, before and
  after the sort, and after the operations on finished rows.
* `Page.ofRequest_forall₂`: pages of related rows are related.
-/

namespace GuardedQuery

open Outcome (Same)

/-! ## Groups -/

namespace Column

/-- The column of an admissible aggregation reads a field that may be selected. -/
theorem resolve_reads {e : EntityPolicy} {schema : EntitySchema} {a : Aggregation} {c : Column}
    (hadmissible : a.Admissible e) (h : resolve schema a = .ok c) :
    ∀ name t, c.field = some (name, t) → name ∈ e.selectable := by
  rw [resolve] at h
  intro name t hname
  split at h
  · simp at h
  · split at h
    · split at h
      · simp at h
      · obtain rfl := Except.ok.inj h
        simp at hname
    · rename_i field hfield
      split at h
      · simp at h
      · split at h
        · obtain rfl := Except.ok.inj h
          obtain ⟨rfl, _⟩ := Prod.mk.inj (Option.some.inj hname)
          obtain ⟨hsome, hblank⟩ := Option.filter_eq_some_iff.mp hfield
          cases hadmissible with
          | field _ hsome' _ hmem =>
            obtain rfl := Option.some.inj (hsome.symm.trans hsome')
            exact hmem
          | rows _ hall => simp [hall field hsome] at hblank
        · simp at h

variable {secret : String → Prop} {members members' : List Record}

theorem values_congr {c : Column} (hc : ∀ name t, c.field = some (name, t) → ¬secret name)
    (h : List.Forall₂ (Record.AgreeOff secret) members members') : c.values members = c.values members' := by
  unfold values
  cases hfield : c.field with
  | none => rfl
  | some column =>
    obtain ⟨name, t⟩ := column
    induction h with
    | nil => rfl
    | cons hab _ ih =>
      have hvalue := Predicate.actual?_congr (hab.agree name (hc name t hfield))
      dsimp only at ih ⊢
      rw [List.filterMap_cons, List.filterMap_cons, hvalue, ih]

/-- A column only reads its field. -/
theorem compute_congr {c : Column} (hc : ∀ name t, c.field = some (name, t) → ¬secret name)
    (h : List.Forall₂ (Record.AgreeOff secret) members members') : c.compute members = c.compute members' := by
  unfold compute sum
  rw [values_congr hc h, h.length_eq]

end Column

namespace Group

variable {secret : String → Prop} {fields : List String}

/-- Groups with one key whose members agree. -/
structure Alike (secret : String → Prop) (g g' : Group) : Prop where
  /-- The keys are the same. -/
  key : g.key = g'.key
  /-- Corresponding members agree. -/
  members : List.Forall₂ (Record.AgreeOff secret) g.members g'.members

theorem keyOf_congr (hfields : ∀ f ∈ fields, ¬secret f) {a b : Record} (h : Record.AgreeOff secret a b) :
    keyOf fields a = keyOf fields b :=
  List.map_congr_left fun f hf => h.value (hfields f hf)

theorem add_forall₂ (key : List Value) {r r' : Record} (hr : Record.AgreeOff secret r r') {gs gs' : List Group}
    (h : List.Forall₂ (Alike secret) gs gs') : List.Forall₂ (Alike secret) (add key r gs) (add key r' gs') := by
  induction h with
  | nil => exact .cons ⟨rfl, .cons hr .nil⟩ .nil
  | @cons g g' rest rest' hg hrest ih =>
    simp only [add, hg.key]
    split
    · exact .cons ⟨rfl, List.rel_append hg.members (.cons hr .nil)⟩ hrest
    · exact .cons hg ih

/-- Rows that agree are grouped alike by what is not secret. -/
theorem ofRecords_forall₂ (hfields : ∀ f ∈ fields, ¬secret f) {rows rows' : List Record}
    (h : List.Forall₂ (Record.AgreeOff secret) rows rows') :
    List.Forall₂ (Alike secret) (ofRecords fields rows) (ofRecords fields rows') := by
  refine List.rel_foldl ?_ .nil h
  intro gs gs' hgs r r' hr
  dsimp only
  rw [keyOf_congr hfields hr]
  exact add_forall₂ _ hr hgs

variable {columns : List Column}

theorem row_congr (hcolumns : ∀ c ∈ columns, ∀ name t, c.field = some (name, t) → ¬secret name) {g g' : Group}
    (h : Alike secret g g') : g.row fields columns = g'.row fields columns := by
  unfold row
  rw [h.key]
  generalize (fields.zip g'.key).foldl (fun row p => Dict.insert row p.1 p.2) ([] : Record) = start
  induction columns generalizing start with
  | nil => rfl
  | cons c rest ih =>
    obtain ⟨hc, hrest⟩ := List.forall_mem_cons.mp hcolumns
    rw [List.foldlM_cons, List.foldlM_cons, Column.compute_congr hc h.members]
    exact bind_congr fun row => ih hrest row

/-- Groups that are alike have one row each, and pass the same conditions. -/
theorem rows_congr (hcolumns : ∀ c ∈ columns, ∀ name t, c.field = some (name, t) → ¬secret name)
    (having : Predicate) {gs gs' : List Group} (h : List.Forall₂ (Alike secret) gs gs') :
    rows fields columns having gs = rows fields columns having gs' := by
  induction h with
  | nil => rfl
  | cons hg _ ih => rw [rows, rows, row_congr hcolumns hg, ih]

end Group

namespace Query

variable {policy : Policy} {e : EntityPolicy} {schema : EntitySchema} {secret : String → Prop}
  {rows rows' : List Record}

/-- The rows of a grouped query do not depend on secrets. -/
theorem groupRows_congr {q : Query} (hadmissible : q.AdmissibleGrouping policy e)
    (hselectable : ∀ f ∈ e.selectable, ¬secret f) (h : List.Forall₂ (Record.AgreeOff secret) rows rows') :
    q.groupRows schema rows = q.groupRows schema rows' := by
  unfold groupRows
  cases hgrouping : q.groupBy with
  | none => rfl
  | some g =>
    have hfields : ∀ f ∈ g.fields, ¬secret f := by
      intro f hf
      exact hselectable f (hadmissible.fields f (by simpa [groupFields, hgrouping] using hf))
    rw [← Outcome.same_eq_iff]
    refine Same.bind_left _ fun fieldTypes _ => ?_
    refine Same.bind_left _ fun columns hcolumns => ?_
    refine Same.bind_left _ fun having _ => ?_
    have hreads : ∀ c ∈ columns, ∀ name t, c.field = some (name, t) → ¬secret name := by
      intro c hc name t hname
      obtain ⟨a, ha, hresolve⟩ := Outcome.exists_mem_of_mapM hcolumns hc
      exact hselectable name (Column.resolve_reads (hadmissible.aggregations a ha) hresolve name t hname)
    rw [Group.rows_congr hreads having (Group.ofRecords_forall₂ hfields h)]
    exact Outcome.same_eq_iff.mpr rfl

end Query

/-! ## Sort keys -/

namespace Query

/-- The keys of the inner-joined entities are their attached identities. -/
theorem mem_foldlM_withJoinedIdentity {lookUp : String → Option EntitySchema} {joins : List Join}
    {keys keys' : List SortKey} (h : joins.foldlM (withJoinedIdentity lookUp) keys = .ok keys') {k : SortKey}
    (hk : k ∈ keys') :
    k ∈ keys ∨ ∃ j ∈ joins, JoinKind.parse? j.kind = some .join ∧
      ∃ joined, lookUp j.entity = some joined ∧
        k = SortKey.typed { field := joined.joinedIdentity } (joined.fieldType? joined.identity) := by
  induction joins generalizing keys with
  | nil =>
    obtain rfl := Except.ok.inj h
    exact .inl hk
  | cons j rest ih =>
    rw [List.foldlM_cons] at h
    obtain ⟨between, hbetween, h⟩ := Outcome.bind_eq_ok_iff.mp h
    rcases ih h with hmem | ⟨j', hj', hjoined⟩
    · rw [withJoinedIdentity] at hbetween
      split at hbetween
      · rename_i hkind
        split at hbetween
        · rename_i joined hlookUp
          obtain rfl := Except.ok.inj hbetween
          rcases mem_withTieBreaker hmem with hmem | rfl
          · exact .inl hmem
          · exact .inr ⟨j, List.mem_cons_self, hkind, joined, hlookUp, rfl⟩
        · simp at hbetween
      · obtain rfl := Except.ok.inj hbetween
        exact .inl hmem
    · exact .inr ⟨j', List.mem_cons_of_mem _ hj', hjoined⟩

/-- The keys of an ungrouped query are the requested ones, the identity, and attached identities. -/
theorem recordKeys_fields {q : Query} {lookUp : String → Option EntitySchema} {schema : EntitySchema}
    {b : Binding} {keys : List SortKey} (h : q.recordKeys lookUp schema b = .ok keys) {k : SortKey}
    (hk : k ∈ keys) :
    (∃ s ∈ q.sort, k.field = s.field) ∨ k.field = schema.identity ∨
      ∃ j ∈ q.joins, JoinKind.parse? j.kind = some .join ∧
        ∃ joined, lookUp j.entity = some joined ∧ k.field = joined.joinedIdentity := by
  obtain ⟨requested, hrequested, h⟩ := Outcome.bind_eq_ok_iff.mp h
  split at h
  · simp at h
  · rcases mem_foldlM_withJoinedIdentity h hk with hmem | hjoined
    · rcases mem_withTieBreaker hmem with hmem | rfl
      · obtain ⟨s, hs, hkey⟩ := Outcome.exists_mem_of_mapM hrequested hmem
        obtain ⟨direction, _, hkey⟩ := Outcome.bind_eq_ok_iff.mp hkey
        split at hkey
        · simp at hkey
        · obtain rfl := Except.ok.inj hkey
          exact .inl ⟨s, hs, rfl⟩
      · exact .inr (.inl rfl)
    · obtain ⟨j, hj, hkind, joined, hlookUp, rfl⟩ := hjoined
      exact .inr (.inr ⟨j, hj, hkind, joined, hlookUp, rfl⟩)

theorem mem_orient {reversed : Bool} {keys : List SortKey} {k : SortKey} (h : k ∈ orient reversed keys) :
    ∃ k' ∈ keys, k.field = k'.field ∧ k.temporal = k'.temporal := by
  rw [orient] at h
  split at h
  · obtain ⟨k', hk', rfl⟩ := List.mem_map.mp h
    exact ⟨k', hk', rfl, rfl⟩
  · exact ⟨k, h, rfl, rfl⟩

theorem exists_mem_orient (reversed : Bool) {keys : List SortKey} {k : SortKey} (h : k ∈ keys) :
    ∃ k' ∈ orient reversed keys, k'.field = k.field := by
  rw [orient]
  split
  · exact ⟨k.reversed, List.mem_map_of_mem h, rfl⟩
  · exact ⟨k, h, rfl⟩

end Query

/-! ## Shaped rows -/

/-- Rows with one shape that no sort key tells apart. -/
structure ShapedRow.Alike (keys : List SortKey) (row row' : ShapedRow) : Prop where
  /-- The shapes are the same. -/
  shaped : row.shaped = row'.shaped
  /-- The values of the keys are the same. -/
  keyed : ∀ k ∈ keys, Record.value row.source k.field = Record.value row'.source k.field

/-- A binding only reads the sources of its members. -/
theorem Binding.project_congr {b : Binding} {r r' : Record}
    (h : ∀ m ∈ b.members, Record.value r m.source = Record.value r' m.source) : b.project r = b.project r' := by
  have hmembers : b.members.map (fun m => (m.target, Record.value r m.source)) =
      b.members.map fun m => (m.target, Record.value r' m.source) :=
    List.map_congr_left fun m hm => by rw [h m hm]
  rw [project, project, hmembers]

namespace Query

variable {policy : Policy} {e : EntityPolicy} {schema : EntitySchema} {secret : String → Prop}
  {rows rows' : List Record}

/-- The rows that a query sorts do not depend on secrets. -/
theorem sorting_same {q : Query} {lookUp : String → Option EntitySchema} {binding : Option Binding}
    (hadmissible : q.AdmissibleGrouping policy e) (hselectable : ∀ f ∈ e.selectable, ¬secret f)
    (hsources : ∀ b, binding = some b → ∀ m ∈ b.members, ¬secret m.source)
    (hkeys : ∀ b, binding = some b → ∀ keys, q.recordKeys lookUp schema b = .ok keys →
      ∀ k ∈ keys, ¬secret k.field)
    (h : List.Forall₂ (Record.AgreeOff secret) rows rows') :
    Same (fun a b => a.2 = b.2 ∧
        List.Forall₂ (fun r r' => ShapedRow.Alike a.2 (.ofRecord binding r) (.ofRecord binding r')) a.1 b.1)
      (q.sorting lookUp schema binding rows) (q.sorting lookUp schema binding rows') := by
  refine Same.bind_left _ fun reversed _ => ?_
  cases binding with
  | none =>
    dsimp only
    rw [groupRows_congr hadmissible hselectable h]
    refine Same.bind_left _ fun grouped _ => .ok ⟨rfl, ?_⟩
    rw [List.forall₂_same]
    exact fun row _ => ⟨rfl, fun _ _ => rfl⟩
  | some b =>
    refine Same.bind_left _ fun keys hrecordKeys => .ok ⟨rfl, h.imp fun r r' hr => ⟨?_, fun k hk => hr.value ?_⟩⟩
    · exact Binding.project_congr fun m hm => hr.value (hsources b rfl m hm)
    · obtain ⟨k', hk', hfield, _⟩ := mem_orient hk
      rw [hfield]
      exact hkeys b rfl keys hrecordKeys k' hk'

/-- Stocks with one answer. -/
structure Stock.Alike (st st' : Stock) : Prop where
  /-- The bindings are the same. -/
  binding : st.binding = st'.binding
  /-- The keys are the same. -/
  keys : st.keys = st'.keys
  /-- Corresponding rows have one shape and are not told apart by the keys. -/
  rows : List.Forall₂ (fun r r' => ShapedRow.Alike st.keys (.ofRecord st.binding r) (.ofRecord st.binding r'))
    st.rows st'.rows
  /-- As many records pass the filters. -/
  passing : st.passing = st'.passing
  /-- As many records are looked at. -/
  examined : st.examined = st'.examined

/-- Stocks that are alike are sorted alike, unless both sorts give up. -/
theorem Stock.Alike.sort?_rel {st st' : Stock} (h : st.Alike st') :
    Option.Rel (List.Forall₂ fun r r' =>
        ShapedRow.Alike st.keys (.ofRecord st.binding r) (.ofRecord st.binding r'))
      (SortKey.sort? st.keys st.rows) (SortKey.sort? st'.keys st'.rows) := by
  rw [← h.keys]
  exact SortKey.sortBy?_rel (fun a a' b b' ha hb => SortKey.compareRecords_congr ha.keyed hb.keyed) h.rows

end Query

/-! ## Finished rows and pages -/

section Rows

variable {α β : Type} {R : α → β → Prop} {rows : List α} {rows' : List β}

namespace Operation

/-- Operations on finished rows look at shapes only. -/
theorem onAllRows_same {shape : α → Record} {shape' : β → Record} (hR : ∀ a b, R a b → shape a = shape' b)
    (os : List Operation) (h : List.Forall₂ R rows rows') :
    Same (List.Forall₂ R) (onAllRows shape os rows) (onAllRows shape' os rows') := by
  induction os generalizing rows rows' with
  | nil => exact .ok h
  | cons o rest ih =>
    refine Same.bind ?_ fun _ _ h => ih h
    refine Same.bind_left _ fun kind _ => ?_
    cases kind with
    | distinct =>
      have htexts : ∀ a a' b b', R a a' → R b b' →
          ((Value.object (shape a)).toText = (Value.object (shape b)).toText ↔
            (Value.object (shape' a')).toText = (Value.object (shape' b')).toText) := by
        intro a a' b b' ha hb
        rw [hR a a' ha, hR b b' hb]
      exact .ok (distinctBy_forall₂ htexts .nil h)
    | first | firstOrDefault => exact .ok (List.forall₂_take 1 h)
    | single | singleOrDefault => exact .ok (List.forall₂_take 2 h)
    | selectMany | skip | take | any | all | reverse => exact .ok h

end Operation

namespace Page

variable {keys : List SortKey} {record : α → Record} {record' : β → Record}

theorem getLast?_map_congr {γ : Type} {f : α → γ} {g : β → γ} (hfg : ∀ a b, R a b → f a = g b)
    (h : List.Forall₂ R rows rows') : rows.getLast?.map f = rows'.getLast?.map g := by
  have hmap : rows.map f = rows'.map g := by
    rw [← List.forall₂_eq_eq_eq]
    exact List.rel_map hfg h
  rw [← List.getLast?_map, ← List.getLast?_map, hmap]

/-- Rows that no key tells apart are cut into pages alike, with one cursor. -/
theorem ofRows_forall₂
    (hR : ∀ a b, R a b → ∀ k ∈ keys, Record.value (record a) k.field = Record.value (record' b) k.field)
    (size : Nat) (h : List.Forall₂ R rows rows') :
    List.Forall₂ R (ofRows keys size record rows).rows (ofRows keys size record' rows').rows ∧
      (ofRows keys size record rows).next = (ofRows keys size record' rows').next := by
  have hahead := List.forall₂_take (size + 1) h
  have hpage := List.forall₂_take size hahead
  refine ⟨hpage, ?_⟩
  have hcursor : ∀ a b, R a b →
      (Cursor.ofRecord keys (record a)).encode = (Cursor.ofRecord keys (record' b)).encode := by
    intro a b hab
    have hvalues : keys.map (fun k => (k.field, Record.value (record a) k.field)) =
        keys.map fun k => (k.field, Record.value (record' b) k.field) :=
      List.map_congr_left fun k hk => by rw [hR a b hab k hk]
    rw [Cursor.ofRecord, Cursor.ofRecord, hvalues]
  simp only [ofRows, hahead.length_eq, getLast?_map_congr hcursor hpage]

/-- Related rows are answered with related pages, one cursor and one incident. -/
theorem ofRequest_forall₂
    (hR : ∀ a b, R a b → ∀ k ∈ keys, Record.value (record a) k.field = Record.value (record' b) k.field)
    (size : Nat) (cursor : Option String) (h : List.Forall₂ R rows rows') :
    List.Forall₂ R (ofRequest keys size cursor record rows).1.rows (ofRequest keys size cursor record' rows').1.rows ∧
      (ofRequest keys size cursor record rows).1.next = (ofRequest keys size cursor record' rows').1.next := by
  have hslice : ∀ place,
      List.Forall₂ R (slice keys size place record rows).rows (slice keys size place record' rows').rows ∧
        (slice keys size place record rows).next = (slice keys size place record' rows').next := by
    intro place
    refine ofRows_forall₂ hR size (List.rel_filter ?_ h)
    intro a b hab
    have hafter : isAfter keys place (record a) = isAfter keys place (record' b) := by
      cases place with
      | none => rfl
      | some c =>
        simp only [isAfter, Option.all_some,
          SortKey.compareRecords_congr (hR a b hab) (fun k _ => (rfl : Record.value c.values k.field = _))]
    simp only [hafter]
  unfold ofRequest
  split
  · exact hslice _
  · exact hslice none

end Page

end Rows

namespace Query

/-- Of two stocks that are alike, the sort of one gives up if that of the other does. -/
theorem Stock.Alike.sort?_eq_none_iff {st st' : Stock} (h : st.Alike st') :
    SortKey.sort? st.keys st.rows = none ↔ SortKey.sort? st'.keys st'.rows = none := by
  have hrel := h.sort?_rel
  generalize SortKey.sort? st.keys st.rows = rows at hrel ⊢
  generalize SortKey.sort? st'.keys st'.rows = rows' at hrel ⊢
  cases hrel <;> simp

/-- Findings with one answer. -/
structure Findings.Alike (f f' : Findings) : Prop where
  /-- The bindings are the same. -/
  binding : f.binding = f'.binding
  /-- The keys are the same. -/
  keys : f.keys = f'.keys
  /-- Corresponding rows have one shape and are not told apart by the keys. -/
  rows : List.Forall₂ (ShapedRow.Alike f.keys) f.rows f'.rows
  /-- As many records pass the filters. -/
  passing : f.passing = f'.passing
  /-- As many records are looked at. -/
  examined : f.examined = f'.examined

/-- Stocks that are alike have findings that are alike. -/
theorem Stock.Alike.findings {st st' : Stock} (h : st.Alike st') (q : Query) :
    Same Findings.Alike (st.sorted >>= st.finish q) (st'.sorted >>= st'.finish q) := by
  have hsorted : Same (List.Forall₂ fun r r' =>
      ShapedRow.Alike st.keys (.ofRecord st.binding r) (.ofRecord st.binding r')) st.sorted st'.sorted := by
    have hrel := h.sort?_rel
    rw [Stock.sorted, Stock.sorted]
    generalize SortKey.sort? st.keys st.rows = rows at hrel ⊢
    generalize SortKey.sort? st'.keys st'.rows = rows' at hrel ⊢
    cases hrel with
    | none => exact .error _
    | some hrows => exact .ok hrows
  refine hsorted.bind fun rows rows' hrows => ?_
  have hshaped : List.Forall₂ (ShapedRow.Alike st.keys) (rows.map (ShapedRow.ofRecord st.binding))
      (rows'.map (ShapedRow.ofRecord st'.binding)) := by
    rw [← h.binding, List.forall₂_map_left_iff, List.forall₂_map_right_iff]
    exact hrows
  refine (Operation.onAllRows_same (fun a b hab => hab.shaped) q.operations hshaped).bind ?_
  intro finished finished' hfinished
  exact .ok ⟨h.binding, h.keys, hfinished, h.passing, h.examined⟩

/-- Findings that are alike have one response. -/
theorem respond_congr {α : Type} (q : Query) (policy : Policy) (target : Target α) {f f' : Findings}
    (h : f.Alike f') : q.respond policy target f = q.respond policy target f' := by
  obtain ⟨hrows, hnext⟩ := Page.ofRequest_forall₂ (fun a b hab => hab.keyed)
    (policy.effectivePageSize (q.page.bind PageRequest.size)) (q.page.bind PageRequest.cursor) h.rows
  have hitems : ∀ {rows rows' : List ShapedRow}, List.Forall₂ (ShapedRow.Alike f.keys) rows rows' →
      rows.mapM (q.item target f.binding) = rows'.mapM (q.item target f.binding) := by
    intro rows rows' hrows
    induction hrows with
    | nil => rfl
    | cons hrow _ ih =>
      have hitem : ∀ {row row' : ShapedRow}, ShapedRow.Alike f.keys row row' →
          q.item target f.binding row = q.item target f.binding row' := by
        intro row row' hrow
        unfold item
        rw [hrow.shaped]
      rw [List.mapM_cons, List.mapM_cons, hitem hrow, ih]
  unfold respond pageOf
  rw [← h.keys, ← h.binding, ← h.passing, ← h.examined]
  dsimp only
  rw [hnext, hitems hrows]

end Query

end GuardedQuery
