import GuardedQuery.Proofs.Agreement
import GuardedQuery.Proofs.Evaluation

/-!
# Rows of two runs

A query that runs over two stores meets rows that agree off the secrets. Joins and operations on records
keep them so, as long as they only name fields that are not secret; what a join attaches is a secret no
longer, since it attaches the same values in both runs.

## Main definitions

* `Rows.Alike`: rows that agree off the secrets, and whose identities determine the secrets in either run.
* `Join.attachedNames`: the members that a join attaches.

## Main statements

* `Join.attach_alike`: joins keep rows alike.
* `Operation.onAllRecords_same`: operations on records keep rows alike.
-/

namespace GuardedQuery

open Outcome (Same)

/-! ## Alike rows -/

namespace Rows

/-- Rows that agree off the secrets, and whose identities determine the secrets in either run. -/
structure Alike (secret : String → Prop) (identity : String) (rows rows' : List Record) : Prop where
  /-- Corresponding rows agree. -/
  agree : List.Forall₂ (Record.AgreeOff secret) rows rows'
  /-- The rows of the first run. -/
  left : Record.Identified secret identity rows
  /-- The rows of the second run. -/
  right : Record.Identified secret identity rows'

variable {secret : String → Prop} {identity : String} {rows rows' : List Record}

/-- Choosing corresponding rows keeps rows alike. -/
theorem Alike.choose (h : Alike secret identity rows rows') {fewer fewer' : List Record}
    (hagree : List.Forall₂ (Record.AgreeOff secret) fewer fewer') (hleft : ∀ r ∈ fewer, r ∈ rows)
    (hright : ∀ r ∈ fewer', r ∈ rows') : Alike secret identity fewer fewer' :=
  ⟨hagree, h.left.mono hleft, h.right.mono hright⟩

theorem Alike.filter (h : Alike secret identity rows rows') {p p' : Record → Bool}
    (hp : ∀ a b, Record.AgreeOff secret a b → p a = p' b) :
    Alike secret identity (rows.filter p) (rows'.filter p') := by
  refine h.choose (List.rel_filter ?_ h.agree) (fun r hr => List.mem_of_mem_filter hr)
    fun r hr => List.mem_of_mem_filter hr
  intro a b hab
  simp only [hp a b hab]

theorem Alike.take (h : Alike secret identity rows rows') (n : Nat) :
    Alike secret identity (rows.take n) (rows'.take n) :=
  h.choose (List.forall₂_take n h.agree) (fun _ hr => List.mem_of_mem_take hr) fun _ hr => List.mem_of_mem_take hr

theorem Alike.drop (h : Alike secret identity rows rows') (n : Nat) :
    Alike secret identity (rows.drop n) (rows'.drop n) :=
  h.choose (List.forall₂_drop n h.agree) (fun _ hr => List.mem_of_mem_drop hr) fun _ hr => List.mem_of_mem_drop hr

theorem Alike.reverse (h : Alike secret identity rows rows') :
    Alike secret identity rows.reverse rows'.reverse :=
  h.choose (List.rel_reverse h.agree) (fun _ hr => List.mem_reverse.mp hr) fun _ hr => List.mem_reverse.mp hr

/-- Distinct rows are a part of the rows. -/
theorem mem_of_mem_distinctBy {α : Type} {shape : α → Record} {seen : List String} {l : List α} {a : α}
    (h : a ∈ distinctBy shape seen l) : a ∈ l := by
  induction l generalizing seen with
  | nil => simp [distinctBy] at h
  | cons b rest ih =>
    simp only [distinctBy] at h
    split at h
    · exact List.mem_cons_of_mem _ (ih h)
    · rcases List.mem_cons.mp h with rfl | h
      · exact List.mem_cons_self
      · exact List.mem_cons_of_mem _ (ih h)

/-- Distinct rows are the same ones in both runs, although they are told apart by secrets as well. -/
theorem Alike.distinct (h : Alike secret identity rows rows') (hidentity : ¬secret identity) :
    Alike secret identity (distinctBy id [] rows) (distinctBy id [] rows') := by
  refine h.choose ?_ (fun _ hr => mem_of_mem_distinctBy hr) fun _ hr => mem_of_mem_distinctBy hr
  have hmembers : List.Forall₂ (fun a b => Record.AgreeOff secret a b ∧ a ∈ rows ∧ b ∈ rows') rows rows' := by
    rw [List.forall₂_iff_zip]
    refine ⟨h.agree.length_eq, ?_⟩
    intro a b hab
    exact ⟨List.forall₂_zip h.agree hab, (List.of_mem_zip hab).1, (List.of_mem_zip hab).2⟩
  have htexts : ∀ a a' b b' : Record,
      (Record.AgreeOff secret a a' ∧ a ∈ rows ∧ a' ∈ rows') → (Record.AgreeOff secret b b' ∧ b ∈ rows ∧ b' ∈ rows') →
      ((Value.object (id a)).toText = (Value.object (id b)).toText ↔
        (Value.object (id a')).toText = (Value.object (id b')).toText) := by
    rintro a a' b b' ⟨ha, hmem, hmem'⟩ ⟨hb, hmemB, hmemB'⟩
    exact Record.sameText_iff hidentity h.left h.right ha hb ⟨hmem, hmemB⟩ ⟨hmem', hmemB'⟩
  exact (distinctBy_forall₂ htexts .nil hmembers).imp fun _ _ hab => hab.1

end Rows

/-! ## Joins -/

namespace Join

/-- The names of the members that a join attaches. -/
def attachedNames (j : Join) (kind : JoinKind) (joined : EntitySchema) : List String :=
  match kind with
  | .join => joined.joinedIdentity :: j.select.map fun f => s!"{joined.name}.{f}"
  | .groupJoin => [joined.name]

/-! ### One row -/

section Insertions

variable {γ δ : Type} {secret : String → Prop}

/-- Fields that are given the same values in both records are secrets no longer. -/
theorem agreeOff_foldl_insert {a b : Record} (h : Record.AgreeOff secret a b) (l : List γ) (name : γ → String)
    {v v' : γ → Value} (hv : ∀ x ∈ l, v x = v' x) :
    Record.AgreeOff (fun f => secret f ∧ f ∉ l.map name)
      (l.foldl (fun r x => Dict.insert r (name x) (v x)) a)
      (l.foldl (fun r x => Dict.insert r (name x) (v' x)) b) := by
  induction l generalizing a b secret with
  | nil => exact h.mono fun f hf => ⟨hf, by simp⟩
  | cons x rest ih =>
    obtain ⟨hx, hrest⟩ := List.forall_mem_cons.mp hv
    rw [List.foldl_cons, List.foldl_cons, ← hx]
    refine (ih (h.insert (name x) (v x)) hrest).mono ?_
    rintro f ⟨⟨hf, hne⟩, hmem⟩
    exact ⟨hf, by simpa [hne] using hmem⟩

theorem sorted_foldl_insert {r : Record} (h : Dict.Sorted r) (l : List γ) (name : γ → String) (v : γ → Value) :
    Dict.Sorted (l.foldl (fun r x => Dict.insert r (name x) (v x)) r) := by
  induction l generalizing r with
  | nil => exact h
  | cons x rest ih => exact ih (Dict.sorted_insert h (name x) (v x))

theorem names_foldl_insert_congr {a b : Record} (h : Dict.names a = Dict.names b) (l : List γ)
    (name : γ → String) (v v' : γ → Value) :
    Dict.names (l.foldl (fun r x => Dict.insert r (name x) (v x)) a) =
      Dict.names (l.foldl (fun r x => Dict.insert r (name x) (v' x)) b) := by
  induction l generalizing a b with
  | nil => exact h
  | cons x rest ih => exact ih (Dict.names_insert_congr h (name x) (v x) (v' x))

theorem get?_foldl_insert (r : Record) (l : List γ) (name : γ → String) (v : γ → Value) {f : String}
    (hf : f ∉ l.map name) : Dict.get? (l.foldl (fun r x => Dict.insert r (name x) (v x)) r) f = Dict.get? r f := by
  induction l generalizing r with
  | nil => rfl
  | cons x rest ih =>
    rw [List.map_cons, List.mem_cons, not_or] at hf
    rw [List.foldl_cons, ih _ hf.2, Dict.get?_insert, if_neg (Ne.symm hf.1)]

end Insertions

/-- Nothing but the attached members is new in a row that comes of a join. -/
theorem attach_keeps {j : Join} {kind : JoinKind} {joined : EntitySchema} {candidates : List Record}
    {row r : Record} (h : r ∈ j.attach kind joined candidates row) {f : String}
    (hf : f ∉ j.attachedNames kind joined) : Dict.get? r f = Dict.get? row f := by
  cases kind with
  | join =>
    obtain ⟨candidate, _, rfl⟩ := List.mem_map.mp h
    rw [attachedNames, List.mem_cons, not_or] at hf
    rw [beside, get?_foldl_insert _ _ _ _ hf.2, Dict.get?_insert, if_neg (Ne.symm hf.1)]
  | groupJoin =>
    obtain rfl := List.mem_singleton.mp h
    rw [attachedNames, List.mem_singleton] at hf
    rw [Dict.get?_insert, if_neg (Ne.symm hf)]

theorem attach_sorted {j : Join} {kind : JoinKind} {joined : EntitySchema} {candidates : List Record}
    {row r : Record} (h : r ∈ j.attach kind joined candidates row) (hrow : Dict.Sorted row) : Dict.Sorted r := by
  cases kind with
  | join =>
    obtain ⟨candidate, _, rfl⟩ := List.mem_map.mp h
    exact sorted_foldl_insert (Dict.sorted_insert hrow _ _) _ _ _
  | groupJoin =>
    obtain rfl := List.mem_singleton.mp h
    exact Dict.sorted_insert hrow _ _

/-- Rows of one shape become rows of one shape. -/
theorem attach_names {j : Join} {kind : JoinKind} {joined : EntitySchema} {candidates : List Record}
    {a b r t : Record} (hr : r ∈ j.attach kind joined candidates a) (ht : t ∈ j.attach kind joined candidates b)
    (hnames : Dict.names a = Dict.names b) : Dict.names r = Dict.names t := by
  cases kind with
  | join =>
    obtain ⟨candidate, _, rfl⟩ := List.mem_map.mp hr
    obtain ⟨candidate', _, rfl⟩ := List.mem_map.mp ht
    exact names_foldl_insert_congr (Dict.names_insert_congr hnames _ _ _) _ _ _ _
  | groupJoin =>
    obtain rfl := List.mem_singleton.mp hr
    obtain rfl := List.mem_singleton.mp ht
    exact Dict.names_insert_congr hnames _ _ _

/-- What a join reads: none of it is secret in the rows or hidden in the joined records. -/
structure Open (j : Join) (secret hidden : String → Prop) (joined : EntitySchema) : Prop where
  /-- The compared fields. -/
  compared : ∀ pair ∈ j.on, ¬secret pair.1 ∧ ¬hidden pair.2
  /-- The selected fields. -/
  selected : ∀ f ∈ j.select, ¬hidden f
  /-- The identity of the joined record. -/
  identity : ¬hidden joined.identity

section

variable {j : Join} {kind : JoinKind} {joined : EntitySchema} {secret hidden : String → Prop}

/-- Rows that agree have corresponding matches. -/
theorem matches_forall₂ (hopen : j.Open secret hidden joined) {row row' : Record}
    (hrow : Record.AgreeOff secret row row') {candidates candidates' : List Record}
    (hcandidates : List.Forall₂ (Record.AgreeOff hidden) candidates candidates') :
    List.Forall₂ (Record.AgreeOff hidden) (candidates.filter (j.matching row))
      (candidates'.filter (j.matching row')) := by
  refine List.rel_filter ?_ hcandidates
  intro c c' hc
  have hsame : j.matching row c = j.matching row' c' := by
    rw [Bool.eq_iff_iff, matching, matching, List.all_eq_true, List.all_eq_true]
    refine forall₂_congr ?_
    intro pair hpair
    obtain ⟨hsource, htarget⟩ := hopen.compared pair hpair
    dsimp only
    rw [hrow.value hsource, hc.value htarget]
  simp only [hsame]

/-- Rows that agree are joined with the same values. -/
theorem attach_forall₂ (hopen : j.Open secret hidden joined) {row row' : Record}
    (hrow : Record.AgreeOff secret row row') {candidates candidates' : List Record}
    (hcandidates : List.Forall₂ (Record.AgreeOff hidden) candidates candidates') :
    List.Forall₂ (Record.AgreeOff fun f => secret f ∧ f ∉ j.attachedNames kind joined)
      (j.attach kind joined candidates row) (j.attach kind joined candidates' row') := by
  have hfound := matches_forall₂ hopen hrow hcandidates
  cases kind with
  | join =>
    refine List.rel_map ?_ hfound
    intro c c' hc
    have hfirst := hrow.insert joined.joinedIdentity (Record.value c joined.identity)
    have hidentity := hc.value hopen.identity
    unfold beside
    rw [← hidentity]
    refine (agreeOff_foldl_insert hfirst j.select _ fun f hf => hc.value (hopen.selected f hf)).mono ?_
    rintro f ⟨⟨hf, hne⟩, hmem⟩
    exact ⟨hf, by simpa [attachedNames, hne] using hmem⟩
  | groupJoin =>
    have helements : (candidates.filter (j.matching row)).map j.element =
        (candidates'.filter (j.matching row')).map j.element := by
      rw [← List.forall₂_eq_eq_eq]
      refine List.rel_map ?_ hfound
      intro c c' hc
      have hmembers : (j.select.map fun f => (f, Record.value c f)) = j.select.map fun f => (f, Record.value c' f) :=
        List.map_congr_left fun f hf => by rw [hc.value (hopen.selected f hf)]
      rw [element, element, hmembers]
    unfold attach
    dsimp only
    rw [← helements]
    refine .cons ((hrow.insert joined.name _).mono ?_) .nil
    rintro f ⟨hf, hne⟩
    exact ⟨hf, by simpa [attachedNames] using hne⟩

/-- **A join keeps rows alike**, and what it attaches is a secret no longer. -/
theorem attach_alike (hopen : j.Open secret hidden joined) {identity : String}
    (hidentity : identity ∉ j.attachedNames kind joined) {rows rows' : List Record}
    (hrows : Rows.Alike secret identity rows rows') {candidates candidates' : List Record}
    (hcandidates : List.Forall₂ (Record.AgreeOff hidden) candidates candidates') :
    Rows.Alike (fun f => secret f ∧ f ∉ j.attachedNames kind joined) identity
      (rows.flatMap (j.attach kind joined candidates)) (rows'.flatMap (j.attach kind joined candidates')) := by
  have hidentified : ∀ {rows candidates : List Record}, Record.Identified secret identity rows →
      Record.Identified (fun f => secret f ∧ f ∉ j.attachedNames kind joined) identity
        (rows.flatMap (j.attach kind joined candidates)) := by
    intro rows candidates h
    refine h.derive (fun f hf => hf.1) ?_ ?_ ?_
    · intro r hr
      obtain ⟨row, hrow, hr⟩ := List.mem_flatMap.mp hr
      exact attach_sorted hr (h.sorted row hrow)
    · intro a ha b hb
      obtain ⟨row, hrow, ha⟩ := List.mem_flatMap.mp ha
      obtain ⟨row', hrow', hb⟩ := List.mem_flatMap.mp hb
      exact attach_names ha hb (h.names row hrow row' hrow')
    · intro r hr
      obtain ⟨row, hrow, hr⟩ := List.mem_flatMap.mp hr
      exact ⟨row, hrow, attach_keeps hr hidentity, fun f hf => attach_keeps hr hf.2⟩
  refine ⟨?_, hidentified hrows.left, hidentified hrows.right⟩
  exact List.rel_flatMap hrows.agree fun _ _ hrow => attach_forall₂ hopen hrow hcandidates

end

end Join

/-! ## Operations on records -/

namespace Operation

/-- The items of a row's collection take its place one by one. -/
theorem mem_unwind {field : String} {row r : Record} (h : r ∈ unwind field row) :
    ∃ item, r = Dict.insert row field item := by
  rw [unwind] at h
  split at h
  · obtain ⟨item, _, rfl⟩ := List.mem_map.mp h
    exact ⟨item, rfl⟩
  · simp at h

/-- Unwinding an open collection keeps rows alike. -/
theorem unwind_alike {secret : String → Prop} {identity field : String} (hfield : ¬secret field)
    (hidentity : field ≠ identity) {rows rows' : List Record} (h : Rows.Alike secret identity rows rows') :
    Rows.Alike secret identity (rows.flatMap (unwind field)) (rows'.flatMap (unwind field)) := by
  have hidentified : ∀ {rows : List Record}, Record.Identified secret identity rows →
      Record.Identified secret identity (rows.flatMap (unwind field)) := by
    intro rows h
    refine h.derive (fun f hf => hf) ?_ ?_ ?_
    · intro r hr
      obtain ⟨row, hrow, hr⟩ := List.mem_flatMap.mp hr
      obtain ⟨item, rfl⟩ := mem_unwind hr
      exact Dict.sorted_insert (h.sorted row hrow) field item
    · intro a ha b hb
      obtain ⟨row, hrow, ha⟩ := List.mem_flatMap.mp ha
      obtain ⟨row', hrow', hb⟩ := List.mem_flatMap.mp hb
      obtain ⟨item, rfl⟩ := mem_unwind ha
      obtain ⟨item', rfl⟩ := mem_unwind hb
      exact Dict.names_insert_congr (h.names row hrow row' hrow') field item item'
    · intro r hr
      obtain ⟨row, hrow, hr⟩ := List.mem_flatMap.mp hr
      obtain ⟨item, rfl⟩ := mem_unwind hr
      refine ⟨row, hrow, by rw [Dict.get?_insert, if_neg hidentity], ?_⟩
      intro f hf
      have hne : field ≠ f := fun heq => hfield (heq ▸ hf)
      rw [Dict.get?_insert, if_neg hne]
  refine ⟨?_, hidentified h.left, hidentified h.right⟩
  refine List.rel_flatMap h.agree ?_
  intro a b hab
  unfold unwind
  rw [hab.agree field hfield]
  split
  · rw [List.forall₂_map_left_iff, List.forall₂_map_right_iff, List.forall₂_same]
    exact fun item _ => (hab.insert field item).mono fun f hf => hf.1
  · exact .nil

/-- The collection that an operation unwinds is declared as one. -/
theorem unwoundField_eq_ok {o : Operation} {schema : EntitySchema} {field : String}
    (h : o.unwoundField schema = .ok field) :
    o.textParameter? "field" = some field ∧ ∃ t, schema.fieldType? field = some (.array t) := by
  rw [unwoundField] at h
  split at h
  · simp at h
  · rename_i name hname
    split at h
    · rename_i t ht
      obtain rfl := Except.ok.inj h
      exact ⟨hname, t, ht⟩
    · simp at h
    · simp at h

/-- A field that an admissible operation unwinds may be selected. -/
theorem Admissible.unwound_selectable {p : Policy} {e : EntityPolicy} {o : Operation} (h : o.Admissible p e)
    (hkind : OperationKind.parse? o.kind = some .selectMany) {field : String}
    (hfield : o.textParameter? "field" = some field) : field ∈ e.selectable := by
  cases h with
  | selectMany _ htext _ hmem =>
    obtain rfl := Option.some.inj (hfield.symm.trans htext)
    exact hmem
  | skip hk | take hk => simp [hkind] at hk
  | quantified hk hq =>
    obtain rfl := Option.some.inj (hkind.symm.trans hk)
    simp at hq
  | plain hk hmem =>
    obtain rfl := Option.some.inj (hkind.symm.trans hk)
    simp at hmem

/-- An admissible quantifier reads a filterable collection. -/
theorem Admissible.quantifier_reads {policy : Policy} {e : EntityPolicy} {o : Operation}
    (h : o.Admissible policy e) {kind : OperationKind} (hkind : OperationKind.parse? o.kind = some kind)
    (hq : kind = .any ∨ kind = .all) {schema : EntitySchema} {p : Predicate}
    (hp : o.quantifier kind schema = .ok p) : ∀ f ∈ p.fields, f ∈ e.filterable := by
  obtain ⟨collection, element, htext, rfl, _⟩ := h.quantifier_grantedBy hkind hq hp
  have hmem : collection ∈ e.filterable := by
    cases h with
    | quantified _ _ htext' _ hmem =>
      obtain rfl := Option.some.inj (htext.symm.trans htext')
      exact hmem
    | plain hk hmem =>
      obtain rfl := Option.some.inj (hkind.symm.trans hk)
      rcases hq with rfl | rfl <;> simp at hmem
    | selectMany hk | skip hk | take hk => rcases hq with rfl | rfl <;> simp [hkind] at hk
  intro f hf
  have hf : f = collection := by
    rcases hq with rfl | rfl <;> simpa [Predicate.fields] using hf
  rwa [hf]

section

variable {policy : Policy} {e : EntityPolicy} {schema : EntitySchema} {secret : String → Prop}
  {rows rows' : List Record}

/-- An admissible operation keeps rows alike, or fails in both runs. -/
theorem onRecords_same {o : Operation} (hadmissible : o.Admissible policy e)
    (hfilterable : ∀ f ∈ e.filterable, ¬secret f) (hselectable : ∀ f ∈ e.selectable, ¬secret f)
    (hidentity : ¬secret schema.identity) (hvalid : schema.hasValidIdentity = true)
    (h : Rows.Alike secret schema.identity rows rows') (maxTake : Nat) :
    Same (Rows.Alike secret schema.identity) (o.onRecords schema maxTake rows)
      (o.onRecords schema maxTake rows') := by
  have hfilter : ∀ {kind : OperationKind} {p : Predicate}, OperationKind.parse? o.kind = some kind →
      (kind = .any ∨ kind = .all) → o.quantifier kind schema = .ok p →
      Rows.Alike secret schema.identity (rows.filter p.holds) (rows'.filter p.holds) := by
    intro kind p hkind hq hp
    refine h.filter fun a b hab => Predicate.holds_congr p fun f hf => hab.agree f ?_
    exact hfilterable f (hadmissible.quantifier_reads hkind hq hp f hf)
  refine Same.bind_left _ fun kind hkind => ?_
  have hparse := kindOf_eq_ok_iff.mp hkind
  cases kind with
  | selectMany =>
    refine Same.bind_left _ fun field hfield => .ok ?_
    obtain ⟨htext, t, ht⟩ := unwoundField_eq_ok hfield
    refine unwind_alike (hselectable field (hadmissible.unwound_selectable hparse htext)) ?_ h
    rintro rfl
    simp [EntitySchema.hasValidIdentity, ht, FieldType.isScalar] at hvalid
  | distinct => exact .ok (h.distinct hidentity)
  | skip => exact Same.bind_left _ fun n _ => .ok (h.drop n)
  | take => exact Same.bind_left _ fun n _ => .ok (h.take _)
  | any => exact Same.bind_left _ fun p hp => .ok (hfilter hparse (.inl rfl) hp)
  | all => exact Same.bind_left _ fun p hp => .ok (hfilter hparse (.inr rfl) hp)
  | reverse => exact .ok h.reverse
  | first | firstOrDefault | single | singleOrDefault => exact .ok h

/-- Admissible operations keep rows alike, or fail in both runs. -/
theorem onAllRecords_same {os : List Operation} (hadmissible : ∀ o ∈ os, o.Admissible policy e)
    (hfilterable : ∀ f ∈ e.filterable, ¬secret f) (hselectable : ∀ f ∈ e.selectable, ¬secret f)
    (hidentity : ¬secret schema.identity) (hvalid : schema.hasValidIdentity = true)
    (h : Rows.Alike secret schema.identity rows rows') (maxTake : Nat) :
    Same (Rows.Alike secret schema.identity) (onAllRecords schema maxTake os rows)
      (onAllRecords schema maxTake os rows') := by
  induction os generalizing rows rows' with
  | nil => exact .ok h
  | cons o rest ih =>
    obtain ⟨ho, hrest⟩ := List.forall_mem_cons.mp hadmissible
    exact (onRecords_same ho hfilterable hselectable hidentity hvalid h maxTake).bind fun _ _ h => ih hrest h

end

end Operation

end GuardedQuery
