import GuardedQuery.Execution.Answer
import GuardedQuery.Proofs.AdaptiveSort.Stability
import GuardedQuery.Proofs.Json.Delimited
import GuardedQuery.Proofs.FilterTests

/-!
# Records that agree

Two lists of records that differ in secret fields only are filtered, sorted and cut alike as long as nobody
looks at a secret field. Distinct rows are told apart by their whole text, secret fields included; that
betrays nothing as long as the identity of a row determines its secrets.

## Main definitions

* `Record.AgreeOff`: records that agree on all fields that are not secret.
* `Record.Identified`: rows whose identities determine their secrets.
* `Predicate.fields`: the fields of a record that a predicate reads.

## Main statements

* `Predicate.holds_congr`: a predicate only reads its fields.
* `distinctBy_forall₂`, `SortKey.sortBy?_rel`: related rows stay related.
* `Record.sameText_iff`: secrets do not make rows distinct.
-/

namespace GuardedQuery

/-! ## What predicates read -/

namespace Predicate

mutual

/-- The fields of a record that a predicate reads. -/
def fields : Predicate → List String
  | always => []
  | compare field _ _ => [field]
  | text field _ _ => [field]
  | oneOf field _ => [field]
  | null field _ => [field]
  | and parts => fieldsList parts
  | or parts => fieldsList parts
  | any collection _ => [collection]
  | all collection _ => [collection]

/-- The fields that the predicates of a list read. -/
def fieldsList : List Predicate → List String
  | [] => []
  | p :: rest => fields p ++ fieldsList rest

end

theorem actual?_congr {a b : Record} {field : String} (h : Dict.get? a field = Dict.get? b field) :
    actual? a field = actual? b field := by
  rw [actual?, actual?, h]

mutual

/-- A predicate only reads its fields. -/
theorem holds_congr {a b : Record} (p : Predicate) (h : ∀ f ∈ p.fields, Dict.get? a f = Dict.get? b f) :
    p.holds a = p.holds b := by
  cases p with
  | always => rfl
  | and parts => exact allHold_congr parts h
  | or parts => exact someHolds_congr parts h
  | compare field | text field | oneOf field | null field | any field | all field =>
    have hfield : Dict.get? a field = Dict.get? b field := h field (List.mem_singleton_self field)
    simp only [holds, actual?_congr hfield, hfield]

theorem allHold_congr {a b : Record} (ps : List Predicate)
    (h : ∀ f ∈ fieldsList ps, Dict.get? a f = Dict.get? b f) : allHold ps a = allHold ps b := by
  cases ps with
  | nil => rfl
  | cons p rest =>
    obtain ⟨hfirst, hrest⟩ := List.forall_mem_append.mp h
    rw [allHold, allHold, holds_congr p hfirst, allHold_congr rest hrest]

theorem someHolds_congr {a b : Record} (ps : List Predicate)
    (h : ∀ f ∈ fieldsList ps, Dict.get? a f = Dict.get? b f) : someHolds ps a = someHolds ps b := by
  cases ps with
  | nil => rfl
  | cons p rest =>
    obtain ⟨hfirst, hrest⟩ := List.forall_mem_append.mp h
    rw [someHolds, someHolds, holds_congr p hfirst, someHolds_congr rest hrest]

end

/-- Conjunctions drop trivial parts only, which read nothing. -/
theorem fields_conjunction (ps : List Predicate) : (conjunction ps).fields = fieldsList ps := by
  have hfilter : fieldsList (ps.filter fun p => !p.isAlways) = fieldsList ps := by
    induction ps with
    | nil => rfl
    | cons p rest ih => cases p <;> simp [isAlways, fieldsList, fields] <;> exact ih
  rw [← hfilter]
  rw [conjunction]
  split
  · rename_i h
    simp [h, fields, fieldsList]
  · rename_i p h
    simp [h, fieldsList]
  · rfl

theorem fields_of_test? {p : Predicate} {field : String} {op : FilterOperator}
    (h : p.test? = some (field, op)) : p.fields = [field] := by
  cases p <;> simp [test?] at h <;> simp [fields, h.1]

end Predicate

namespace Columns

mutual

/-- A compiled tree reads the fields of its leaves. -/
theorem compile_fields {c : Columns} {condition : Condition} {p : Predicate}
    (h : c.compile condition = .ok p) : p.fields = condition.leaves.map Leaf.field := by
  cases condition with
  | leaf field symbol v =>
    have hleaf : c.compileOneLeaf { field, operator := symbol, value := v } = .ok p := h
    obtain ⟨op, _, htest⟩ := compileOneLeaf_test hleaf
    exact Predicate.fields_of_test? htest
  | group cs logic =>
    simp only [compile] at h
    cases hlogic : Logic.parse? logic with
    | none => simp [hlogic] at h
    | some l =>
      cases l <;> simp only [hlogic] at h <;> obtain ⟨ps, hps, rfl⟩ := Outcome.map_eq_ok_iff.mp h
      · rw [Predicate.fields_conjunction]
        exact compileList_fields hps
      · exact compileList_fields hps

/-- Compiled trees read the fields of their leaves. -/
theorem compileList_fields {c : Columns} {conditions : List Condition} {ps : List Predicate}
    (h : c.compileList conditions = .ok ps) :
    Predicate.fieldsList ps = (Condition.leavesList conditions).map Leaf.field := by
  cases conditions with
  | nil =>
    obtain rfl : [] = ps := by simpa [compileList] using h
    rfl
  | cons condition rest =>
    simp only [compileList] at h
    obtain ⟨p, hp, h⟩ := Outcome.bind_eq_ok_iff.mp h
    obtain ⟨others, hothers, h⟩ := Outcome.bind_eq_ok_iff.mp h
    obtain rfl : p :: others = ps := by simpa using h
    simp only [Predicate.fieldsList, Condition.leavesList, List.map_append, compile_fields hp,
      compileList_fields hothers]

end

/-- Compiled admissible trees read granted fields. -/
theorem compileAll_reads {c : Columns} {g : Grant} {conditions : List Condition} {p : Predicate}
    (hadmissible : ∀ condition ∈ conditions, condition.Admissible g)
    (h : c.compileAll conditions = .ok p) : ∀ f ∈ p.fields, g.field f := by
  obtain ⟨ps, hps, rfl⟩ := Outcome.map_eq_ok_iff.mp h
  rw [Predicate.fields_conjunction, compileList_fields hps]
  intro f hf
  obtain ⟨l, hl, rfl⟩ := List.mem_map.mp hf
  obtain ⟨condition, hcondition, hl⟩ := Condition.mem_leavesList.mp hl
  obtain ⟨_, hfield, _⟩ | _ := (hadmissible condition hcondition).of_mem_leaves hl
  exact hfield

end Columns

/-! ## Agreement off the secrets -/

namespace Record

/-- Two records with the same names that agree on all fields that are not secret. -/
structure AgreeOff (secret : String → Prop) (a b : Record) : Prop where
  /-- The names are the same. -/
  names : Dict.names a = Dict.names b
  /-- What is not secret is the same. -/
  agree : ∀ f, ¬secret f → Dict.get? a f = Dict.get? b f

variable {secret : String → Prop} {a b : Record}

theorem AgreeOff.value (h : AgreeOff secret a b) {f : String} (hf : ¬secret f) :
    Record.value a f = Record.value b f := by
  rw [Record.value, Record.value, h.agree f hf]

theorem AgreeOff.mono {wider : String → Prop} (h : AgreeOff secret a b) (hw : ∀ f, secret f → wider f) :
    AgreeOff wider a b :=
  ⟨h.names, fun f hf => h.agree f fun hs => hf (hw f hs)⟩

/-- A field that is given the same value in both records is a secret no longer. -/
theorem AgreeOff.insert (h : AgreeOff secret a b) (name : String) (v : Value) :
    AgreeOff (fun f => secret f ∧ f ≠ name) (Dict.insert a name v) (Dict.insert b name v) := by
  refine ⟨Dict.names_insert_congr h.names name v v, ?_⟩
  intro f hf
  rw [Dict.get?_insert, Dict.get?_insert]
  by_cases hname : name = f
  · rw [if_pos hname, if_pos hname]
  · rw [if_neg hname, if_neg hname]
    exact h.agree f fun hs => hf ⟨hs, Ne.symm hname⟩

/-- Rows of one shape whose identities determine their secret fields. -/
structure Identified (secret : String → Prop) (identity : String) (rows : List Record) : Prop where
  /-- The members of each row are in order. -/
  sorted : ∀ r ∈ rows, Dict.Sorted r
  /-- All rows have the same names. -/
  names : ∀ a ∈ rows, ∀ b ∈ rows, Dict.names a = Dict.names b
  /-- Rows with one identity have the same secrets. -/
  determined : ∀ a ∈ rows, ∀ b ∈ rows,
    (Dict.get? a identity).map Value.toText = (Dict.get? b identity).map Value.toText →
      ∀ f, secret f → Dict.get? a f = Dict.get? b f

theorem Identified.mono {identity : String} {rows fewer : List Record} (h : Identified secret identity rows)
    (hfewer : ∀ r ∈ fewer, r ∈ rows) : Identified secret identity fewer :=
  ⟨fun r hr => h.sorted r (hfewer r hr), fun a ha b hb => h.names a (hfewer a ha) b (hfewer b hb),
    fun a ha b hb => h.determined a (hfewer a ha) b (hfewer b hb)⟩

/-- Rows that come about from identified rows by giving some fields new values are identified, as far as
the secrets go that have no new value. -/
theorem Identified.derive {identity : String} {rows derived : List Record} {narrower : String → Prop}
    (h : Identified secret identity rows) (hnarrower : ∀ f, narrower f → secret f)
    (hsorted : ∀ r ∈ derived, Dict.Sorted r) (hnames : ∀ a ∈ derived, ∀ b ∈ derived, Dict.names a = Dict.names b)
    (horigin : ∀ r ∈ derived, ∃ origin ∈ rows, Dict.get? r identity = Dict.get? origin identity ∧
      ∀ f, narrower f → Dict.get? r f = Dict.get? origin f) :
    Identified narrower identity derived := by
  refine ⟨hsorted, hnames, ?_⟩
  intro a ha b hb htext f hf
  obtain ⟨a₀, ha₀, hidentity, hagree⟩ := horigin a ha
  obtain ⟨b₀, hb₀, hidentity', hagree'⟩ := horigin b hb
  rw [hidentity, hidentity'] at htext
  rw [hagree f hf, hagree' f hf]
  exact h.determined a₀ ha₀ b₀ hb₀ htext f (hnarrower f hf)

/-- Secrets do not make rows distinct: whether two rows have one text is decided by what is not secret. -/
theorem sameText_iff {identity : String} {rows rows' : List Record} {a' b' : Record}
    (hidentity : ¬secret identity) (h : Identified secret identity rows) (h' : Identified secret identity rows')
    (ha : AgreeOff secret a a') (hb : AgreeOff secret b b') (hmem : a ∈ rows ∧ b ∈ rows)
    (hmem' : a' ∈ rows' ∧ b' ∈ rows') :
    (Value.object a).toText = (Value.object b).toText ↔ (Value.object a').toText = (Value.object b').toText := by
  have key : ∀ {a b a' b' : Record} {rows rows' : List Record}, Identified secret identity rows →
      Identified secret identity rows' → AgreeOff secret a a' → AgreeOff secret b b' → a ∈ rows → b ∈ rows →
      a' ∈ rows' → b' ∈ rows' → (Value.object a).toText = (Value.object b).toText →
      (Value.object a').toText = (Value.object b').toText := by
    intro a b a' b' rows rows' h h' ha hb hmemA hmemB hmemA' hmemB' htext
    have hsame := (toText_eq_iff (h.names a hmemA b hmemB) (h.sorted a hmemA).nodup_names).mp htext
    refine (toText_eq_iff (h'.names a' hmemA' b' hmemB') (h'.sorted a' hmemA').nodup_names).mpr ?_
    intro f
    by_cases hf : secret f
    · have hidentities := hsame identity
      rw [ha.agree identity hidentity, hb.agree identity hidentity] at hidentities
      rw [h'.determined a' hmemA' b' hmemB' hidentities f hf]
    · rw [← ha.agree f hf, ← hb.agree f hf]
      exact hsame f
  have hback : ∀ {a a' : Record}, AgreeOff secret a a' → AgreeOff secret a' a :=
    fun h => ⟨h.names.symm, fun f hf => (h.agree f hf).symm⟩
  exact ⟨key h h' ha hb hmem.1 hmem.2 hmem'.1 hmem'.2,
    key h' h (hback ha) (hback hb) hmem'.1 hmem'.2 hmem.1 hmem.2⟩

end Record

/-! ## Related rows stay related -/

section Rows

variable {α β : Type} {R : α → β → Prop}

/-- Related rows are distinct alike if their shapes are. The shapes seen so far are those of related rows. -/
theorem distinctBy_forall₂ {shape : α → Record} {shape' : β → Record}
    (hR : ∀ a a' b b', R a a' → R b b' → ((Value.object (shape a)).toText = (Value.object (shape b)).toText ↔
      (Value.object (shape' a')).toText = (Value.object (shape' b')).toText))
    {before : List α} {before' : List β} (hbefore : List.Forall₂ R before before') {l : List α} {l' : List β}
    (h : List.Forall₂ R l l') :
    List.Forall₂ R (distinctBy shape (before.map fun a => (Value.object (shape a)).toText) l)
      (distinctBy shape' (before'.map fun a => (Value.object (shape' a)).toText) l') := by
  induction h generalizing before before' with
  | nil => exact .nil
  | @cons a a' rest rest' ha _ ih =>
    have hseen : (before.map fun a => (Value.object (shape a)).toText).contains
        (Value.object (shape a)).toText =
        (before'.map fun a => (Value.object (shape' a)).toText).contains (Value.object (shape' a')).toText := by
      clear ih
      induction hbefore with
      | nil => rfl
      | @cons b b' _ _ hb _ ih =>
        simp only [List.map_cons, List.contains_cons, ih, beq_eq_decide, decide_eq_decide.mpr (hR a a' b b' ha hb)]
    simp only [distinctBy, hseen]
    split
    · exact ih hbefore
    · exact .cons ha (ih (.cons ha hbefore))

/-- Related rows are sorted alike if they are compared alike, and either sort gives up if the other one does. -/
theorem SortKey.sortBy?_rel {keys : List SortKey} {record : α → Record} {record' : β → Record}
    (hR : ∀ a a' b b', R a a' → R b b' →
      compareRecords keys (record a) (record b) = compareRecords keys (record' a') (record' b'))
    {l : List α} {l' : List β} (h : List.Forall₂ R l l') :
    Option.Rel (List.Forall₂ R) (sortBy? keys record l) (sortBy? keys record' l') :=
  AdaptiveSort.sort_rel (fun a a' b b' ha hb => by rw [hR a a' b b' ha hb]) h

/-- Keys only look at their own columns. -/
theorem SortKey.compareRecords_congr {keys : List SortKey} {a a' b b' : Record}
    (ha : ∀ k ∈ keys, Record.value a k.field = Record.value a' k.field)
    (hb : ∀ k ∈ keys, Record.value b k.field = Record.value b' k.field) :
    compareRecords keys a b = compareRecords keys a' b' := by
  induction keys with
  | nil => rfl
  | cons k rest ih =>
    obtain ⟨ha₁, ha⟩ := List.forall_mem_cons.mp ha
    obtain ⟨hb₁, hb⟩ := List.forall_mem_cons.mp hb
    rw [compareRecords, compareRecords, ha₁, hb₁, ih ha hb]

end Rows

end GuardedQuery
