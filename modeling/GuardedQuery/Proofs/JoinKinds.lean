import GuardedQuery.Proofs.JoinedRows
import GuardedQuery.Proofs.Runs

/-!
# The two kinds of joins

An inner join and a group join read a store in the same way and find the same matches. They differ in what they make of
them: an inner join has a row for every match, a group join has one list for every row. The lists of the group join,
one after the other, hold what the rows of the inner join show under the names that start with the entity's.

## Main definitions

* `Join.candidates`: the reading of a store, which is the same for both kinds.
* `Join.readBack`, `Join.listed`: what a row of an inner join shows of its match, and the list in a row of a group join.
* `Join.SameMatches`: rows of an inner join and rows of a group join that show the same matches.

## Main statements

* `Join.apply_of_parse`: a join reads a store, and then attaches what it found.
* `Join.kinds_agree`: the two kinds fail alike, read as much, and show the same matches.
-/

namespace GuardedQuery

namespace Join

/-! ## Reading the store -/

section Reading

variable {σ : Type} [Storage σ] (store : σ) (root : EntitySchema) (j : Join) (rows : List Record)

/-- Reads the records that a join looks for matches among. -/
def candidates : Run (EntitySchema × Scan) := do
  let joined ← Step.require (.unknownEntity j.entity) (Storage.schema? store j.entity)
  Step.ofExcept (j.requireFields root joined)
  let found ← Run.scan store joined.name .always
  if rows.isEmpty then return (joined, found)
  else do
    Run.unlessCancelled
    return (joined, found)

/-- A join reads a store, and then attaches what it found. -/
theorem apply_of_parse {kind : JoinKind} (hkind : JoinKind.parse? j.kind = some kind) (examined : ℕ) :
    j.apply store root rows examined = do
      let read ← j.candidates store root rows
      return (rows.flatMap (j.attach kind read.1 read.2.records), examined + read.2.examined) := by
  have hof : j.kindOf = .ok kind := kindOf_eq_ok_iff.mpr hkind
  have hpure : (Step.ofExcept (.ok kind) : Run JoinKind) = pure kind := rfl
  simp only [apply, candidates, hof, hpure, pure_bind, bind_assoc]
  cases rows with
  | nil => simp
  | cons row rest => simp

variable {store root j rows} {p p' : Progress} {joined : EntitySchema} {found : Scan}

/-- What is read are all records of the entity. -/
theorem scan_of_candidates (h : j.candidates store root rows p = (.ok (joined, found), p')) :
    Storage.schema? store j.entity = some joined ∧ (Run.scan store joined.name .always p).1 = .ok found := by
  obtain ⟨declared, hdeclared, h⟩ := Step.require_bind_eq_ok_iff.mp h
  obtain ⟨_, -, h⟩ := Step.ofExcept_bind_eq_ok_iff.mp h
  obtain ⟨read, p₁, hread, hreturned⟩ := Step.bind_eq_ok_iff.mp h
  have hresult : (declared, read) = (joined, found) := by
    cases rows with
    | nil => exact Except.ok.inj (Prod.mk.inj hreturned).1
    | cons row rest =>
      obtain ⟨_, _, -, hpair⟩ := Step.bind_eq_ok_iff.mp hreturned
      exact Except.ok.inj (Prod.mk.inj hpair).1
  obtain ⟨rfl, rfl⟩ := Prod.mk.inj hresult
  exact ⟨hdeclared, congrArg Prod.fst hread⟩

end Reading

/-! ## What rows show of matches -/

/-- The selected fields that a row of an inner join shows of its match. -/
def readBack (j : Join) (joined : EntitySchema) (row : Record) : Value :=
  .ofMembers (j.select.map fun f => (f, Record.value row s!"{joined.name}.{f}"))

/-- The list that a row of a group join has under the name of the entity. -/
def listed (joined : EntitySchema) (row : Record) : List Value :=
  (Record.value row joined.name).asArray?.getD []

variable {j : Join} {joined : EntitySchema} {records : List Record} {row candidate : Record} {f : String}

/-- Different fields are attached under different names. -/
theorem attachedName_injective (joined : EntitySchema) :
    Function.Injective fun f : String => s!"{joined.name}.{f}" := by
  intro f g hname
  have hchars := congrArg String.toList hname
  simp only [String.toList_append, List.append_cancel_left_eq] at hchars
  exact String.toList_inj.mp hchars

/-- What is attached under different names is found under them. -/
theorem get?_foldl_insert_of_mem {name : String → String} (hname : Function.Injective name) (v : String → Value)
    {l : List String} (hf : f ∈ l) (r : Record) :
    Dict.get? (l.foldl (fun r x => Dict.insert r (name x) (v x)) r) (name f) = some (v f) := by
  induction l generalizing r with
  | nil => simp at hf
  | cons x rest ih =>
    rw [List.foldl_cons]
    by_cases hrest : f ∈ rest
    · exact ih hrest _
    · obtain rfl : f = x := (List.mem_cons.mp hf).resolve_right hrest
      rw [get?_foldl_insert, Dict.get?_insert, if_pos rfl]
      rwa [List.mem_map_of_injective hname]

theorem value_beside_of_mem (row : Record) (hf : f ∈ j.select) :
    Record.value (j.beside joined row candidate) s!"{joined.name}.{f}" = Record.value candidate f :=
  Record.value_of_get? (get?_foldl_insert_of_mem (attachedName_injective joined) (Record.value candidate) hf _)

/-- A row of an inner join shows the selected fields of its match. -/
theorem readBack_beside (j : Join) (joined : EntitySchema) (row candidate : Record) :
    j.readBack joined (j.beside joined row candidate) = j.element candidate := by
  rw [readBack, element]
  congr 1
  refine List.map_congr_left ?_
  intro f hf
  rw [value_beside_of_mem row hf]

/-- Only values match. -/
theorem not_null_of_matching (h : j.matching row candidate = true) {pair : String × String} (hpair : pair ∈ j.on) :
    (Record.value row pair.1).isNull = false ∧ (Record.value candidate pair.2).isNull = false := by
  have hmatch := List.all_eq_true.mp h pair hpair
  simp only [Value.isMatch, Bool.and_eq_true, Bool.not_eq_true'] at hmatch
  exact hmatch.1

/-! ## One row -/

/-- What the two kinds of a join make of a row: a block of rows, and the row with a list. -/
structure SameMatchesOf (j : Join) (joined : EntitySchema) (records : List Record) (row : Record)
    (block : List Record) (kept : Record) : Prop where
  /-- The row is kept but for the list. -/
  frame : ∀ f, f ≠ joined.name → Dict.get? kept f = Dict.get? row f
  /-- The list shows the selected fields of all matches. -/
  list : listed joined kept = (records.filter (j.matching row)).map j.element
  /-- So does the block. -/
  read : block.map (j.readBack joined) = (records.filter (j.matching row)).map j.element
  /-- The block has as many rows as the list has elements. -/
  count : block.length = (listed joined kept).length
  /-- Nothing matches where a value is missing. -/
  values : ∀ record, j.matching row record = true → ∀ pair ∈ j.on,
    (Record.value row pair.1).isNull = false ∧ (Record.value record pair.2).isNull = false

/-- The row of a group join. -/
def keep (j : Join) (joined : EntitySchema) (records : List Record) (row : Record) : Record :=
  Dict.insert row joined.name (.array ((records.filter (j.matching row)).map j.element))

theorem sameMatchesOf (j : Join) (joined : EntitySchema) (records : List Record) (row : Record) :
    j.SameMatchesOf joined records row (j.attach .join joined records row) (j.keep joined records row) := by
  have hlisted : listed joined (j.keep joined records row) = (records.filter (j.matching row)).map j.element := by
    have hvalue : Record.value (j.keep joined records row) joined.name =
        .array ((records.filter (j.matching row)).map j.element) :=
      Record.value_of_get? (by rw [keep, Dict.get?_insert, if_pos rfl])
    rw [listed, hvalue]
    rfl
  have hblock : (j.attach .join joined records row).map (j.readBack joined) =
      (records.filter (j.matching row)).map j.element := by
    rw [attach, List.map_map]
    refine List.map_congr_left ?_
    intro record _
    exact readBack_beside j joined row record
  refine ⟨?_, hlisted, hblock, ?_, ?_⟩
  · intro f hf
    rw [keep, Dict.get?_insert, if_neg (Ne.symm hf)]
  · rw [hlisted, ← hblock, List.length_map]
  · intro record hmatching pair hpair
    exact not_null_of_matching hmatching hpair

/-! ## All rows -/

/-- Rows of an inner join and rows of a group join that show the same matches. -/
structure SameMatches (j : Join) (joined : EntitySchema) (records rows inner grouped : List Record) : Prop where
  /-- The lists of the group join, one after the other, hold what the rows of the inner join show. -/
  flattened : grouped.flatMap (listed joined) = inner.map (j.readBack joined)
  /-- The rows of the inner join come in blocks, and those of the group join one by one, in the order of the rows. -/
  rowwise : ∃ block : Record → List Record, ∃ kept : Record → Record,
    inner = rows.flatMap block ∧ grouped = rows.map kept ∧
      ∀ row ∈ rows, j.SameMatchesOf joined records row (block row) (kept row)

theorem sameMatches (j : Join) (joined : EntitySchema) (records rows : List Record) :
    j.SameMatches joined records rows (rows.flatMap (j.attach .join joined records))
      (rows.flatMap (j.attach .groupJoin joined records)) := by
  have hone := j.sameMatchesOf joined records
  have hgrouped : rows.flatMap (j.attach .groupJoin joined records) = rows.map (j.keep joined records) :=
    List.flatMap_pure_eq_map _ rows
  refine ⟨?_, j.attach .join joined records, j.keep joined records, rfl, hgrouped, fun row _ => hone row⟩
  rw [hgrouped, List.flatMap_map, List.map_flatMap]
  refine List.flatMap_congr ?_
  intro row _
  rw [(hone row).list, (hone row).read]

/-- **The two kinds of a join show the same matches.** They fail alike, or the lists of the group join, one after the
other, hold what the rows of the inner join show of their matches. -/
theorem kinds_agree {σ : Type} [Storage σ] (store : σ) (root : EntitySchema) (j : Join) {inner group : String}
    (hinner : JoinKind.parse? inner = some .join) (hgroup : JoinKind.parse? group = some .groupJoin)
    (rows : List Record) (n : ℕ) (p : Progress) :
    (∃ e p', { j with kind := inner }.apply store root rows n p = (.error e, p') ∧
      { j with kind := group }.apply store root rows n p = (.error e, p')) ∨
    ∃ joined found J G p', Storage.schema? store j.entity = some joined ∧
      (Run.scan store joined.name .always p).1 = .ok found ∧
      { j with kind := inner }.apply store root rows n p = (.ok (J, n + found.examined), p') ∧
      { j with kind := group }.apply store root rows n p = (.ok (G, n + found.examined), p') ∧
      j.SameMatches joined found.records rows J G := by
  rw [apply_of_parse store root { j with kind := inner } rows hinner,
    apply_of_parse store root { j with kind := group } rows hgroup, Step.bind_apply, Step.bind_apply]
  -- Neither the reading nor the matching depends on the kind.
  have hreading : ∀ kind, { j with kind := kind }.candidates store root rows = j.candidates store root rows :=
    fun _ => rfl
  rw [hreading inner, hreading group]
  cases hread : j.candidates store root rows p with
  | mk outcome p' =>
    cases outcome with
    | error e => exact .inl ⟨e, p', rfl, rfl⟩
    | ok read =>
      obtain ⟨hschema, hscan⟩ := scan_of_candidates hread
      exact .inr ⟨read.1, read.2, _, _, p', hschema, hscan, rfl, rfl, j.sameMatches read.1 read.2.records rows⟩

/-! ## Guests and their visits -/

/-- Guests, one of whom has no number. -/
def guests : List Record := [[("Id", .int 1)], [("Id", .null)], [("Id", .int 3)]]

/-- Guests are told apart by numbers. -/
def guestSchema : EntitySchema where
  name := "Guest"
  fields := [("Id", .scalar .int)]

/-- Visits of guests, one of whom is not known. -/
def visitStore : Store :=
  .ofEntities
    [{ schema := { name := "Visit", fields := [("Days", .scalar .int), ("Guest", .scalar .int), ("Id", .scalar .int)] }
       records :=
        [[("Days", .int 4), ("Guest", .int 1), ("Id", .int 7)], [("Days", .int 2), ("Guest", .null), ("Id", .int 8)],
          [("Days", .int 5), ("Guest", .int 1), ("Id", .int 9)]] }]

/-- The lengths of the visits of guests. -/
def visitJoin : Join where
  entity := "visit"
  on := [("Id", "Guest")]
  select := ["Days", "Days"]

/-- The rows of guests with visits. -/
def visitRows : List Record :=
  [[("Id", .int 1), ("Visit.Days", .int 4), ("Visit.Id", .int 7)],
    [("Id", .int 1), ("Visit.Days", .int 5), ("Visit.Id", .int 9)]]

/-- The rows of all guests. -/
def guestRows : List Record :=
  [[("Id", .int 1), ("Visit", .array [.object [("Days", .int 4)], .object [("Days", .int 5)]])],
    [("Id", .null), ("Visit", .array [])], [("Id", .int 3), ("Visit", .array [])]]

/-- One guest has two visits. The guest without a number does not match the visit without a guest. -/
theorem kinds_agree_visits :
    ∃ joined found, Storage.schema? visitStore "visit" = some joined ∧
      (Run.scan visitStore joined.name .always {}).1 = .ok found ∧
      visitJoin.SameMatches joined found.records guests visitRows guestRows := by
  have hinner : ({ visitJoin with kind := "JOIN" }.apply visitStore guestSchema guests 3 {}).1 =
      .ok (visitRows, 6) := by
    decide +kernel
  have hgroup : ({ visitJoin with kind := "groupJoin" }.apply visitStore guestSchema guests 3 {}).1 =
      .ok (guestRows, 6) := by
    decide +kernel
  have hjoin : JoinKind.parse? "JOIN" = some .join := by decide +kernel
  have hgroupJoin : JoinKind.parse? "groupJoin" = some .groupJoin := by decide +kernel
  rcases kinds_agree visitStore guestSchema visitJoin hjoin hgroupJoin guests 3 {} with
    ⟨e, p', hfailed, -⟩ | ⟨joined, found, J, G, p', hschema, hscan, hJ, hG, hsame⟩
  · rw [hfailed] at hinner
    cases hinner
  · rw [hJ] at hinner
    rw [hG] at hgroup
    obtain ⟨rfl, -⟩ := Prod.mk.inj (Except.ok.inj hinner)
    obtain ⟨rfl, -⟩ := Prod.mk.inj (Except.ok.inj hgroup)
    exact ⟨joined, found, hschema, hscan, hsame⟩

end Join

end GuardedQuery
