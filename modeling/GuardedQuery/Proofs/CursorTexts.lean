import GuardedQuery.Proofs.Pages
import GuardedQuery.Proofs.ReadQueries

/-!
# Texts of cursors

The text of a cursor is the base64 form of the UTF-8 form of a document. Whatever text is decoded, the values of the
cursor are dictionaries of well-formed values, and no deeper than the two levels around them leave room for. Those are
also the values with which a cursor comes back from its own text, to the last bit of every number.

## Main definitions

* `Cursor.Fits`: the cursors that texts can stand for.

## Main statements

* `Cursor.fits_of_decode`: the cursor that a text stands for has such values.
* `Cursor.comes_back_iff`: a cursor without a time stamp comes back from its own text if and only if it has such
  values.
-/

namespace GuardedQuery

namespace Cursor

/-- The values have their names in order, are well formed, and are at most 125 levels deep. -/
structure Fits (c : Cursor) : Prop where
  /-- The names are in order, as in every dictionary. -/
  sorted : Dict.Sorted c.values
  /-- Integers fit 64 bits, and members are sorted. -/
  wellFormed : ∀ m ∈ c.values, m.2.WellFormed
  /-- The document puts two levels around the values. -/
  depth : ∀ m ∈ c.values, m.2.depth ≤ 125

/-- What is read from a tree within the nesting limit has values that are two levels less deep. -/
theorem fits_decoder {n : Node} {c : Cursor} (hn : n.Within Node.nestingLimit) (h : decoder n = .ok c) : c.Fits := by
  obtain ⟨k, hk, hchildren⟩ := Decoder.within_of_ofFields hn h
  refine Decoder.ofFields_keeps ?_ (⟨List.Pairwise.nil, by simp, by simp⟩ : Fits { values := [] }) h
  simp only [List.forall_mem_cons]
  refine ⟨?_, .optional fun _ _ _ _ _ h => { h with }, List.forall_mem_nil _⟩
  refine .mandatory fun m hm values hread _ _ => ?_
  obtain ⟨j, rfl, hmembers⟩ := Decoder.within_of_dict (hchildren m hm) hread
  have hj : j ≤ 125 := by
    simp only [Node.nestingLimit] at hk
    omega
  have hvalues : ∀ p ∈ values, p.2.WellFormed ∧ p.2.depth ≤ j := by
    intro p hp
    obtain ⟨inner, hinner, hvalue⟩ := hmembers p hp
    exact Decoder.within_of_value hinner hvalue
  exact ⟨Decoder.sorted_of_dict hread, fun p hp => (hvalues p hp).1, fun p hp => (hvalues p hp).2.trans hj⟩

/-- **The cursor that a text stands for fits.** -/
theorem fits_of_decode {text : String} {c : Cursor} (h : decode text = .ok c) : c.Fits := by
  rw [decode] at h
  split at h
  · cases h
  · split at h
    · cases h
    · rename_i document _
      split at h
      · rename_i hrun
        obtain rfl := Except.ok.inj h
        obtain ⟨read, hread, hended⟩ := Outcome.bind_eq_ok_iff.mp hrun
        split at hended
        · exact Except.ok.inj hended ▸ fits_decoder (Json.within_draft document) hread
        · cases hended
      · cases h

/-- A cursor without a time stamp that fits is read back from its text. -/
theorem Fits.decode_encode {c : Cursor} (h : c.Fits) (htimestamp : c.timestamp = none) :
    decode c.encode = .ok c := by
  obtain ⟨values, _⟩ := c
  obtain rfl : _ = none := htimestamp
  exact Cursor.decode_encode h.sorted fun m hm => Value.travels_of_wellFormed (h.wellFormed m hm) (h.depth m hm)

/-- The value after a row for any field. -/
theorem value?_ofRecord (keys : List SortKey) (record : Record) (field : String) :
    (ofRecord keys record).value? field =
      if field ∈ keys.map SortKey.field then some ((Dict.get? record field).getD .null) else none := by
  rw [value?, values_ofRecord, Dict.get?_ofList_map]
  rfl

/-- The cursor after a row fits if and only if the row's values for the keys are well formed and not too deep. -/
theorem fits_ofRecord_iff {keys : List SortKey} {record : Record} :
    (ofRecord keys record).Fits ↔ ∀ k ∈ keys, ((Dict.get? record k.field).getD .null).WellFormed ∧
      ((Dict.get? record k.field).getD .null).depth ≤ 125 := by
  constructor
  · intro h k hk
    have hmem := Dict.mem_of_get? (value_ofRecord hk record)
    exact ⟨h.wellFormed _ hmem, h.depth _ hmem⟩
  · intro h
    have hvalues : ∀ m ∈ (ofRecord keys record).values, m.2.WellFormed ∧ m.2.depth ≤ 125 := by
      intro m hm
      obtain ⟨k, hk, rfl⟩ := List.mem_map.mp (Dict.mem_of_mem_ofList hm)
      exact h k hk
    exact ⟨Dict.sorted_ofList _, fun m hm => (hvalues m hm).1, fun m hm => (hvalues m hm).2⟩

/-- A cursor that has a value for every key is read for the keys as it is read. -/
theorem decodeFor_of_decode {keys : List SortKey} {text : String} {c : Cursor} (h : decode text = .ok c)
    (hkeys : ∀ k ∈ keys, (c.value? k.field).isSome = true) : decodeFor keys text = .ok c := by
  have hcomplete : keys.find? (fun k => !Dict.contains c.values k.field) = none := by
    refine List.find?_eq_none.mpr fun k hk => ?_
    have hsome : Dict.contains c.values k.field = true := hkeys k hk
    simp [hsome]
  simp only [decodeFor, h, hcomplete, bind, Except.bind]
  rfl

/-- **Decoding undoes encoding**: a cursor without a time stamp comes back from its own text if and only if its values
form a dictionary, are well formed and nest at most 125 levels, and so does the cursor of every text. The cursor
after a row comes back for its keys if the row's values are such, with the row's value for every key, or `null` where
the row has none. -/
theorem comes_back_iff (c : Cursor) (htimestamp : c.timestamp = none) :
    (decode c.encode = .ok c ↔ c.Fits) ∧
    (∀ text, decode text = .ok c → decode c.encode = .ok c) ∧
    ∀ (keys : List SortKey) (record : Record),
      (decodeFor keys (ofRecord keys record).encode = .ok (ofRecord keys record) ↔
        ∀ k ∈ keys, ((Dict.get? record k.field).getD .null).WellFormed ∧
          ((Dict.get? record k.field).getD .null).depth ≤ 125) ∧
      ∀ field, (ofRecord keys record).value? field =
        if field ∈ keys.map SortKey.field then some ((Dict.get? record field).getD .null) else none := by
  refine ⟨⟨fits_of_decode, fun h => h.decode_encode htimestamp⟩,
    fun text h => (fits_of_decode h).decode_encode htimestamp,
    fun keys record => ⟨?_, value?_ofRecord keys record⟩⟩
  rw [← fits_ofRecord_iff]
  constructor
  · intro h
    obtain ⟨c', hdecode, hkeys⟩ := Outcome.bind_eq_ok_iff.mp h
    split at hkeys
    · cases hkeys
    · exact Except.ok.inj hkeys ▸ fits_of_decode hdecode
  · intro h
    refine decodeFor_of_decode (h.decode_encode rfl) fun k hk => ?_
    rw [value?_ofRecord, if_pos (List.mem_map_of_mem hk)]
    rfl

end Cursor

/-! ## Values at the limits -/

/-- So many arrays around `null`. -/
def Value.nested : ℕ → Value
  | 0 => .null
  | n + 1 => .array [nested n]

@[simp] theorem Value.depth_nested (n : ℕ) : (nested n).depth = n := by
  induction n with
  | zero => rfl
  | succ n ih => simp [nested, depth, depthItems, ih, Nat.add_comm]

@[simp] theorem Value.wellFormed_nested (n : ℕ) : (nested n).WellFormed := by
  induction n with
  | zero => trivial
  | succ n ih => exact ⟨ih, trivial⟩

namespace Cursor

/-- Values that encoders get wrong: both ends of the integers, the negative zero, the greatest and the least positive
number, control characters, quotes, and characters of two and four bytes, next to a nested value. -/
def extremes (levels : ℕ) : Record :=
  [("", .array [.int uint64Max, .int int64Min, .float (.zero true)]),
   ("\x01\"\\", .string "\x00\n\x7F/é😀"),
   ("Size", .object
     [("greatest", .float (.largest false)), ("least", .float { negative := false, magnitude := 1 })]),
   ("levels", .nested levels)]

theorem fits_extremes_iff (levels : ℕ) : Fits { values := extremes levels } ↔ levels ≤ 125 := by
  constructor
  · intro h
    simpa using h.depth ("levels", .nested levels) (by simp [extremes])
  · intro h
    refine ⟨?_, ?_, ?_⟩
    · have hnames : ["", "\x01\"\\", "Size", "levels"].Pairwise (· < ·) := by decide +kernel
      exact Dict.sorted_iff_names.mpr hnames
    · simp only [extremes, List.forall_mem_cons, Value.WellFormed, Value.WellFormedItems, Value.WellFormedMembers,
        Value.wellFormed_nested, Dict.sorted_iff_names, and_true, true_and]
      exact ⟨⟨by decide, by decide⟩, by decide +kernel, List.forall_mem_nil _⟩
    · simp [extremes, Value.depth, Value.depthItems, Value.depthMembers, h]

/-- The cursor comes back with 125 levels, and does not with 126. -/
theorem comes_back_iff_extremes :
    decode (encode { values := extremes 125 }) = .ok { values := extremes 125 } ∧
    decode (encode { values := extremes 126 }) ≠ .ok { values := extremes 126 } ∧
    decodeFor [{ field := "levels" }, { field := "Price" }]
      (ofRecord [{ field := "levels" }, { field := "Price" }] (extremes 125)).encode =
        .ok { values := [("Price", .null), ("levels", .nested 125)] } := by
  obtain ⟨hback, _, hrecord⟩ := comes_back_iff { values := extremes 125 } rfl
  obtain ⟨hdeep, _⟩ := comes_back_iff { values := extremes 126 } rfl
  refine ⟨hback.mpr ((fits_extremes_iff 125).mpr le_rfl),
    fun h => absurd ((fits_extremes_iff 126).mp (hdeep.mp h)) (by decide), ?_⟩
  refine (hrecord [{ field := "levels" }, { field := "Price" }] (extremes 125)).1.mpr ?_
  simp [extremes, Dict.get?, Value.depth, Value.WellFormed]

end Cursor

end GuardedQuery
