import GuardedQuery.Page.Basic
import GuardedQuery.Proofs.Base64
import GuardedQuery.Proofs.Json.Reading

/-!
# Cursors are read back

A cursor comes back from its text as it was, as long as its values are well formed, are no deeper than the
nesting limit allows for in a cursor document, and their numbers are read back. So the cursor after a row
marks the place of that row.

## Main definitions

* `Value.Travels`: values that a cursor can carry.

## Main statements

* `Cursor.decode_encode`: a cursor is read back from its text.
* `Page.resume_ofRecord`: the cursor after a row marks the place of the row.
-/

namespace GuardedQuery

namespace Value

/-- Values that a cursor can carry. -/
structure Travels (v : Value) : Prop where
  /-- Integers fit 64 bits, and members are sorted. -/
  wellFormed : v.WellFormed
  /-- Numbers are read back. -/
  legible : v.Legible
  /-- The cursor document puts two levels around the value. -/
  depth : v.depth ≤ 125

end Value

namespace Cursor

/-- The tree of a cursor document is read as the cursor. -/
theorem decoder_document {values : Record} (h : (Value.object values).WellFormed) :
    decoder (Node.ofValue (.object [("values", .object values), ("timestamp", .null)])) = .ok { values } := by
  have hvalues := Decoder.record_ofValue h
  have htimestamp : Decoder.option timestampDecoder .null = .ok none := rfl
  simp only [Node.ofValue, Node.ofMembers] at hvalues ⊢
  simp [decoder, Decoder.ofFields, Decoder.readMembers, Field.mandatory, Field.optional, hvalues, htimestamp,
    Except.map, bind, Except.bind]

theorem decode_of_document {text document : String} {bytes : List UInt8} {c : Cursor}
    (hbytes : Base64.decode? (Text.trimChars text.toList) = some bytes)
    (hdocument : String.fromUTF8? { data := { toList := bytes } } = some document)
    (hrun : decoder.run document = .ok c) : decode text = .ok c := by
  simp only [decode, hbytes, hdocument, hrun]

/-- **A cursor is read back from its text.** -/
theorem decode_encode {values : Record} (hsorted : Dict.Sorted values) (h : ∀ m ∈ values, m.2.Travels) :
    decode (encode { values }) = .ok { values } := by
  have hwell : (Value.object values).WellFormed :=
    ⟨hsorted, Value.wellFormedMembers_iff.mpr fun m hm => (h m hm).wellFormed⟩
  have hlegible : Value.LegibleMembers values := Value.legibleMembers_iff.mpr fun m hm => (h m hm).legible
  have hdepth : Value.depthMembers values ≤ 125 := Value.depthMembers_le_iff.mpr fun m hm => (h m hm).depth
  have hrun := Value.run_toText decoder
    (v := .object [("values", .object values), ("timestamp", .null)])
    ⟨hlegible, trivial, trivial⟩ (by
      simp only [Value.depth, Value.depthMembers, Node.nestingLimit]
      omega)
  have hdocument : documentText { values } =
      (Value.object [("values", .object values), ("timestamp", .null)]).toText := rfl
  rw [Decoder.ofValue, decoder_document hwell, ← hdocument] at hrun
  have hbytes : Base64.decode? (Text.trimChars (encode { values }).toList) =
      some (documentText { values }).toByteArray.data.toList := by
    rw [encode, Base64.encodeText, String.toList_ofList, Base64.trimChars_encode, Base64.decode?_encode]
  exact decode_of_document hbytes (Base64.fromUTF8?_toByteArray (documentText { values })) hrun

/-- The cursor after a row has the values of the row under the names of the keys. -/
theorem values_ofRecord (keys : List SortKey) (record : Record) :
    (ofRecord keys record).values =
      Dict.ofList ((keys.map SortKey.field).map fun f => (f, Record.value record f)) := by
  simp [ofRecord, Function.comp_def]

/-- The cursor after a row has the row's value for every key. -/
theorem value_ofRecord {keys : List SortKey} {k : SortKey} (h : k ∈ keys) (record : Record) :
    Dict.get? (ofRecord keys record).values k.field = some (Record.value record k.field) := by
  rw [values_ofRecord, Dict.get?_ofList_map, if_pos (List.mem_map_of_mem h)]

/-- The cursor after a row is read back from its text. -/
theorem decodeFor_ofRecord {keys : List SortKey} {record : Record}
    (h : ∀ k ∈ keys, (Record.value record k.field).Travels) :
    decodeFor keys (ofRecord keys record).encode = .ok (ofRecord keys record) := by
  have hsorted : Dict.Sorted (ofRecord keys record).values := Dict.sorted_ofList _
  have htravels : ∀ m ∈ (ofRecord keys record).values, m.2.Travels := by
    intro m hm
    obtain ⟨k, hk, rfl⟩ := List.mem_map.mp (Dict.mem_of_mem_ofList hm)
    exact h k hk
  have hcomplete : keys.find? (fun k => !Dict.contains (ofRecord keys record).values k.field) = none := by
    refine List.find?_eq_none.mpr ?_
    intro k hk
    simp [Dict.contains, value_ofRecord hk]
  have hdecode := decode_encode hsorted htravels
  have hplain : (ofRecord keys record) = { values := (ofRecord keys record).values } := rfl
  rw [← hplain] at hdecode
  simp only [decodeFor, hdecode, hcomplete, bind, Except.bind]
  rfl

end Cursor

namespace Page

/-- **The cursor after a row marks the place of the row.** -/
theorem resume_ofRecord {keys : List SortKey} {record : Record}
    (h : ∀ k ∈ keys, (Record.value record k.field).Travels) :
    resume keys (some (Cursor.ofRecord keys record).encode) = .ok (some (Cursor.ofRecord keys record)) := by
  have hsome : (Cursor.ofRecord keys record).documentText ≠ "" := by
    intro hempty
    have hchars := congrArg String.toList hempty
    simp [Cursor.documentText, Value.textInOrder, Value.toText, Value.chars] at hchars
  rw [resume, Cursor.encode, Base64.isBlankText_encodeText hsome]
  rw [← Cursor.encode, Cursor.decodeFor_ofRecord h]
  rfl

/-- A row comes after the cursor of another row if it comes after that row. -/
theorem compareRecords_ofRecord (keys : List SortKey) (r place : Record) :
    SortKey.compareRecords keys r (Cursor.ofRecord keys place).values =
      SortKey.compareRecords keys r place := by
  have hall : ∀ ks : List SortKey, (∀ k ∈ ks, k ∈ keys) →
      SortKey.compareRecords ks r (Cursor.ofRecord keys place).values =
        SortKey.compareRecords ks r place := by
    intro ks hks
    induction ks with
    | nil => rfl
    | cons k rest ih =>
      have hvalue : Record.value (Cursor.ofRecord keys place).values k.field = Record.value place k.field := by
        rw [Record.value, Cursor.value_ofRecord (hks k (by simp))]
        rfl
      rw [SortKey.compareRecords, SortKey.compareRecords, hvalue, ih fun x hx => hks x (by simp [hx])]
  exact hall keys fun _ hk => hk

end Page

end GuardedQuery
