import GuardedQuery.Proofs.ExactKeys
import GuardedQuery.Proofs.Loading

/-!
# When identities tie

A table keeps the texts of its identities apart, whereas filters and sort keys compare identities in their declared
type. Texts, integers and truth values have one spelling each, so there the two notions agree. Numbers, instants and
UUIDs have several, and two records whose identities spell one value both pass a filter on it.

## Main definitions

* `Scalar.Equals`: scalars that a comparison takes for equal.
* `Table.FilterTie`, `Table.KeyTie`: records whose identities a filter, or the identity's sort key, takes for equal.

## Main statements

* `Table.countP_identity_le_one_iff`: identity filters find at most one record if and only if no identities tie.
* `Store.identities_tie_by_spelling`: for every type of identity, which records tie.
-/

namespace GuardedQuery

/-- A list has at most one element of a kind if and only if no two of its places have such elements. -/
theorem countP_le_one_iff {α : Type} {p : α → Bool} {l : List α} :
    l.countP p ≤ 1 ↔ l.Pairwise fun a b => ¬(p a = true ∧ p b = true) := by
  induction l with
  | nil => simp
  | cons a rest ih =>
    rw [List.pairwise_cons, List.countP_cons]
    by_cases ha : p a = true
    · have hrest : rest.countP p = 0 ↔ ∀ b ∈ rest, ¬(p a = true ∧ p b = true) := by
        simp [List.countP_eq_zero, ha]
      rw [← ih, ← hrest]
      simp only [ha, if_true]
      omega
    · simp [ha, ih]

/-! ## Scalars that compare equal -/

namespace Scalar

/-- Scalars that a comparison takes for equal. -/
def Equals (x y : Scalar) : Prop := x.compare? y = some .eq

/-- Scalars of one type compare by what they stand for: numbers by their keys, all others by themselves. -/
theorem equals_iff {x y : Scalar} :
    x.Equals y ↔ x = y ∨ ∃ a b : Binary64, x = float a ∧ y = float b ∧ a.key = b.key := by
  have hinstants (i j : Instant) : i.compare j = .eq ↔ i = j := by
    obtain ⟨seconds, nanos⟩ := i
    obtain ⟨seconds', nanos'⟩ := j
    simp [Instant.compare, Ordering.then_eq_eq]
  have huuids (u v : Uuid) : Ord.compare u.value v.value = .eq ↔ u = v := by
    obtain ⟨n⟩ := u
    obtain ⟨m⟩ := v
    simp
  cases x <;> cases y <;> simp [Equals, compare?, hinstants, huuids]
  rename_i a b
  constructor
  · exact fun h => .inr (by simpa [Binary64.compare] using h)
  · rintro (rfl | h)
    · simp [Binary64.compare]
    · simpa [Binary64.compare] using h

theorem Equals.refl (x : Scalar) : x.Equals x := equals_iff.mpr (.inl rfl)

/-- Scalars that are equal to one scalar are equal. -/
theorem Equals.trans_symm {x y z : Scalar} (hx : x.Equals z) (hy : y.Equals z) : x.Equals y := by
  rw [equals_iff] at hx hy ⊢
  rcases hx with rfl | ⟨a, c, rfl, rfl, hac⟩
  · rcases hy with rfl | ⟨b, c, rfl, rfl, hbc⟩
    · exact .inl rfl
    · exact .inr ⟨c, b, rfl, rfl, hbc.symm⟩
  · rcases hy with rfl | ⟨b, c', rfl, hc, hbc⟩
    · exact .inr ⟨a, c, rfl, rfl, hac⟩
    · obtain rfl : c = c' := by simpa using hc
      exact .inr ⟨a, b, rfl, rfl, hac.trans hbc.symm⟩

/-- A value stands for scalars of the type in which it is read. -/
theorem type_of_ofValue? {t : ScalarType} {v : Value} {x : Scalar} (h : ofValue? t v = some x) : x.type = t := by
  cases t <;> cases v <;> simp [ofValue?, Value.asInt64?, Value.asBinary64?] at h
  all_goals first
    | (subst h; rfl)
    | (obtain ⟨_, rfl⟩ := h; rfl)
    | (obtain ⟨_, _, rfl⟩ := h; rfl)

/-- The types whose values have one spelling each. -/
def spelledOnce : List ScalarType := [.string, .int, .bool]

/-- A scalar with one spelling tells the value that stands for it. -/
theorem eq_of_ofValue? {t : ScalarType} (ht : t ∈ spelledOnce) {v w : Value} {x y : Scalar} (hv : ofValue? t v = some x)
    (hw : ofValue? t w = some y) (hequal : x.Equals y) : v = w := by
  have hsame : x = y := by
    rcases equals_iff.mp hequal with h | ⟨a, _, rfl, _⟩
    · exact h
    · have htype := type_of_ofValue? hv
      subst htype
      simp [spelledOnce, type] at ht
  subst hsame
  have hcases : t = .string ∨ t = .int ∨ t = .bool := by simpa [spelledOnce] using ht
  rcases hcases with rfl | rfl | rfl <;> cases v <;> simp [ofValue?, Value.asInt64?] at hv <;>
    cases w <;> simp [ofValue?, Value.asInt64?] at hw
  · rw [← hv] at hw
    simpa using hw.symm
  · rw [← hv.2] at hw
    simpa using hw.2.symm
  · rw [← hv] at hw
    simpa using hw.symm

end Scalar

/-! ## Records whose identities tie -/

namespace Table

variable {t : Table} {type : ScalarType} {a b : Record}

/-- Records whose identities, read in the declared type, a comparison takes for equal. -/
def FilterTie (t : Table) (a b : Record) : Prop :=
  ∃ type x y, t.schema.fieldType? t.schema.identity = some type ∧
    Scalar.coerce? (Record.value a t.schema.identity) type = some x ∧
    Scalar.coerce? (Record.value b t.schema.identity) type = some y ∧ x.Equals y

/-- The sort key of the identity. -/
def identityKey (t : Table) : SortKey :=
  SortKey.typed { field := t.schema.identity } (t.schema.fieldType? t.schema.identity)

/-- Records that the sort key of the identity does not tell apart. -/
def KeyTie (t : Table) (a b : Record) : Prop := SortKey.compareRecords [t.identityKey] a b = .eq

theorem filterTie_iff (htype : t.schema.fieldType? t.schema.identity = some (.scalar type)) :
    t.FilterTie a b ↔ ∃ x y, Scalar.ofValue? type (Record.value a t.schema.identity) = some x ∧
      Scalar.ofValue? type (Record.value b t.schema.identity) = some y ∧ x.Equals y := by
  simp [FilterTie, htype, Scalar.coerce?]

theorem keyTie_iff : t.KeyTie a b ↔
    (if t.identityKey.temporal then
      (Record.value a t.schema.identity).compareTemporal (Record.value b t.schema.identity)
    else (Record.value a t.schema.identity).compare (Record.value b t.schema.identity)) = .eq := by
  have hparts : SortKey.compareRecords [t.identityKey] a b =
      t.identityKey.compare (Record.value a t.schema.identity) (Record.value b t.schema.identity) :=
    Ordering.then_eq
  rw [KeyTie, hparts]
  rfl

/-- The identity of a sound table is a declared scalar. -/
theorem Sound.exists_identityType (h : t.Sound) :
    ∃ type, t.schema.fieldType? t.schema.identity = some (.scalar type) := by
  have hvalid := h.identity
  rw [EntitySchema.hasValidIdentity] at hvalid
  cases htype : t.schema.fieldType? t.schema.identity with
  | none => simp [htype] at hvalid
  | some declared =>
    cases declared with
    | scalar type => exact ⟨type, rfl⟩
    | object _ | array _ => simp [htype, FieldType.isScalar] at hvalid

/-- The identity of a record is there, and has its declared type. -/
theorem Sound.identity_spec (h : t.Sound) {r : Record} (hr : r ∈ t.records)
    (htype : t.schema.fieldType? t.schema.identity = some (.scalar type)) :
    Predicate.actual? r t.schema.identity = some (Record.value r t.schema.identity) ∧
      type.conforms (Record.value r t.schema.identity) = true := by
  have hnull := h.identified r hr
  cases hget : Dict.get? r t.schema.identity with
  | none => simp [Record.value, hget, Value.isNull] at hnull
  | some v =>
    obtain ⟨declared, hdeclared, hconforms⟩ := h.conforming r hr _ v hget
    obtain rfl := Option.some.inj (htype.symm.trans hdeclared)
    rw [Record.value_of_get? hget] at hnull ⊢
    exact ⟨by simp [Predicate.actual?, hget, hnull], by simpa [FieldType.conforms, hnull] using hconforms⟩

/-- Identities of two records differ as values. -/
theorem Sound.pairwise_identity_ne (h : t.Sound) : t.records.Pairwise fun a b =>
    Record.value a t.schema.identity ≠ Record.value b t.schema.identity := by
  have hdistinct := h.distinct
  rw [h.identities, List.Nodup, List.pairwise_map] at hdistinct
  exact hdistinct.imp fun hne heq => hne (by rw [heq])

/-- A filter on the identity passes the records whose identity is equal to the operand. -/
theorem Sound.holds_identity_iff (h : t.Sound) {r : Record} (hr : r ∈ t.records)
    (htype : t.schema.fieldType? t.schema.identity = some (.scalar type)) (operand : Scalar) :
    (Predicate.compare t.schema.identity .eq operand).holds r = true ↔
      ∃ x, Scalar.ofValue? operand.type (Record.value r t.schema.identity) = some x ∧ x.Equals operand := by
  rw [Predicate.holds, (h.identity_spec hr htype).1]
  simp only [Predicate.comparesWith, Scalar.readLike?]
  cases Scalar.ofValue? operand.type (Record.value r t.schema.identity) with
  | none => simp
  | some x =>
    have hequal : (x.compare? operand).any CompareOp.eq.holds = true ↔ x.Equals operand := by
      rw [Scalar.Equals]
      rcases x.compare? operand with _ | (_ | _ | _) <;> simp [CompareOp.holds]
    simp [hequal]

/-- **Filters on the identity find at most one record if and only if no identities tie.** -/
theorem Sound.countP_identity_le_one_iff (h : t.Sound)
    (htype : t.schema.fieldType? t.schema.identity = some (.scalar type)) :
    (∀ operand : Scalar, operand.type = type →
      t.records.countP (Predicate.compare t.schema.identity .eq operand).holds ≤ 1) ↔
      t.records.Pairwise fun a b => ¬t.FilterTie a b := by
  constructor
  · intro hcount
    refine List.pairwise_iff_forall_sublist.mpr fun {a b} hab htie => ?_
    obtain ⟨x, y, hx, hy, hequal⟩ := (filterTie_iff htype).mp htie
    have hytype := Scalar.type_of_ofValue? hy
    -- Both records pass the filter for the identity of the second one.
    have hpair := (countP_le_one_iff.mp (hcount y hytype)).sublist hab
    have ha : a ∈ t.records := hab.mem (by simp)
    have hb : b ∈ t.records := hab.mem (by simp)
    rw [List.pairwise_pair, h.holds_identity_iff ha htype, h.holds_identity_iff hb htype, hytype] at hpair
    exact hpair ⟨⟨x, hx, hequal⟩, ⟨y, hy, .refl y⟩⟩
  · rintro hties operand rfl
    refine countP_le_one_iff.mpr (hties.imp_of_mem fun {a b} ha hb hne hboth => hne ?_)
    obtain ⟨x, hx, hxo⟩ := (h.holds_identity_iff ha htype operand).mp hboth.1
    obtain ⟨y, hy, hyo⟩ := (h.holds_identity_iff hb htype operand).mp hboth.2
    exact (filterTie_iff htype).mpr ⟨x, y, hx, hy, hxo.trans_symm hyo⟩

/-! ## Types of identities -/

/-- Identities with one spelling do not tie. -/
theorem not_filterTie_of_spelledOnce (htype : t.schema.fieldType? t.schema.identity = some (.scalar type))
    (honce : type ∈ Scalar.spelledOnce)
    (hne : Record.value a t.schema.identity ≠ Record.value b t.schema.identity) : ¬t.FilterTie a b := by
  intro htie
  obtain ⟨x, y, hx, hy, hequal⟩ := (filterTie_iff htype).mp htie
  exact hne (Scalar.eq_of_ofValue? honce hx hy hequal)

/-- Columns other than those of numbers and instants are sorted by what is written, so identities do not tie there. -/
theorem Sound.not_keyTie (h : t.Sound) (ha : a ∈ t.records) (hb : b ∈ t.records)
    (hwell : ∀ r ∈ t.records, ∀ m ∈ r, m.2.WellFormed)
    (htype : t.schema.fieldType? t.schema.identity = some (.scalar type)) (hfloat : type ≠ .float)
    (hinstant : type ≠ .datetime)
    (hne : Record.value a t.schema.identity ≠ Record.value b t.schema.identity) : ¬t.KeyTie a b := by
  intro htie
  have htemporal : t.identityKey.temporal = false := by
    simpa [identityKey, SortKey.typed, htype, FieldType.isA] using hinstant
  exact hne (SortKey.value_eq_of_compareRecords htie (List.mem_singleton.mpr rfl) htemporal
    (h.plain_value ha (hwell a ha) hfloat htype) (h.plain_value hb (hwell b hb) hfloat htype))

/-- Instants tie as sort keys if and only if they tie in filters: if they are one instant. -/
theorem Sound.keyTie_iff_of_instants (h : t.Sound) (ha : a ∈ t.records) (hb : b ∈ t.records)
    (htype : t.schema.fieldType? t.schema.identity = some (.scalar .datetime)) : t.KeyTie a b ↔ t.FilterTie a b := by
  have hinstant : ∀ v : Value, ScalarType.conforms .datetime v = true →
      ∃ s i, v = .string s ∧ Instant.parse? s = some i := by
    intro v hv
    cases v <;> simp [ScalarType.conforms] at hv
    exact ⟨_, _, rfl, (Option.isSome_iff_exists.mp hv).choose_spec⟩
  have htemporal : t.identityKey.temporal = true := by simp [identityKey, SortKey.typed, htype, FieldType.isA]
  obtain ⟨s, i, hs, hi⟩ := hinstant _ (h.identity_spec ha htype).2
  obtain ⟨s', i', hs', hi'⟩ := hinstant _ (h.identity_spec hb htype).2
  rw [keyTie_iff, filterTie_iff htype, htemporal, if_pos rfl, hs, hs', Value.compareTemporal,
    Value.compareInstantTexts, hi, hi']
  simp [Scalar.ofValue?, hi, hi', Scalar.Equals, Scalar.compare?]

/-- Numbers tie as sort keys if and only if they tie in filters, unless both are signed 64-bit integers, which sort
keys compare exactly. -/
theorem Sound.keyTie_iff_of_numbers (h : t.Sound) (ha : a ∈ t.records) (hb : b ∈ t.records)
    (htype : t.schema.fieldType? t.schema.identity = some (.scalar .float))
    (hne : Record.value a t.schema.identity ≠ Record.value b t.schema.identity) :
    t.KeyTie a b ↔ t.FilterTie a b ∧ ¬((Record.value a t.schema.identity).asInt64?.isSome = true ∧
      (Record.value b t.schema.identity).asInt64?.isSome = true) := by
  have hnumber : ∀ v : Value, ScalarType.conforms .float v = true → v.kindRank = 2 ∧ ∃ x, v.asBinary64? = some x := by
    intro v hv
    cases v <;> simp [ScalarType.conforms, Value.asBinary64?, Value.kindRank] at hv ⊢
  have hexact : ∀ {v : Value} {n : Int}, v.asInt64? = some n → v = .int n := by
    intro v n hv
    cases v <;> simp [Value.asInt64?] at hv
    rw [hv.2]
  have htemporal : t.identityKey.temporal = false := by simp [identityKey, SortKey.typed, htype, FieldType.isA]
  obtain ⟨hkind, x, hx⟩ := hnumber _ (h.identity_spec ha htype).2
  obtain ⟨hkind', y, hy⟩ := hnumber _ (h.identity_spec hb htype).2
  rw [keyTie_iff, filterTie_iff htype, htemporal]
  generalize Record.value a t.schema.identity = v at *
  generalize Record.value b t.schema.identity = w at *
  have hcompare : v.compare w = v.compareNumbers w := by
    cases v <;> simp [Value.kindRank] at hkind <;> cases w <;> simp [Value.kindRank] at hkind' <;>
      simp [Value.compare, Value.kindRank]
  have htie : (∃ x y, Scalar.ofValue? .float v = some x ∧ Scalar.ofValue? .float w = some y ∧ x.Equals y) ↔
      x.compare y = .eq := by
    simp [Scalar.ofValue?, hx, hy, Scalar.Equals, Scalar.compare?]
  rw [if_neg Bool.false_ne_true, hcompare, htie, Value.compareNumbers, hx, hy]
  cases hv : v.asInt64? with
  | none => simp
  | some m =>
    cases hw : w.asInt64? with
    | none => simp
    | some n =>
      obtain rfl := hexact hv
      obtain rfl := hexact hw
      have hmn : m ≠ n := fun heq => hne (by rw [heq])
      simp [hmn]

end Table

namespace Store

/-- **Identities tie by their spelling only.** Filters on the identity find at most one record unless two identities
tie, and identities that are texts, integers or truth values do not tie. UUIDs can tie in filters but not as sort
keys. Instants tie in both if they are one instant. Numbers tie in filters if their roundings are equal, and as sort
keys unless both of them are signed 64-bit integers. -/
theorem identities_tie_by_spelling {s : Store} (hs : s.Reachable) {name : String} {t : Table}
    (ht : s.table? name = some t) :
    ∃ type, t.schema.fieldType? t.schema.identity = some (.scalar type) ∧
      ((∀ operand : Scalar, operand.type = type →
        t.records.countP (Predicate.compare t.schema.identity .eq operand).holds ≤ 1) ↔
          t.records.Pairwise fun a b => ¬t.FilterTie a b) ∧
      t.records.Pairwise fun a b =>
        (type ∈ [ScalarType.string, .int, .bool] → ¬t.FilterTie a b ∧ ¬t.KeyTie a b) ∧
        (type = .uuid → ¬t.KeyTie a b) ∧
        (type = .datetime → (t.KeyTie a b ↔ t.FilterTie a b)) ∧
        (type = .float → (t.KeyTie a b ↔ t.FilterTie a b ∧
          ¬((Record.value a t.schema.identity).asInt64?.isSome = true ∧
            (Record.value b t.schema.identity).asInt64?.isSome = true))) := by
  have hsound : t.Sound := (hs.sound name t ht).1
  have hwell := hs.wellFormed name t ht
  obtain ⟨type, htype⟩ := hsound.exists_identityType
  refine ⟨type, htype, hsound.countP_identity_le_one_iff htype, ?_⟩
  refine hsound.pairwise_identity_ne.imp_of_mem fun {a b} ha hb hne => ⟨?_, ?_, ?_, ?_⟩
  · intro honce
    have hsorted : type ≠ .float ∧ type ≠ .datetime := by
      constructor <;> rintro rfl <;> simp at honce
    exact ⟨Table.not_filterTie_of_spelledOnce htype honce hne,
      hsound.not_keyTie ha hb hwell htype hsorted.1 hsorted.2 hne⟩
  · rintro rfl
    exact hsound.not_keyTie ha hb hwell htype (by decide) (by decide) hne
  · rintro rfl
    exact hsound.keyTie_iff_of_instants ha hb htype
  · rintro rfl
    exact hsound.keyTie_iff_of_numbers ha hb htype hne

/-! ## Ships that arrive at one time -/

/-- Ships by the time of their arrival. -/
def arrivalSchema : EntitySchema where
  name := "Arrival"
  identity := "At"
  fields := [("At", .scalar .datetime), ("Ship", .scalar .string)]

/-- A ship that arrives at midnight. -/
def argo : Record := [("At", .string "2024-01-01T00:00:00Z"), ("Ship", .string "Argo")]

/-- A ship that arrives at the same time, which is written down in another time zone. -/
def beagle : Record := [("At", .string "2024-01-01T01:00:00+01:00"), ("Ship", .string "Beagle")]

/-- The ships. -/
def arrivalEntities : List EntityData := [{ schema := arrivalSchema, records := [argo, beagle] }]

theorem arrivalEntities_wellFormed : ∀ data ∈ arrivalEntities, data.WellFormed := by decide +kernel

/-- The table takes both ships, although their identities tie in filters and as sort keys; some filter on the identity
finds both. -/
theorem identities_tie_by_spelling_arrivals :
    ∃ t, (ofEntities arrivalEntities).table? "Arrival" = some t ∧ t.records = [argo, beagle] ∧
      t.FilterTie argo beagle ∧ t.KeyTie argo beagle ∧
      ∃ operand : Scalar, 1 < t.records.countP (Predicate.compare t.schema.identity .eq operand).holds := by
  have hrecords : ((ofEntities arrivalEntities).table? "Arrival").map Table.records = some [argo, beagle] := by
    decide +kernel
  obtain ⟨t, ht, hships⟩ := Option.map_eq_some_iff.mp hrecords
  have hschema := schema_ofEntities arrivalEntities_wellFormed (schema?_of_table ht)
  replace hschema : t.schema = arrivalSchema := List.mem_singleton.mp hschema
  obtain ⟨type, htype, hcount, hties⟩ :=
    identities_tie_by_spelling (reachable_ofEntities arrivalEntities_wellFormed) ht
  obtain rfl : type = .datetime := by
    rw [hschema] at htype
    exact (FieldType.scalar.inj (Option.some.inj htype)).symm
  have hfilter : t.FilterTie argo beagle := by
    have hone : Scalar.ofValue? .datetime (Record.value argo "At") =
        Scalar.ofValue? .datetime (Record.value beagle "At") := by
      decide +kernel
    have hsome : (Scalar.ofValue? .datetime (Record.value argo "At")).isSome = true := by decide +kernel
    obtain ⟨x, hx⟩ := Option.isSome_iff_exists.mp hsome
    refine (Table.filterTie_iff htype).mpr ⟨x, x, ?_, ?_, .refl x⟩
    · rw [hschema]
      exact hx
    · rw [hschema]
      exact hone ▸ hx
  rw [hships, List.pairwise_pair] at hties
  obtain ⟨_, _, hinstants, _⟩ := hties
  refine ⟨t, ht, hships, hfilter, (hinstants rfl).mpr hfilter, ?_⟩
  by_contra hnone
  rw [hships, List.pairwise_pair] at hcount
  exact hcount.mp (fun operand _ => not_lt.mp fun hmore => hnone ⟨operand, hships ▸ hmore⟩) hfilter

end Store

end GuardedQuery
