import GuardedQuery.Proofs.Binary64
import GuardedQuery.Proofs.Pages

/-!
# How far columns of any values are ordered

Two values are compared by their kinds, as texts, as instants, exactly as signed 64-bit integers, or by their
roundings. Each of these ways is an order. They fit together but for one gap: two different integers may have one
rounding, and a number that is no signed 64-bit integer and has this rounding, too, ties with both. Where no value of
a column closes such a gap, the keys order the rows.

The proofs compare a value by its *rough place*, where all numbers are rounded. The order of rough places is
transitive and coarser than that of values, and only two signed 64-bit integers are told apart by more than their
rough places.

## Main definitions

* `Value.Bridges`: a number that ties with two integers that do not tie.
* `Value.roughPlace`: the place of a value in its column, numbers being rounded.

## Main statements

* `SortKey.orders_unless_bridged`: comparisons by a key are reflexive and the same from both sides, they are
  transitive but for bridges, and keys order rows without bridges in their columns.
* `SortKey.bridge_readings`: a column of readings that no key orders.
-/

namespace GuardedQuery

namespace Value

/-! ## Bridges -/

/-- The key of the rounding of a number. -/
def rounding (v : Value) : Option ℤ := v.asBinary64?.map Binary64.key

/-- A number that is no signed 64-bit integer, next to two different ones that have its rounding. -/
structure Bridges (b a c : Value) : Prop where
  /-- The integers are different. -/
  ne : a ≠ c
  /-- The first integer. -/
  first : a.asInt64?.isSome = true
  /-- The last integer. -/
  last : c.asInt64?.isSome = true
  /-- The number between them is none of their kind. -/
  between : b.asInt64? = none
  /-- It has the rounding of the first integer. -/
  rounding_first : b.rounding = a.rounding
  /-- It has the rounding of the last integer. -/
  rounding_last : b.rounding = c.rounding

theorem bridges_iff {b a c : Value} : b.Bridges a c ↔
    a ≠ c ∧ a.asInt64?.isSome = true ∧ c.asInt64?.isSome = true ∧ b.asInt64? = none ∧
      b.rounding = a.rounding ∧ b.rounding = c.rounding := by
  constructor
  · intro h
    exact ⟨h.ne, h.first, h.last, h.between, h.rounding_first, h.rounding_last⟩
  · rintro ⟨hne, hfirst, hlast, hbetween, hroundingFirst, hroundingLast⟩
    exact ⟨hne, hfirst, hlast, hbetween, hroundingFirst, hroundingLast⟩

instance (b a c : Value) : Decidable (Bridges b a c) := decidable_of_iff _ bridges_iff.symm

theorem rounding_eq_none_iff {v : Value} : v.rounding = none ↔ v.kindRank ≠ 2 := by
  cases v <;> simp [rounding, asBinary64?, kindRank]

theorem kindRank_of_rounding {v : Value} {key : ℤ} (h : v.rounding = some key) : v.kindRank = 2 := by
  by_contra hkind
  rw [rounding_eq_none_iff.mpr hkind] at h
  cases h

theorem isSome_asInt64?_iff {v : Value} : v.asInt64?.isSome = true ↔ ∃ n, v = .int n ∧ n ≤ int64Max := by
  cases v <;> simp [asInt64?]

/-! ## Rough places -/

/-- The place of a value in its column, numbers being rounded. -/
def roughPlace (temporal : Bool) (v : Value) : Place :=
  match v.rounding with
  | some key => { kind := 4, number := key }
  | none => v.place temporal

theorem Place.compare_self (p : Place) : p.compare p = .eq := Std.ReflCmp.compare_self

theorem roughPlace_of_rounding {v : Value} {key : ℤ} (h : v.rounding = some key) (temporal : Bool) :
    v.roughPlace temporal = { kind := 4, number := key } := by
  rw [roughPlace, h]

theorem roughPlace_of_none {v : Value} (h : v.rounding = none) (temporal : Bool) :
    v.roughPlace temporal = v.place temporal := by
  rw [roughPlace, h]

theorem kind_roughPlace (temporal : Bool) (v : Value) :
    2 * v.kindRank ≤ (v.roughPlace temporal).kind ∧ (v.roughPlace temporal).kind ≤ 2 * v.kindRank + 1 := by
  cases hrounding : v.rounding with
  | some key =>
    simp [roughPlace_of_rounding hrounding, kindRank_of_rounding hrounding]
  | none =>
    rw [roughPlace_of_none hrounding]
    exact kind_place temporal v

/-- A number has the rough place of its rounding, and no other value has. -/
theorem rounding_eq_of_roughPlace {temporal : Bool} {a b : Value} (h : a.roughPlace temporal = b.roughPlace temporal)
    (ha : a.rounding.isSome = true) : b.rounding = a.rounding := by
  have hkinds := kind_roughPlace temporal a
  rw [h] at hkinds
  have hkind := kind_roughPlace temporal b
  obtain ⟨key, ha⟩ := Option.isSome_iff_exists.mp ha
  cases hb : b.rounding with
  | some key' =>
    rw [roughPlace_of_rounding ha, roughPlace_of_rounding hb] at h
    rw [ha, Option.some_inj]
    exact (congrArg Place.number h).symm
  | none =>
    have hnumber := kindRank_of_rounding ha
    have hne := rounding_eq_none_iff.mp hb
    omega

/-! ## Comparisons by rough places -/

variable {temporal : Bool} {a b c : Value}

/-- The order of two values in a column; in columns of instants, texts are compared as instants. -/
def compareIn (temporal : Bool) (a b : Value) : Ordering := if temporal then a.compareTemporal b else a.compare b

theorem compareIn_swap (temporal : Bool) (a b : Value) :
    compareIn temporal b a = (compareIn temporal a b).swap := by
  rw [compareIn, compareIn, a.compare_swap, a.compareTemporal_swap]
  cases temporal <;> rfl

theorem compareIn_numbers (ha : a.kindRank = 2) (hb : b.kindRank = 2) :
    compareIn temporal a b = compareNumbers a b := by
  cases a <;> simp [kindRank] at ha <;> cases b <;> simp [kindRank] at hb <;>
    cases temporal <;> simp [compareIn, compareTemporal, compare, kindRank]

/-- Values are compared by their rough places, unless both are signed 64-bit integers. -/
theorem compareIn_eq_rough (h : ¬(a.asInt64?.isSome = true ∧ b.asInt64?.isSome = true)) :
    compareIn temporal a b = (a.roughPlace temporal).compare (b.roughPlace temporal) := by
  by_cases hkind : a.kindRank = b.kindRank
  · by_cases hnumber : a.kindRank = 2
    · -- Two numbers, one of which is no signed 64-bit integer, are compared by their roundings.
      have hrounded : compareNumbers a b =
          Ord.compare (a.asBinary64?.getD default).key (b.asBinary64?.getD default).key := by
        rw [compareNumbers]
        split
        · rename_i hm hn
          exact absurd (by simp [hm, hn]) h
        · rfl
      have hplace : ∀ v : Value, v.kindRank = 2 →
          v.roughPlace temporal = { kind := 4, number := (v.asBinary64?.getD default).key } := by
        intro v hv
        cases v <;> simp [kindRank] at hv <;> rfl
      rw [compareIn_numbers hnumber (hkind ▸ hnumber), hrounded, hplace a hnumber, hplace b (hkind ▸ hnumber)]
      simp [Place.compare_of_kind_eq, Std.ReflCmp.compare_self]
    · have hexact : ∀ v : Value, v.kindRank ≠ 2 → v.Exact := by
        intro v hv
        cases v <;> trivial
      rw [roughPlace_of_none (rounding_eq_none_iff.mpr hnumber),
        roughPlace_of_none (rounding_eq_none_iff.mpr (hkind ▸ hnumber))]
      exact compare_place (hexact a hnumber) (hexact b (hkind ▸ hnumber)) temporal
  · rw [compareIn, compare_of_kindRank_ne hkind,
      Place.compare_of_rank_ne (kind_roughPlace temporal a) (kind_roughPlace temporal b) hkind]

/-- Two signed 64-bit integers are compared as integers. -/
theorem compareIn_int {m n : ℤ} (hm : m ≤ int64Max) (hn : n ≤ int64Max) :
    compareIn temporal (.int m) (.int n) = Ord.compare m n := by
  rw [compareIn_numbers rfl rfl]
  simp [compareNumbers, asInt64?, hm, hn]

/-- **Rough places keep the order of values.** -/
theorem rough_isLE (h : (compareIn temporal a b).isLE = true) :
    ((a.roughPlace temporal).compare (b.roughPlace temporal)).isLE = true := by
  by_cases hint : a.asInt64?.isSome = true ∧ b.asInt64?.isSome = true
  · obtain ⟨m, rfl, hm⟩ := isSome_asInt64?_iff.mp hint.1
    obtain ⟨n, rfl, hn⟩ := isSome_asInt64?_iff.mp hint.2
    rw [compareIn_int hm hn, Std.isLE_compare] at h
    have hkeys := Binary64.key_ofInt_le_key_ofInt h
    simpa [roughPlace, rounding, asBinary64?, Place.compare_of_kind_eq, Std.ReflCmp.compare_self,
      Std.isLE_compare] using hkeys
  · rwa [← compareIn_eq_rough hint]

/-- **Comparisons are transitive but for bridges.** -/
theorem bridges_of_compareIn (hab : (compareIn temporal a b).isLE = true) (hbc : (compareIn temporal b c).isLE = true)
    (hac : compareIn temporal a c = .gt) : b.Bridges a c := by
  have hca : (compareIn temporal c a).isLE = true := by
    rw [compareIn_swap, hac]
    rfl
  -- The three rough places follow each other in a circle, so they are one.
  have hsame : ∀ x y z : Value, (compareIn temporal x y).isLE = true → (compareIn temporal y z).isLE = true →
      (compareIn temporal z x).isLE = true → x.roughPlace temporal = y.roughPlace temporal := by
    intro x y z hxy hyz hzx
    have hyx := Std.TransCmp.isLE_trans (rough_isLE hyz) (rough_isLE hzx)
    exact Place.eq_of_compare (Std.OrientedCmp.isLE_antisymm (rough_isLE hxy) hyx)
  have hplaces := hsame a b c hab hbc hca
  have hints : a.asInt64?.isSome = true ∧ c.asInt64?.isSome = true := by
    by_contra hne
    rw [compareIn_eq_rough hne, hplaces, hsame b c a hbc hca hab, Place.compare_self] at hac
    cases hac
  obtain ⟨m, rfl, hm⟩ := isSome_asInt64?_iff.mp hints.1
  obtain ⟨n, rfl, hn⟩ := isSome_asInt64?_iff.mp hints.2
  rw [compareIn_int hm hn, compare_gt_iff_gt] at hac
  refine ⟨?_, hints.1, hints.2, ?_, ?_, ?_⟩
  · intro heq
    have hmn := int.inj heq
    omega
  · rw [← Option.not_isSome_iff_eq_none]
    intro hint
    obtain ⟨k, rfl, hk⟩ := isSome_asInt64?_iff.mp hint
    rw [compareIn_int hm hk, Std.isLE_compare] at hab
    rw [compareIn_int hk hn, Std.isLE_compare] at hbc
    omega
  · exact rounding_eq_of_roughPlace hplaces rfl
  · exact rounding_eq_of_roughPlace ((hsame _ _ b hca hab hbc).trans hplaces) rfl

theorem Bridges.symm (h : b.Bridges a c) : b.Bridges c a where
  ne := h.ne.symm
  first := h.last
  last := h.first
  between := h.between
  rounding_first := h.rounding_last
  rounding_last := h.rounding_first

/-- A bridge ties with both integers, which do not tie. -/
theorem Bridges.compareIn_eq (h : b.Bridges a c) (temporal : Bool) :
    compareIn temporal a b = .eq ∧ compareIn temporal b c = .eq ∧ compareIn temporal a c ≠ .eq := by
  have htie : ∀ x y : Value, x.rounding = y.rounding → x.rounding.isSome = true →
      ¬(x.asInt64?.isSome = true ∧ y.asInt64?.isSome = true) → compareIn temporal x y = .eq := by
    intro x y hxy hx hint
    obtain ⟨key, hx⟩ := Option.isSome_iff_exists.mp hx
    rw [compareIn_eq_rough hint, roughPlace_of_rounding hx, roughPlace_of_rounding (hxy ▸ hx),
      Place.compare_self]
  obtain ⟨m, rfl, hm⟩ := isSome_asInt64?_iff.mp h.first
  obtain ⟨n, rfl, hn⟩ := isSome_asInt64?_iff.mp h.last
  refine ⟨?_, ?_, ?_⟩
  · exact htie _ _ h.rounding_first.symm rfl (by simp [h.between])
  · exact htie _ _ h.rounding_last (by rw [h.rounding_last]; rfl) (by simp [h.between])
  · rw [compareIn_int hm hn, ne_eq, Std.LawfulEqCmp.compare_eq_iff_eq]
    rintro rfl
    exact h.ne rfl

end Value

namespace SortKey

/-! ## Keys -/

theorem compare_eq_orient (k : SortKey) (a b : Value) : k.compare a b = k.orient (Value.compareIn k.temporal a b) := rfl

instance (k : SortKey) : Std.OrientedCmp k.compare where
  eq_swap := k.compare_swap _ _

theorem compare_self (k : SortKey) (a : Value) : k.compare a a = .eq := Std.ReflCmp.compare_self

/-- **Comparisons by a key are transitive but for bridges.** -/
theorem trans_iff (k : SortKey) (a b c : Value) :
    ((k.compare a b).isLE = true → (k.compare b c).isLE = true → (k.compare a c).isLE = true) ↔
      ¬(b.Bridges a c ∧ k.compare a c = .gt) := by
  constructor
  · rintro htrans ⟨hbridge, hac⟩
    obtain ⟨hab, hbc, -⟩ := hbridge.compareIn_eq k.temporal
    have hle := htrans (by rw [compare_eq_orient, orient_eq_iff.mpr hab]; rfl)
      (by rw [compare_eq_orient, orient_eq_iff.mpr hbc]; rfl)
    rw [hac] at hle
    cases hle
  · intro hno hab hbc
    by_contra hac
    have hac : k.compare a c = .gt := by
      rwa [Bool.not_eq_true, Ordering.isLE_eq_false] at hac
    refine hno ⟨?_, hac⟩
    rw [compare_eq_orient, orient] at hab hbc hac
    cases hdirection : k.direction with
    | asc =>
      rw [hdirection] at hab hbc hac
      exact Value.bridges_of_compareIn hab hbc hac
    | desc =>
      simp only [hdirection, ← Value.compareIn_swap] at hab hbc hac
      exact (Value.bridges_of_compareIn hbc hab hac).symm

/-! ## Rows -/

/-- No value of a row in a column ties with two integers of other rows that do not tie. -/
def Unbridged (field : String) (S : Record → Prop) : Prop :=
  ∀ a b c, S a → S b → S c → ¬(Record.value b field).Bridges (Record.value a field) (Record.value c field)

/-- Rows without bridges in the columns of the keys, compared by the keys. -/
theorem transCmp_of_unbridged {keys : List SortKey} {S : Record → Prop} (h : ∀ k ∈ keys, Unbridged k.field S) :
    Std.TransCmp fun a b : Subtype S => compareRecords keys a.1 b.1 := by
  induction keys with
  | nil => exact { eq_swap := rfl, isLE_trans := fun _ _ => rfl }
  | cons k rest ih =>
    have hfirst : Std.TransCmp fun a b : Subtype S =>
        k.compare (Record.value a.1 k.field) (Record.value b.1 k.field) := by
      refine { eq_swap := k.compare_swap _ _, isLE_trans := ?_ }
      intro a b c
      refine (k.trans_iff _ _ _).mpr ?_
      intro hbridge
      exact h k (List.mem_cons_self ..) a.1 b.1 c.1 a.2 b.2 c.2 hbridge.1
    have hrest := ih fun l hl => h l (List.mem_cons_of_mem k hl)
    exact inferInstanceAs (Std.TransCmp (compareLex _ _))

/-- **Keys order rows without bridges in their columns.** -/
theorem orders_of_unbridged {keys : List SortKey} {S : Record → Prop} (h : ∀ k ∈ keys, Unbridged k.field S) :
    Orders keys S where
  swap := by
    intro a b _ _
    exact compareRecords_swap keys a b
  trans := by
    intro a b c ha hb hc
    simp only [← Ordering.isLE_iff_ne_gt]
    have htrans := transCmp_of_unbridged h
    exact htrans.isLE_trans (a := ⟨a, ha⟩) (b := ⟨b, hb⟩) (c := ⟨c, hc⟩)

/-- A single key orders rows if and only if its column is without bridges. -/
theorem orders_singleton_iff {k : SortKey} {S : Record → Prop} : Orders [k] S ↔ Unbridged k.field S := by
  have hsingle : ∀ a b : Record,
      compareRecords [k] a b = k.compare (Record.value a k.field) (Record.value b k.field) := by
    intro a b
    rw [compareRecords, compareRecords, Ordering.then_eq]
  constructor
  · intro horders a b c ha hb hc hbridge
    have htrans : ∀ x y, S x → S y →
        (Record.value b k.field).Bridges (Record.value x k.field) (Record.value y k.field) →
        k.compare (Record.value x k.field) (Record.value y k.field) ≠ .gt := by
      intro x y hx hy hxy hgt
      refine (k.trans_iff _ _ _).mp ?_ ⟨hxy, hgt⟩
      simp only [Ordering.isLE_iff_ne_gt, ← hsingle]
      exact horders.trans x b y hx hb hy
    have hac := htrans a c ha hc hbridge
    have hca := htrans c a hc ha hbridge.symm
    obtain ⟨-, -, hne⟩ := hbridge.compareIn_eq k.temporal
    rw [k.compare_swap] at hca
    rw [ne_eq, ← orient_eq_iff (k := k), ← compare_eq_orient] at hne
    revert hac hca hne
    cases k.compare (Record.value a k.field) (Record.value c k.field) <;> decide
  · intro h
    exact orders_of_unbridged fun l hl => (List.mem_singleton.mp hl) ▸ h

/-- **Keys order values and rows, unless a bridge is among them.** Comparisons by a key, in either direction and
with texts read either way, are reflexive and the same from both sides. They are transitive at three values
exactly if it is not the case that the first and the last are integers out of order that the middle one ties with.
A list of keys compares rows the same from both sides, and orders all rows that have no bridge in a column of a key;
a single key orders no others. -/
theorem orders_unless_bridged (k : SortKey) (keys : List SortKey) (S : Record → Prop) :
    (∀ a b c : Value, k.compare a a = .eq ∧ k.compare b a = (k.compare a b).swap ∧
      ((k.compare a b ≠ .gt → k.compare b c ≠ .gt → k.compare a c ≠ .gt) ↔
        ¬(b.Bridges a c ∧ k.compare a c = .gt))) ∧
    (∀ a b : Record, compareRecords keys a a = .eq ∧ compareRecords keys b a = (compareRecords keys a b).swap) ∧
    ((∀ l ∈ keys, Unbridged l.field S) → Orders keys S) ∧ (Orders [k] S ↔ Unbridged k.field S) := by
  refine ⟨?_, ?_, orders_of_unbridged, orders_singleton_iff⟩
  · intro a b c
    refine ⟨k.compare_self a, k.compare_swap a b, ?_⟩
    simp only [← Ordering.isLE_iff_ne_gt]
    exact k.trans_iff a b c
  · intro a b
    exact ⟨compareRecords_self keys a, compareRecords_swap keys a b⟩

/-! ## A column of readings -/

/-- Some readings: a text, two integers, a number between them, and one that is missing. -/
def readings : List Record :=
  [[("Id", .int 1), ("Reading", .string "n/a")], [("Id", .int 2), ("Reading", .int 3)],
    [("Id", .int 3), ("Reading", .float (Binary64.ofInt 5))], [("Id", .int 4), ("Reading", .int 7)], [("Id", .int 5)]]

/-- Two large integers, and the number that both are rounded to. -/
def largeReadings : List Record :=
  [[("Id", .int 1), ("Reading", .int 9007199254740993)],
    [("Id", .int 2), ("Reading", .float (Binary64.ofInt 9007199254740992))],
    [("Id", .int 3), ("Reading", .int 9007199254740992)]]

/-- Readings of several kinds are put in order, but not the large ones: the first ties with the second and the second
with the third, but the first comes after the third. -/
theorem bridge_readings :
    Orders [{ field := "Reading", direction := .desc }, { field := "Id" }] (· ∈ readings) ∧
    ¬Orders [{ field := "Reading" }] (· ∈ largeReadings) ∧
    compareRecords [{ field := "Reading" }] largeReadings[0] largeReadings[1] = .eq ∧
    compareRecords [{ field := "Reading" }] largeReadings[1] largeReadings[2] = .eq ∧
    compareRecords [{ field := "Reading" }] largeReadings[0] largeReadings[2] = .gt := by
  have hunbridged : ∀ k ∈ [({ field := "Reading", direction := .desc } : SortKey), { field := "Id" }],
      ∀ b ∈ readings, ∀ a ∈ readings, ∀ c ∈ readings,
        ¬(Record.value b k.field).Bridges (Record.value a k.field) (Record.value c k.field) := by
    decide +kernel
  have hbridge : (Value.float (Binary64.ofInt 9007199254740992)).Bridges (.int 9007199254740993)
      (.int 9007199254740992) := by
    decide +kernel
  obtain ⟨-, -, horders, -⟩ := orders_unless_bridged { field := "Reading" }
    [{ field := "Reading", direction := .desc }, { field := "Id" }] (· ∈ readings)
  obtain ⟨-, -, -, hsingle⟩ := orders_unless_bridged { field := "Reading" } [] (· ∈ largeReadings)
  refine ⟨horders fun k hk a b c ha hb hc => hunbridged k hk b hb a ha c hc, ?_,
    by decide +kernel, by decide +kernel, by decide +kernel⟩
  rw [hsingle]
  intro h
  exact h _ _ _ (List.mem_cons_self ..) (List.mem_cons_of_mem _ (List.mem_cons_self ..))
    (List.mem_cons_of_mem _ (List.mem_cons_of_mem _ (List.mem_cons_self ..))) hbridge

end SortKey

end GuardedQuery
