import GuardedQuery.Order
import Mathlib.Data.List.Basic
import Mathlib.Order.Basic

/-!
# Keys put rows in order

Values that are compared exactly have a place in their column, and columns are compared by places. So keys
over such columns order the rows: two rows are told apart the same way from both sides, and the order is
transitive, for any number of keys in either direction.

## Main definitions

* `Value.Exact`: values that are compared exactly.
* `Value.Place`, `Value.place`: the place of a value in its column.
* `SortKey.Orders`: the keys order the records of a class.

## Main statements

* `SortKey.orders_exact`: keys order the records whose values are compared exactly.
* `SortKey.value_eq_of_compareRecords`: rows that no key tells apart have the same values in plain columns.
-/

namespace GuardedQuery

namespace Value

/-! ## Places -/

/-- Values that are compared exactly: signed 64-bit integers, and all that is no number. -/
def Exact : Value → Prop
  | int n => n ≤ int64Max
  | float _ => False
  | _ => True

/-- The place of a value in its column. -/
structure Place where
  /-- Twice the rank of the kind, so that instants have a place before other texts. -/
  kind : Nat
  /-- The number, or the seconds of an instant. -/
  number : Int := 0
  /-- The fraction of an instant. -/
  fraction : Nat := 0
  /-- The text. -/
  text : String := ""

/-- Places are compared part by part. -/
def Place.compare : Place → Place → Ordering :=
  compareLex (compareOn Place.kind)
    (compareLex (compareOn Place.number) (compareLex (compareOn Place.fraction) (compareOn Place.text)))

instance : Std.TransCmp Place.compare := by
  rw [Place.compare]
  infer_instance

theorem Place.eq_of_compare {a b : Place} (h : a.compare b = .eq) : a = b := by
  obtain ⟨kind, number, fraction, text⟩ := a
  obtain ⟨kind', number', fraction', text'⟩ := b
  simpa [Place.compare, compareLex, compareOn, Ordering.then_eq_eq] using h

/-- The place of a text. In columns of instants, texts may be instants. -/
def textPlace (temporal : Bool) (s : String) : Place :=
  match if temporal then Instant.parse? s else none with
  | some i => { kind := 6, number := i.seconds, fraction := i.nanos }
  | none => { kind := 7, text := s }

/-- The place of a value in its column. -/
def place (temporal : Bool) : Value → Place
  | null => { kind := 0 }
  | bool b => { kind := 2, number := if b then 1 else 0 }
  | int n => { kind := 4, number := n }
  | float _ => { kind := 4 }
  | string s => textPlace temporal s
  | array _ => { kind := 8 }
  | object _ => { kind := 10 }

theorem Place.compare_of_kind_eq {a b : Place} (h : a.kind = b.kind) :
    a.compare b =
      (Ord.compare a.number b.number).then
        ((Ord.compare a.fraction b.fraction).then (Ord.compare a.text b.text)) := by
  simp [Place.compare, compareLex, compareOn, h]

theorem Place.compare_of_kind_ne {a b : Place} (h : a.kind ≠ b.kind) :
    a.compare b = Ord.compare a.kind b.kind := by
  have hkind : Ord.compare a.kind b.kind ≠ .eq := fun heq => h (Std.LawfulEqCmp.eq_of_compare heq)
  simp only [Place.compare, compareLex, compareOn]
  cases hcompare : Ord.compare a.kind b.kind with
  | eq => exact absurd hcompare hkind
  | lt | gt => rfl

/-- Texts are compared by their places. -/
theorem compare_textPlace (temporal : Bool) (s t : String) :
    (if temporal then compareInstantTexts s t else Ord.compare s t) =
      (textPlace temporal s).compare (textPlace temporal t) := by
  have hinstant : Ord.compare (6 : Nat) 7 = .lt ∧ Ord.compare (7 : Nat) 6 = .gt := by decide
  cases temporal with
  | false => simp [textPlace, Place.compare_of_kind_eq, Std.ReflCmp.compare_self]
  | true =>
    simp only [if_true, compareInstantTexts, textPlace]
    cases Instant.parse? s with
    | some i =>
      cases Instant.parse? t with
      | some j => simp [Place.compare_of_kind_eq, Instant.compare, Std.ReflCmp.compare_self]
      | none => simp [Place.compare_of_kind_ne, hinstant.1]
    | none =>
      cases Instant.parse? t with
      | some j => simp [Place.compare_of_kind_ne, hinstant.2]
      | none => simp [Place.compare_of_kind_eq, Std.ReflCmp.compare_self]

/-- The kind of a place tells the kind of the value. -/
theorem kind_place (temporal : Bool) (v : Value) :
    2 * v.kindRank ≤ (v.place temporal).kind ∧ (v.place temporal).kind ≤ 2 * v.kindRank + 1 := by
  cases v with
  | string s =>
    have htext : (textPlace temporal s).kind = 6 ∨ (textPlace temporal s).kind = 7 := by
      rw [textPlace]
      split
      · exact .inl rfl
      · exact .inr rfl
    simp only [kindRank, place]
    omega
  | null | bool | int | float | array | object => simp [kindRank, place]

/-- Places of values of different kinds are compared by the kinds. -/
theorem Place.compare_of_rank_ne {p q : Place} {m n : Nat} (hp : 2 * m ≤ p.kind ∧ p.kind ≤ 2 * m + 1)
    (hq : 2 * n ≤ q.kind ∧ q.kind ≤ 2 * n + 1) (h : m ≠ n) : p.compare q = Ord.compare m n := by
  rw [Place.compare_of_kind_ne (by omega)]
  rcases Nat.lt_or_gt_of_ne h with hlt | hgt
  · rw [Nat.compare_eq_lt.mpr hlt, Nat.compare_eq_lt.mpr (by omega)]
  · rw [Nat.compare_eq_gt.mpr hgt, Nat.compare_eq_gt.mpr (by omega)]

/-- Values of different kinds are compared by their kinds. -/
theorem compare_of_kindRank_ne {a b : Value} (h : a.kindRank ≠ b.kindRank) (temporal : Bool) :
    (if temporal then a.compareTemporal b else a.compare b) = Ord.compare a.kindRank b.kindRank := by
  have hplain : a.compare b = Ord.compare a.kindRank b.kindRank := by simp only [compare, if_neg h]
  have htemporal : a.compareTemporal b = a.compare b := by
    cases a <;> cases b <;> first | rfl | exact absurd rfl h
  rw [htemporal, hplain, ite_self]

/-- **Values that are compared exactly are compared by their places.** -/
theorem compare_place {a b : Value} (ha : a.Exact) (hb : b.Exact) (temporal : Bool) :
    (if temporal then a.compareTemporal b else a.compare b) =
      (a.place temporal).compare (b.place temporal) := by
  by_cases hkind : a.kindRank = b.kindRank
  · cases a with
    | null | array | object =>
      cases b <;> simp [kindRank] at hkind
      cases temporal <;> simp [compareTemporal, compare, kindRank, place, Place.compare_of_kind_eq]
    | bool x =>
      cases b <;> simp [kindRank] at hkind
      rename_i y
      have hbools : ∀ x y : Bool, Ord.compare x y = Ord.compare (if x then 1 else 0 : Int) (if y then 1 else 0) := by
        decide
      cases temporal <;> simp [compareTemporal, compare, kindRank, place, Place.compare_of_kind_eq, hbools]
    | int m =>
      cases b <;> simp [kindRank] at hkind
      · have hm : m ≤ int64Max := ha
        rename_i n
        have hn : n ≤ int64Max := hb
        cases temporal <;>
          simp [compareTemporal, compare, compareNumbers, asInt64?, hm, hn, kindRank, place,
            Place.compare_of_kind_eq]
      · exact absurd hb id
    | float x => exact absurd ha id
    | string s =>
      cases b <;> simp [kindRank] at hkind
      rename_i t
      have htexts := compare_textPlace temporal s t
      cases temporal <;> simpa [compareTemporal, compare, kindRank, place] using htexts
  · rw [compare_of_kindRank_ne hkind,
      Place.compare_of_rank_ne (kind_place temporal a) (kind_place temporal b) hkind]

/-! ## Plain values -/

/-- Null, truth values, signed 64-bit integers, and texts. -/
inductive Plain : Value → Prop
  | null : Plain null
  | bool (b : Bool) : Plain (bool b)
  | int {n : Int} (hleast : int64Min ≤ n) (hgreatest : n ≤ int64Max) : Plain (int n)
  | string (s : String) : Plain (string s)

theorem Plain.exact {v : Value} (h : v.Plain) : v.Exact := by
  cases h with
  | int _ hgreatest => exact hgreatest
  | null | bool | string => trivial

/-- In columns without instants, a plain value is told by its place. -/
theorem Plain.eq_of_place {a b : Value} (ha : a.Plain) (hb : b.Plain) (h : a.place false = b.place false) :
    a = b := by
  cases ha <;> cases hb <;> simp [place, textPlace] at h ⊢
  · rename_i x y
    cases x <;> cases y <;> first | rfl | simp at h
  · exact h
  · exact h

end Value

namespace SortKey

/-! ## Rows -/

theorem compare_exact (k : SortKey) {a b : Value} (ha : a.Exact) (hb : b.Exact) :
    k.compare a b = k.orient ((a.place k.temporal).compare (b.place k.temporal)) := by
  rw [SortKey.compare, Value.compare_place ha hb]

theorem orient_eq_iff {k : SortKey} {o : Ordering} : k.orient o = .eq ↔ o = .eq := by
  rw [orient]
  cases k.direction <;> cases o <;> decide

/-- The order of rows by the places of their values in one column. -/
def placeOrder (k : SortKey) (a b : Record) : Ordering :=
  k.orient (((Record.value a k.field).place k.temporal).compare ((Record.value b k.field).place k.temporal))

instance (k : SortKey) : Std.TransCmp k.placeOrder where
  eq_swap := by
    intro a b
    have hswap : ∀ x y : Value.Place, x.compare y = (y.compare x).swap := fun _ _ => Std.OrientedCmp.eq_swap
    unfold placeOrder orient
    cases k.direction <;> simp only [Ordering.swap_swap] <;> rw [hswap]
    rw [Ordering.swap_swap]
  isLE_trans := by
    intro a b c
    have htrans : ∀ x y z : Value.Place, (x.compare y).isLE → (y.compare z).isLE → (x.compare z).isLE :=
      fun _ _ _ => Std.TransCmp.isLE_trans
    have hswap : ∀ x y : Value.Place, (x.compare y).swap = y.compare x := fun _ _ => Std.OrientedCmp.eq_swap.symm
    unfold placeOrder orient
    cases k.direction with
    | asc => exact htrans _ _ _
    | desc =>
      simp only [hswap]
      intro hab hbc
      exact htrans _ _ _ hbc hab

/-- The order of rows by the places of their values, key by key. -/
def rowOrder : List SortKey → Record → Record → Ordering
  | [] => fun _ _ => .eq
  | k :: rest => compareLex k.placeOrder (rowOrder rest)

instance (keys : List SortKey) : Std.TransCmp (rowOrder keys) := by
  induction keys with
  | nil => exact { eq_swap := rfl, isLE_trans := fun _ _ => rfl }
  | cons k rest ih =>
    rw [rowOrder]
    infer_instance

theorem compareRecords_eq_rowOrder {keys : List SortKey} {a b : Record}
    (ha : ∀ k ∈ keys, (Record.value a k.field).Exact) (hb : ∀ k ∈ keys, (Record.value b k.field).Exact) :
    compareRecords keys a b = rowOrder keys a b := by
  induction keys with
  | nil => rfl
  | cons k rest ih =>
    rw [compareRecords, k.compare_exact (ha k (by simp)) (hb k (by simp)),
      ih (fun x hx => ha x (by simp [hx])) fun x hx => hb x (by simp [hx])]
    rfl

/-- The keys order the records of a class: two records are told apart the same way from both sides, and the
order is transitive. -/
structure Orders (keys : List SortKey) (S : Record → Prop) : Prop where
  /-- The order from the other side. -/
  swap : ∀ a b, S a → S b → compareRecords keys b a = (compareRecords keys a b).swap
  /-- The order is transitive. -/
  trans : ∀ a b c, S a → S b → S c → compareRecords keys a b ≠ .gt → compareRecords keys b c ≠ .gt →
    compareRecords keys a c ≠ .gt

/-- **Keys order the records whose values are compared exactly.** -/
theorem orders_exact {keys : List SortKey} {S : Record → Prop}
    (h : ∀ r, S r → ∀ k ∈ keys, (Record.value r k.field).Exact) : Orders keys S where
  swap := by
    intro a b ha hb
    rw [compareRecords_eq_rowOrder (h b hb) (h a ha), compareRecords_eq_rowOrder (h a ha) (h b hb)]
    exact Std.OrientedCmp.eq_swap
  trans := by
    intro a b c ha hb hc
    rw [compareRecords_eq_rowOrder (h a ha) (h b hb), compareRecords_eq_rowOrder (h b hb) (h c hc),
      compareRecords_eq_rowOrder (h a ha) (h c hc)]
    simp only [← Ordering.isLE_iff_ne_gt]
    exact Std.TransCmp.isLE_trans

namespace Orders

variable {keys : List SortKey} {S : Record → Prop} {a b c : Record}

theorem gt_iff_lt (h : Orders keys S) (ha : S a) (hb : S b) :
    compareRecords keys a b = .gt ↔ compareRecords keys b a = .lt := by
  rw [h.swap a b ha hb]
  cases compareRecords keys a b <;> decide

/-- What comes strictly before something comes strictly before what follows that. -/
theorem lt_of_lt_of_not_gt (h : Orders keys S) (ha : S a) (hb : S b) (hc : S c)
    (hab : compareRecords keys a b = .lt) (hbc : compareRecords keys b c ≠ .gt) :
    compareRecords keys a c = .lt := by
  have hac : compareRecords keys a c ≠ .gt := by
    refine h.trans a b c ha hb hc ?_ hbc
    rw [hab]
    decide
  cases hcompare : compareRecords keys a c with
  | lt => rfl
  | gt => exact absurd hcompare hac
  | eq =>
    have hca : compareRecords keys c a ≠ .gt := by
      rw [h.swap a c ha hc, hcompare]
      decide
    have hba : compareRecords keys b a = .gt := (h.gt_iff_lt hb ha).mpr hab
    exact absurd hba (h.trans b c a hb hc ha hbc hca)

theorem lt_trans (h : Orders keys S) (ha : S a) (hb : S b) (hc : S c) (hab : compareRecords keys a b = .lt)
    (hbc : compareRecords keys b c = .lt) : compareRecords keys a c = .lt := by
  refine h.lt_of_lt_of_not_gt ha hb hc hab ?_
  rw [hbc]
  decide

end Orders

/-- Further keys decide where the first ones do not. -/
theorem compareRecords_append (keys keys' : List SortKey) (a b : Record) :
    compareRecords (keys ++ keys') a b = (compareRecords keys a b).then (compareRecords keys' a b) := by
  induction keys with
  | nil => rfl
  | cons k rest ih => simp only [List.cons_append, compareRecords, ih, Ordering.then_assoc]

/-- Rows that no key tells apart are told apart by none of the keys. -/
theorem compare_eq_of_compareRecords {keys : List SortKey} {a b : Record}
    (h : compareRecords keys a b = .eq) {k : SortKey} (hk : k ∈ keys) :
    k.compare (Record.value a k.field) (Record.value b k.field) = .eq := by
  induction keys with
  | nil => simp at hk
  | cons l rest ih =>
    rw [compareRecords, Ordering.then_eq_eq] at h
    rcases List.mem_cons.mp hk with rfl | hk
    · exact h.1
    · exact ih h.2 hk

/-- Rows that no key tells apart have the same values in plain columns without instants. -/
theorem value_eq_of_compareRecords {keys : List SortKey} {a b : Record}
    (h : compareRecords keys a b = .eq) {k : SortKey} (hk : k ∈ keys) (htemporal : k.temporal = false)
    (ha : (Record.value a k.field).Plain) (hb : (Record.value b k.field).Plain) :
    Record.value a k.field = Record.value b k.field := by
  have heq := compare_eq_of_compareRecords h hk
  rw [k.compare_exact ha.exact hb.exact, orient_eq_iff, htemporal] at heq
  exact ha.eq_of_place hb (Value.Place.eq_of_compare heq)

end SortKey

end GuardedQuery
