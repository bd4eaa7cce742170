import GuardedQuery.Proofs.Failures
import GuardedQuery.Proofs.FilterTests
import GuardedQuery.Proofs.TypedOrder

/-!
# What conditions mean

Conditions have a meaning that does not depend on predicates: a test looks at the value of its field, a group is met if
all of its conditions are, or some of them, and a list is met if all of its conditions are. Compiling types the
operands, leaves trivial parts out and unwraps conjunctions of one part. None of this changes which records match.

## Main definitions

* `ScalarType.order?`: the order of two values that are read in a type.
* `FilterOperator.Passes`: the stored values that pass a test by an operator.
* `Condition.MetBy`: the records that meet a condition under declared fields.
* `Value.SomeElement`, `Value.EveryElement`: collections with an element, or only with elements, of a kind.

## Main statements

* `Columns.compileLeaf_metBy`: a test matches the records that meet its leaf.
* `Columns.compile_metBy`: a compiled condition matches the records that meet it.
* `Columns.matching_is_meeting`: the same for lists of conditions and for quantified ones.
-/

namespace GuardedQuery

/-! ## Meanings -/

/-- The order of two values, both read in a type. -/
def ScalarType.order? (t : ScalarType) (a b : Value) : Option Ordering :=
  (Scalar.ofValue? t a).bind fun x => (Scalar.ofValue? t b).bind fun y => x.compare? y

/-- What is missing is in no order. -/
@[simp] theorem ScalarType.order?_null (t : ScalarType) (b : Value) : t.order? .null b = none := by
  cases t <;> rfl

namespace FilterOperator

/-- The orders of a stored value to an operand in which a comparison holds. -/
def Relates : FilterOperator → Ordering → Prop
  | eq, o => o = .eq
  | ne, o => o ≠ .eq
  | lt, o => o = .lt
  | lte, o => o ≠ .gt
  | gt, o => o = .gt
  | gte, o => o ≠ .lt
  | _, _ => False

/-- The stored texts that an operator relates to a text. -/
def RelatesTexts : FilterOperator → String → String → Prop
  | contains, s, u => u.toList <:+: s.toList
  | startsWith, s, u => u.toList <+: s.toList
  | endsWith, s, u => u.toList <:+ s.toList
  | equalsIgnoreCase, s, u => Text.lower s = Text.lower u
  | _, _, _ => False

/-- The stored values of a declared type that pass a test by an operator with an operand. A missing value counts as
`null`. -/
inductive Passes (type : FieldType) (stored : Value) : FilterOperator → Option Value → Prop
  /-- No value is there. -/
  | isNull {operand : Option Value} : stored = .null → Passes type stored .isNull operand
  /-- Some value is there. -/
  | isNotNull {operand : Option Value} : stored ≠ .null → Passes type stored .isNotNull operand
  /-- The stored text is as the operator and the operand have it. -/
  | text {op : FilterOperator} {s u : String} :
      stored = .string s → op.RelatesTexts s u → Passes type stored op (some (.string u))
  /-- An item of the operand, read in the declared type, equals the stored value. -/
  | isIn {t : ScalarType} {items : List Value} {item : Value} : type = .scalar t → item ∈ items →
      t.order? stored item = some .eq → Passes type stored .isIn (some (.array items))
  /-- The stored value and the operand, read in the declared type, compare as the operator has it. -/
  | comparison {t : ScalarType} {op : FilterOperator} {v : Value} {o : Ordering} : type = .scalar t →
      t.order? stored v = some o → op.Relates o → Passes type stored op (some v)
  /-- A value that is not there differs from every operand. -/
  | missing {v : Value} : stored = .null → Passes type stored .ne (some v)

end FilterOperator

/-- The records that meet a condition under declared fields. -/
inductive Condition.MetBy (fields : Dict FieldType) (r : Record) : Condition → Prop
  /-- The value of the field passes the test. -/
  | leaf {field symbol : String} {operand : Option Value} {type : FieldType} {op : FilterOperator} :
      Dict.get? fields field = some type → FilterOperator.parse? symbol = some op →
      op.Passes type (Record.value r field) operand → MetBy fields r (.leaf field symbol operand)
  /-- All conditions of a conjunction are met. -/
  | all {cs : List Condition} {logic : Option String} : Logic.parse? logic = some .and →
      (∀ c ∈ cs, MetBy fields r c) → MetBy fields r (.group cs logic)
  /-- Some condition of a disjunction is met. -/
  | some {cs : List Condition} {logic : Option String} {c : Condition} : Logic.parse? logic = some .or →
      c ∈ cs → MetBy fields r c → MetBy fields r (.group cs logic)

namespace Value

/-- Collections in which some element is an object of a kind. -/
def SomeElement (P : Record → Prop) (v : Value) : Prop :=
  ∃ items ms, v = .array items ∧ .object ms ∈ items ∧ P ms

/-- Collections in which every element is an object of a kind. A missing collection has no elements. -/
def EveryElement (P : Record → Prop) (v : Value) : Prop :=
  v = .null ∨ ∃ items, v = .array items ∧ ∀ item ∈ items, ∃ ms, item = .object ms ∧ P ms

end Value

theorem Value.isNull_eq_false_iff {v : Value} : v.isNull = false ↔ v ≠ .null := by
  cases v <;> simp [isNull]

/-! ## Texts -/

namespace Text

theorem holdsInfix_iff {part s : List Char} : holdsInfix part s = true ↔ part <:+: s := by
  induction s with
  | nil => simp [holdsInfix]
  | cons c rest ih => simp [holdsInfix, List.infix_cons_iff, ih]

end Text

/-- A test of texts holds as its operator has it. -/
theorem TextOp.holds_iff {op : TextOp} {s u : String} : op.holds s u = true ↔ op.operator.RelatesTexts s u := by
  cases op <;> simp [holds, operator, FilterOperator.RelatesTexts, Text.holdsInfix_iff]

/-- A comparison holds as its operator has it. -/
theorem CompareOp.holds_iff {op : CompareOp} {o : Ordering} : op.holds o = true ↔ op.operator.Relates o := by
  cases op <;> simp [holds, operator, FilterOperator.Relates]

/-! ## What an operator asks -/

namespace FilterOperator

variable {type : FieldType} {t : ScalarType} {stored v : Value} {operand : Option Value}

theorem passes_isNull_iff : Passes type stored .isNull operand ↔ stored = .null := by
  constructor
  · rintro (h | _ | ⟨_, ⟨⟩⟩ | _ | ⟨_, _, ⟨⟩⟩)
    exact h
  · exact .isNull

theorem passes_isNotNull_iff : Passes type stored .isNotNull operand ↔ stored ≠ .null := by
  constructor
  · rintro (_ | h | ⟨_, ⟨⟩⟩ | _ | ⟨_, _, ⟨⟩⟩)
    exact h
  · exact .isNotNull

/-- A test of texts asks for a stored text. -/
theorem passes_text_iff {op : TextOp} {u : String} : Passes type stored op.operator (some (.string u)) ↔
    ∃ s, stored = .string s ∧ op.operator.RelatesTexts s u := by
  constructor
  · intro h
    generalize hsymbol : op.operator = symbol at h
    cases h with
    | text hstored hrelates => exact ⟨_, hstored, hrelates⟩
    | comparison _ _ hrelates => cases op <;> cases hsymbol <;> exact hrelates.elim
    | isNull | isNotNull | missing => cases op <;> exact nomatch hsymbol
  · rintro ⟨s, hstored, hrelates⟩
    exact .text hstored hrelates

/-- A comparison asks for an order, unless it asks for a difference and there is no value. -/
theorem passes_comparison_iff {op : CompareOp} : Passes (.scalar t) stored op.operator (some v) ↔
    (∃ o, t.order? stored v = some o ∧ op.operator.Relates o) ∨ (stored = .null ∧ op = .ne) := by
  constructor
  · intro h
    generalize hsymbol : op.operator = symbol at h ⊢
    cases h with
    | text _ hrelates => cases op <;> cases hsymbol <;> exact hrelates.elim
    | isNull | isNotNull | isIn => cases op <;> exact nomatch hsymbol
    | comparison htype horder hrelates =>
      obtain rfl := FieldType.scalar.inj htype
      exact .inl ⟨_, horder, hrelates⟩
    | missing hstored =>
      refine .inr ⟨hstored, ?_⟩
      cases op <;> simp [CompareOp.operator] at hsymbol ⊢
  · rintro (⟨o, horder, hrelates⟩ | ⟨hstored, rfl⟩)
    · exact .comparison rfl horder hrelates
    · exact .missing hstored

/-- A test of a list of operands asks for one that equals the stored value. -/
theorem passes_isIn_iff {items : List Value} : Passes (.scalar t) stored .isIn (some (.array items)) ↔
    ∃ item ∈ items, t.order? stored item = some .eq := by
  constructor
  · rintro (_ | _ | _ | ⟨htype, hitem, horder⟩ | ⟨_, _, ⟨⟩⟩)
    cases htype
    exact ⟨_, hitem, horder⟩
  · rintro ⟨item, hitem, horder⟩
    exact .isIn rfl hitem horder

end FilterOperator

/-! ## Tests -/

namespace Predicate

variable {t : ScalarType} {r : Record} {field : String}

theorem holds_null_iff {negated : Bool} :
    (null field negated).holds r = true ↔ (Record.value r field = .null ↔ negated = false) := by
  rw [holds, actual?_eq]
  cases Record.value r field <;> cases negated <;> simp [Value.isNull]

theorem holds_text_iff {op : TextOp} {u : String} :
    (text field op u).holds r = true ↔ ∃ s, Record.value r field = .string s ∧ op.operator.RelatesTexts s u := by
  rw [holds, Record.value]
  cases Dict.get? r field with
  | none => simp
  | some v => cases v <;> simp [TextOp.holds_iff]

/-- A value compares with an operand if they are in an order that the comparison admits. -/
theorem comparesWith_iff {op : CompareOp} {v b : Value} {y : Scalar} (hy : Scalar.ofValue? t b = some y) :
    comparesWith op y v = true ↔ ∃ o, t.order? v b = some o ∧ op.operator.Relates o := by
  rw [comparesWith, Scalar.readLike?, Scalar.type_of_ofValue? hy, ScalarType.order?]
  cases Scalar.ofValue? t v with
  | none => simp
  | some x => simp [hy, Option.any_eq_true, CompareOp.holds_iff]

theorem holds_compare_iff {op : CompareOp} {b : Value} {y : Scalar} (hy : Scalar.ofValue? t b = some y) :
    (compare field op y).holds r = true ↔
      (∃ o, t.order? (Record.value r field) b = some o ∧ op.operator.Relates o) ∨
        (Record.value r field = .null ∧ op = .ne) := by
  rw [holds, actual?_eq]
  by_cases hnull : Record.value r field = .null
  · simp [hnull, Value.isNull]
  · simp [Value.isNull_eq_false_iff.mpr hnull, comparesWith_iff hy, hnull]

/-- A value is one of the operands if it equals an item that one of them was read from. -/
theorem holds_oneOf_iff {items : List Value} {operands : List Scalar}
    (h : List.Forall₂ (fun item operand => Scalar.ofValue? t item = some operand) items operands) :
    (oneOf field operands).holds r = true ↔
      ∃ item ∈ items, t.order? (Record.value r field) item = some .eq := by
  have hany : operands.any (fun operand => comparesWith .eq operand (Record.value r field)) = true ↔
      ∃ item ∈ items, t.order? (Record.value r field) item = some .eq := by
    induction h with
    | nil => simp
    | cons hitem _ ih => simp [comparesWith_iff hitem, CompareOp.operator, FilterOperator.Relates, ih]
  rw [holds, actual?_eq]
  by_cases hnull : Record.value r field = .null
  · simp [hnull, Value.isNull]
  · simpa [Value.isNull_eq_false_iff.mpr hnull] using hany

end Predicate

namespace Columns

variable {c elements : Columns} {r : Record} {field symbol : String} {type : FieldType} {op : FilterOperator}
  {wanted : Option Value} {v : Value} {p : Predicate}

/-- A leaf is met if the value of its field passes the test. -/
theorem metBy_leaf_iff (htype : Dict.get? c.fields field = some type) (hop : FilterOperator.parse? symbol = some op) :
    (Condition.leaf field symbol wanted).MetBy c.fields r ↔ op.Passes type (Record.value r field) wanted := by
  constructor
  · rintro ⟨htype', hop', hpasses⟩
    obtain rfl := Option.some.inj (htype.symm.trans htype')
    obtain rfl := Option.some.inj (hop.symm.trans hop')
    exact hpasses
  · exact .leaf htype hop

theorem compileText_passes {test : TextOp} (h : compileText field type test.operator test v = .ok p) :
    p.holds r = true ↔ test.operator.Passes type (Record.value r field) (some v) := by
  rw [compileText] at h
  split at h
  · split at h
    · rename_i u hu
      obtain rfl := Except.ok.inj h
      cases v <;> simp [Value.asString?] at hu
      subst hu
      rw [Predicate.holds_text_iff, FilterOperator.passes_text_iff]
    · simp at h
  · simp at h

theorem operand_eq_ok_iff {t : ScalarType} {x : Scalar} : operand field t v = .ok x ↔ Scalar.ofValue? t v = some x := by
  rw [operand]
  cases Scalar.ofValue? t v <;> simp

theorem compileComparison_passes (hvalue : op.forbidsValue = false) (htext : TextOp.ofOperator? op = none)
    (h : compileComparison field type op v = .ok p) :
    p.holds r = true ↔ op.Passes type (Record.value r field) (some v) := by
  cases type with
  | object _ | array _ => simp [compileComparison] at h
  | scalar t =>
    simp only [compileComparison] at h
    cases hop : CompareOp.ofOperator? op with
    | some comparison =>
      obtain rfl := CompareOp.eq_operator hop
      simp only [hop] at h
      obtain ⟨x, hx, rfl⟩ := Outcome.map_eq_ok_iff.mp h
      rw [Predicate.holds_compare_iff (operand_eq_ok_iff.mp hx), FilterOperator.passes_comparison_iff]
    | none =>
      -- Of the operators with an operand, only the one for lists is neither a test of texts nor a comparison.
      obtain rfl : op = .isIn := by
        cases op <;> simp_all [CompareOp.ofOperator?, TextOp.ofOperator?, FilterOperator.forbidsValue]
      simp only [hop] at h
      split at h
      · rename_i items hitems
        obtain ⟨xs, hxs, rfl⟩ := Outcome.map_eq_ok_iff.mp h
        cases v <;> simp [Value.asArray?] at hitems
        subst hitems
        have hread := (Outcome.mapM_eq_ok_iff.mp hxs).imp fun _ _ => operand_eq_ok_iff.mp
        rw [Predicate.holds_oneOf_iff hread, FilterOperator.passes_isIn_iff]
      · simp at h

/-- **A test matches the records that meet its leaf.** -/
theorem compileLeaf_metBy (h : c.compileLeaf field symbol wanted = .ok p) :
    p.holds r = true ↔ (Condition.leaf field symbol wanted).MetBy c.fields r := by
  obtain ⟨type, htype, h⟩ := Outcome.bind_eq_ok_iff.mp h
  cases hop : FilterOperator.parse? symbol with
  | none => simp [hop] at h
  | some op =>
    rw [metBy_leaf_iff (fieldType_eq_ok_iff.mp htype) hop]
    simp only [hop] at h
    cases hforbids : op.forbidsValue with
    | true =>
      obtain rfl : _ = p := by simpa [hforbids] using h
      rw [Predicate.holds_null_iff]
      cases op <;> simp [FilterOperator.forbidsValue] at hforbids
      · simp [FilterOperator.passes_isNull_iff]
      · simp [FilterOperator.passes_isNotNull_iff]
    | false =>
      cases wanted with
      | none => simp [hforbids] at h
      | some v =>
        simp only [hforbids, Bool.false_eq_true, if_false, compileTest] at h
        cases htext : TextOp.ofOperator? op with
        | some test =>
          obtain rfl := TextOp.eq_operator htext
          exact compileText_passes (by simpa only [htext] using h)
        | none => exact compileComparison_passes hforbids htext (by simpa only [htext] using h)

end Columns

/-! ## Trees -/

namespace Predicate

theorem holds_of_isAlways {p : Predicate} (h : p.isAlways = true) (r : Record) : p.holds r = true := by
  cases p <;> simp [isAlways] at h
  rw [holds]

/-- Trivial parts of a conjunction hold anyway, and a single part holds if it does. -/
theorem holds_conjunction (ps : List Predicate) (r : Record) : (conjunction ps).holds r = allHold ps r := by
  have hfilter : allHold (ps.filter fun p => !p.isAlways) r = allHold ps r := by
    induction ps with
    | nil => rfl
    | cons p rest ih =>
      cases halways : p.isAlways with
      | true => simp [halways, allHold, holds_of_isAlways halways, ih]
      | false => simp [halways, allHold, ih]
  rw [← hfilter, conjunction]
  split
  · rename_i h
    simp [h, holds, allHold]
  · rename_i p h
    simp [h, allHold]
  · rw [holds]

end Predicate

namespace Condition

variable {fields : Dict FieldType} {r : Record} {cs : List Condition} {logic : Option String}

theorem metBy_conjunction_iff (hlogic : Logic.parse? logic = .some .and) :
    (group cs logic).MetBy fields r ↔ ∀ c ∈ cs, c.MetBy fields r := by
  constructor
  · rintro (_ | ⟨_, hall⟩ | ⟨hor, _, _⟩)
    · exact hall
    · simp [hlogic] at hor
  · exact .all hlogic

theorem metBy_disjunction_iff (hlogic : Logic.parse? logic = .some .or) :
    (group cs logic).MetBy fields r ↔ ∃ c ∈ cs, c.MetBy fields r := by
  constructor
  · rintro (_ | ⟨hand, _⟩ | ⟨_, hc, hmet⟩)
    · simp [hlogic] at hand
    · exact ⟨_, hc, hmet⟩
  · rintro ⟨c, hc, hmet⟩
    exact .some hlogic hc hmet

end Condition

namespace Columns

mutual

/-- **A compiled condition matches the records that meet it.** -/
theorem compile_metBy {c : Columns} {condition : Condition} {p : Predicate} (h : c.compile condition = .ok p)
    (r : Record) : p.holds r = true ↔ condition.MetBy c.fields r := by
  cases condition with
  | leaf field symbol wanted => exact compileLeaf_metBy h
  | group cs logic =>
    simp only [compile] at h
    cases hlogic : Logic.parse? logic with
    | none => simp [hlogic] at h
    | some l =>
      cases l <;> simp only [hlogic] at h <;> obtain ⟨ps, hps, rfl⟩ := Outcome.map_eq_ok_iff.mp h
      · rw [Predicate.holds_conjunction, Condition.metBy_conjunction_iff hlogic]
        exact (compileList_metBy hps r).1
      · rw [Predicate.holds, Condition.metBy_disjunction_iff hlogic]
        exact (compileList_metBy hps r).2

/-- All predicates of a compiled list match a record if it meets all conditions, and some of them do if it meets
some. -/
theorem compileList_metBy {c : Columns} {conditions : List Condition} {ps : List Predicate}
    (h : c.compileList conditions = .ok ps) (r : Record) :
    (Predicate.allHold ps r = true ↔ ∀ condition ∈ conditions, condition.MetBy c.fields r) ∧
      (Predicate.someHolds ps r = true ↔ ∃ condition ∈ conditions, condition.MetBy c.fields r) := by
  cases conditions with
  | nil =>
    obtain rfl : [] = ps := by simpa [compileList] using h
    simp [Predicate.allHold, Predicate.someHolds]
  | cons condition rest =>
    simp only [compileList] at h
    obtain ⟨p, hp, h⟩ := Outcome.bind_eq_ok_iff.mp h
    obtain ⟨others, hothers, h⟩ := Outcome.bind_eq_ok_iff.mp h
    obtain rfl : p :: others = ps := by simpa using h
    obtain ⟨hall, hsome⟩ := compileList_metBy hothers r
    simp [Predicate.allHold, Predicate.someHolds, compile_metBy hp r, hall, hsome]

end

/-- A compiled list matches the records that meet all of its conditions. -/
theorem compileAll_metBy {c : Columns} {conditions : List Condition} {p : Predicate}
    (h : c.compileAll conditions = .ok p) (r : Record) :
    p.holds r = true ↔ ∀ condition ∈ conditions, condition.MetBy c.fields r := by
  obtain ⟨ps, hps, rfl⟩ := Outcome.map_eq_ok_iff.mp h
  rw [Predicate.holds_conjunction]
  exact (compileList_metBy hps r).1

end Columns

/-! ## Collections -/

namespace Predicate

variable {r : Record} {collection : String} {element : Predicate}

theorem holds_any_iff : (any collection element).holds r = true ↔
    (Record.value r collection).SomeElement fun ms => element.holds ms = true := by
  rw [holds, Record.value]
  cases Dict.get? r collection with
  | none => simp [Value.SomeElement]
  | some v =>
    cases v with
    | null | bool | int | float | string | object => simp [Value.SomeElement]
    | array items =>
      simp only [Value.SomeElement, Option.getD_some, List.any_eq_true, Value.array.injEq]
      constructor
      · rintro ⟨item, hitem, hholds⟩
        cases item with
        | object ms => exact ⟨items, ms, rfl, hitem, hholds⟩
        | null | bool | int | float | string | array => simp at hholds
      · rintro ⟨_, ms, rfl, hms, hholds⟩
        exact ⟨.object ms, hms, hholds⟩

theorem holds_all_iff : (all collection element).holds r = true ↔
    (Record.value r collection).EveryElement fun ms => element.holds ms = true := by
  rw [holds, Record.value]
  cases Dict.get? r collection with
  | none => simp [Value.EveryElement]
  | some v =>
    cases v with
    | null | bool | int | float | string | object => simp [Value.EveryElement]
    | array items =>
      simp only [Value.EveryElement, Option.getD_some, List.all_eq_true, Value.array.injEq, reduceCtorEq, false_or]
      constructor
      · intro hall
        refine ⟨items, rfl, fun item hitem => ?_⟩
        have hholds := hall item hitem
        cases item with
        | object ms => exact ⟨ms, rfl, hholds⟩
        | null | bool | int | float | string | array => simp at hholds
      · rintro ⟨_, rfl, hall⟩ item hitem
        obtain ⟨ms, rfl, hholds⟩ := hall item hitem
        exact hholds

end Predicate

namespace Columns

/-- A quantified predicate asks of the elements of its collection that they meet all conditions. -/
theorem compileQuantified_metBy {c : Columns} {universal : Bool} {collection : String} {conditions : List Condition}
    {p : Predicate} (h : c.compileQuantified universal collection conditions = .ok p) :
    ∃ t elements, Dict.get? c.fields collection = some (.array t) ∧ t.memberFields? = some elements ∧
      ∀ r, p.holds r = true ↔
        (if universal then Value.EveryElement else Value.SomeElement)
          (fun ms => ∀ condition ∈ conditions, condition.MetBy elements ms) (Record.value r collection) := by
  obtain ⟨elements, element, hcolumns, helement, rfl⟩ := compileQuantified_eq_ok h
  obtain ⟨_, t, htype, hfields⟩ := exists_array_of_elementColumns hcolumns
  refine ⟨t, elements.fields, htype, hfields, fun r => ?_⟩
  cases universal with
  | true => simp only [if_true, Predicate.holds_all_iff, compileAll_metBy helement]
  | false => simp only [Bool.false_eq_true, if_false, Predicate.holds_any_iff, compileAll_metBy helement]

/-- **Compiling conditions and matching records is evaluating the conditions.** A compiled list matches exactly the
records that meet all of its conditions. If it is quantified over a collection, it matches exactly the records in
whose collection some element, or every element, is an object that meets all conditions under the declared members;
a missing collection has no elements. -/
theorem matching_is_meeting (c : Columns) (conditions : List Condition) :
    (∀ p, c.compileAll conditions = .ok p →
      ∀ r, p.holds r = true ↔ ∀ condition ∈ conditions, condition.MetBy c.fields r) ∧
    (∀ collection p, c.compileQuantified false collection conditions = .ok p →
      ∃ t elements, Dict.get? c.fields collection = some (.array t) ∧ t.memberFields? = some elements ∧
        ∀ r, p.holds r = true ↔ (Record.value r collection).SomeElement fun ms =>
          ∀ condition ∈ conditions, condition.MetBy elements ms) ∧
    (∀ collection p, c.compileQuantified true collection conditions = .ok p →
      ∃ t elements, Dict.get? c.fields collection = some (.array t) ∧ t.memberFields? = some elements ∧
        ∀ r, p.holds r = true ↔ (Record.value r collection).EveryElement fun ms =>
          ∀ condition ∈ conditions, condition.MetBy elements ms) := by
  refine ⟨fun p => compileAll_metBy, fun collection p h => ?_, fun collection p h => ?_⟩
  · simpa only [Bool.false_eq_true, if_false] using compileQuantified_metBy h
  · simpa only [if_true] using compileQuantified_metBy h

/-- Parcels with their stops. -/
def parcelColumns : Columns where
  scope := "Parcel"
  fields := [("Note", .scalar .string), ("Stops", .array (.object [("Delay", .scalar .int)])), ("Weight", .scalar .int)]

/-- Parcels of some weights, or with a fragile content; the empty disjunction admits none, and the empty conjunction
all. -/
def parcelConditions : List Condition :=
  [.group [.leaf "Weight" "in" (some (.array [.int 1, .int 4])), .group [] (some "or"),
    .group [.leaf "Note" "contains" (some (.string "fragile"))] none] (some "or"), .group [] none]

/-- A parcel without a weight. -/
def parcel : Record :=
  [("Note", .string "fragile glass"), ("Stops", .array [.object [("Delay", .int 3)], .object []]), ("Weight", .null)]

/-- The parcel meets the conditions; some of its stops have a short delay, and not all of them. -/
theorem matching_is_meeting_parcel :
    (∀ condition ∈ parcelConditions, condition.MetBy parcelColumns.fields parcel) ∧
    ∃ elements,
      ((Record.value parcel "Stops").SomeElement fun ms =>
        ∀ condition ∈ [Condition.leaf "Delay" "lte" (some (.int 5))], condition.MetBy elements ms) ∧
      ¬(Record.value parcel "Stops").EveryElement fun ms =>
        ∀ condition ∈ [Condition.leaf "Delay" "lte" (some (.int 5))], condition.MetBy elements ms := by
  have hcompiled : parcelColumns.compileAll parcelConditions =
      .ok (.or [.oneOf "Weight" [.int 1, .int 4], .or [], .text "Note" .contains "fragile"]) := by cbv
  have hsome : parcelColumns.compileQuantified false "Stops" [.leaf "Delay" "lte" (some (.int 5))] =
      .ok (.any "Stops" (.compare "Delay" .lte (.int 5))) := by cbv
  have hevery : parcelColumns.compileQuantified true "Stops" [.leaf "Delay" "lte" (some (.int 5))] =
      .ok (.all "Stops" (.compare "Delay" .lte (.int 5))) := by cbv
  obtain ⟨hmet, _, _⟩ := matching_is_meeting parcelColumns parcelConditions
  obtain ⟨_, hsomeElement, heveryElement⟩ :=
    matching_is_meeting parcelColumns [.leaf "Delay" "lte" (some (.int 5))]
  obtain ⟨t, elements, htype, hfields, hsomeElement⟩ := hsomeElement _ _ hsome
  obtain ⟨t', elements', htype', hfields', heveryElement⟩ := heveryElement _ _ hevery
  obtain rfl : t = t' := FieldType.array.inj (Option.some.inj (htype.symm.trans htype'))
  obtain rfl : elements = elements' := Option.some.inj (hfields.symm.trans hfields')
  have hholds : (Predicate.or [.oneOf "Weight" [.int 1, .int 4], .or [], .text "Note" .contains "fragile"]).holds
      parcel = true := by decide +kernel
  have hholdsSome : (Predicate.any "Stops" (.compare "Delay" .lte (.int 5))).holds parcel = true := by decide +kernel
  have hholdsEvery : (Predicate.all "Stops" (.compare "Delay" .lte (.int 5))).holds parcel = false := by decide +kernel
  refine ⟨(hmet _ hcompiled parcel).mp hholds, elements, (hsomeElement parcel).mp hholdsSome, ?_⟩
  rw [← heveryElement parcel, hholdsEvery]
  exact Bool.false_ne_true

end Columns

end GuardedQuery
