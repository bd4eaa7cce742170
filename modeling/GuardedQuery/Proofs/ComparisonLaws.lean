import GuardedQuery.Proofs.FilterMeaning
import GuardedQuery.Proofs.JoinMatches

/-!
# Comparisons fit together

Six comparisons look at the same stored value, but each one reads it anew, and a value that cannot be read passes
none of them, not even the one that asks for a difference. In a record that conforms to its schema this does not
happen: what a column stores is `null` or can be read in the declared type, and scalars of one type are in one of
three orders. So the results of the comparisons determine each other, and membership in a list is equality with one
of its items.

## Main definitions

* `CompareOp.Coherent`: results of the comparisons that fit together.

## Main statements

* `Columns.compile_isIn`: the predicate of a membership test.
* `EntitySchema.comparisons_coherent`: in conforming records the comparisons with an operand fit together.
-/

namespace GuardedQuery

/-! ## Results that fit together -/

namespace CompareOp

/-- Results of the comparisons with an operand that fit together, for a stored value that may be missing. -/
structure Coherent (missing : Bool) (passes : CompareOp → Bool) : Prop where
  /-- Either the equality holds or the difference. -/
  ne_eq_not_eq : passes .ne = !passes .eq
  /-- What is missing passes nothing but the difference. -/
  missing_fails : missing = true → ∀ op, op ≠ .ne → passes op = false
  /-- What is there is less, equal or greater, and only one of these. -/
  trichotomy : missing = false → ∃! op, op ∈ [CompareOp.lt, .eq, .gt] ∧ passes op = true
  /-- Less or equal is less, or equal. -/
  lte_eq_or : passes .lte = (passes .lt || passes .eq)
  /-- Greater or equal is greater, or equal. -/
  gte_eq_or : passes .gte = (passes .gt || passes .eq)

/-- The comparison that holds in one order only. -/
def singling : Ordering → CompareOp
  | .lt => lt
  | .eq => eq
  | .gt => gt

theorem holds_iff_eq_singling {op : CompareOp} (hop : op ∈ [lt, eq, gt]) (o : Ordering) :
    op.holds o = true ↔ op = singling o := by
  cases o <;> cases op <;> simp [holds, singling] at hop ⊢

/-- The results for a missing value. -/
theorem coherent_missing : Coherent true (· == .ne) where
  ne_eq_not_eq := rfl
  missing_fails := by
    intro _ op hop
    exact beq_eq_false_iff_ne.mpr hop
  trichotomy := by simp
  lte_eq_or := rfl
  gte_eq_or := rfl

/-- The results for a value in an order to the operand. -/
theorem coherent_holds (o : Ordering) : Coherent false (·.holds o) where
  ne_eq_not_eq := rfl
  missing_fails := by simp
  trichotomy := by
    have hmem : singling o ∈ [lt, eq, gt] := by cases o <;> decide
    intro _
    refine ⟨singling o, ⟨hmem, (holds_iff_eq_singling hmem o).mpr rfl⟩, ?_⟩
    rintro op ⟨hop, hholds⟩
    exact (holds_iff_eq_singling hop o).mp hholds
  lte_eq_or := by cases o <;> rfl
  gte_eq_or := by cases o <;> rfl

end CompareOp

/-! ## Membership tests -/

/-- Operands of the declared type stand for scalars. -/
theorem Scalar.exists_ofValues {t : ScalarType} {vs : List Value}
    (h : ∀ v ∈ vs, (Scalar.coerce? v (.scalar t)).isSome = true) :
    ∃ xs, List.Forall₂ (fun v x => Scalar.ofValue? t v = some x) vs xs := by
  induction vs with
  | nil => exact ⟨[], .nil⟩
  | cons v rest ih =>
    obtain ⟨x, hx⟩ := Option.isSome_iff_exists.mp (h v (List.mem_cons_self ..))
    obtain ⟨xs, hxs⟩ := ih fun w hw => h w (List.mem_cons_of_mem v hw)
    exact ⟨x :: xs, .cons hx hxs⟩

namespace Columns

/-- The predicate of a membership test with operands of the declared type. -/
theorem compile_isIn (c : Columns) {field symbol : String} {t : ScalarType} {items : List Value} {xs : List Scalar}
    (hsymbol : FilterOperator.parse? symbol = some .isIn) (hfield : Dict.get? c.fields field = some (.scalar t))
    (hxs : List.Forall₂ (fun v x => Scalar.ofValue? t v = some x) items xs) :
    c.compile (.leaf field symbol (some (.array items))) = .ok (.oneOf field xs) := by
  have hread : items.mapM (operand field t) = .ok xs :=
    Outcome.mapM_eq_ok_iff.mpr (hxs.imp fun _ _ => operand_eq_ok_iff.mpr)
  have hkind : FilterOperator.isIn.forbidsValue = false ∧ TextOp.ofOperator? .isIn = none ∧
      CompareOp.ofOperator? .isIn = none := by decide
  simp [compile, compileLeaf, fieldType, hfield, hsymbol, compileTest, compileComparison, hkind, Value.asArray?, hread,
    Except.map, bind, Except.bind]

end Columns

/-! ## Conforming records -/

namespace EntitySchema

variable {s : EntitySchema} {raw r : Record} {field : String} {t : ScalarType} {v : Value} {x : Scalar}

/-- The comparisons of a value that conforms with an operand fit together. -/
theorem coherent_compare (hvalue : (FieldType.scalar t).conforms (Record.value r field) = true)
    (hx : Scalar.ofValue? t v = some x) :
    CompareOp.Coherent (Record.value r field).isNull fun op => (Predicate.compare field op x).holds r := by
  rcases ScalarType.null_or_ofValue? hvalue with hnull | ⟨y, hy⟩
  · simp only [Predicate.holds_compare_of_null hnull, hnull]
    exact CompareOp.coherent_missing
  · have hplace := Scalar.compare?_eq_place ((Scalar.type_of_ofValue? hy).trans (Scalar.type_of_ofValue? hx).symm)
    simp only [Predicate.holds_compare_of_value hy hx, hplace, Option.any_some, Scalar.isNull_of_ofValue? hy]
    exact CompareOp.coherent_holds _

/-- **In conforming records the comparisons with an operand fit together.** For every operand of the declared type the
six comparisons compile, however they are spelled, and their results are coherent. For every list of such operands
the membership test compiles. It matches a record if and only if the filter for some item does, and it matches no
record in which the value is missing. -/
theorem comparisons_coherent (hconform : s.conform raw = .ok r) (htype : s.fieldType? field = some (.scalar t)) :
    (∀ v, (Scalar.coerce? v (.scalar t)).isSome = true → ∃ test : CompareOp → Predicate,
      (∀ op symbol, FilterOperator.parse? symbol = some op.operator →
        s.columns.compile (.leaf field symbol (some v)) = .ok (test op)) ∧
      CompareOp.Coherent (Record.value r field).isNull fun op => (test op).holds r) ∧
    ∀ vs : List Value, (∀ v ∈ vs, (Scalar.coerce? v (.scalar t)).isSome = true) → ∃ p,
      (∀ symbol, FilterOperator.parse? symbol = some .isIn →
        s.columns.compile (.leaf field symbol (some (.array vs))) = .ok p) ∧
      (p.holds r = true ↔ ∃ v ∈ vs, s.Finds field v r) ∧ (Record.value r field = .null → p.holds r = false) := by
  have hvalue : (FieldType.scalar t).conforms (Record.value r field) = true :=
    Conforms.value (conform_spec hconform).2 htype
  constructor
  · intro v hv
    obtain ⟨x, hx⟩ := Option.isSome_iff_exists.mp hv
    refine ⟨fun op => .compare field op x, ?_, coherent_compare hvalue hx⟩
    intro op symbol hsymbol
    exact s.columns.compile_compare op hsymbol htype hx
  · intro vs hvs
    obtain ⟨xs, hxs⟩ := Scalar.exists_ofValues hvs
    refine ⟨.oneOf field xs, ?_, ?_, ?_⟩
    · intro symbol hsymbol
      exact s.columns.compile_isIn hsymbol htype hxs
    · rw [Predicate.holds_oneOf_iff hxs]
      refine exists_congr fun v => and_congr_right fun hv => ?_
      obtain ⟨x, hx⟩ := Option.isSome_iff_exists.mp (hvs v hv)
      rw [finds_iff_holds htype hx, Predicate.holds_compare_iff hx]
      simp [CompareOp.operator, FilterOperator.Relates]
    · intro hnull
      rw [← Bool.not_eq_true, Predicate.holds_oneOf_iff hxs]
      simp [hnull]

/-! ## A reading -/

/-- Readings of a gauge. -/
def levelSchema : EntitySchema where
  name := "Level"
  fields := [("At", .scalar .datetime), ("Id", .scalar .int), ("Value", .scalar .float)]

/-- A reading without a time, as it is handed in. -/
def level : Record := [("Id", .int 7), ("Unit", .string "cm"), ("Value", .float (Binary64.ofInt 182))]

/-- The reading as it is stored. -/
def storedLevel : Record := [("At", .null), ("Id", .int 7), ("Value", .float (Binary64.ofInt 182))]

/-- The value of the reading, which is compared with 180, and its time, which is missing. -/
theorem comparisons_coherent_level :
    levelSchema.conform level = .ok storedLevel ∧
    (∃ test : CompareOp → Predicate,
      (∀ op symbol, FilterOperator.parse? symbol = some op.operator →
        levelSchema.columns.compile (.leaf "Value" symbol (some (.int 180))) = .ok (test op)) ∧
      CompareOp.Coherent false fun op => (test op).holds storedLevel) ∧
    (∃ test : CompareOp → Predicate,
      (∀ op symbol, FilterOperator.parse? symbol = some op.operator →
        levelSchema.columns.compile (.leaf "At" symbol (some (.string "2024-05-01T09:00:00Z"))) = .ok (test op)) ∧
      CompareOp.Coherent true fun op => (test op).holds storedLevel) ∧
    ∃ p, (∀ symbol, FilterOperator.parse? symbol = some .isIn →
        levelSchema.columns.compile (.leaf "Value" symbol (some (.array [.int 180, .int 182]))) = .ok p) ∧
      (p.holds storedLevel = true ↔ ∃ v ∈ [Value.int 180, .int 182], levelSchema.Finds "Value" v storedLevel) ∧
      (Record.value storedLevel "Value" = .null → p.holds storedLevel = false) := by
  have hconform : levelSchema.conform level = .ok storedLevel := by decide +kernel
  have hnumber : levelSchema.fieldType? "Value" = some (.scalar .float) := rfl
  have htime : levelSchema.fieldType? "At" = some (.scalar .datetime) := rfl
  obtain ⟨hvalue, hvalues⟩ := comparisons_coherent hconform hnumber
  obtain ⟨hat, -⟩ := comparisons_coherent hconform htime
  exact ⟨hconform, hvalue _ (by decide +kernel), hat _ (by decide +kernel), hvalues _ (by decide +kernel)⟩

end EntitySchema

end GuardedQuery
