import GuardedQuery.Execution.Sequence
import GuardedQuery.Proofs.Admission
import GuardedQuery.Proofs.Outcome
import Mathlib

/-!
# The tests of compiled filters

Compiling a list of filter trees keeps every leaf, adds none, and keeps their order, although trivial
parts are folded away and one-element conjunctions are unwrapped. A filter that was admitted leaf by leaf
is therefore admitted test by test once it is compiled.

## Main definitions

* `Condition.leaves`, `Predicate.tests`: the leaves of a tree and the tests of a predicate, in order.
* `Predicate.GrantedBy`: a test of a granted field by a granted operator.

## Main statements

* `Columns.compileList_tests`: the tests of compiled trees are the compiled leaves.
* `Query.compiled_filters_faithful`: what an accepted query tests is what its policy allows.
-/

namespace GuardedQuery

/-- A leaf of a filter tree. -/
structure Leaf where
  /-- The field. -/
  field : String
  /-- The symbol of the operator. -/
  operator : String
  /-- The operand. -/
  value : Option Value

namespace Condition

mutual

/-- The leaves of a tree, from left to right. -/
def leaves : Condition → List Leaf
  | leaf field operator value => [{ field, operator, value }]
  | group cs _ => leavesList cs

/-- The leaves of the trees of a list, from left to right. -/
def leavesList : List Condition → List Leaf
  | [] => []
  | c :: rest => leaves c ++ leavesList rest

end

theorem mem_leavesList {cs : List Condition} {l : Leaf} :
    l ∈ leavesList cs ↔ ∃ c ∈ cs, l ∈ leaves c := by
  induction cs with
  | nil => simp [leavesList]
  | cons c rest ih => simp [leavesList, ih]

/-- The leaves of an admissible tree are admissible. -/
theorem Admissible.of_mem_leaves {g : Grant} {c : Condition} (h : c.Admissible g) {l : Leaf}
    (hl : l ∈ c.leaves) : (Condition.leaf l.field l.operator l.value).Admissible g := by
  induction h with
  | leaf hblank hfield hop hallowed hvalue =>
    obtain rfl : l = _ := by simpa [leaves] using hl
    exact .leaf hblank hfield hop hallowed hvalue
  | group _ _ _ ih =>
    obtain ⟨c, hc, hl⟩ := mem_leavesList.mp (by simpa only [leaves] using hl)
    exact ih c hc hl

/-- An admissible tree has a leaf, since its groups are not empty. -/
theorem Admissible.leaves_ne_nil {g : Grant} {c : Condition} (h : c.Admissible g) : c.leaves ≠ [] := by
  induction h with
  | leaf => simp [leaves]
  | @group cs _ _ hne _ ih =>
    obtain ⟨c, hc⟩ := List.exists_mem_of_ne_nil cs hne
    obtain ⟨l, hl⟩ := List.exists_mem_of_ne_nil _ (ih c hc)
    simp only [leaves]
    exact List.ne_nil_of_mem (mem_leavesList.mpr ⟨c, hc, hl⟩)

end Condition

namespace Predicate

mutual

/-- The tests of single fields in a predicate, from left to right. The tests on the elements of a collection
are those of the quantified predicate. -/
def tests : Predicate → List Predicate
  | always => []
  | and parts => testsList parts
  | or parts => testsList parts
  | any _ element => tests element
  | all _ element => tests element
  | p => [p]

/-- The tests in the predicates of a list, from left to right. -/
def testsList : List Predicate → List Predicate
  | [] => []
  | p :: rest => tests p ++ testsList rest

end

/-- The field and the operator of a test. -/
def test? : Predicate → Option (String × FilterOperator)
  | compare field op _ => some (field, op.operator)
  | text field op _ => some (field, op.operator)
  | oneOf field _ => some (field, .isIn)
  | null field negated => some (field, if negated then .isNotNull else .isNull)
  | _ => none

/-- A test of a granted field by an operator that is granted for it. -/
def GrantedBy (g : Grant) (p : Predicate) : Prop :=
  ∃ field op, p.test? = some (field, op) ∧ g.field field ∧ g.operator field op

/-- A test has itself as its only test. -/
theorem tests_of_test? {p : Predicate} {t : String × FilterOperator} (h : p.test? = some t) :
    p.tests = [p] := by
  cases p <;> simp [test?] at h <;> simp [tests]

/-- A conjunction drops trivial parts and unwraps a single one, and neither loses a test. -/
theorem tests_conjunction (ps : List Predicate) : (conjunction ps).tests = testsList ps := by
  have hfilter : testsList (ps.filter fun p => !p.isAlways) = testsList ps := by
    induction ps with
    | nil => rfl
    | cons p rest ih => cases p <;> simp [isAlways, testsList, tests] <;> exact ih
  rw [← hfilter]
  rw [conjunction]
  split
  · rename_i h
    simp [h, tests, testsList]
  · rename_i p h
    simp [h, testsList]
  · rfl

end Predicate

/-- A test of texts is spelled by one operator only. -/
theorem TextOp.eq_operator {op : TextOp} {symbol : FilterOperator} (h : ofOperator? symbol = some op) :
    symbol = op.operator := by
  cases symbol <;> simp [ofOperator?] at h <;> subst h <;> rfl

/-- A comparison is spelled by one operator only. -/
theorem CompareOp.eq_operator {op : CompareOp} {symbol : FilterOperator} (h : ofOperator? symbol = some op) :
    symbol = op.operator := by
  cases symbol <;> simp [ofOperator?] at h <;> subst h <;> rfl

namespace Columns

/-- The predicate of a leaf. -/
def compileOneLeaf (c : Columns) (l : Leaf) : Except QueryError Predicate :=
  c.compileLeaf l.field l.operator l.value

theorem compileText_test {field : String} {type : FieldType} {symbol : FilterOperator} {op : TextOp}
    {v : Value} {p : Predicate} (hop : TextOp.ofOperator? symbol = some op)
    (h : compileText field type symbol op v = .ok p) : p.test? = some (field, symbol) := by
  rw [compileText] at h
  split at h
  · split at h
    · obtain rfl : _ = p := by simpa using h
      simp [Predicate.test?, TextOp.eq_operator hop]
    · simp at h
  · simp at h

theorem compileComparison_test {field : String} {type : FieldType} {symbol : FilterOperator} {v : Value}
    {p : Predicate} (hvalue : symbol.forbidsValue = false) (htext : TextOp.ofOperator? symbol = none)
    (h : compileComparison field type symbol v = .ok p) : p.test? = some (field, symbol) := by
  cases type with
  | scalar t =>
    simp only [compileComparison] at h
    cases hop : CompareOp.ofOperator? symbol with
    | some op =>
      simp only [hop] at h
      obtain ⟨s, _, rfl⟩ := Outcome.map_eq_ok_iff.mp h
      simp [Predicate.test?, CompareOp.eq_operator hop]
    | none =>
      have hsymbol : symbol = .isIn := by
        cases symbol <;> simp_all [CompareOp.ofOperator?, TextOp.ofOperator?, FilterOperator.forbidsValue]
      simp only [hop] at h
      split at h
      · obtain ⟨ss, _, rfl⟩ := Outcome.map_eq_ok_iff.mp h
        simp [Predicate.test?, hsymbol]
      · simp at h
  | object _ => simp [compileComparison] at h
  | array _ => simp [compileComparison] at h

/-- The predicate of a leaf is one test, of the leaf's field by the leaf's operator. -/
theorem compileOneLeaf_test {c : Columns} {l : Leaf} {p : Predicate} (h : c.compileOneLeaf l = .ok p) :
    ∃ op, FilterOperator.parse? l.operator = some op ∧ p.test? = some (l.field, op) := by
  obtain ⟨type, _, h⟩ := Outcome.bind_eq_ok_iff.mp h
  cases hop : FilterOperator.parse? l.operator with
  | none => simp [hop] at h
  | some op =>
    refine ⟨op, rfl, ?_⟩
    simp only [hop] at h
    cases hforbids : op.forbidsValue with
    | true =>
      obtain rfl : _ = p := by simpa [hforbids] using h
      cases op <;> simp_all [FilterOperator.forbidsValue, Predicate.test?]
    | false =>
      cases hv : l.value with
      | none => simp [hforbids, hv] at h
      | some v =>
        simp only [hforbids, hv, Bool.false_eq_true, if_false, compileTest] at h
        cases htext : TextOp.ofOperator? op with
        | some t => exact compileText_test htext (by simpa only [htext] using h)
        | none => exact compileComparison_test hforbids htext (by simpa only [htext] using h)

mutual

/-- The tests of a compiled tree are its leaves, each compiled on its own. -/
theorem compile_tests {c : Columns} {condition : Condition} {p : Predicate}
    (h : c.compile condition = .ok p) : condition.leaves.mapM c.compileOneLeaf = .ok p.tests := by
  cases condition with
  | leaf field symbol v =>
    have hleaf : c.compileOneLeaf { field, operator := symbol, value := v } = .ok p := h
    obtain ⟨op, _, htest⟩ := compileOneLeaf_test hleaf
    rw [Predicate.tests_of_test? htest, Condition.leaves, Outcome.mapM_eq_ok_iff]
    exact .cons hleaf .nil
  | group cs logic =>
    simp only [compile] at h
    cases hlogic : Logic.parse? logic with
    | none => simp [hlogic] at h
    | some l =>
      cases l <;> simp only [hlogic] at h <;> obtain ⟨ps, hps, rfl⟩ := Outcome.map_eq_ok_iff.mp h
      · rw [Predicate.tests_conjunction]
        exact compileList_tests hps
      · exact compileList_tests hps

/-- The tests of compiled trees are their leaves, each compiled on its own. -/
theorem compileList_tests {c : Columns} {conditions : List Condition} {ps : List Predicate}
    (h : c.compileList conditions = .ok ps) :
    (Condition.leavesList conditions).mapM c.compileOneLeaf = .ok (Predicate.testsList ps) := by
  cases conditions with
  | nil =>
    obtain rfl : [] = ps := by simpa [compileList] using h
    rfl
  | cons condition rest =>
    simp only [compileList] at h
    obtain ⟨p, hp, h⟩ := Outcome.bind_eq_ok_iff.mp h
    obtain ⟨others, hothers, h⟩ := Outcome.bind_eq_ok_iff.mp h
    obtain rfl : p :: others = ps := by simpa using h
    have hfirst := compile_tests hp
    have hrest := compileList_tests hothers
    rw [Outcome.mapM_eq_ok_iff] at hfirst hrest ⊢
    exact List.rel_append hfirst hrest

end

/-- The tests of a compiled list are its leaves, each compiled on its own. -/
theorem compileAll_tests {c : Columns} {conditions : List Condition} {p : Predicate}
    (h : c.compileAll conditions = .ok p) :
    (Condition.leavesList conditions).mapM c.compileOneLeaf = .ok p.tests := by
  obtain ⟨ps, hps, rfl⟩ := Outcome.map_eq_ok_iff.mp h
  rw [Predicate.tests_conjunction]
  exact compileList_tests hps

/-- Every test of compiled admissible trees is granted. -/
theorem compileAll_grantedBy {c : Columns} {g : Grant} {conditions : List Condition} {p : Predicate}
    (hadmissible : ∀ condition ∈ conditions, condition.Admissible g)
    (h : c.compileAll conditions = .ok p) : ∀ t ∈ p.tests, t.GrantedBy g := by
  intro t ht
  obtain ⟨l, hl, hcompiled⟩ := Outcome.exists_mem_of_mapM (compileAll_tests h) ht
  obtain ⟨condition, hcondition, hl⟩ := Condition.mem_leavesList.mp hl
  obtain ⟨op, hop, htest⟩ := compileOneLeaf_test hcompiled
  obtain ⟨_, hfield, hop', hallowed, _⟩ | _ := (hadmissible condition hcondition).of_mem_leaves hl
  obtain rfl := Option.some.inj (hop.symm.trans hop')
  exact ⟨l.field, op, htest, hfield, hallowed⟩

/-- Admissible trees that compile to the trivial predicate are no trees at all. -/
theorem eq_nil_of_compileAll_always {c : Columns} {g : Grant} {conditions : List Condition}
    (hadmissible : ∀ condition ∈ conditions, condition.Admissible g)
    (h : c.compileAll conditions = .ok .always) : conditions = [] := by
  have hleaves : Condition.leavesList conditions = [] := by
    have hall := Outcome.mapM_eq_ok_iff.mp (compileAll_tests h)
    simpa [Predicate.tests] using hall
  cases conditions with
  | nil => rfl
  | cons condition rest =>
    obtain ⟨hfirst, _⟩ := List.append_eq_nil_iff.mp hleaves
    exact absurd hfirst (hadmissible condition (by simp)).leaves_ne_nil

/-- A quantified predicate quantifies the compiled conditions over the collection. -/
theorem compileQuantified_eq_ok {c : Columns} {universal : Bool} {collection : String}
    {conditions : List Condition} {p : Predicate}
    (h : c.compileQuantified universal collection conditions = .ok p) :
    ∃ (elements : Columns) (element : Predicate), c.elementColumns collection = .ok elements ∧
      elements.compileAll conditions = .ok element ∧
      p = if universal then .all collection element else .any collection element := by
  obtain ⟨elements, hcolumns, h⟩ := Outcome.bind_eq_ok_iff.mp h
  obtain ⟨element, helement, h⟩ := Outcome.bind_eq_ok_iff.mp h
  exact ⟨elements, element, hcolumns, helement, by simpa using h.symm⟩

end Columns

namespace Operation

/-- The predicate of an admissible quantifier makes granted tests of the elements of the collection that
the operation names. -/
theorem Admissible.quantifier_grantedBy {policy : Policy} {e : EntityPolicy} {o : Operation}
    (hadmissible : o.Admissible policy e) {kind : OperationKind} (hkind : OperationKind.parse? o.kind = some kind)
    (hq : kind = .any ∨ kind = .all) {schema : EntitySchema} {p : Predicate}
    (h : o.quantifier kind schema = .ok p) :
    ∃ collection element, o.textParameter? "collection" = some collection ∧
      p = (if kind = .all then .all collection element else .any collection element) ∧
      ∀ t ∈ element.tests, t.GrantedBy (e.collectionGrant collection) := by
  cases hadmissible with
  | @quantified _ collection _ cs _ _ hcollection _ _ hv hcs _ hadmits =>
    rw [quantifier] at h
    simp only [hcollection, hv, hcs] at h
    obtain ⟨elements, element, _, helement, rfl⟩ := Columns.compileQuantified_eq_ok h
    exact ⟨collection, element, hcollection, by simp, Columns.compileAll_grantedBy hadmits.trees helement⟩
  | plain hk hmem =>
    obtain rfl := Option.some.inj (hkind.symm.trans hk)
    rcases hq with rfl | rfl <;> simp at hmem
  | selectMany hk | skip hk | take hk =>
    obtain rfl := Option.some.inj (hkind.symm.trans hk)
    simp at hq

end Operation

namespace Query

/-- **No filter is lost or smuggled in between validation and compilation.** Compiling keeps the leaves of
all trees in order. So the compiled filters of an accepted query only make tests that the policy allows on
its entity, and hold of every record only if there are no filters; and a quantifier only makes tests that
the policy allows on the members of its collection. -/
theorem compiled_filters_faithful :
    (∀ (c : Columns) (conditions : List Condition) (p : Predicate), c.compileAll conditions = .ok p →
      (Condition.leavesList conditions).mapM c.compileOneLeaf = .ok p.tests) ∧
    ∀ (policy : Policy) (q : Query), policy.accepts q = true →
      ∃ e, policy.entity? q.entity = some e ∧
        (∀ (c : Columns) (p : Predicate), c.compileAll q.filters = .ok p →
          (∀ t ∈ p.tests, t.GrantedBy e.entityGrant) ∧ (p = .always → q.filters = [])) ∧
        ∀ o ∈ q.operations, ∀ kind, OperationKind.parse? o.kind = some kind → kind = .any ∨ kind = .all →
          ∀ (schema : EntitySchema) (p : Predicate), o.quantifier kind schema = .ok p →
            ∃ collection element, o.textParameter? "collection" = some collection ∧
              p = (if kind = .all then .all collection element else .any collection element) ∧
              ∀ t ∈ element.tests, t.GrantedBy (e.collectionGrant collection) := by
  refine ⟨fun c conditions p => Columns.compileAll_tests, ?_⟩
  intro policy q haccepts
  obtain ⟨_, e, hentity, hadmissible⟩ := Policy.admissibleOn_of_accepts haccepts
  refine ⟨e, hentity, ?_, ?_⟩
  · intro c p hp
    refine ⟨Columns.compileAll_grantedBy hadmissible.filters.trees hp, ?_⟩
    rintro rfl
    exact Columns.eq_nil_of_compileAll_always hadmissible.filters.trees hp
  · intro o ho kind hkind hq schema p hp
    exact (hadmissible.operations o ho).quantifier_grantedBy hkind hq hp

/-! ## A query with nested filters and a quantifier -/

/-- Users may be filtered by their age and by the totals of their orders. -/
def samplePolicy : Policy where
  entities := [("user", { name := "User", filterable := ["Age", "Orders", "Orders.Total"] })]

/-- Users with orders. -/
def sampleSchema : EntitySchema where
  name := "User"
  fields := [("Age", .scalar .int), ("Id", .scalar .int), ("Orders", .array (.object [("Total", .scalar .int)]))]

/-- Some order has a great total. -/
def sampleOperation : Operation where
  kind := "Any"
  parameters := [("collection", .string "Orders"),
    ("predicate", .object [("field", .string "Total"), ("operator", .string "gte"), ("value", .int 5)])]

/-- Users of a high or unknown age with a great order. -/
def sampleQuery : Query where
  entity := " User"
  filters := [.group [.group [.leaf "Age" "gt" (some (.int 30))] none, .leaf "Age" "IsNull" none] (some "or")]
  operations := [sampleOperation]

/-- The compiled filters of the query. -/
def sampleFilter : Predicate := .or [.compare "Age" .gt (.int 30), .null "Age" false]

/-- The filters of the sample query keep both leaves, unwrapped, and its quantifier keeps its own. -/
theorem compiled_filters_faithful_sample :
    samplePolicy.accepts sampleQuery = true ∧
    sampleSchema.columns.compileAll sampleQuery.filters = .ok sampleFilter ∧
    OperationKind.parse? sampleOperation.kind = some .any ∧
    sampleOperation.quantifier .any sampleSchema = .ok (.any "Orders" (.compare "Total" .gte (.int 5))) ∧
    (Condition.leavesList sampleQuery.filters).mapM sampleSchema.columns.compileOneLeaf =
      .ok sampleFilter.tests ∧
    ∃ e, samplePolicy.entity? sampleQuery.entity = some e ∧
      ((∀ t ∈ sampleFilter.tests, t.GrantedBy e.entityGrant) ∧
        (sampleFilter = .always → sampleQuery.filters = [])) ∧
      ∃ collection element, sampleOperation.textParameter? "collection" = some collection ∧
        Predicate.any "Orders" (.compare "Total" .gte (.int 5)) = .any collection element ∧
        ∀ t ∈ element.tests, t.GrantedBy (e.collectionGrant collection) := by
  have haccepts : samplePolicy.accepts sampleQuery = true := by decide +kernel
  have hfilter : sampleSchema.columns.compileAll sampleQuery.filters = .ok sampleFilter := by cbv
  have hkind : OperationKind.parse? sampleOperation.kind = some .any := by decide +kernel
  have hquantifier : sampleOperation.quantifier .any sampleSchema =
      .ok (.any "Orders" (.compare "Total" .gte (.int 5))) := by cbv
  obtain ⟨htests, haccepted⟩ := compiled_filters_faithful
  obtain ⟨e, hentity, hroot, hoperations⟩ := haccepted samplePolicy sampleQuery haccepts
  exact ⟨haccepts, hfilter, hkind, hquantifier, htests _ _ _ hfilter, e, hentity, hroot _ _ hfilter,
    hoperations sampleOperation (by simp [sampleQuery]) .any hkind (.inl rfl) _ _ hquantifier⟩

end Query

end GuardedQuery
