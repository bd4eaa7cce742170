import GuardedQuery.Proofs.FilterMeaning
import GuardedQuery.Proofs.UnwoundRows

/-!
# The elements that quantifiers reach

A quantifier is compiled under the members of its collection's elements, and these are the members of the objects at the
bottom of nested arrays. When records are matched, it only looks at the elements themselves. So it reaches the objects
of a collection if the elements are declared as objects. If they are declared as arrays, at whatever depth objects are
found below, the quantifier is compiled all the same: then no element is an object, the existential quantifier matches
nothing, and the universal one matches the records without elements. Only where no objects lie below at all, the
quantifier is refused.

## Main definitions

* `Value.HoldsObjects`: collections whose elements are objects or missing.

## Main statements

* `FieldType.memberFields?_eq_some_iff`: a type has the members of the objects at the bottom of its arrays.
* `FieldType.holdsObjects_iff`: the elements of conforming collections are objects or missing if and only if they are
  declared as objects.
* `Columns.quantifiers_reach_objects_iff`: what a quantifier that is compiled reaches, and when it is refused.
-/

namespace GuardedQuery

/-- Every element of the collection is an object or missing. -/
def Value.HoldsObjects (v : Value) : Prop :=
  ∀ items, v = .array items → ∀ item ∈ items, item = .null ∨ ∃ ms, item = .object ms

/-- No element is there. -/
def Value.HoldsNothing (v : Value) : Prop := v = .null ∨ v = .array []

/-! ## Declared elements -/

namespace FieldType

variable {t : FieldType} {fields : Dict FieldType} {v : Value}

/-- **A type has the members of the objects at the bottom of its arrays.** -/
theorem memberFields?_eq_some_iff (t : FieldType) {fields : Dict FieldType} :
    t.memberFields? = some fields ↔ t.innermost = .object fields := by
  cases t with
  | scalar _ => simp [memberFields?, innermost]
  | object _ => simp [memberFields?, innermost]
  | array element =>
    rw [memberFields?, innermost]
    exact memberFields?_eq_some_iff element

/-- A conforming collection has conforming elements. -/
theorem conforms_array_iff : (array t).conforms v = true ↔
    v = .null ∨ ∃ items, v = .array items ∧ ∀ item ∈ items, t.conforms item = true := by
  cases v <;> simp [conforms]

theorem eq_object_of_conforms (h : (object fields).conforms v = true) : v = .null ∨ ∃ ms, v = .object ms := by
  cases v <;> simp [conforms] at h ⊢

/-- **The elements of conforming collections are objects or missing** if and only if they are declared as objects. An
empty list as an element conforms to every other type with members. -/
theorem holdsObjects_iff (ht : t.innermost = .object fields) :
    (∀ v, (array t).conforms v = true → v.HoldsObjects) ↔ t = .object fields := by
  constructor
  · intro hholds
    cases t with
    | scalar _ => simp [innermost] at ht
    | object _ => exact ht
    | array element =>
      have hconforms : (array (array element)).conforms (.array [.array []]) = true := by simp [conforms]
      have helement := hholds _ hconforms _ rfl _ (List.mem_singleton_self _)
      simp at helement
  · rintro rfl v hv items rfl item hitem
    rw [conforms, List.all_eq_true] at hv
    exact eq_object_of_conforms (hv item hitem)

/-- No element of a conforming collection of collections is an object. -/
theorem not_mem_of_conforms_array {element : FieldType} {items : List Value} {ms : Record}
    (h : (array (array element)).conforms (.array items) = true) : .object ms ∉ items := by
  intro hmem
  rcases conforms_array_iff.mp h with hnull | ⟨_, hitems, hconform⟩
  · exact nomatch hnull
  · obtain rfl := Value.array.inj hitems
    have hobject := hconform _ hmem
    simp [conforms] at hobject

end FieldType

/-! ## Collections of collections -/

namespace Value

variable {element : FieldType} {P : Record → Prop} {v : Value}

/-- A collection of collections has no element of a kind. -/
theorem not_someElement_of_conforms (h : (FieldType.array (.array element)).conforms v = true) : ¬v.SomeElement P := by
  rintro ⟨items, ms, rfl, hmem, _⟩
  exact FieldType.not_mem_of_conforms_array h hmem

/-- A collection of collections has elements of a kind only, if it has none. -/
theorem everyElement_iff_of_conforms (h : (FieldType.array (.array element)).conforms v = true) :
    v.EveryElement P ↔ v.HoldsNothing := by
  constructor
  · rintro (hnull | ⟨items, rfl, hall⟩)
    · exact .inl hnull
    · cases items with
      | nil => exact .inr rfl
      | cons item rest =>
        obtain ⟨ms, rfl, _⟩ := hall item List.mem_cons_self
        exact absurd List.mem_cons_self (FieldType.not_mem_of_conforms_array h)
  · rintro (hnull | hempty)
    · exact .inl hnull
    · exact .inr ⟨[], hempty, List.forall_mem_nil _⟩

end Value

/-! ## Quantifiers -/

/-- What is wrong with a condition is not wrong with a collection. -/
theorem Condition.Fault.ne_noObjects {c : Columns} {condition : Condition} {e : QueryError} (h : condition.Fault c e)
    (collection scope : String) : e ≠ .invalidOperation (.noObjects collection scope) := by
  rcases h.of_leaf_or_logic with ⟨l, _, hleaf⟩ | ⟨symbol, rfl⟩
  · cases hleaf <;> simp
  · simp

namespace Columns

variable {c : Columns} {collection : String}

/-- **A collection is refused** if and only if it is declared, and no objects lie below its elements. -/
theorem elementColumns_eq_noObjects_iff :
    c.elementColumns collection = .error (.invalidOperation (.noObjects collection c.scope)) ↔
      ∃ type, Dict.get? c.fields collection = some type ∧
        ∀ element fields, type = .array element → element.innermost ≠ .object fields := by
  rw [elementColumns, fieldType]
  cases Dict.get? c.fields collection with
  | none => simp [bind, Except.bind]
  | some type =>
    cases type with
    | scalar _ | object _ => simp [FieldType.element?, bind, Except.bind]
    | array element =>
      cases hfields : element.memberFields? with
      | none =>
        have hnone : ∀ other fields, FieldType.array element = .array other → other.innermost ≠ .object fields := by
          intro other fields hother hbottom
          obtain rfl := FieldType.array.inj hother
          simp [(FieldType.memberFields?_eq_some_iff element).mpr hbottom] at hfields
        simpa [FieldType.element?, hfields, bind, Except.bind] using hnone
      | some fields =>
        have hbottom := (FieldType.memberFields?_eq_some_iff element).mp hfields
        simp [FieldType.element?, hfields, hbottom, bind, Except.bind]

/-- A quantifier is refused for the sake of its collection if and only if the collection is refused. -/
theorem compileQuantified_eq_noObjects_iff {universal : Bool} {conditions : List Condition} :
    c.compileQuantified universal collection conditions =
        .error (.invalidOperation (.noObjects collection c.scope)) ↔
      c.elementColumns collection = .error (.invalidOperation (.noObjects collection c.scope)) := by
  rw [compileQuantified]
  cases c.elementColumns collection with
  | error e => simp [bind, Except.bind]
  | ok elements =>
    cases hcompiled : elements.compileAll conditions with
    | ok p => simp [hcompiled, bind, Except.bind]
    | error e =>
      obtain ⟨condition, _, hfault⟩ := elements.failsOnly_compileAll conditions e hcompiled
      simpa [hcompiled, bind, Except.bind] using hfault.ne_noObjects collection c.scope

/-- **A quantifier reaches objects if and only if its collection is declared to hold objects.** A quantifier that is
compiled has objects below the elements of its collection, at some depth. The elements of all conforming collections are
objects or missing if and only if they are declared as objects. Then the quantifier asks of these objects that they meet
all conditions. Otherwise the existential one matches nothing, and the universal one matches what has no elements. A
quantifier is refused for the sake of its collection if and only if no objects lie below the elements at all. -/
theorem quantifiers_reach_objects_iff (c : Columns) (collection : String) (conditions : List Condition) :
    (∀ universal p, c.compileQuantified universal collection conditions = .ok p →
      ∃ element fields, Dict.get? c.fields collection = some (.array element) ∧ element.innermost = .object fields ∧
        ((∀ v, (FieldType.array element).conforms v = true → v.HoldsObjects) ↔ element = .object fields) ∧
        ∀ r, (FieldType.array element).conforms (Record.value r collection) = true →
          (element = .object fields → (p.holds r = true ↔
            (if universal then Value.EveryElement else Value.SomeElement)
              (fun ms => ∀ condition ∈ conditions, condition.MetBy fields ms) (Record.value r collection))) ∧
          (element ≠ .object fields → (p.holds r = true ↔
            universal = true ∧ (Record.value r collection).HoldsNothing))) ∧
      ∀ universal, c.compileQuantified universal collection conditions =
          .error (.invalidOperation (.noObjects collection c.scope)) ↔
        ∃ type, Dict.get? c.fields collection = some type ∧
          ∀ element fields, type = .array element → element.innermost ≠ .object fields := by
  constructor
  · intro universal p h
    obtain ⟨element, fields, hdeclared, hmembers, hmeaning⟩ := compileQuantified_metBy h
    have hbottom := (FieldType.memberFields?_eq_some_iff element).mp hmembers
    refine ⟨element, fields, hdeclared, hbottom, FieldType.holdsObjects_iff hbottom, fun r hr => ⟨?_, ?_⟩⟩
    · exact fun _ => hmeaning r
    · intro hother
      rw [hmeaning r]
      cases element with
      | scalar _ => exact nomatch hbottom
      | object _ => exact absurd hbottom hother
      | array inner =>
        cases universal with
        | true => simpa using Value.everyElement_iff_of_conforms hr
        | false => simpa using Value.not_someElement_of_conforms hr
  · intro universal
    rw [compileQuantified_eq_noObjects_iff, elementColumns_eq_noObjects_iff]

/-- Boards with rows of squares. -/
def boardColumns : Columns where
  scope := "Board"
  fields := [("Rows", .array (.array (.object [("Colour", .scalar .string)])))]

/-- A board with one square. -/
def board : Record := [("Rows", .array [.array [.object [("Colour", .string "black")]]])]

/-- A quantifier over the rows is compiled for squares, and does not find the square of the board. -/
theorem quantifiers_reach_objects_iff_board :
    ∃ p, boardColumns.compileQuantified false "Rows" [.leaf "Colour" "eq" (some (.string "black"))] = .ok p ∧
      (FieldType.array (.array (.object [("Colour", .scalar .string)]))).conforms (Record.value board "Rows") = true ∧
      p.holds board = false := by
  have hcompiled : boardColumns.compileQuantified false "Rows" [.leaf "Colour" "eq" (some (.string "black"))] =
      .ok (.any "Rows" (.compare "Colour" .eq (.text "black"))) := by cbv
  have hconforms : (FieldType.array (.array (.object [("Colour", .scalar .string)]))).conforms
      (Record.value board "Rows") = true := by decide +kernel
  obtain ⟨hreach, _⟩ := quantifiers_reach_objects_iff boardColumns "Rows"
    [.leaf "Colour" "eq" (some (.string "black"))]
  obtain ⟨element, fields, hdeclared, hbottom, _, hmeaning⟩ := hreach _ _ hcompiled
  obtain rfl : FieldType.array (.object [("Colour", .scalar .string)]) = element :=
    FieldType.array.inj (Option.some.inj hdeclared)
  obtain ⟨_, hnested⟩ := hmeaning board hconforms
  refine ⟨_, hcompiled, hconforms, ?_⟩
  rw [← Bool.not_eq_true, hnested (by simp)]
  simp

end Columns

end GuardedQuery
