import GuardedQuery.Json.Decode
import GuardedQuery.Query.Vocabulary
import GuardedQuery.Schema.Entity

/-!
# Entity policies

An entity policy lists what clients may touch on one entity: the fields they may filter, sort and select
by, and for some fields the operators they may use. Names are matched exactly; a member of a collection
is named with a dot, as in `Orders.Total`.

## Main definitions

* `EntityPolicy`, with the tests for each use of a field.
* `EntityPolicy.decoder`, `EntityPolicy.toValue`: the written form.
-/

namespace GuardedQuery

/-- What clients may touch on one entity. -/
structure EntityPolicy where
  /-- The name of the entity. -/
  name : String
  /-- The fields that filters may test, sorted. -/
  filterable : List String := []
  /-- The fields that rows may be sorted by, sorted. -/
  sortable : List String := []
  /-- The fields that may be selected, sorted. -/
  selectable : List String := []
  /-- The operators allowed for a field, in canonical order; other fields allow all operators. -/
  operators : Dict (List FilterOperator) := []
deriving DecidableEq, Inhabited

namespace EntityPolicy

/-- The name under which the policy is kept. -/
def key (p : EntityPolicy) : String := entityKey p.name

/-- Whether filters may test the field. -/
def isFilterable (p : EntityPolicy) (field : String) : Bool := p.filterable.contains field

/-- Whether rows may be sorted by the field. -/
def isSortable (p : EntityPolicy) (field : String) : Bool := p.sortable.contains field

/-- Whether the field may be selected. -/
def isSelectable (p : EntityPolicy) (field : String) : Bool := p.selectable.contains field

/-- Whether an operator may be used on the field. -/
def allowsOperator (p : EntityPolicy) (field : String) (op : FilterOperator) : Bool :=
  ((Dict.get? p.operators field).map fun ops => ops.contains op).getD true

/-- The operators of a list, each once and in canonical order. -/
def operatorSet (ops : List FilterOperator) : List FilterOperator :=
  FilterOperator.all.filter fun op => ops.contains op

/-- Restricts a field to operators, besides those it is restricted to already. -/
def restrict (p : EntityPolicy) (field : String) (ops : List FilterOperator) : EntityPolicy :=
  let before := (Dict.get? p.operators field).getD []
  { p with operators := Dict.insert p.operators field (operatorSet (before ++ ops)) }

/-- All fields that the policy names, sorted. -/
def referencedFields (p : EntityPolicy) : List String :=
  Dict.nameSet (p.filterable ++ p.sortable ++ p.selectable ++ Dict.names p.operators)

/-! ## Written form -/

/-- Reads an operator by its exact symbol. The symbol may also be the only member of an object, with the
value `null`. -/
def operatorDecoder : Decoder FilterOperator := fun n =>
  let symbol? : Option String :=
    match n with
    | .string s => some s
    | .object [(some s, .null)] => some s
    | _ => none
  match symbol?.bind FilterOperator.ofSymbol? with
  | some op => .ok op
  | none => .error .malformed

/-- Reads a list of names as a set. -/
def nameSetDecoder : Decoder (List String) := fun n =>
  (Decoder.list Decoder.string n).map Dict.nameSet

/-- Reads an entity policy. -/
def decoder : Decoder EntityPolicy :=
  Decoder.ofFields
    [.mandatory "name" Decoder.string fun v p => { p with name := v },
     .optional "filterableFields" nameSetDecoder fun v p => { p with filterable := v },
     .optional "sortableFields" nameSetDecoder fun v p => { p with sortable := v },
     .optional "selectableFields" nameSetDecoder fun v p => { p with selectable := v },
     .optional "fieldOperators" (Decoder.dict (Decoder.list operatorDecoder)) fun v p =>
       { p with operators := Dict.mapValues operatorSet v }]
    { name := "" }

/-- The written form of an entity policy. -/
def toValue (p : EntityPolicy) : Value :=
  .ofMembers
    [("name", .string p.name), ("filterableFields", .ofStrings p.filterable),
     ("sortableFields", .ofStrings p.sortable), ("selectableFields", .ofStrings p.selectable),
     ("fieldOperators", .object (Dict.mapValues (fun ops => .ofStrings (ops.map FilterOperator.symbol))
        p.operators))]

end EntityPolicy

end GuardedQuery
