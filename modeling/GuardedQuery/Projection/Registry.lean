import GuardedQuery.Journal.Event
import GuardedQuery.Projection.Binding
import GuardedQuery.Schema.Entity

/-!
# The registry of bindings

A registry holds at most one binding for every entity and form of answer. It only takes bindings that are
fit for use: they read declared fields, and they bind the identity, without which an answer could not be
paged.

## Main definitions

* `Registry.register`: adds a binding, or says what is wrong with it.
* `Registry.get?`: the binding of an entity for a form of answer.
-/

namespace GuardedQuery

/-- Why a binding is refused. -/
inductive ProjectionError where
  /-- It has no members. -/
  | empty (entity target : String)
  /-- It does not bind the identity. -/
  | identityNotProjected (entity target identity : String)
  /-- It reads a field that is not declared. -/
  | unknownSource (entity field : String)
  /-- It binds a target twice. -/
  | duplicateTarget (target : String)
  /-- There already is one. -/
  | alreadyRegistered (entity target : String)
deriving DecidableEq, Repr

namespace ProjectionError

/-- The code of an error. -/
def code : ProjectionError → String
  | empty .. => "AERO_PROJECTION_EMPTY"
  | identityNotProjected .. => "AERO_PROJECTION_IDENTITY"
  | unknownSource .. => "AERO_PROJECTION_UNKNOWN_SOURCE"
  | duplicateTarget _ => "AERO_PROJECTION_DUPLICATE_TARGET"
  | alreadyRegistered .. => "AERO_PROJECTION_ALREADY_REGISTERED"

/-- The message of an error. -/
def message : ProjectionError → String
  | empty entity target => s!"Projection from {entity} to {target} binds no members"
  | identityNotProjected entity target identity =>
    s!"Projection from {entity} to {target} does not bind identity field '{identity}'"
  | unknownSource entity field => s!"Projection from {entity} binds unknown source field '{field}'"
  | duplicateTarget target => s!"Target member '{target}' is bound more than once"
  | alreadyRegistered entity target => s!"Projection from {entity} to {target} is already registered"

end ProjectionError

/-- A registered binding. -/
structure Registration where
  /-- The look-up key of the entity. -/
  entity : String
  /-- The form of answer. -/
  target : String
  /-- The binding. -/
  binding : Binding
deriving DecidableEq, Repr

/-- The registered bindings, in the order of their registration. -/
structure Registry where
  /-- The registrations. -/
  entries : List Registration := []
deriving DecidableEq, Repr

namespace Registry

/-- The binding under a look-up key for a form of answer. -/
def find? (r : Registry) (key target : String) : Option Binding :=
  (r.entries.find? fun e => e.entity == key && e.target == target).map Registration.binding

/-- The binding of an entity for a form of answer. -/
def get? (r : Registry) (target entity : String) : Option Binding := r.find? (entityKey entity) target

/-- What makes a binding unfit for an entity, if anything does. -/
def defect? (target : String) (schema : EntitySchema) (b : Binding) : Option ProjectionError :=
  if b.members.isEmpty then some (.empty schema.name target)
  else
    match b.repeatedTarget? with
    | some t => some (.duplicateTarget t)
    | none =>
      match b.members.find? fun m => !m.joined && !schema.hasField m.source with
      | some m => some (.unknownSource schema.name m.source)
      | none =>
        if (b.targetOf? schema.identity).isNone then
          some (.identityNotProjected schema.name target schema.identity)
        else none

/-- Adds a binding from an entity to a form of answer. -/
def register (r : Registry) (target : String) (schema : EntitySchema) (b : Binding) :
    Except ProjectionError Registry :=
  match defect? target schema b with
  | some e => .error e
  | none =>
    if (r.find? schema.key target).isSome then .error (.alreadyRegistered schema.name target)
    else .ok { entries := r.entries ++ [{ entity := schema.key, target, binding := b }] }

/-- The line that tells of a registration. -/
def registeredLine (target : String) (schema : EntitySchema) (b : Binding) : LogLine :=
  Event.projectionRegistered.line
    [("entity", schema.name), ("members", toString b.members.length), ("target", target)]

/-- The entities and forms of answer that have a binding, in increasing order. -/
def registrations (r : Registry) : List (String × String) :=
  (r.entries.map fun e => (e.entity, e.target)).mergeSort fun a b =>
    decide (a.1 < b.1 ∨ (a.1 = b.1 ∧ a.2 ≤ b.2))

end Registry

end GuardedQuery
