import GuardedQuery.Command.Error
import GuardedQuery.Execution.Response
import GuardedQuery.Journal.Audit
import GuardedQuery.Step
import GuardedQuery.Storage.Basic

/-!
# The bindings of a policy

A policy may configure what a row of an entity looks like. Where it does not, a row has the fields that may
be selected and the identity, each under its own name.

## Main definitions

* `Work`: the work of a command, which leaves a transcript.
* `Policy.registry`: the bindings of all entities of a policy.
-/

namespace GuardedQuery

/-- What a command leaves besides its answer. -/
structure Transcript where
  /-- The lines of the log, oldest first. -/
  log : List LogLine := []
  /-- The audit records, oldest first. -/
  audit : List AuditRecord := []

/-- The work of a command. -/
abbrev Work (α : Type) : Type := Step Transcript CommandError α

namespace Work

/-- Adds lines to the log. -/
def tell (lines : List LogLine) : Work Unit := Step.modify fun t => { t with log := t.log ++ lines }

end Work

namespace Policy

/-- Whether a projection reads a field that a join attaches: it is named with a point, or it is the name of
an entity. -/
def isJoinedSource (p : Policy) (source : String) : Bool :=
  source.toList.contains '.' || (p.entity? source).isSome

/-- The binding of a configured projection. -/
def configuredBinding (p : Policy) (members : Dict String) : Binding :=
  members.foldl (fun b m => b.bind m.1 m.2 (p.isJoinedSource m.2)) {}

/-- The binding of an entity without a projection. -/
def defaultBinding (e : EntityPolicy) (schema : EntitySchema) : Binding :=
  let fields := e.selectable.filter schema.hasField
  .ofFields (if fields.contains schema.identity then fields else schema.identity :: fields)

/-- Adds a binding for answers in plain JSON. -/
def addBinding (r : Registry) (schema : EntitySchema) (b : Binding) : Work Registry := do
  let label := Target.value.label
  let r ← Step.ofExcept ((r.register label schema b).mapError .projection)
  Work.tell [Registry.registeredLine label schema b]
  return r

/-- Adds the binding of a configured projection. -/
def addConfigured (p : Policy) (lookUp : String → Option EntitySchema) (r : Registry)
    (projection : String × Dict String) : Work Registry := do
  let schema ← Step.require (.unknownProjectionEntity projection.1) (lookUp projection.1)
  addBinding r schema (p.configuredBinding projection.2)

/-- Adds the binding of an entity without a projection. -/
def addDefault (p : Policy) (lookUp : String → Option EntitySchema) (r : Registry)
    (entity : String × EntityPolicy) : Work Registry :=
  if (p.projection? entity.2.name).isSome then return r
  else do
    let schema ← Step.require (.storage (.unknownEntity entity.2.name)) (lookUp entity.2.name)
    addBinding r schema (defaultBinding entity.2 schema)

/-- The bindings of all entities of a policy, for answers in plain JSON. Configured projections come first,
and then the other entities, both in the order of their look-up names. -/
def registry {σ : Type} [Storage σ] (p : Policy) (store : σ) : Work Registry := do
  let lookUp := Storage.schema? store
  let r ← p.projections.foldlM (p.addConfigured lookUp) {}
  p.entities.foldlM (p.addDefault lookUp) r

end Policy

end GuardedQuery
