import GuardedQuery.Command.Arguments
import GuardedQuery.Command.Projections
import GuardedQuery.Engine.Basic
import GuardedQuery.Storage.DataFile

/-!
# Commands

A command works on texts that have been read for it, and gives one line of JSON or an error. What it logs,
and the audit records it makes, are handed over with the outcome; they count even if it fails.

## Main definitions

* `Inputs`: what a command works on.
* `Command.perform`: carries out a command.
* `Command.responseLine`: the line that tells of a good outcome.
-/

namespace GuardedQuery

/-- What a command works on. A text that cannot be read is the reason for that instead. -/
structure Inputs where
  /-- The text of the policy. -/
  policy : Except String String
  /-- The text of the data. -/
  data : Except String String := .error "not given"
  /-- The text of the query. -/
  query : Except String String := .error "not given"
  /-- Why the audit trail cannot be opened, if that is so. -/
  auditFault : Option String := none
  /-- What the engine does not decide. -/
  circumstances : Circumstances := {}

namespace Command

variable {σ : Type}

/-- Loads the policy. -/
def loadPolicy (path : String) (contents : Except String String) : Work Policy := do
  let text ← Step.ofExcept (contents.mapError fun reason => .policy (.unavailable reason))
  let p ← Step.ofExcept ((Policy.ofText text).mapError .policy)
  Work.tell [Event.configLoaded.line [("entities", toString p.entities.length), ("path", path)]]
  return p

/-- Loads the data. -/
def loadStore (path : String) (contents : Except String String) : Work Store := do
  let (loaded, lines) := Store.load path contents 0
  Work.tell lines
  Step.ofExcept (loaded.mapError .storage)

/-- Sets up an engine. -/
def openEngine [Storage σ] (p : Policy) (store : σ) (r : Registry) : Work (Engine σ) :=
  Step.ofExcept ((Engine.create p store r).mapError .engine)

/-- Reads the query. -/
def readQuery (contents : Except String String) : Work Query := do
  let text ← Step.ofExcept (contents.mapError .inputOutput)
  if Text.isBlankText text then Step.fail (.invalidQuery .blank)
  else Step.ofExcept ((Query.ofText text).mapError fun fault => .invalidQuery (.unreadable fault))

/-- What a policy permits on an entity, in short. -/
def entitySummary (p : Policy) (e : EntityPolicy) : Value :=
  .ofMembers
    [("name", .string e.name), ("filterable", .ofStrings e.filterable), ("sortable", .ofStrings e.sortable),
     ("selectable", .ofStrings e.selectable), ("projected", .bool (p.projection? e.name).isSome)]

/-- What a policy permits, in short; the entities are in the order of their look-up names. -/
def policySummary (p : Policy) : Value :=
  .ofMembers
    [("maxDepth", .ofNat p.maxDepth), ("maxNodes", .ofNat p.maxNodes), ("maxPageSize", .ofNat p.maxPageSize),
     ("defaultPageSize", .ofNat p.defaultPageSize),
     ("executionTimeoutSeconds", .ofNat (p.timeoutMs / 1000)),
     ("entities", .array (p.entities.map fun e => entitySummary p e.2))]

/-- The written form of the outcome of a check. -/
def checkSummary (vs : List Violation) : Value :=
  .ofMembers [("isValid", .bool vs.isEmpty), ("errors", .ofStrings (vs.map Violation.message))]

/-- Hands over what an engine has noted. -/
def absorb (e : Engine σ) : Work Unit :=
  Step.modify fun t => { log := t.log ++ e.log, audit := t.audit ++ e.audit.records }

/-- Answers a query, and hands over what the engine has noted. -/
def answer [Storage σ] (e : Engine σ) (q : Query) (c : Circumstances) : Work Value := do
  let (outcome, e) := e.executeInTime Target.value q c.stamp c
  absorb e
  let response ← Step.ofExcept (outcome.mapError .engine)
  return response.toValue

/-- Carries out a command. -/
def perform (inputs : Inputs) : Command → Work Value
  | checkConfig config data => do
    let p ← loadPolicy config inputs.policy
    match data with
    | none => return policySummary p
    | some path => do
      let store ← loadStore path inputs.data
      let r ← p.registry store
      let _ ← openEngine p store r
      return policySummary p
  | validate config => do
    let p ← loadPolicy config inputs.policy
    let q ← readQuery inputs.query
    return checkSummary (p.violations q)
  | run config data _ => do
    let p ← loadPolicy config inputs.policy
    let store ← loadStore data inputs.data
    let r ← p.registry store
    match inputs.auditFault with
    | some reason => Step.fail (.inputOutput reason)
    | none => do
      let e ← openEngine p store r
      let q ← readQuery inputs.query
      answer e q inputs.circumstances

/-- The line that tells of a good outcome, without its end. -/
def responseLine (data : Value) : String :=
  (Value.ofMembers [("status", .string "ok"), ("data", data)]).toText

end Command

end GuardedQuery
