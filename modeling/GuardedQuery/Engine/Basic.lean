import GuardedQuery.Engine.Error
import GuardedQuery.Execution.Answer
import GuardedQuery.Journal.Audit

/-!
# The engine

An engine answers queries from one store under one policy. A query is first checked; one that is refused
never reaches the store. Whatever becomes of a query is logged, counted, and recorded in the audit trail.
What is not decided here, such as the time and the identities of audit records, is handed in.

## Main definitions

* `Engine`: the parts of an engine, and what it has noted so far.
* `Engine.create`: sets up an engine, unless its policy names what the store does not declare.
* `Engine.execute`: answers a query.
* `Engine.executeInTime`: answers a query, but gives up on a store that does not reply in time.
-/

namespace GuardedQuery

namespace EntityPolicy

/-- The parts of a text before and after its first point. -/
def splitAtPoint? (s : String) : Option (String × String) :=
  match s.toList.span fun c => c != '.' with
  | (before, _ :: after) => some (String.ofList before, String.ofList after)
  | (_, []) => none

/-- Whether a schema declares a field, or the collection and the member that a name with a point consists
of. -/
def declares (schema : EntitySchema) (field : String) : Bool :=
  match splitAtPoint? field with
  | some (collection, member) =>
    ((schema.fieldType? collection).bind FieldType.memberFields?).any fun fields => Dict.contains fields member
  | none => schema.hasField field

/-- What the policy names that a store does not declare, if there is such a thing. -/
def undeclared? (e : EntityPolicy) (lookUp : String → Option EntitySchema) : Option EngineError :=
  match lookUp e.name with
  | none => some (.policyEntity e.name)
  | some schema =>
    (e.referencedFields.find? fun f => !declares schema f).map fun f => .policyField e.name f

end EntityPolicy

/-- The circumstances of a call that an engine does not decide. -/
structure Circumstances where
  /-- The identity and the time of an audit record. -/
  stamp : AuditStamp := {}
  /-- The microseconds that the call takes. -/
  micros : Nat := 0

/-- An engine and what it has noted. -/
structure Engine (σ : Type) where
  /-- The policy. -/
  policy : Policy
  /-- The store. -/
  store : σ
  /-- The bindings. -/
  registry : Registry := {}
  /-- The counters. -/
  metrics : Metrics := {}
  /-- The audit trail. -/
  audit : AuditTrail := {}
  /-- The log, oldest line first. -/
  log : List LogLine := []

namespace Engine

variable {σ α : Type}

/-- Sets up an engine. The first entity, in the order of their keys, for which the policy names what the
store does not declare is reported. -/
def create [Storage σ] (policy : Policy) (store : σ) (registry : Registry) : Except EngineError (Engine σ) :=
  match policy.entities.findSome? fun e => e.2.undeclared? (Storage.schema? store) with
  | some e => .error e
  | none => .ok { policy, store, registry }

/-- Logs an event. -/
def tell (e : Engine σ) (event : Event) (fields : List (String × String)) : Engine σ :=
  { e with log := e.log ++ [event.line fields] }

/-- The line that tells of a record that cannot be written. -/
def lostLine (r : AuditRecord) (reason : String) : LogLine :=
  Event.auditWriteFailed.line [("action", r.action.name), ("error", reason), ("id", r.stamp.id.toText)]

/-- Adds a record to the audit trail. That it cannot be written is logged, and changes nothing else. -/
def keep (e : Engine σ) (r : AuditRecord) : Engine σ :=
  match e.audit.append r with
  | .ok audit => { e with audit }
  | .error reason => { e with log := e.log ++ [lostLine r reason] }

/-- Checks a query without answering it. -/
def validate (e : Engine σ) (q : Query) : List Violation × Engine σ :=
  let vs := e.policy.violations q
  (vs, e.tell .queryValidated [("entity", q.entity), ("errors", toString vs.length)])

/-- Notes that a query was refused. -/
def refuse (e : Engine σ) (q : Query) (vs : List Violation) (stamp : AuditStamp) : Engine σ :=
  let security := vs.any Violation.isGuardrail
  let e := { e with metrics := e.metrics.blocked security }
  let e := e.tell .queryBlocked
    [("entity", q.entity), ("reason", violationSummary vs),
     ("security_event", if security then "true" else "false")]
  e.keep
    { stamp, action := .blocked, outcome := .rejected, entity := some q.entity
      reasons := vs.map Violation.message, securityEvent := security }

/-- Receives a query, and refuses it unless the policy accepts it. -/
def accept (e : Engine σ) (q : Query) (stamp : AuditStamp) : Except EngineError Unit × Engine σ :=
  let e := e.tell .queryReceived [("entity", q.entity)]
  match e.policy.violations q with
  | [] => (.ok (), { e with metrics := e.metrics.validated })
  | vs => (.error (.rejected vs), e.refuse q vs stamp)

/-- Runs an accepted query. -/
def run [Storage σ] (e : Engine σ) (target : Target α) (q : Query) (cancelled : Bool) :
    Except QueryError (Response α) × Progress :=
  q.answer e.policy e.store e.registry target { cancelled }

/-- Notes the incidents of a run. -/
def absorb (e : Engine σ) (incidents : List Incident) : Engine σ :=
  { e with
    log := e.log ++ incidents.map Incident.line
    metrics := incidents.foldl Incident.counted e.metrics }

/-- Notes an answer. -/
def succeed (e : Engine σ) (q : Query) (r : Response α) (c : Circumstances) : Engine σ :=
  let rows := r.items.length
  let e := { e with metrics := e.metrics.executed r.rowsExamined rows c.micros }
  let e := e.tell .queryExecuted
    [("elapsed_us", toString c.micros), ("entity", q.entity), ("rows", toString rows),
     ("rows_examined", toString r.rowsExamined)]
  e.keep
    { stamp := c.stamp, action := .executed, outcome := .success, entity := some q.entity
      rowsReturned := some rows, elapsedMicros := some c.micros }

/-- Notes that a query has no answer. -/
def giveUp (e : Engine σ) (q : Query) (error : QueryError) (c : Circumstances) : Engine σ :=
  let e := { e with metrics := e.metrics.failed c.micros }
  let e := e.tell .queryFailed [("code", error.code), ("entity", q.entity), ("error", error.message)]
  let r : AuditRecord :=
    { stamp := c.stamp, action := .failed, outcome := .failed, entity := some q.entity
      elapsedMicros := some c.micros }
  e.keep (r.withError error.code error.message)

/-- Notes that a query took too long. -/
def expire (e : Engine σ) (q : Query) (stamp : AuditStamp) : Engine σ :=
  let error : EngineError := .timeout e.policy.timeoutMs
  let e := { e with metrics := e.metrics.timedOut }
  let e := e.tell .queryTimeout [("entity", q.entity), ("timeout_ms", toString e.policy.timeoutMs)]
  let r : AuditRecord := { stamp, action := .failed, outcome := .failed, entity := some q.entity }
  e.keep (r.withError error.code error.message)

/-- Notes the outcome of a run, and hands it on. -/
def conclude (e : Engine σ) (q : Query) (outcome : Except QueryError (Response α)) (c : Circumstances) :
    Except EngineError (Response α) × Engine σ :=
  match outcome with
  | .ok r => (.ok r, e.succeed q r c)
  | .error error => (.error (.query error), e.giveUp q error c)

/-- Notes what became of a run, however the store went about it. -/
def finish (e : Engine σ) (q : Query) (outcome : Except QueryError (Response α)) (p : Progress)
    (c : Circumstances) : Except EngineError (Response α) × Engine σ :=
  match p.conduct with
  | .broken => (.error .task, e.absorb p.incidents)
  | _ => (e.absorb p.incidents).conclude q outcome c

/-- Answers a query. -/
def execute [Storage σ] (e : Engine σ) (target : Target α) (q : Query) (cancelled : Bool) (c : Circumstances) :
    Except EngineError (Response α) × Engine σ :=
  match e.accept q c.stamp with
  | (.error error, e) => (.error error, e)
  | (.ok (), e) =>
    let (outcome, p) := e.run target q cancelled
    e.finish q outcome p c

/-- Answers a query within the time that the policy allows. A store that does not reply of its own accord
is cancelled when the time is over; the cancelled run still comes to its own end afterwards. -/
def executeInTime [Storage σ] (e : Engine σ) (target : Target α) (q : Query) (timer : AuditStamp)
    (c : Circumstances) : Except EngineError (Response α) × Engine σ :=
  match e.accept q c.stamp with
  | (.error error, e) => (.error error, e)
  | (.ok (), e) =>
    let (outcome, p) := e.run target q false
    match p.conduct with
    | .stalled =>
      let late := (e.expire q timer).finish q outcome p c
      (.error (.timeout e.policy.timeoutMs), late.2)
    | _ => e.finish q outcome p c

end Engine

end GuardedQuery
