import GuardedQuery.Journal.Line

/-!
# Events

What the log tells about: the configuration, the life of a query, and the failures that an answer
survives.
-/

namespace GuardedQuery

/-- What can happen. -/
inductive Event where
  /-- A policy was loaded. -/
  | configLoaded
  /-- A projection was registered. -/
  | projectionRegistered
  /-- A query arrived. -/
  | queryReceived
  /-- A query was checked. -/
  | queryValidated
  /-- A query was refused. -/
  | queryBlocked
  /-- A query was answered. -/
  | queryExecuted
  /-- A query has no answer. -/
  | queryFailed
  /-- A query took too long. -/
  | queryTimeout
  /-- A cursor could not be used, and the first page was answered. -/
  | cursorDecodeFailed
  /-- The total number is not known, and the answer lacks it. -/
  | countFailed
  /-- An audit record could not be written. -/
  | auditWriteFailed
deriving DecidableEq, Repr

namespace Event

/-- All events. -/
def all : List Event :=
  [configLoaded, projectionRegistered, queryReceived, queryValidated, queryBlocked, queryExecuted, queryFailed,
   queryTimeout, cursorDecodeFailed, countFailed, auditWriteFailed]

/-- The name of an event. -/
def name : Event → String
  | configLoaded => "CONFIG_LOADED"
  | projectionRegistered => "PROJECTION_REGISTERED"
  | queryReceived => "QUERY_RECEIVED"
  | queryValidated => "QUERY_VALIDATED"
  | queryBlocked => "QUERY_BLOCKED"
  | queryExecuted => "QUERY_EXECUTED"
  | queryFailed => "QUERY_FAILED"
  | queryTimeout => "QUERY_TIMEOUT"
  | cursorDecodeFailed => "CURSOR_DECODE_FAILED"
  | countFailed => "COUNT_FAILED"
  | auditWriteFailed => "AUDIT_WRITE_FAILED"

/-- How serious an event is. -/
def severity : Event → Severity
  | queryReceived | queryValidated => .trace
  | configLoaded | projectionRegistered | queryExecuted => .info
  | queryBlocked | cursorDecodeFailed | countFailed | auditWriteFailed => .warn
  | queryFailed | queryTimeout => .error

/-- The line that tells of an event. -/
def line (e : Event) (fields : List (String × String)) : LogLine where
  severity := e.severity
  event := e.name
  fields := fields

end Event

end GuardedQuery
