import GuardedQuery.Instant
import GuardedQuery.Json.Writer
import GuardedQuery.Uuid

/-!
# The audit trail

Every query that was refused, answered or left without an answer leaves one record. Records are only ever
added.

## Main definitions

* `AuditRecord`: a record, with its text.
* `AuditTrail.append`: adds a record, unless the trail cannot be written.
-/

namespace GuardedQuery

/-- What happened to a query. -/
inductive AuditAction where
  /-- It was refused. -/
  | blocked
  /-- It was answered. -/
  | executed
  /-- It has no answer. -/
  | failed
deriving DecidableEq, Repr

/-- The name of an action. -/
def AuditAction.name : AuditAction → String
  | blocked => "QUERY_BLOCKED"
  | executed => "QUERY_EXECUTED"
  | failed => "QUERY_FAILED"

/-- How an action ended. -/
inductive AuditOutcome where
  /-- Well. -/
  | success
  /-- By a refusal. -/
  | rejected
  /-- By a failure. -/
  | failed
deriving DecidableEq, Repr

/-- The name of an outcome. -/
def AuditOutcome.name : AuditOutcome → String
  | success => "SUCCESS"
  | rejected => "REJECTED"
  | failed => "FAILED"

/-- Where and when a record is made. -/
structure AuditStamp where
  /-- The identity of the record. -/
  id : Uuid := ⟨0⟩
  /-- The time. -/
  time : Instant := ⟨0, 0⟩
deriving DecidableEq, Repr

/-- A record about one query. -/
structure AuditRecord where
  /-- The identity and time of the record. -/
  stamp : AuditStamp := {}
  /-- What happened. -/
  action : AuditAction
  /-- How it ended. -/
  outcome : AuditOutcome
  /-- The entity as the query names it. -/
  entity : Option String := none
  /-- The violations, or the message of the failure. -/
  reasons : List String := []
  /-- Whether the query went beyond what the policy permits. -/
  securityEvent : Bool := false
  /-- The code of the failure. -/
  errorCode : Option String := none
  /-- The number of rows answered. -/
  rowsReturned : Option Nat := none
  /-- The microseconds spent. -/
  elapsedMicros : Option Nat := none
deriving DecidableEq, Repr

namespace AuditRecord

/-- The record with the code and the message of a failure, the message after all other reasons. -/
def withError (r : AuditRecord) (code message : String) : AuditRecord :=
  { r with errorCode := some code, reasons := r.reasons ++ [message] }

/-- The members of the written form; what a record does not tell is left out. -/
def members (r : AuditRecord) : List (String × Value) :=
  [("id", .string r.stamp.id.toText), ("ts", .string r.stamp.time.toText), ("action", .string r.action.name),
   ("outcome", .string r.outcome.name)]
  ++ (r.entity.map fun e => ("entity", Value.string e)).toList
  ++ (if r.reasons.isEmpty then [] else [("reasons", .ofStrings r.reasons)])
  ++ (if r.securityEvent then [("security_event", .bool true)] else [])
  ++ (r.errorCode.map fun c => ("error_code", Value.string c)).toList
  ++ (r.rowsReturned.map fun n => ("rows_returned", Value.ofNat n)).toList
  ++ (r.elapsedMicros.map fun n => ("elapsed_us", Value.ofNat n)).toList

/-- The text of a record. -/
def toText (r : AuditRecord) : String := Value.textInOrder r.members

end AuditRecord

/-- The audit records, oldest first. -/
structure AuditTrail where
  /-- The records. -/
  records : List AuditRecord := []
  /-- Why nothing can be written, if that is so. -/
  fault : Option String := none

namespace AuditTrail

/-- Adds a record. -/
def append (t : AuditTrail) (r : AuditRecord) : Except String AuditTrail :=
  match t.fault with
  | some reason => .error reason
  | none => .ok { t with records := t.records ++ [r] }

end AuditTrail

end GuardedQuery
