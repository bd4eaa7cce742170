import GuardedQuery.Json.Writer

/-!
# Counters

What an engine counts. Counters only grow and wrap around at 64 bits.
-/

namespace GuardedQuery

/-- The counters of an engine. -/
structure Metrics where
  /-- Queries that passed validation. -/
  queriesValidated : UInt64 := 0
  /-- Queries that were answered. -/
  queriesExecuted : UInt64 := 0
  /-- Queries that were refused. -/
  queriesBlocked : UInt64 := 0
  /-- Queries that have no answer. -/
  queriesFailed : UInt64 := 0
  /-- Queries that took too long. -/
  queriesTimedOut : UInt64 := 0
  /-- Refused queries that went beyond what the policy permits. -/
  guardrailViolations : UInt64 := 0
  /-- Cursors that could not be used. -/
  cursorDecodeFailures : UInt64 := 0
  /-- Total numbers that could not be found out. -/
  countFailures : UInt64 := 0
  /-- Records looked at. -/
  rowsExamined : UInt64 := 0
  /-- Rows answered. -/
  rowsReturned : UInt64 := 0
  /-- Microseconds spent on queries. -/
  latencyMicros : UInt64 := 0
deriving DecidableEq, Repr

namespace Metrics

/-- Counts a query that passed validation. -/
def validated (m : Metrics) : Metrics := { m with queriesValidated := m.queriesValidated + 1 }

/-- Counts an answered query. -/
def executed (m : Metrics) (examined returned micros : Nat) : Metrics :=
  { m with
    queriesExecuted := m.queriesExecuted + 1
    rowsExamined := m.rowsExamined + UInt64.ofNat examined
    rowsReturned := m.rowsReturned + UInt64.ofNat returned
    latencyMicros := m.latencyMicros + UInt64.ofNat micros }

/-- Counts a refused query. -/
def blocked (m : Metrics) (guardrail : Bool) : Metrics :=
  { m with
    queriesBlocked := m.queriesBlocked + 1
    guardrailViolations := m.guardrailViolations + (if guardrail then 1 else 0) }

/-- Counts a query without an answer. -/
def failed (m : Metrics) (micros : Nat) : Metrics :=
  { m with
    queriesFailed := m.queriesFailed + 1
    latencyMicros := m.latencyMicros + UInt64.ofNat micros }

/-- Counts a query that took too long. -/
def timedOut (m : Metrics) : Metrics := { m with queriesTimedOut := m.queriesTimedOut + 1 }

/-- Counts a cursor that could not be used. -/
def cursorFailed (m : Metrics) : Metrics := { m with cursorDecodeFailures := m.cursorDecodeFailures + 1 }

/-- Counts a total number that could not be found out. -/
def countFailed (m : Metrics) : Metrics := { m with countFailures := m.countFailures + 1 }

/-- The counters by name. -/
def counters (m : Metrics) : List (String × UInt64) :=
  [("queries_validated", m.queriesValidated), ("queries_executed", m.queriesExecuted),
   ("queries_blocked", m.queriesBlocked), ("queries_failed", m.queriesFailed),
   ("queries_timed_out", m.queriesTimedOut), ("guardrail_violations", m.guardrailViolations),
   ("cursor_decode_failures", m.cursorDecodeFailures), ("count_failures", m.countFailures),
   ("rows_examined", m.rowsExamined), ("rows_returned", m.rowsReturned), ("latency_micros", m.latencyMicros)]

/-- The text of the counters. -/
def toText (m : Metrics) : String := Value.textInOrder (m.counters.map fun c => (c.1, .ofNat c.2.toNat))

end Metrics

end GuardedQuery
