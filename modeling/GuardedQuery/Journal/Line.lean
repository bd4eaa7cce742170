import GuardedQuery.Json.Writer

/-!
# Log lines

Everything worth telling about a run is one line of JSON: the name of what happened, how serious it is,
and named texts in the order of their names. Quoting keeps every line a single line, whatever the texts
hold.
-/

namespace GuardedQuery

/-- How serious a line is. -/
inductive Severity where
  /-- Detail. -/
  | trace
  /-- Normal operation. -/
  | info
  /-- A problem that was dealt with. -/
  | warn
  /-- A failed request. -/
  | error
  /-- The end of the program. -/
  | fatal
deriving DecidableEq, Repr

namespace Severity

/-- All severities, the least serious first. -/
def all : List Severity := [trace, info, warn, error, fatal]

/-- The name of a severity. -/
def name : Severity → String
  | trace => "TRACE"
  | info => "INFO"
  | warn => "WARN"
  | error => "ERROR"
  | fatal => "FATAL"

/-- The place of a severity in the order. -/
def level : Severity → Nat
  | trace => 0
  | info => 1
  | warn => 2
  | error => 3
  | fatal => 4

/-- The order of severities. -/
def compare (a b : Severity) : Ordering := Ord.compare a.level b.level

/-- Whether lines of the severity belong to the output for errors. -/
def isUrgent (s : Severity) : Bool := error.level ≤ s.level

end Severity

/-- A line of the log. -/
structure LogLine where
  /-- How serious it is. -/
  severity : Severity
  /-- The name of what happened. -/
  event : String
  /-- Named texts, in any order. -/
  fields : List (String × String) := []
deriving DecidableEq, Repr

namespace LogLine

/-- The named texts in the order of their names; those of one name keep their order. -/
def sortedFields (l : LogLine) : List (String × String) := l.fields.mergeSort fun a b => decide (a.1 ≤ b.1)

/-- The text of a line, without its end. -/
def text (l : LogLine) : String :=
  Value.textInOrder
    (("event", .string l.event) :: ("severity", .string l.severity.name)
      :: l.sortedFields.map fun f => (f.1, .string f.2))

/-- The text of a line with its end, as it is written. -/
def output (l : LogLine) : String := l.text ++ "\n"

end LogLine

end GuardedQuery
