import GuardedQuery.Journal.Line

/-!
# Observed work

A piece of work is framed by two lines: one when it begins, and one that tells how it ended. The texts
given at the beginning are repeated at the end, unless the work was left without an end.
-/

namespace GuardedQuery

/-- A piece of work. -/
structure Scope where
  /-- The name. -/
  name : String
  /-- Named texts for both lines. -/
  fields : List (String × String) := []

namespace Scope

/-- The line at the beginning. -/
def begun (s : Scope) : LogLine where
  severity := .trace
  event := s.name ++ "_BEGIN"
  fields := s.fields

/-- The line at a good end, after some microseconds. -/
def completed (s : Scope) (extra : List (String × String)) (micros : Nat) : LogLine where
  severity := .info
  event := s.name ++ "_COMPLETE"
  fields := s.fields ++ extra ++ [("elapsed_us", toString micros)]

/-- The line at a failure. -/
def failed (s : Scope) (reason : String) : LogLine where
  severity := .error
  event := s.name ++ "_FAILED"
  fields := s.fields ++ [("reason", reason)]

/-- The line of work that was left without an end. -/
def abandoned (s : Scope) : LogLine where
  severity := .warn
  event := s.name ++ "_INCOMPLETE"
  fields := [("reason", "scope dropped without completion")]

end Scope

end GuardedQuery
