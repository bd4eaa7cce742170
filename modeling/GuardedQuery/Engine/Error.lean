import GuardedQuery.Query.Error
import GuardedQuery.Validation.Validator

/-!
# Why an engine does not answer

An engine refuses queries that its policy does not accept, passes on why a query has no answer, and gives
up on queries that take too long. It is not set up at all if the policy names what is not declared.
-/

namespace GuardedQuery

/-- A time in milliseconds, in seconds if it is at least one second. -/
def millisText (ms : Nat) : String :=
  if ms = 0 then "0ns"
  else if ms < 1000 then s!"{ms}ms"
  else
    let digits := Nat.toDigits 10 (1000 + ms % 1000)
    let fraction := ((digits.drop 1).reverse.dropWhile fun c => c == '0').reverse
    toString (ms / 1000) ++ (if fraction.isEmpty then "" else "." ++ String.ofList fraction) ++ "s"

/-- Why an engine does not answer. -/
inductive EngineError where
  /-- The policy does not accept the query. -/
  | rejected (violations : List Violation)
  /-- The query has no answer. -/
  | query (error : QueryError)
  /-- The query took longer than the given number of milliseconds. -/
  | timeout (ms : Nat)
  /-- The store or a sort broke down while the query was under way. -/
  | task
  /-- The policy names an entity that is not declared. -/
  | policyEntity (entity : String)
  /-- The policy names a field that is not declared. -/
  | policyField (entity field : String)

namespace EngineError

/-- The code of an error. -/
def code : EngineError → String
  | rejected _ => "AERO_ENGINE_REJECTED"
  | query e => e.code
  | timeout _ => "AERO_ENGINE_TIMEOUT"
  | task => "AERO_ENGINE_TASK"
  | policyEntity _ => "AERO_ENGINE_POLICY_ENTITY"
  | policyField .. => "AERO_ENGINE_POLICY_FIELD"

/-- The message of an error. -/
def message : EngineError → String
  | rejected vs => s!"Query rejected: {violationSummary vs}"
  | query e => e.message
  | timeout ms => s!"Query exceeded execution timeout of {millisText ms}"
  | task => "Execution task failed: the store broke down"
  | policyEntity entity => s!"Policy entity '{entity}' has no storage schema"
  | policyField entity field => s!"Policy for {entity} whitelists '{field}', which the schema does not declare"

end EngineError

end GuardedQuery
