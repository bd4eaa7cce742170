import GuardedQuery.Engine.Error
import GuardedQuery.Policy.Basic
import GuardedQuery.Projection.Registry
import GuardedQuery.Storage.Error

/-!
# Why a command fails

The errors of the policy, the store, the bindings and the engine keep their codes and messages. A command
adds only what can go wrong with its own inputs.
-/

namespace GuardedQuery

/-- What is wrong with the text that should hold a query. -/
inductive QueryTextFault where
  /-- There is nothing but white space. -/
  | blank
  /-- It is not the text of a query. -/
  | unreadable (fault : Fault)
deriving DecidableEq, Repr

/-- Why a command fails. -/
inductive CommandError where
  /-- The policy cannot be used. -/
  | policy (error : PolicyError)
  /-- The data cannot be used. -/
  | storage (error : StorageError)
  /-- A binding cannot be used. -/
  | projection (error : ProjectionError)
  /-- The engine does not answer. -/
  | engine (error : EngineError)
  /-- There is a projection for an entity that has no data. -/
  | unknownProjectionEntity (entity : String)
  /-- The input is no query. -/
  | invalidQuery (fault : QueryTextFault)
  /-- Something cannot be read or written. -/
  | inputOutput (reason : String)

namespace CommandError

/-- The code of an error. -/
def code : CommandError → String
  | policy e => e.code
  | storage e => e.code
  | projection e => e.code
  | engine e => e.code
  | unknownProjectionEntity _ => "AERO_CLI_UNKNOWN_PROJECTION_ENTITY"
  | invalidQuery _ => "AERO_CLI_INVALID_QUERY"
  | inputOutput _ => "AERO_CLI_IO_ERROR"

/-- The text about a fault. -/
def faultText : QueryTextFault → String
  | .blank => "empty input"
  | .unreadable fault => fault.message

/-- The message of an error. -/
def message : CommandError → String
  | policy e => e.message
  | storage e => e.message
  | projection e => e.message
  | engine e => e.message
  | unknownProjectionEntity entity =>
    s!"Projection configured for '{entity}', which storage does not define"
  | invalidQuery fault => s!"Invalid query JSON: {faultText fault}"
  | inputOutput reason => s!"I/O error: {reason}"

/-- The line that tells of an error. -/
def line (e : CommandError) : String := s!"{e.code}: {e.message}"

end CommandError

end GuardedQuery
