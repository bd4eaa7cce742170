/-!
# Storage failures

Why a store refuses a schema, a record, a data file or a read.
-/

namespace GuardedQuery

/-- Why a store refuses what it is asked. -/
inductive StorageError where
  /-- No entity has the name. -/
  | unknownEntity (entity : String)
  /-- The entity is already there. -/
  | duplicateEntity (entity : String)
  /-- The identity is not declared as a scalar, or a record lacks it. -/
  | invalidIdentity (entity field : String)
  /-- A field's value does not conform to its declared type. -/
  | typeMismatch (entity field expected : String)
  /-- A record cannot be stored. -/
  | invalidRecord (entity reason : String)
  /-- The read was cancelled. -/
  | cancelled
  /-- The store cannot answer at present. -/
  | unavailable (reason : String)
  /-- The data file cannot be read. -/
  | unreadable (reason : String)
  /-- The data file is not a data document. -/
  | malformed
deriving DecidableEq, Repr

namespace StorageError

/-- The code of an error. -/
def code : StorageError → String
  | unknownEntity _ => "AERO_STORAGE_UNKNOWN_ENTITY"
  | duplicateEntity _ => "AERO_STORAGE_DUPLICATE_ENTITY"
  | invalidIdentity .. => "AERO_STORAGE_INVALID_IDENTITY"
  | typeMismatch .. => "AERO_STORAGE_TYPE_MISMATCH"
  | invalidRecord .. => "AERO_STORAGE_INVALID_RECORD"
  | cancelled => "AERO_STORAGE_CANCELLED"
  | unavailable _ => "AERO_STORAGE_UNAVAILABLE"
  | unreadable _ => "AERO_STORAGE_IO"
  | malformed => "AERO_STORAGE_PARSE"

/-- The message of an error. -/
def message : StorageError → String
  | unknownEntity entity => s!"Unknown entity '{entity}'"
  | duplicateEntity entity => s!"Entity '{entity}' is registered more than once"
  | invalidIdentity entity field => s!"Entity '{entity}' identity field '{field}' is missing or not scalar"
  | typeMismatch entity field expected => s!"Field '{field}' on {entity} does not conform to type {expected}"
  | invalidRecord entity reason => s!"Invalid record for {entity}: {reason}"
  | cancelled => "Storage call cancelled"
  | unavailable reason => s!"Storage unavailable: {reason}"
  | unreadable reason => s!"Failed to read data file: {reason}"
  | malformed => "Invalid data file: malformed document"

end StorageError

end GuardedQuery
