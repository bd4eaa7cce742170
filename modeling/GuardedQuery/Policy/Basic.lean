import GuardedQuery.Policy.Entity
import GuardedQuery.Text.Blank

/-!
# Policies

A policy is what every query is checked against: global limits, the entity policies, and the members of
configured projections. It is read from a document once and never changes.

## Main definitions

* `Policy`, `Policy.entity?`, `Policy.projection?`: the policy and its look-ups, which do not depend on
  case and surrounding white space.
* `Policy.checkLimits`: the limits make sense.
* `Policy.effectivePageSize`: the page size that a request gets.
* `Policy.ofText`: the policy of a document.
-/

namespace GuardedQuery

/-- A limit that makes no sense. -/
inductive LimitError where
  /-- No filter would be shallow enough. -/
  | maxDepth
  /-- No filter would be small enough. -/
  | maxNodes
  /-- No page would be small enough. -/
  | maxPageSize
  /-- The page size of a request that names none is out of range. -/
  | defaultPageSize (max got : Nat)
  /-- There would be no time to answer. -/
  | executionTimeout
deriving DecidableEq, Repr

/-- The message of a limit error. -/
def LimitError.message : LimitError → String
  | maxDepth => "maxDepth must be > 0"
  | maxNodes => "maxNodes must be > 0"
  | maxPageSize => "maxPageSize must be > 0"
  | defaultPageSize max got => s!"defaultPageSize must be between 1 and {max}, got {got}"
  | executionTimeout => "executionTimeoutSeconds must be > 0"

/-- Why a policy cannot be used. -/
inductive PolicyError where
  /-- The document cannot be read from its place. -/
  | unavailable (reason : String)
  /-- The document is not a policy. -/
  | malformed
  /-- A limit makes no sense. -/
  | invalidLimit (cause : LimitError)
  /-- An entity has a blank name. -/
  | emptyEntityName
  /-- Two entities share a look-up name. -/
  | duplicateEntity (name : String)
  /-- A projection names no configured entity. -/
  | unknownProjectionEntity (name : String)
deriving DecidableEq, Repr

namespace PolicyError

/-- The code of a policy error. -/
def code : PolicyError → String
  | unavailable _ => "AERO_POLICY_IO"
  | malformed => "AERO_POLICY_PARSE"
  | invalidLimit _ => "AERO_POLICY_INVALID_LIMIT"
  | emptyEntityName => "AERO_POLICY_EMPTY_ENTITY"
  | duplicateEntity _ => "AERO_POLICY_DUPLICATE_ENTITY"
  | unknownProjectionEntity _ => "AERO_POLICY_UNKNOWN_PROJECTION_ENTITY"

/-- The message of a policy error. -/
def message : PolicyError → String
  | unavailable reason => s!"Failed to read policy file: {reason}"
  | malformed => "Invalid policy JSON: not a policy document"
  | invalidLimit cause => s!"Invalid limit: {cause.message}"
  | emptyEntityName => "Entity configuration has an empty name"
  | duplicateEntity name => s!"Entity '{name}' is configured more than once"
  | unknownProjectionEntity name => s!"Projection for unknown entity '{name}'"

end PolicyError

/-- The rules that every query is checked against. -/
structure Policy where
  /-- The greatest depth of a filter tree. -/
  maxDepth : Nat := 5
  /-- The greatest number of nodes of a filter tree. -/
  maxNodes : Nat := 50
  /-- The greatest page size. -/
  maxPageSize : Nat := 200
  /-- The page size of a request that names none. -/
  defaultPageSize : Nat := 20
  /-- The time for answering a query, in milliseconds. -/
  timeoutMs : Nat := 30000
  /-- The entity policies by look-up name. -/
  entities : Dict EntityPolicy := []
  /-- The configured projections by look-up name: the source of each target member. -/
  projections : Dict (Dict String) := []
deriving DecidableEq, Inhabited

namespace Policy

/-- The name under which a requested entity is looked up. -/
def lookupKey (name : String) : String := entityKey (Text.trim name)

/-- The policy of an entity. -/
def entity? (p : Policy) (name : String) : Option EntityPolicy := Dict.get? p.entities (lookupKey name)

/-- The configured projection of an entity. -/
def projection? (p : Policy) (name : String) : Option (Dict String) :=
  Dict.get? p.projections (lookupKey name)

/-- Adds an entity policy, in place of one with the same look-up name. -/
def withEntity (p : Policy) (e : EntityPolicy) : Policy :=
  { p with entities := Dict.insert p.entities e.key e }

/-- The page size that a request gets: the wanted size, or else the default, moved into the range from one
to the greatest page size. -/
def effectivePageSize (p : Policy) (requested : Option Int) : Nat :=
  let wanted := requested.getD p.defaultPageSize
  (min (max wanted 1) (max p.maxPageSize 1 : Nat)).toNat

/-- Checks that the limits make sense; the first one that does not is reported. -/
def checkLimits (p : Policy) : Except LimitError Unit :=
  if p.maxDepth = 0 then .error .maxDepth
  else if p.maxNodes = 0 then .error .maxNodes
  else if p.maxPageSize = 0 then .error .maxPageSize
  else if p.defaultPageSize = 0 ∨ p.maxPageSize < p.defaultPageSize then
    .error (.defaultPageSize p.maxPageSize p.defaultPageSize)
  else if p.timeoutMs = 0 then .error .executionTimeout
  else .ok ()

/-! ## Reading -/

/-- A policy document: limits and lists that have not been checked against each other. -/
structure Document where
  /-- A policy that holds the limits only. -/
  limits : Policy := {}
  /-- The entity policies, in the order of the document. -/
  entities : List EntityPolicy := []
  /-- The projections by the entity names of the document. -/
  projections : Dict (Dict String) := []

/-- Reads a policy document. -/
def documentDecoder : Decoder Document :=
  Decoder.ofFields
    [.optional "maxDepth" (Decoder.natUpTo 0xFFFFFFFFFFFFFFFF) fun v d => { d with limits.maxDepth := v },
     .optional "maxNodes" (Decoder.natUpTo 0xFFFFFFFFFFFFFFFF) fun v d => { d with limits.maxNodes := v },
     .optional "maxPageSize" (Decoder.natUpTo 0xFFFFFFFF) fun v d => { d with limits.maxPageSize := v },
     .optional "defaultPageSize" (Decoder.natUpTo 0xFFFFFFFF) fun v d =>
       { d with limits.defaultPageSize := v },
     .optional "executionTimeoutSeconds" (Decoder.natUpTo 0xFFFFFFFFFFFFFFFF) fun v d =>
       { d with limits.timeoutMs := 1000 * v },
     .optional "entities" (Decoder.list EntityPolicy.decoder) fun v d => { d with entities := v },
     .optional "projections" (Decoder.dict (Decoder.dict Decoder.string)) fun v d =>
       { d with projections := v }]
    {}

/-- Adds an entity policy of a document. -/
def addEntity (p : Policy) (e : EntityPolicy) : Except PolicyError Policy :=
  if Text.isBlankText e.name then .error .emptyEntityName
  else if Dict.contains p.entities e.key then .error (.duplicateEntity e.name)
  else .ok (p.withEntity e)

/-- Adds a projection of a document. -/
def addProjection (p : Policy) (name : String) (members : Dict String) : Except PolicyError Policy :=
  if Dict.contains p.entities (lookupKey name) then
    .ok { p with projections := Dict.insert p.projections (lookupKey name) members }
  else .error (.unknownProjectionEntity name)

/-- The policy of a document: its limits are checked first, then the entities in the order of the
document, then the projections in the order of their names. -/
def ofDocument (d : Document) : Except PolicyError Policy := do
  match d.limits.checkLimits with
  | .error cause => throw (.invalidLimit cause)
  | .ok () => pure ()
  let p ← d.entities.foldlM addEntity d.limits
  d.projections.foldlM (fun p entry => addProjection p entry.1 entry.2) p

/-- The policy of a document's text. -/
def ofText (text : String) : Except PolicyError Policy :=
  match Decoder.run documentDecoder text with
  | .error _ => .error .malformed
  | .ok d => ofDocument d

end Policy

end GuardedQuery
