import GuardedQuery.Journal.Event
import GuardedQuery.Journal.Metrics
import GuardedQuery.Order
import GuardedQuery.Page.Basic
import GuardedQuery.Query.Error
import GuardedQuery.Step
import GuardedQuery.Storage.Basic

/-!
# Runs

Answering a query reads a store several times. In between the query may be cancelled, and it may meet
incidents that it survives: a cursor that cannot be used, or a total number that cannot be found out. A
run hands on what has come to pass, also when it ends in an error. It breaks down with a store that does, and with a
sort that gives up.

## Main definitions

* `Incident`: what a query survives.
* `Progress`: what has come to pass.
* `Run`: the steps of a query, with `Run.scan`, `Run.count`, `Run.sort` and `Run.page`.
-/

namespace GuardedQuery

/-- What a query survives. -/
inductive Incident where
  /-- The cursor could not be used, and the first page is answered. -/
  | cursorRejected (entity : String) (error : CursorError)
  /-- The total number could not be found out, and the answer lacks it. -/
  | countFailed (entity : String) (error : StorageError)
deriving DecidableEq, Repr

namespace Incident

/-- The line that tells of an incident. -/
def line : Incident → LogLine
  | cursorRejected entity e =>
    Event.cursorDecodeFailed.line [("entity", entity), ("code", e.code), ("error", e.message)]
  | countFailed entity e =>
    Event.countFailed.line [("code", e.code), ("entity", entity), ("error", e.message)]

/-- Counts an incident. -/
def counted (m : Metrics) : Incident → Metrics
  | cursorRejected .. => m.cursorFailed
  | countFailed .. => m.countFailed

end Incident

/-- What has come to pass in a run. -/
structure Progress where
  /-- Whether the query is cancelled. -/
  cancelled : Bool := false
  /-- The first unusual conduct of the store, or a breakdown of the run itself. -/
  conduct : Conduct := .prompt
  /-- The incidents, oldest first. -/
  incidents : List Incident := []

/-- The steps of a query. -/
abbrev Run (α : Type) : Type := Step Progress QueryError α

namespace Run

variable {α : Type}

/-- Ends the run if the query is cancelled. -/
def unlessCancelled : Run Unit := fun p => (if p.cancelled then .error .cancelled else .ok (), p)

/-- Notes an incident. -/
def note (i : Incident) : Run Unit := Step.modify fun p => { p with incidents := p.incidents ++ [i] }

/-- Takes a reply of the store. The run ends if the store broke down. -/
def receive (reply : Bool → Reply α) : Run (Except StorageError α) := fun p =>
  let r := reply p.cancelled
  let p :=
    { p with
      cancelled := r.cancelled
      conduct := if p.conduct = .prompt then r.conduct else p.conduct }
  (if r.conduct = .broken then .error .cancelled else .ok r.result, p)

/-- Reads the records of an entity that pass a predicate. -/
def scan {σ : Type} [Storage σ] (store : σ) (entity : String) (p : Predicate) : Run Scan := do
  let found ← receive (Storage.scan store entity p)
  Step.ofExcept (found.mapError QueryError.ofStorage)

/-- Finds out the number of records of an entity that pass a predicate. A failure is no more than an
incident. -/
def count {σ : Type} [Storage σ] (store : σ) (entity : String) (p : Predicate) : Run (Option Nat) := do
  match ← receive (Storage.count store entity p) with
  | .ok n => return some n
  | .error e => do
    note (.countFailed entity e)
    return none

/-- Sorts records. The run breaks down if the sort gives up. -/
def sort (keys : List SortKey) (rows : List Record) : Run (List Record) := fun p =>
  match SortKey.sort? keys rows with
  | some sorted => (.ok sorted, p)
  | none => (.error .cancelled, { p with conduct := .broken })

/-- The page of a request. An unusable cursor is no more than an incident. -/
def page (entity : String) (keys : List SortKey) (size : Nat) (cursor : Option String) (record : α → Record)
    (rows : List α) : Run (Page α) := do
  let (page, problem) := Page.ofRequest keys size cursor record rows
  match problem with
  | some e => do
    note (.cursorRejected entity e)
    return page
  | none => return page

end Run

end GuardedQuery
