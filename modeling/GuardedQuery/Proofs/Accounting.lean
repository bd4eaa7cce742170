import GuardedQuery.Proofs.Evaluation
import GuardedQuery.Proofs.Runs
import GuardedQuery.Proofs.UnwoundRows

/-!
# Every call is accounted for exactly once

An engine is called again and again, with queries of any kind. Between two calls others may change its store. If the
query is refused, answered, or left without an answer, the counters count it once, as what it was, and the audit trail
gains one record that tells of it. There is a fourth way: the sort gives up, and the run breaks down with it. Such a
query is counted as one that passed validation, and nothing else tells of it.

## Main definitions

* `Call`, `Served`: a call of an engine, and a call with its outcome.
* `Served.record`: the audit record that an outcome calls for.
* `Call.BreaksDown`, `Call.Orderly`: calls whose sort gives up, and calls with rows that the keys order.
* `Engine.serve`, `Engine.serveAll`: the outcomes of calls, and the engine after them.
* `Accounts`: counters and an audit trail account for calls.

## Main statements

* `Engine.accounts_serve`: a call is added to the account.
* `Engine.isBroken_serve_iff`: which calls break down.
* `Engine.accounts_serveAll`: an engine with fresh counters and an empty trail accounts for all of its calls that do not
  break down, and orderly calls never do.
-/

namespace GuardedQuery

/-- A call of an engine over a store in memory. -/
structure Call where
  /-- What an item of the answer is. -/
  {Item : Type}
  /-- The form of the answer. -/
  target : Target Item
  /-- The query. -/
  query : Query
  /-- Whether the query is cancelled. -/
  cancelled : Bool := false
  /-- The circumstances. -/
  circumstances : Circumstances := {}
  /-- What others have made of the store since the call before. -/
  meanwhile : Store → Store := id

/-- A call with its outcome. -/
structure Served extends Call where
  /-- The outcome. -/
  outcome : Except EngineError (Response Item)

namespace Served

/-- Whether the query was refused. -/
def isRejected (s : Served) : Bool :=
  match s.outcome with
  | .error (.rejected _) => true
  | _ => false

/-- Whether the query was refused for what is beyond the policy's permissions or limits. -/
def isBreach (s : Served) : Bool :=
  match s.outcome with
  | .error (.rejected vs) => vs.any Violation.isGuardrail
  | _ => false

/-- Whether the query was answered. -/
def isAnswered (s : Served) : Bool :=
  match s.outcome with
  | .ok _ => true
  | _ => false

/-- Whether the query has no answer. -/
def isFailed (s : Served) : Bool :=
  match s.outcome with
  | .error (.query _) => true
  | _ => false

/-- Whether the run broke down. -/
def isBroken (s : Served) : Bool :=
  match s.outcome with
  | .error .task => true
  | _ => false

theorem isBroken_iff {s : Served} : s.isBroken = true ↔ s.outcome = .error .task := by
  rw [isBroken]
  split <;> simp_all

/-- The number of items of the answer. -/
def returned (s : Served) : Nat :=
  match s.outcome with
  | .ok r => r.items.length
  | .error _ => 0

/-- The number of records that the answer has taken. -/
def examined (s : Served) : Nat :=
  match s.outcome with
  | .ok r => r.rowsExamined
  | .error _ => 0

/-- The audit record that an outcome calls for. It names the entity as the query does. -/
def record (s : Served) : AuditRecord :=
  let blank : AuditRecord :=
    { stamp := s.circumstances.stamp, action := .failed, outcome := .failed, entity := some s.query.entity }
  match s.outcome with
  | .ok r =>
    { blank with
      action := .executed, outcome := .success, rowsReturned := some r.items.length
      elapsedMicros := some s.circumstances.micros }
  | .error (.rejected vs) =>
    { blank with
      action := .blocked, outcome := .rejected, reasons := vs.map Violation.message
      securityEvent := vs.any Violation.isGuardrail }
  | .error error =>
    { blank with
      reasons := [error.message], errorCode := some error.code, elapsedMicros := some s.circumstances.micros }

/-- The audit records that a call leaves: one that its outcome calls for, unless the run broke down. -/
def records (s : Served) : List AuditRecord := if s.isBroken then [] else [s.record]

/-- Every call has one record, except for those that broke down. -/
theorem length_flatMap_records (served : List Served) :
    (served.flatMap records).length + served.countP isBroken = served.length := by
  induction served with
  | nil => rfl
  | cons s rest ih =>
    rw [List.flatMap_cons, List.length_append, List.countP_cons, List.length_cons, ← ih, records]
    cases s.isBroken <;> simp <;> omega

theorem flatMap_records_eq {served : List Served} (h : ∀ s ∈ served, s.isBroken = false) :
    served.flatMap records = served.map record := by
  rw [← List.flatMap_pure_eq_map]
  refine List.flatMap_congr fun s hs => ?_
  simp [records, h s hs]

end Served

/-! ## Counting one call -/

/-- Counters that count one more call, as what became of it. Counters wrap around at 64 bits. -/
structure Metrics.Counts (m : Metrics) (s : Served) (after : Metrics) : Prop where
  /-- The query was either refused, or answered, or left without an answer, or its run broke down. -/
  settled : s.isRejected.toNat + s.isAnswered.toNat + s.isFailed.toNat + s.isBroken.toNat = 1
  /-- A refused query is counted. -/
  blocked : after.queriesBlocked = m.queriesBlocked + UInt64.ofNat s.isRejected.toNat
  /-- A query that passed validation is counted. -/
  validated : after.queriesValidated =
    m.queriesValidated + UInt64.ofNat (s.isAnswered.toNat + s.isFailed.toNat + s.isBroken.toNat)
  /-- An answered query is counted. -/
  executed : after.queriesExecuted = m.queriesExecuted + UInt64.ofNat s.isAnswered.toNat
  /-- A query without an answer is counted. -/
  failed : after.queriesFailed = m.queriesFailed + UInt64.ofNat s.isFailed.toNat
  /-- A query that was refused for what is beyond permissions or limits is counted. -/
  breaches : after.guardrailViolations = m.guardrailViolations + UInt64.ofNat s.isBreach.toNat
  /-- The items of an answer are counted. -/
  returned : after.rowsReturned = m.rowsReturned + UInt64.ofNat s.returned
  /-- The records that an answer has taken are counted. -/
  examined : after.rowsExamined = m.rowsExamined + UInt64.ofNat s.examined

namespace Metrics

variable {m : Metrics} {s : Served}

/-- Incidents are counted apart from everything else. -/
theorem exists_foldl_counted (incidents : List Incident) (m : Metrics) :
    ∃ cursors counts, incidents.foldl Incident.counted m =
      { m with cursorDecodeFailures := cursors, countFailures := counts } := by
  induction incidents generalizing m with
  | nil => exact ⟨_, _, rfl⟩
  | cons incident rest ih =>
    rw [List.foldl_cons]
    cases incident with
    | cursorRejected entity error => exact ih m.cursorFailed
    | countFailed entity error => exact ih m.countFailed

theorem counts_blocked {vs : List Violation} (hs : s.outcome = .error (.rejected vs)) :
    m.Counts s (m.blocked (vs.any Violation.isGuardrail)) := by
  have hbreach : s.isBreach = vs.any Violation.isGuardrail := by simp [Served.isBreach, hs]
  constructor
  case breaches =>
    rw [hbreach]
    cases vs.any Violation.isGuardrail <;> rfl
  all_goals
    simp [blocked, Served.isRejected, Served.isAnswered, Served.isFailed, Served.isBroken, Served.returned,
      Served.examined, hs]

theorem counts_executed {r : Response s.Item} (hs : s.outcome = .ok r) (incidents : List Incident) (micros : Nat) :
    m.Counts s ((incidents.foldl Incident.counted m.validated).executed r.rowsExamined r.items.length micros) := by
  obtain ⟨cursors, counts, hincidents⟩ := exists_foldl_counted incidents m.validated
  rw [hincidents]
  constructor <;>
    simp [executed, validated, Served.isRejected, Served.isAnswered, Served.isFailed, Served.isBroken, Served.isBreach,
      Served.returned, Served.examined, hs]

theorem counts_failed {error : QueryError} (hs : s.outcome = .error (.query error)) (incidents : List Incident)
    (micros : Nat) : m.Counts s ((incidents.foldl Incident.counted m.validated).failed micros) := by
  obtain ⟨cursors, counts, hincidents⟩ := exists_foldl_counted incidents m.validated
  rw [hincidents]
  constructor <;>
    simp [failed, validated, Served.isRejected, Served.isAnswered, Served.isFailed, Served.isBroken, Served.isBreach,
      Served.returned, Served.examined, hs]

/-- A query whose run breaks down is counted as validated, and not counted again. -/
theorem counts_broken (hs : s.outcome = .error .task) (incidents : List Incident) :
    m.Counts s (incidents.foldl Incident.counted m.validated) := by
  obtain ⟨cursors, counts, hincidents⟩ := exists_foldl_counted incidents m.validated
  rw [hincidents]
  constructor <;>
    simp [validated, Served.isRejected, Served.isAnswered, Served.isFailed, Served.isBroken, Served.isBreach,
      Served.returned, Served.examined, hs]

end Metrics

/-! ## Runs that break down -/

/-- A reply that comes at once and cancels nothing leaves a run as it is. -/
theorem Run.keeps_receive {α : Type} {I : Progress → Prop} {reply : Bool → Reply α}
    (hcancelled : ∀ c, (reply c).cancelled = c) (hprompt : ∀ c, (reply c).conduct = .prompt) :
    Step.Keeps I (Run.receive reply) := by
  intro p hp
  have hsame : (Run.receive reply p).2 = p := by
    obtain ⟨cancelled, conduct, incidents⟩ := p
    cases conduct <;> simp [Run.receive, hcancelled, hprompt]
  exact ⟨hsame.symm ▸ hp, fun _ _ => trivial⟩

/-- Reading a store in memory keeps whatever does not depend on incidents. -/
theorem Store.steady (s : Store) {I : Progress → Prop}
    (hnote : ∀ p incidents, I p → I { p with incidents := p.incidents ++ incidents }) : Run.Steady s I where
  scan _ _ := Run.keeps_receive (fun _ => rfl) fun _ => rfl
  count _ _ := Run.keeps_receive (fun _ => rfl) fun _ => rfl
  note i := fun p hp => ⟨hnote p [i] hp, fun _ _ => trivial⟩

/-- A run over a store in memory may break down in its sort, but never waits for the store. -/
theorem Query.conduct_answer_ne_stalled {α : Type} (q : Query) (policy : Policy) (s : Store) (registry : Registry)
    (target : Target α) (cancelled : Bool) :
    (q.answer policy s registry target { cancelled }).2.conduct ≠ .stalled := by
  have hsteady : Run.Steady s fun p => p.conduct ≠ .stalled := s.steady fun _ _ hp => hp
  have hsort : ∀ keys rows, Step.Keeps (fun p : Progress => p.conduct ≠ .stalled) (Run.sort keys rows) := by
    intro keys rows p hp
    rw [Run.sort]
    cases SortKey.sort? keys rows with
    | none => exact ⟨by simp, fun _ _ => trivial⟩
    | some sorted => exact ⟨hp, fun _ _ => trivial⟩
  exact (q.meets_answer policy registry target hsteady hsort { cancelled } (by simp)).1

/-- A cancelled run over a store in memory ends before its sort, so it does not break down. -/
theorem Query.conduct_answer_of_cancelled {α : Type} (q : Query) (policy : Policy) (s : Store) (registry : Registry)
    (target : Target α) : (q.answer policy s registry target { cancelled := true }).2.conduct = .prompt := by
  have hsteady : Run.Steady s fun p => p.cancelled = true ∧ p.conduct = .prompt := s.steady fun _ _ hp => hp
  exact (q.keeps_answer_of_cancelled policy registry target hsteady (fun _ hp => hp.1) { cancelled := true }
    ⟨rfl, rfl⟩).1.2

namespace Call

/-- The policy accepts the query, nobody cancels it, and the sort of its rows gives up. -/
def BreaksDown (call : Call) (policy : Policy) (registry : Registry) (s : Store) : Prop :=
  policy.accepts call.query = true ∧ call.cancelled = false ∧ call.query.Upset policy s registry call.target.label

/-- The keys of the query order the rows that it sorts, or there are only a few of these. -/
def Orderly (call : Call) (policy : Policy) (registry : Registry) (s : Store) : Prop :=
  ∀ st, call.query.stock policy s registry call.target.label = .ok st →
    st.rows.length ≤ 20 ∨ SortKey.Orders st.keys (· ∈ st.rows)

variable {call : Call} {policy : Policy} {registry : Registry} {s : Store}

/-- An orderly call does not break down. -/
theorem Orderly.not_breaksDown (h : call.Orderly policy registry s) : ¬call.BreaksDown policy registry s := by
  rintro ⟨-, -, st, hst, hsort⟩
  rcases h st hst with hfew | horders
  · obtain ⟨sorted, hsorted⟩ := AdaptiveSort.exists_sort_of_length_le
      (fun a b => SortKey.compareRecords st.keys (id a) (id b) == .lt) hfew
    exact Option.some_ne_none sorted (hsorted.symm.trans hsort)
  · exact Option.some_ne_none _ ((SortKey.sort?_eq_some horders).symm.trans hsort)

/-- A call that sorts only a few rows is orderly. -/
theorem orderly_of_few (h : ∀ st ∈ (call.query.stock policy s registry call.target.label).toOption,
    st.rows.length ≤ 20) : call.Orderly policy registry s := by
  intro st hst
  rw [hst] at h
  exact .inl (h st rfl)

/-- The stores that calls find, one after the other. -/
def stores (s : Store) : List Call → List Store
  | [] => []
  | call :: rest => call.meanwhile s :: stores (call.meanwhile s) rest

end Call

/-! ## Noting one call -/

namespace Engine

/-- The outcome of a call, and the engine after it. -/
def serve (e : Engine Store) (call : Call) : Served × Engine Store :=
  let reply := { e with store := call.meanwhile e.store }.execute call.target call.query call.cancelled
    call.circumstances
  ({ call with outcome := reply.1 }, reply.2)

/-- An engine has noted one more call: it has counted the call, and added its record to the trail unless the run broke
down. -/
structure Notes (e : Engine Store) (s : Served) (after : Engine Store) : Prop where
  /-- The call is counted. -/
  counts : e.metrics.Counts s after.metrics
  /-- The call is recorded. -/
  audit : after.audit = { e.audit with records := e.audit.records ++ s.records }

/-- An engine that has counted a call notes it by keeping its record. -/
theorem notes_keep {e counted : Engine Store} {s : Served} {r : AuditRecord} (hwritable : e.audit.fault = none)
    (haudit : counted.audit = e.audit) (hcounts : e.metrics.Counts s counted.metrics) (hrecords : s.records = [r]) :
    e.Notes s (counted.keep r) := by
  have hkept : counted.keep r =
      { counted with audit := { e.audit with records := e.audit.records ++ s.records } } := by
    simp [keep, AuditTrail.append, haudit, hwritable, hrecords]
  rw [hkept]
  exact ⟨hcounts, rfl⟩

/-- A query that the policy accepts is counted as validated. It is concluded with the outcome of its run, unless the run
breaks down. -/
theorem execute_of_accepts {α : Type} {e : Engine Store} {q : Query} (haccepts : e.policy.accepts q = true)
    (target : Target α) (cancelled : Bool) (c : Circumstances) {outcome : Except QueryError (Response α)} {p : Progress}
    (hrun : q.answer e.policy e.store e.registry target { cancelled } = (outcome, p)) :
    let told : Engine Store := { e.tell .queryReceived [("entity", q.entity)] with metrics := e.metrics.validated }
    p.conduct = .prompt ∧ e.execute target q cancelled c = (told.absorb p.incidents).conclude q outcome c ∨
      p.conduct = .broken ∧ e.execute target q cancelled c = (.error .task, told.absorb p.incidents) := by
  intro told
  have hnoted : run told target q cancelled = (outcome, p) := hrun
  have hexecute : e.execute target q cancelled c = told.finish q outcome p c := by
    simp only [execute, accept_eq_of_accepts haccepts, told] at hnoted ⊢
    rw [hnoted]
  have hconduct := q.conduct_answer_ne_stalled e.policy e.store e.registry target cancelled
  rw [hrun] at hconduct
  rw [hexecute, finish]
  cases hp : p.conduct with
  | prompt => exact .inl ⟨rfl, rfl⟩
  | broken => exact .inr ⟨rfl, rfl⟩
  | stalled => exact absurd hp hconduct

/-- **An engine notes every call**, whatever becomes of it. -/
theorem notes_serve {e : Engine Store} (hwritable : e.audit.fault = none) (call : Call) :
    e.Notes (e.serve call).1 (e.serve call).2 := by
  set current : Engine Store := { e with store := call.meanwhile e.store } with hcurrent
  rw [serve, ← hcurrent]
  cases haccepts : current.policy.accepts call.query with
  | false =>
    rw [execute_of_not_accepts haccepts]
    exact notes_keep hwritable rfl (Metrics.counts_blocked rfl) rfl
  | true =>
    cases hrun : call.query.answer current.policy current.store current.registry call.target
        { cancelled := call.cancelled } with
    | mk outcome p =>
      rcases execute_of_accepts haccepts call.target call.cancelled call.circumstances hrun with
        ⟨-, hexecute⟩ | ⟨-, hexecute⟩
      · rw [hexecute]
        cases outcome with
        | ok r => exact notes_keep hwritable rfl (Metrics.counts_executed rfl p.incidents _) rfl
        | error error => exact notes_keep hwritable rfl (Metrics.counts_failed rfl p.incidents _) rfl
      · rw [hexecute]
        exact ⟨Metrics.counts_broken rfl p.incidents, by simp [Served.records, Served.isBroken, absorb, tell, hcurrent]⟩

/-- **A call breaks down** if and only if the sort of its rows gives up. -/
theorem isBroken_serve_iff (e : Engine Store) (call : Call) :
    (e.serve call).1.isBroken = true ↔ call.BreaksDown e.policy e.registry (call.meanwhile e.store) := by
  set current : Engine Store := { e with store := call.meanwhile e.store } with hcurrent
  rw [Served.isBroken_iff, serve, ← hcurrent, Call.BreaksDown]
  dsimp only
  cases hcancelled : call.cancelled with
  | false => simp [execute_eq_task_iff, hcurrent]
  | true =>
    refine ⟨fun htask => ?_, fun h => by simp at h⟩
    cases haccepts : current.policy.accepts call.query with
    | false =>
      rw [execute_of_not_accepts haccepts] at htask
      cases htask
    | true =>
      -- A cancelled run is concluded, and a conclusion is no breakdown.
      have hprompt := call.query.conduct_answer_of_cancelled current.policy current.store current.registry call.target
      cases hrun : call.query.answer current.policy current.store current.registry call.target
          { cancelled := true } with
      | mk outcome p =>
        rw [hrun] at hprompt
        rcases execute_of_accepts haccepts call.target true call.circumstances hrun with
          ⟨-, hexecute⟩ | ⟨hconduct, -⟩
        · rw [hexecute] at htask
          cases outcome <;> cases htask
        · exact absurd (hprompt.symm.trans hconduct) (by decide)

end Engine

/-! ## Accounting for all calls -/

/-- Counters and an audit trail account for calls: every call that did not break down is counted once, as what became
of it, and has one record, which tells of it. -/
structure Accounts (m : Metrics) (trail : AuditTrail) (served : List Served) : Prop where
  /-- Every query was either refused, or answered, or left without an answer, or its run broke down. -/
  settled : served.countP Served.isRejected + served.countP Served.isAnswered + served.countP Served.isFailed +
    served.countP Served.isBroken = served.length
  /-- Refused queries are counted. -/
  blocked : m.queriesBlocked = UInt64.ofNat (served.countP Served.isRejected)
  /-- Queries that passed validation are counted. -/
  validated : m.queriesValidated = UInt64.ofNat
    (served.countP Served.isAnswered + served.countP Served.isFailed + served.countP Served.isBroken)
  /-- Answered queries are counted. -/
  executed : m.queriesExecuted = UInt64.ofNat (served.countP Served.isAnswered)
  /-- Queries without an answer are counted. -/
  failed : m.queriesFailed = UInt64.ofNat (served.countP Served.isFailed)
  /-- Queries that were refused for what is beyond permissions or limits are counted. -/
  breaches : m.guardrailViolations = UInt64.ofNat (served.countP Served.isBreach)
  /-- The items of all answers are counted. -/
  returned : m.rowsReturned = UInt64.ofNat (served.map Served.returned).sum
  /-- The records that all answers have taken are counted. -/
  examined : m.rowsExamined = UInt64.ofNat (served.map Served.examined).sum
  /-- The trail holds one record for each call that did not break down, in order. -/
  records : trail.records = served.flatMap Served.records
  /-- The trail can be written. -/
  writable : trail.fault = none

namespace Accounts

variable {m after : Metrics} {trail : AuditTrail} {served : List Served} {s : Served}

/-- Fresh counters and an empty trail account for no call. -/
theorem nil : Accounts {} {} [] := by
  constructor <;> rfl

theorem countP_concat (p : Served → Bool) (served : List Served) (s : Served) :
    (served ++ [s]).countP p = served.countP p + (p s).toNat := by
  cases hp : p s <;> simp [hp]

theorem sum_concat (f : Served → Nat) (served : List Served) (s : Served) :
    ((served ++ [s]).map f).sum = (served.map f).sum + f s := by
  simp

/-- One more call is added to the account. -/
theorem concat (h : Accounts m trail served) (hs : m.Counts s after) :
    Accounts after { trail with records := trail.records ++ s.records } (served ++ [s]) where
  settled := by
    have hone := hs.settled
    have hall := h.settled
    simp only [countP_concat, List.length_append, List.length_singleton]
    omega
  blocked := by rw [hs.blocked, h.blocked, countP_concat, UInt64.ofNat_add]
  validated := by
    rw [hs.validated, h.validated, countP_concat, countP_concat, countP_concat, ← UInt64.ofNat_add]
    congr 1
    omega
  executed := by rw [hs.executed, h.executed, countP_concat, UInt64.ofNat_add]
  failed := by rw [hs.failed, h.failed, countP_concat, UInt64.ofNat_add]
  breaches := by rw [hs.breaches, h.breaches, countP_concat, UInt64.ofNat_add]
  returned := by rw [hs.returned, h.returned, sum_concat, UInt64.ofNat_add]
  examined := by rw [hs.examined, h.examined, sum_concat, UInt64.ofNat_add]
  records := by simp [h.records]
  writable := h.writable

end Accounts

namespace Engine

/-- The outcomes of calls, one after the other, and the engine after them. -/
def serveAll (e : Engine Store) : List Call → List Served × Engine Store
  | [] => ([], e)
  | call :: rest =>
    let (first, e) := e.serve call
    let (others, e) := e.serveAll rest
    (first :: others, e)

/-- Of some calls, the first one is served, and then the others. -/
theorem serveAll_cons {e after : Engine Store} {call : Call} {rest : List Call} {served : List Served}
    (h : e.serveAll (call :: rest) = (served, after)) :
    ∃ others, (e.serve call).2.serveAll rest = (others, after) ∧ served = (e.serve call).1 :: others := by
  cases hrest : (e.serve call).2.serveAll rest with
  | mk others last =>
    simp only [serveAll, hrest] at h
    obtain ⟨rfl, rfl⟩ := Prod.mk.inj h
    exact ⟨others, rfl, rfl⟩

/-- **One more call is added to the account** of an engine. -/
theorem accounts_serve {e : Engine Store} {earlier : List Served} (h : Accounts e.metrics e.audit earlier)
    (call : Call) : Accounts (e.serve call).2.metrics (e.serve call).2.audit (earlier ++ [(e.serve call).1]) := by
  obtain ⟨hcounts, haudit⟩ := notes_serve h.writable call
  rw [haudit]
  exact h.concat hcounts

/-- Serving a call changes the store as others do, and neither the policy nor the bindings. -/
theorem parts_serve (e : Engine Store) (call : Call) :
    (e.serve call).2.policy = e.policy ∧ (e.serve call).2.store = call.meanwhile e.store ∧
      (e.serve call).2.registry = e.registry := by
  obtain ⟨hpolicy, hstore, hregistry⟩ := sameParts_execute { e with store := call.meanwhile e.store } call.target
    call.query call.cancelled call.circumstances
  exact ⟨hpolicy, hstore, hregistry⟩

/-- Of some calls, one after the other, those break down whose sort gives up. -/
theorem isBroken_serveAll_iff {e after : Engine Store} {served : List Served} {calls : List Call}
    (hserved : e.serveAll calls = (served, after)) :
    List.Forall₂ (fun s store => s.isBroken = true ↔ s.BreaksDown e.policy e.registry store) served
      (Call.stores e.store calls) := by
  induction calls generalizing e served with
  | nil =>
    obtain ⟨rfl, rfl⟩ := Prod.mk.inj hserved
    exact .nil
  | cons call rest ih =>
    obtain ⟨others, hrest, rfl⟩ := serveAll_cons hserved
    obtain ⟨hpolicy, hstore, hregistry⟩ := parts_serve e call
    have hothers := ih hrest
    rw [hpolicy, hstore, hregistry] at hothers
    exact .cons (isBroken_serve_iff e call) hothers

/-- Calls are added to the account of an engine in order. -/
theorem accounts_append {e after : Engine Store} {earlier served : List Served} {calls : List Call}
    (h : Accounts e.metrics e.audit earlier) (hserved : e.serveAll calls = (served, after)) :
    served.map Served.toCall = calls ∧ Accounts after.metrics after.audit (earlier ++ served) := by
  induction calls generalizing e earlier served with
  | nil =>
    obtain ⟨rfl, rfl⟩ := Prod.mk.inj hserved
    exact ⟨rfl, by rwa [List.append_nil]⟩
  | cons call rest ih =>
    obtain ⟨others, hrest, rfl⟩ := serveAll_cons hserved
    obtain ⟨hcalls, haccounts⟩ := ih (accounts_serve h call) hrest
    rw [List.map_cons, hcalls]
    exact ⟨rfl, by simpa using haccounts⟩

/-- Orderly calls do not break down. -/
theorem isBroken_eq_false_of_orderly {e after : Engine Store} {served : List Served} {calls : List Call}
    (hserved : e.serveAll calls = (served, after)) (hcalls : served.map Served.toCall = calls)
    (horderly : List.Forall₂ (fun call store => call.Orderly e.policy e.registry store) calls
      (Call.stores e.store calls)) : ∀ s ∈ served, s.isBroken = false := by
  have hbroken := isBroken_serveAll_iff hserved
  rw [← hcalls, List.forall₂_map_left_iff, hcalls] at horderly
  intro s hs
  obtain ⟨i, hi, rfl⟩ := List.getElem_of_mem hs
  have hstore : i < (Call.stores e.store calls).length := hbroken.length_eq ▸ hi
  have hiff := hbroken.get hi hstore
  have hcall := horderly.get hi hstore
  exact Bool.eq_false_iff.mpr fun h => hcall.not_breaksDown (hiff.mp h)

/-- **Every call is accounted for exactly once, unless its sort gives up.** An engine starts with fresh counters and an
empty audit trail. After any calls, the counters are the numbers of refused, answered and unanswered queries, and the
trail holds one record for each of these, in order, which tells of its outcome. A call breaks down if and only if its
sort gives up; it is counted as validated, but neither as executed nor as failed, and has no record. If the rows of all
calls are ordered by their keys, or are only a few, no call breaks down, and nothing is missing. -/
theorem accounts_serveAll {e after : Engine Store} {served : List Served} {calls : List Call}
    (hmetrics : e.metrics = {}) (haudit : e.audit = {}) (hserved : e.serveAll calls = (served, after)) :
    served.map Served.toCall = calls ∧ Accounts after.metrics after.audit served ∧
      List.Forall₂ (fun s store => s.isBroken = true ↔ s.BreaksDown e.policy e.registry store) served
        (Call.stores e.store calls) ∧
      after.metrics.queriesBlocked + after.metrics.queriesValidated = UInt64.ofNat calls.length ∧
      (after.audit.records.length = calls.length ↔ ∀ s ∈ served, s.isBroken = false) ∧
      (List.Forall₂ (fun call store => call.Orderly e.policy e.registry store) calls (Call.stores e.store calls) →
        after.metrics.queriesValidated = after.metrics.queriesExecuted + after.metrics.queriesFailed ∧
        after.audit.records = served.map Served.record ∧ after.audit.records.length = calls.length) := by
  have hfresh : Accounts e.metrics e.audit [] := by
    rw [hmetrics, haudit]
    exact .nil
  obtain ⟨hcalls, haccounts⟩ := accounts_append hfresh hserved
  rw [List.nil_append] at haccounts
  have hlength : served.length = calls.length := by rw [← hcalls, List.length_map]
  have hrecords := Served.length_flatMap_records served
  rw [← haccounts.records] at hrecords
  refine ⟨hcalls, haccounts, isBroken_serveAll_iff hserved, ?_, ?_, fun horderly => ?_⟩
  · rw [haccounts.blocked, haccounts.validated, ← UInt64.ofNat_add, ← hlength, ← haccounts.settled]
    simp only [Nat.add_assoc]
  · rw [← hlength, ← hrecords, Nat.left_eq_add, List.countP_eq_zero]
    simp
  · have hwhole := isBroken_eq_false_of_orderly hserved hcalls horderly
    have hnone : served.countP Served.isBroken = 0 := List.countP_eq_zero.mpr (by simpa using hwhole)
    refine ⟨?_, ?_, ?_⟩
    · rw [haccounts.validated, haccounts.executed, haccounts.failed, hnone, Nat.add_zero, UInt64.ofNat_add]
    · rw [haccounts.records, Served.flatMap_records_eq hwhole]
    · rw [← hlength, ← hrecords, hnone, Nat.add_zero]

/-! ## Calls for notes and for samples -/

/-- Three calls: labels of notes, a field that nobody may select, and a form of answer that is not registered. -/
def noteCalls : List Call :=
  [{ target := .value, query := labelQuery },
   { target := .value, query := { labelQuery with select := ["Secret"] } },
   { target := { Target.value with label := "<text>" }, query := labelQuery }]

/-- The reading of a sample. The readings of three samples in a row stand in a circle. -/
def reading (id : ℕ) : Value :=
  match id % 3 with
  | 0 => .int 9007199254740993
  | 1 => .int 9007199254740992
  | _ => .float (Binary64.ofInt 9007199254740992)

/-- Samples with large readings. -/
def sampleEntities : List EntityData :=
  [{ schema := { name := "Sample", fields := [("Id", .scalar .int), ("Reading", .scalar .float)] }
     records := (List.range' 1 21).map fun id => [("Id", .int (id : ℕ)), ("Reading", reading id)] }]

/-- An engine that shows samples. -/
def sampleEngine : Engine Store where
  policy := { entities := [("sample", { name := "Sample", selectable := ["Id", "Reading"], sortable := ["Reading"] })] }
  store := .ofEntities sampleEntities
  registry := { entries := [{ entity := "sample", target := "<value>", binding := .ofFields ["Id", "Reading"] }] }

/-- Two calls: samples by their readings, and samples by their identities. -/
def sampleCalls : List Call :=
  [{ target := .value, query := { entity := "Sample", sort := [{ field := "Reading" }] } },
   { target := .value, query := { entity := "Sample" } }]

/-- Of the calls for notes, one is answered, one refused and one left without an answer, and all are accounted for. Of
the calls for samples, both are counted as validated, but one breaks down, and only the other one is told of. -/
theorem accounts_serveAll_notes_samples :
    (∃ served after, noteEngine.serveAll noteCalls = (served, after) ∧ after.metrics.queriesExecuted = 1 ∧
      after.metrics.queriesBlocked = 1 ∧ after.metrics.queriesFailed = 1 ∧ after.metrics.queriesValidated = 2 ∧
      after.metrics.rowsReturned = 2 ∧ after.audit.records.length = 3) ∧
    ∃ served after, sampleEngine.serveAll sampleCalls = (served, after) ∧ after.metrics.queriesExecuted = 1 ∧
      after.metrics.queriesBlocked = 0 ∧ after.metrics.queriesFailed = 0 ∧ after.metrics.queriesValidated = 2 ∧
      after.metrics.rowsReturned = 20 ∧ after.audit.records.length = 1 := by
  constructor
  · have hexecuted : (noteEngine.serveAll noteCalls).1.countP Served.isAnswered = 1 := by decide +kernel
    have hblocked : (noteEngine.serveAll noteCalls).1.countP Served.isRejected = 1 := by decide +kernel
    have hfailed : (noteEngine.serveAll noteCalls).1.countP Served.isFailed = 1 := by decide +kernel
    have hreturned : ((noteEngine.serveAll noteCalls).1.map Served.returned).sum = 2 := by decide +kernel
    have horderly : List.Forall₂ (fun call store => call.Orderly noteEngine.policy noteEngine.registry store) noteCalls
        (Call.stores noteEngine.store noteCalls) :=
      .cons (Call.orderly_of_few (by decide +kernel)) <| .cons (Call.orderly_of_few (by decide +kernel)) <|
        .cons (Call.orderly_of_few (by decide +kernel)) .nil
    cases hserved : noteEngine.serveAll noteCalls with
    | mk served after =>
      rw [hserved] at hexecuted hblocked hfailed hreturned
      obtain ⟨_, haccounts, _, _, _, hwhole⟩ := accounts_serveAll rfl rfl hserved
      obtain ⟨hvalidated, _, hlength⟩ := hwhole horderly
      have hone : after.metrics.queriesExecuted = 1 := by
        rw [haccounts.executed, hexecuted]
        rfl
      have hother : after.metrics.queriesFailed = 1 := by
        rw [haccounts.failed, hfailed]
        rfl
      refine ⟨served, after, rfl, hone, ?_, hother, ?_, ?_, hlength⟩
      · rw [haccounts.blocked, hblocked]
        rfl
      · rw [hvalidated, hone, hother]
        rfl
      · rw [haccounts.returned, hreturned]
        rfl
  · have hexecuted : (sampleEngine.serveAll sampleCalls).1.countP Served.isAnswered = 1 := by decide +kernel
    have hblocked : (sampleEngine.serveAll sampleCalls).1.countP Served.isRejected = 0 := by decide +kernel
    have hfailed : (sampleEngine.serveAll sampleCalls).1.countP Served.isFailed = 0 := by decide +kernel
    have hbroken : (sampleEngine.serveAll sampleCalls).1.countP Served.isBroken = 1 := by decide +kernel
    have hreturned : ((sampleEngine.serveAll sampleCalls).1.map Served.returned).sum = 20 := by decide +kernel
    cases hserved : sampleEngine.serveAll sampleCalls with
    | mk served after =>
      rw [hserved] at hexecuted hblocked hfailed hbroken hreturned
      obtain ⟨hcalls, haccounts, _, _, _, _⟩ := accounts_serveAll rfl rfl hserved
      have hlength : served.length = 2 := by simpa [sampleCalls] using congrArg List.length hcalls
      have hrecords := Served.length_flatMap_records served
      rw [← haccounts.records, hbroken, hlength] at hrecords
      refine ⟨served, after, rfl, ?_, ?_, ?_, ?_, ?_, by omega⟩
      · rw [haccounts.executed, hexecuted]
        rfl
      · rw [haccounts.blocked, hblocked]
        rfl
      · rw [haccounts.failed, hfailed]
        rfl
      · rw [haccounts.validated, hexecuted, hfailed, hbroken]
        rfl
      · rw [haccounts.returned, hreturned]
        rfl

end Engine

end GuardedQuery
