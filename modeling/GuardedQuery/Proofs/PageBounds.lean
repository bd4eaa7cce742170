import GuardedQuery.Proofs.Runs
import GuardedQuery.Proofs.UnwoundRows

/-!
# No response is larger than a page

Joins and unwound collections make rows without bound, but what an engine hands on is always one page: it has the size
that the query asks for, or else the size that the policy gives to queries that do not ask, and never more items.
That bound holds for every store, also one that fails or breaks down, for grouped and for ungrouped queries, and
for every text that a client sends as a cursor.

## Main definitions

* `Policy.SoundLimits`: the limits of a policy that passes its check.
* `Policy.GivesSize`: the page size that a query gets from a policy.

## Main statements

* `Policy.givesSize_of_accepts`: an accepted query gets the size it asks for, or else the default.
* `Engine.response_within_page`: every response is a page of that size.
-/

namespace GuardedQuery

namespace Policy

/-- The limits of a policy make sense. -/
structure SoundLimits (p : Policy) : Prop where
  /-- Some filter is shallow enough. -/
  maxDepth_pos : 0 < p.maxDepth
  /-- Some filter is small enough. -/
  maxNodes_pos : 0 < p.maxNodes
  /-- A page can have rows. -/
  maxPageSize_pos : 0 < p.maxPageSize
  /-- A query that does not ask for a size gets rows. -/
  defaultPageSize_pos : 0 < p.defaultPageSize
  /-- Nor does it get more rows than one that asks. -/
  defaultPageSize_le : p.defaultPageSize ≤ p.maxPageSize
  /-- There is time to answer. -/
  timeoutMs_pos : 0 < p.timeoutMs

/-- The check of limits passes exactly the policies whose limits make sense. -/
theorem checkLimits_eq_ok_iff {p : Policy} : p.checkLimits = .ok () ↔ p.SoundLimits := by
  constructor
  · intro h
    unfold checkLimits at h
    split_ifs at h with hdepth hnodes hmax hdefault htimeout
    constructor <;> omega
  · rintro ⟨hdepth, hnodes, hmax, hpos, hle, htimeout⟩
    have hdefault : ¬(p.defaultPageSize = 0 ∨ p.maxPageSize < p.defaultPageSize) := by omega
    simp [checkLimits, hdepth.ne', hnodes.ne', hmax.ne', hdefault, htimeout.ne']

/-- The page size that a query gets: the size it asks for, or else the default, and in any case one from one to the
greatest page size. -/
structure GivesSize (p : Policy) (q : Query) (size : Nat) : Prop where
  /-- A page can have rows. -/
  pos : 1 ≤ size
  /-- No page is larger than the greatest page size. -/
  le : size ≤ p.maxPageSize
  /-- A query that asks for a size gets it. -/
  requested : ∀ n, q.page.bind PageRequest.size = some n → (size : Int) = n
  /-- Other queries get the default. -/
  unasked : q.page.bind PageRequest.size = none → size = p.defaultPageSize

/-- A size in range is given as it is. -/
theorem effectivePageSize_of_admitted {p : Policy} {n : Int} (hpos : 1 ≤ n) (hle : n ≤ p.maxPageSize) :
    (p.effectivePageSize (some n) : Int) = n := by
  simp only [effectivePageSize, Option.getD_some]
  omega

theorem SoundLimits.effectivePageSize_none {p : Policy} (h : p.SoundLimits) :
    p.effectivePageSize none = p.defaultPageSize := by
  have hpos := h.defaultPageSize_pos
  have hle := h.defaultPageSize_le
  simp only [effectivePageSize, Option.getD_none]
  omega

theorem SoundLimits.effectivePageSize_le {p : Policy} (h : p.SoundLimits) (requested : Option Int) :
    p.effectivePageSize requested ≤ p.maxPageSize := by
  have hpos := h.maxPageSize_pos
  simp only [effectivePageSize]
  omega

/-- An accepted query gets the size it asks for, or else the default. -/
theorem givesSize_of_accepts {p : Policy} (h : p.SoundLimits) {q : Query} (haccepts : p.accepts q = true) :
    p.GivesSize q (p.effectivePageSize (q.page.bind PageRequest.size)) := by
  obtain ⟨_, _, _, hadmissible⟩ := admissibleOn_of_accepts haccepts
  refine ⟨p.effectivePageSize_pos _, h.effectivePageSize_le _, fun n hn => ?_, fun hnone => ?_⟩
  · obtain ⟨hpos, hle⟩ := hadmissible.page n hn
    rw [hn]
    exact effectivePageSize_of_admitted hpos hle
  · rw [hnone]
    exact h.effectivePageSize_none

end Policy

/-- Whatever a store does, it keeps what every progress has. -/
theorem Run.steady_true {σ : Type} [Storage σ] (store : σ) : Run.Steady store fun _ => True where
  scan _ _ := fun _ _ => ⟨trivial, fun _ _ => trivial⟩
  count _ _ := fun _ _ => ⟨trivial, fun _ _ => trivial⟩
  note _ := fun _ _ => ⟨trivial, fun _ _ => trivial⟩

namespace Engine

variable {σ α : Type} {e : Engine σ} {target : Target α} {q : Query} {c : Circumstances} {r : Response α}

/-- An engine only hands on responses that it was given. -/
theorem eq_of_finish_eq_ok {outcome : Except QueryError (Response α)} {p : Progress}
    (h : (e.finish q outcome p c).1 = .ok r) : outcome = .ok r := by
  have hconclude : ((e.absorb p.incidents).conclude q outcome c).1 = .ok r → outcome = .ok r := by
    intro hok
    cases outcome with
    | ok r' => exact congrArg Except.ok (Except.ok.inj hok)
    | error error => cases hok
  rw [finish] at h
  split at h
  · cases h
  · exact hconclude h

/-- A query with a response is accepted, and a run of it comes to the response. -/
theorem answer_of_execute_eq_ok [Storage σ] {cancelled : Bool} (h : (e.execute target q cancelled c).1 = .ok r) :
    e.policy.accepts q = true ∧ (q.answer e.policy e.store e.registry target { cancelled }).1 = .ok r := by
  cases haccepts : e.policy.accepts q with
  | false =>
    simp [execute_of_not_accepts haccepts] at h
  | true =>
    obtain ⟨noted, hnoted, hpolicy, hstore, hregistry⟩ := accept_of_accepts haccepts c.stamp
    simp only [execute, hnoted, run, hpolicy, hstore, hregistry] at h
    exact ⟨rfl, eq_of_finish_eq_ok h⟩

/-- **Every response is a page.** It has the size that the query asks for, or else the default; that size is in range,
and the items are no more than that. If a cursor to a next page comes with it, then the page is full. -/
theorem response_within_page [Storage σ] {cancelled : Bool} (hlimits : e.policy.checkLimits = .ok ())
    (h : (e.execute target q cancelled c).1 = .ok r) :
    e.policy.GivesSize q r.size ∧ r.items.length ≤ r.size ∧
      (r.nextCursor.isSome = true → r.items.length = r.size) := by
  obtain ⟨haccepts, hanswer⟩ := answer_of_execute_eq_ok h
  have hsort : ∀ keys rows, Step.Keeps (fun _ => True) (Run.sort keys rows) :=
    fun _ _ _ _ => ⟨trivial, fun _ _ => trivial⟩
  have hmeets := q.meets_answer e.policy e.registry target (Run.steady_true e.store) hsort
  have hfits := (hmeets { cancelled } trivial).2 r hanswer
  rw [hfits.size_eq]
  exact ⟨Policy.givesSize_of_accepts (Policy.checkLimits_eq_ok_iff.mp hlimits) haccepts, hfits.length_le, hfits.full⟩

/-- A note with two labels makes two rows. A page of one row has room for one of them, and a cursor leads to the
other. -/
theorem response_within_page_note :
    noteEngine.policy.checkLimits = .ok () ∧
      ∃ r, (noteEngine.execute Target.value { labelQuery with page := some { size := some 1 } } false {}).1 = .ok r ∧
        r.items = [.object [("Id", .int 1), ("Labels", .string "a")]] ∧ r.nextCursor.isSome = true ∧
        noteEngine.policy.GivesSize { labelQuery with page := some { size := some 1 } } r.size ∧
        r.items.length = r.size := by
  have hlimits : noteEngine.policy.checkLimits = .ok () := by decide
  have hresponse : (noteEngine.execute Target.value { labelQuery with page := some { size := some 1 } } false {}).1 =
      .ok
        { items := [.object [("Id", .int 1), ("Labels", .string "a")]], size := 1
          nextCursor := some "eyJ2YWx1ZXMiOnsiSWQiOjF9LCJ0aW1lc3RhbXAiOm51bGx9"
          totalCount := none, rowsExamined := 1 } :=
    execute_eq_ok_iff.mpr ⟨by decide +kernel, by decide +kernel⟩
  obtain ⟨hsize, _, hfull⟩ := response_within_page hlimits hresponse
  exact ⟨hlimits, _, hresponse, rfl, rfl, hsize, hfull rfl⟩

end Engine

end GuardedQuery
