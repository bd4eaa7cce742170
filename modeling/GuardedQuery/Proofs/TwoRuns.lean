import GuardedQuery.Proofs.Evaluation
import GuardedQuery.Proofs.Outcome

/-!
# Two runs side by side

Two runs go the same way if, from every state, both fail for one reason or have related results, and leave one state
behind. Sequences of steps that go the same way do so as well. So do two queries in whatever is handed on to the
client, even if the store breaks down or the queries are cancelled on the way.

## Main definitions

* `Step.Same`: steps that go the same way.
* `Reply.Same`: replies that do.

## Main statements

* `Step.Same.bind`: sequences of such steps.
* `Engine.same_execute`: engines hand on one error or related responses if the runs of their queries go the same way.
-/

namespace GuardedQuery

namespace Step

variable {σ ε α β γ δ : Type} {R : α → β → Prop} {S : γ → δ → Prop}

/-- From every state, one error or related results, and one state behind. -/
def Same (R : α → β → Prop) (r : Step σ ε α) (r' : Step σ ε β) : Prop :=
  ∀ s, Outcome.Same R (r s).1 (r' s).1 ∧ (r s).2 = (r' s).2

theorem same_of_eq {r r' : Step σ ε α} (h : r = r') : Same Eq r r' :=
  fun _ => h ▸ ⟨Outcome.same_eq_iff.mpr rfl, rfl⟩

theorem Same.mono {R' : α → β → Prop} {r : Step σ ε α} {r' : Step σ ε β} (h : Same R r r')
    (hR : ∀ a b, R a b → R' a b) : Same R' r r' :=
  fun s => ⟨(h s).1.mono hR, (h s).2⟩

theorem same_pure {a : α} {b : β} (h : R a b) : Same R (pure a : Step σ ε α) (pure b) :=
  fun _ => ⟨.ok h, rfl⟩

theorem same_ofExcept {x : Except ε α} {y : Except ε β} (h : Outcome.Same R x y) :
    Same R (ofExcept x : Step σ ε α) (ofExcept y) :=
  fun _ => ⟨h, rfl⟩

/-- Steps that go the same way and are continued the same way go the same way. -/
theorem Same.bind {r : Step σ ε α} {r' : Step σ ε β} {f : α → Step σ ε γ} {g : β → Step σ ε δ} (h : Same R r r')
    (hf : ∀ a b, R a b → Same S (f a) (g b)) : Same S (r >>= f) (r' >>= g) := by
  intro s
  obtain ⟨hresults, hstates⟩ := h s
  rw [bind_apply, bind_apply]
  generalize r s = first at hresults hstates ⊢
  generalize r' s = second at hresults hstates ⊢
  obtain ⟨x, t⟩ := first
  obtain ⟨y, t'⟩ := second
  obtain rfl : t = t' := hstates
  cases hresults with
  | ok hab => exact hf _ _ hab t
  | error e => exact ⟨.error e, rfl⟩

/-- One step with two continuations that go the same way. -/
theorem Same.bind_left (r : Step σ ε α) {f : α → Step σ ε γ} {g : α → Step σ ε δ} (hf : ∀ a, Same S (f a) (g a)) :
    Same S (r >>= f) (r >>= g) :=
  (same_of_eq rfl).bind fun a _ heq => heq ▸ hf a

/-- One outcome with two continuations that go the same way, if there is a result. -/
theorem Same.ofExcept_bind (x : Except ε α) {f : α → Step σ ε γ} {g : α → Step σ ε δ}
    (hf : ∀ a, x = .ok a → Same S (f a) (g a)) : Same S (ofExcept x >>= f) (ofExcept x >>= g) := by
  cases x with
  | ok a => exact hf a rfl
  | error e => exact fun _ => ⟨.error e, rfl⟩

/-- One value that must be there, with two continuations that go the same way if it is. -/
theorem Same.require_bind (e : ε) (found : Option α) {f : α → Step σ ε γ} {g : α → Step σ ε δ}
    (hf : ∀ a, found = some a → Same S (f a) (g a)) : Same S (require e found >>= f) (require e found >>= g) := by
  cases found with
  | some a => exact hf a rfl
  | none => exact fun _ => ⟨.error e, rfl⟩

end Step

/-! ## Reads -/

/-- One error or related results, with one effect on the query. -/
structure Reply.Same {α β : Type} (R : α → β → Prop) (r : Reply α) (r' : Reply β) : Prop where
  /-- One error, or related results. -/
  result : Outcome.Same R r.result r'.result
  /-- Both find the query cancelled, or neither does. -/
  cancelled : r.cancelled = r'.cancelled
  /-- Both go about it in one way. -/
  conduct : r.conduct = r'.conduct

namespace Run

variable {α β : Type} {R : α → β → Prop}

theorem same_receive {reply : Bool → Reply α} {reply' : Bool → Reply β}
    (h : ∀ cancelled, (reply cancelled).Same R (reply' cancelled)) :
    Step.Same (Outcome.Same R) (receive reply) (receive reply') := by
  intro p
  obtain ⟨hresult, hcancelled, hconduct⟩ := h p.cancelled
  simp only [receive, hcancelled, hconduct, and_true]
  split
  · exact .error _
  · exact .ok hresult

variable {σ σ' : Type} [Storage σ] [Storage σ'] {s : σ} {s' : σ'} {entity entity' : String} {pred pred' : Predicate}

theorem same_scan {S : Scan → Scan → Prop}
    (h : ∀ cancelled, (Storage.scan s entity pred cancelled).Same S (Storage.scan s' entity' pred' cancelled)) :
    Step.Same S (scan s entity pred) (scan s' entity' pred') :=
  (same_receive h).bind fun _ _ hfound => Step.same_ofExcept (hfound.mapError _)

theorem same_count
    (h : ∀ cancelled, (Storage.count s entity pred cancelled).Same Eq (Storage.count s' entity pred' cancelled)) :
    Step.Same Eq (count s entity pred) (count s' entity pred') := by
  refine (same_receive h).bind fun x y hxy => ?_
  obtain rfl := Outcome.same_eq_iff.mp hxy
  exact Step.same_of_eq rfl

end Run

/-! ## Answers -/

namespace Engine

variable {σ σ' α β : Type} {R : Response α → Response β → Prop}

/-- What is handed on depends on the outcome of a run and on the conduct of the store only. -/
theorem same_finish (e : Engine σ) (e' : Engine σ') (q q' : Query) {x : Except QueryError (Response α)}
    {y : Except QueryError (Response β)} (h : Outcome.Same R x y) (p : Progress) (c c' : Circumstances) :
    Outcome.Same R (e.finish q x p c).1 (e'.finish q' y p c').1 := by
  rw [finish, finish]
  split
  · exact .error _
  · cases h with
    | ok hab => exact .ok hab
    | error error => exact .error _

/-- **Engines hand on one error or related responses** for accepted queries whose runs go the same way. -/
theorem same_execute [Storage σ] [Storage σ'] {e : Engine σ} {e' : Engine σ'} {target : Target α}
    {target' : Target β} {q q' : Query}
    (haccepts : e.policy.accepts q = true) (haccepts' : e'.policy.accepts q' = true)
    (h : Step.Same R (q.answer e.policy e.store e.registry target)
      (q'.answer e'.policy e'.store e'.registry target'))
    (cancelled : Bool) (c c' : Circumstances) :
    Outcome.Same R (e.execute target q cancelled c).1 (e'.execute target' q' cancelled c').1 := by
  obtain ⟨noted, hnoted, hpolicy, hstore, hregistry⟩ := accept_of_accepts haccepts c.stamp
  obtain ⟨noted', hnoted', hpolicy', hstore', hregistry'⟩ := accept_of_accepts haccepts' c'.stamp
  obtain ⟨houtcome, hprogress⟩ := h { cancelled }
  simp only [execute, hnoted, hnoted', run, hpolicy, hstore, hregistry, hpolicy', hstore', hregistry', ← hprogress]
  exact same_finish noted noted' q q' houtcome _ c c'

end Engine

end GuardedQuery
