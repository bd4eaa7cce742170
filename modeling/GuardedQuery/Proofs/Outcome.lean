import Mathlib.Data.List.Forall2

/-!
# Outcomes

When a computation that may fail has a good outcome: sequences of steps have one if every step does, and
mapping a list yields one result for each element, in order. What every step keeps is kept throughout. Two
computations go the same way if they fail for one reason or have related results. What a computation can fail for
is put together from what its parts can fail for.

## Main definitions

* `Outcome.FailsOnly`: computations that fail for reasons of one kind only.
* `Outcome.Same`: two outcomes that are one error or related results.
-/

namespace GuardedQuery.Outcome

variable {ε α β : Type}

theorem map_eq_ok_iff {f : α → β} {x : Except ε α} {b : β} :
    x.map f = .ok b ↔ ∃ a, x = .ok a ∧ f a = b := by
  cases x <;> simp [Except.map]

theorem bind_eq_ok_iff {f : α → Except ε β} {x : Except ε α} {b : β} :
    x >>= f = .ok b ↔ ∃ a, x = .ok a ∧ f a = .ok b := by
  cases x <;> simp [bind, Except.bind]

/-- Mapping a list has a good outcome if and only if it has one on every element. -/
theorem mapM_eq_ok_iff {f : α → Except ε β} {l : List α} {bs : List β} :
    l.mapM f = .ok bs ↔ List.Forall₂ (fun a b => f a = .ok b) l bs := by
  induction l generalizing bs with
  | nil => cases bs <;> simp [pure, Except.pure]
  | cons a rest ih =>
    simp only [List.mapM_cons, bind_eq_ok_iff, ih]
    constructor
    · rintro ⟨b, hb, bs', hbs, heq⟩
      obtain rfl : b :: bs' = bs := by simpa [pure, Except.pure] using heq
      exact .cons hb hbs
    · rintro (_ | ⟨hb, hbs⟩)
      exact ⟨_, hb, _, hbs, rfl⟩

/-- Mapping a list fails for the first element that it fails on. -/
theorem mapM_eq_error_iff {f : α → Except ε β} {l : List α} {e : ε} :
    l.mapM f = .error e ↔
      ∃ before a after, l = before ++ a :: after ∧ (∀ x ∈ before, ∃ b, f x = .ok b) ∧ f a = .error e := by
  induction l with
  | nil => simp [pure, Except.pure]
  | cons a rest ih =>
    rw [List.mapM_cons]
    constructor
    · intro h
      cases hfirst : f a with
      | error e' =>
        rw [hfirst] at h
        obtain rfl : e' = e := Except.error.inj h
        exact ⟨[], a, rest, rfl, by simp, hfirst⟩
      | ok b =>
        have hrest : rest.mapM f = .error e := by
          cases hothers : rest.mapM f with
          | error e' => simpa [hfirst, hothers, bind, Except.bind] using h
          | ok bs => simp [hfirst, hothers, bind, Except.bind, pure, Except.pure] at h
        obtain ⟨before, a', after, rfl, hbefore, hfails⟩ := ih.mp hrest
        exact ⟨a :: before, a', after, rfl, List.forall_mem_cons.mpr ⟨⟨b, hfirst⟩, hbefore⟩, hfails⟩
    · rintro ⟨before, a', after, hsplit, hbefore, hfails⟩
      cases before with
      | nil =>
        obtain ⟨rfl, rfl⟩ := List.cons.inj hsplit
        rw [hfails]
        rfl
      | cons x others =>
        obtain ⟨rfl, hrest⟩ := List.cons.inj hsplit
        obtain ⟨⟨b, hfirst⟩, hothers⟩ := List.forall_mem_cons.mp hbefore
        rw [hfirst, ih.mpr ⟨others, a', after, hrest, hothers, hfails⟩]
        rfl

/-- Every result of mapping a list is the result of one of its elements. -/
theorem exists_mem_of_mapM {f : α → Except ε β} {l : List α} {bs : List β} (h : l.mapM f = .ok bs) {b : β}
    (hb : b ∈ bs) : ∃ a ∈ l, f a = .ok b := by
  rw [mapM_eq_ok_iff] at h
  induction h with
  | nil => simp at hb
  | cons hfirst _ ih =>
    rcases List.mem_cons.mp hb with rfl | hb
    · exact ⟨_, by simp, hfirst⟩
    · obtain ⟨a, ha, heq⟩ := ih hb
      exact ⟨a, by simp [ha], heq⟩

/-- If mapping a list has a result, then every element has one, and it is in the list of results. -/
theorem exists_of_mem_mapM {f : α → Except ε β} {l : List α} {bs : List β} (h : l.mapM f = .ok bs) {a : α}
    (ha : a ∈ l) : ∃ b ∈ bs, f a = .ok b := by
  rw [mapM_eq_ok_iff] at h
  induction h with
  | nil => simp at ha
  | cons hfirst _ ih =>
    rcases List.mem_cons.mp ha with rfl | ha
    · exact ⟨_, by simp, hfirst⟩
    · obtain ⟨b, hb, heq⟩ := ih ha
      exact ⟨b, by simp [hb], heq⟩

/-- Steps without results succeed if and only if each of them does. -/
theorem forM_eq_ok_iff {f : α → Except ε Unit} {l : List α} : l.forM f = .ok () ↔ ∀ a ∈ l, f a = .ok () := by
  induction l with
  | nil => simp [pure, Except.pure]
  | cons a rest ih =>
    have hsteps : (a :: rest).forM f = (f a >>= fun _ => rest.forM f) := rfl
    rw [hsteps, bind_eq_ok_iff, List.forall_mem_cons, ← ih]
    constructor
    · rintro ⟨_, hfirst, hrest⟩
      exact ⟨hfirst, hrest⟩
    · rintro ⟨hfirst, hrest⟩
      exact ⟨(), hfirst, hrest⟩

/-- What every step keeps, a sequence of steps keeps. -/
theorem foldlM_invariant {P : β → Prop} {f : β → α → Except ε β} {l : List α}
    (hstep : ∀ a ∈ l, ∀ b b', P b → f b a = .ok b' → P b') {b b' : β} (hb : P b) (h : l.foldlM f b = .ok b') :
    P b' := by
  induction l generalizing b with
  | nil => exact Except.ok.inj h ▸ hb
  | cons a rest ih =>
    obtain ⟨hfirst, hrest⟩ := List.forall_mem_cons.mp hstep
    rw [List.foldlM_cons] at h
    obtain ⟨between, hbetween, h⟩ := bind_eq_ok_iff.mp h
    exact ih hrest (hfirst b between hb hbetween) h

/-! ## Reasons for failing -/

/-- If the computation fails, then for a reason of the given kind. -/
def FailsOnly (P : ε → Prop) (x : Except ε α) : Prop := ∀ e, x = .error e → P e

namespace FailsOnly

variable {P Q : ε → Prop}

@[simp] theorem ok (a : α) : FailsOnly P (.ok a : Except ε α) := fun _ h => nomatch h

@[simp] theorem error_iff {e : ε} : FailsOnly P (.error e : Except ε α) ↔ P e := by
  simp [FailsOnly]

theorem mono {x : Except ε α} (hx : FailsOnly P x) (hPQ : ∀ e, P e → Q e) : FailsOnly Q x :=
  fun e he => hPQ e (hx e he)

/-- A continuation only counts where the computation has a result. -/
theorem bind {x : Except ε α} {f : α → Except ε β} (hx : FailsOnly P x)
    (hf : ∀ a, x = .ok a → FailsOnly P (f a)) : FailsOnly P (x >>= f) := by
  cases x with
  | ok a => exact hf a rfl
  | error e => exact error_iff.mpr (error_iff.mp hx)

theorem map {x : Except ε α} (f : α → β) (hx : FailsOnly P x) : FailsOnly P (x.map f) := by
  cases x with
  | ok a => exact ok _
  | error e => exact error_iff.mpr (error_iff.mp hx)

theorem mapM {f : α → Except ε β} {l : List α} (hf : ∀ a ∈ l, FailsOnly P (f a)) : FailsOnly P (l.mapM f) := by
  induction l with
  | nil => exact ok _
  | cons a rest ih =>
    obtain ⟨hfirst, hrest⟩ := List.forall_mem_cons.mp hf
    rw [List.mapM_cons]
    exact hfirst.bind fun _ _ => (ih hrest).bind fun _ _ => ok _

theorem foldlM {f : β → α → Except ε β} {l : List α} (hf : ∀ a ∈ l, ∀ b, FailsOnly P (f b a)) (b : β) :
    FailsOnly P (l.foldlM f b) := by
  induction l generalizing b with
  | nil => exact ok _
  | cons a rest ih =>
    obtain ⟨hfirst, hrest⟩ := List.forall_mem_cons.mp hf
    rw [List.foldlM_cons]
    exact (hfirst b).bind fun _ _ => ih hrest _

theorem forM {f : α → Except ε Unit} {l : List α} (hf : ∀ a ∈ l, FailsOnly P (f a)) : FailsOnly P (l.forM f) := by
  induction l with
  | nil => exact ok _
  | cons a rest ih =>
    obtain ⟨hfirst, hrest⟩ := List.forall_mem_cons.mp hf
    exact hfirst.bind fun _ _ => ih hrest

end FailsOnly

/-! ## Two computations -/

/-- One error, or two related results. -/
inductive Same {γ : Type} (R : α → γ → Prop) : Except ε α → Except ε γ → Prop
  /-- Both computations have a result. -/
  | ok {a : α} {c : γ} : R a c → Same R (.ok a) (.ok c)
  /-- Both computations fail for one reason. -/
  | error (e : ε) : Same R (.error e) (.error e)

theorem same_eq_iff {x y : Except ε α} : Same Eq x y ↔ x = y := by
  constructor
  · rintro (rfl | _) <;> rfl
  · rintro rfl
    cases x with
    | ok a => exact .ok rfl
    | error e => exact .error e

theorem Same.mono {γ : Type} {R S : α → γ → Prop} {x : Except ε α} {y : Except ε γ} (h : Same R x y)
    (hRS : ∀ a c, R a c → S a c) : Same S x y := by
  cases h with
  | ok hac => exact .ok (hRS _ _ hac)
  | error e => exact .error e

theorem Same.mapError {γ δ : Type} {R : α → γ → Prop} {x : Except ε α} {y : Except ε γ} (h : Same R x y)
    (f : ε → δ) : Same R (x.mapError f) (y.mapError f) := by
  cases h with
  | ok hac => exact .ok hac
  | error e => exact .error (f e)

/-- Computations that go the same way and are continued the same way go the same way. -/
theorem Same.bind {γ δ : Type} {R : α → γ → Prop} {S : β → δ → Prop} {x : Except ε α} {y : Except ε γ}
    {f : α → Except ε β} {g : γ → Except ε δ} (h : Same R x y) (hf : ∀ a c, R a c → Same S (f a) (g c)) :
    Same S (x >>= f) (y >>= g) := by
  cases h with
  | ok hac => exact hf _ _ hac
  | error e => exact .error e

/-- One computation with two continuations that go the same way. -/
theorem Same.bind_left {δ : Type} {S : β → δ → Prop} (x : Except ε α) {f : α → Except ε β}
    {g : α → Except ε δ} (hf : ∀ a, x = .ok a → Same S (f a) (g a)) : Same S (x >>= f) (x >>= g) := by
  cases x with
  | ok a => exact hf a rfl
  | error e => exact .error e

end GuardedQuery.Outcome
