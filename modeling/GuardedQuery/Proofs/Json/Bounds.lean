import GuardedQuery.Proofs.Json.Documents
import GuardedQuery.Proofs.Json.Reading
import Mathlib

/-!
# Bounds of trees

Reading a text only makes integers that 64 bits can hold, and the nesting limit bounds the depth of what is read. So a
value that is read is well formed, and no deeper than its part of the text.

## Main definitions

* `Node.Within`: trees of bounded depth whose integers fit 64 bits.

## Main statements

* `Json.within_draft`: the tree of every text is within the nesting limit.
* `Node.Within.toValue?`: a value that is read is well formed, and no deeper than its tree.
-/

namespace GuardedQuery

/-- Trees that are at most so many levels deep, and whose integers fit 64 bits. -/
inductive Node.Within : ℕ → Node → Prop
  /-- The value `null`. -/
  | null (k : ℕ) : Within k .null
  /-- A truth value. -/
  | bool (k : ℕ) (b : Bool) : Within k (.bool b)
  /-- An integer of 64 bits. -/
  | int (k : ℕ) {n : ℤ} : int64Min ≤ n → n ≤ uint64Max → Within k (.int n)
  /-- Any other number. -/
  | float (k : ℕ) (x : Binary64) : Within k (.float x)
  /-- A text. -/
  | string (k : ℕ) (s : String) : Within k (.string s)
  /-- A part without a value. -/
  | unreadable (k : ℕ) : Within k .unreadable
  /-- The place where the text breaks off. -/
  | cut (k : ℕ) : Within k .cut
  /-- Items that are within one level less. -/
  | array {k : ℕ} {items : List Node} : (∀ n ∈ items, Within k n) → Within (k + 1) (.array items)
  /-- Members that are within one level less. -/
  | object {k : ℕ} {ms : List (Option String × Node)} : (∀ m ∈ ms, Within k m.2) → Within (k + 1) (.object ms)

namespace Node.Within

theorem mono {j k : ℕ} {n : Node} (h : n.Within j) (hjk : j ≤ k) : n.Within k := by
  induction h generalizing k with
  | null => exact .null k
  | bool _ b => exact .bool k b
  | int _ hleast hgreatest => exact .int k hleast hgreatest
  | float _ x => exact .float k x
  | string _ s => exact .string k s
  | unreadable => exact .unreadable k
  | cut => exact .cut k
  | array _ ih =>
    obtain ⟨k, rfl⟩ := Nat.exists_eq_add_of_le' (Nat.one_le_of_lt hjk)
    exact .array fun n hn => ih n hn (Nat.le_of_succ_le_succ hjk)
  | object _ ih =>
    obtain ⟨k, rfl⟩ := Nat.exists_eq_add_of_le' (Nat.one_le_of_lt hjk)
    exact .object fun m hm => ih m hm (Nat.le_of_succ_le_succ hjk)

/-- The nesting limit bounds the depth of a tree. -/
theorem prune {j : ℕ} {n : Node} (h : n.Within j) (k : ℕ) : (n.prune k).Within k := by
  induction h generalizing k with
  | null => cases k <;> exact .null _
  | bool _ b => cases k <;> exact .bool _ b
  | int _ hleast hgreatest => cases k <;> exact .int _ hleast hgreatest
  | float _ x => cases k <;> exact .float _ x
  | string _ s => cases k <;> exact .string _ s
  | unreadable => cases k <;> exact .unreadable _
  | cut => cases k <;> exact .cut _
  | array _ ih =>
    cases k with
    | zero =>
      rw [Node.prune]
      split
      · exact .unreadable _
      · exact .cut _
    | succ k =>
      rw [Node.prune, pruneItems_eq_map]
      refine .array fun m hm => ?_
      obtain ⟨n, hn, rfl⟩ := List.mem_map.mp hm
      exact ih n hn k
  | object _ ih =>
    cases k with
    | zero =>
      rw [Node.prune]
      split
      · exact .unreadable _
      · exact .cut _
    | succ k =>
      rw [Node.prune, pruneMembers_eq_map]
      refine .object fun m hm => ?_
      obtain ⟨n, hn, rfl⟩ := List.mem_map.mp hm
      exact ih n hn k

/-- The parts of a tree are within one level less. -/
theorem children {k : ℕ} {n : Node} (h : n.Within k) : ∀ m ∈ n.children, m.Within (k - 1) := by
  cases h with
  | array hitems => exact hitems
  | object hms =>
    intro m hm
    obtain ⟨member, hmember, rfl⟩ := List.mem_map.mp hm
    exact hms member hmember
  | null | bool | int | float | string | unreadable | cut => simp [Node.children]

end Node.Within

/-! ## Values -/

namespace Node

theorem itemValues?_eq_some {items : List Node} {vs : List Value} (h : itemValues? items = some vs) :
    ∀ v ∈ vs, ∃ n ∈ items, n.toValue? = some v := by
  induction items generalizing vs with
  | nil =>
    obtain rfl : [] = vs := Option.some.inj h
    simp
  | cons n rest ih =>
    simp only [itemValues?, bind, Option.bind_eq_some_iff] at h
    obtain ⟨v, hv, others, hothers, hall⟩ := h
    obtain rfl : v :: others = vs := Option.some.inj hall
    intro w hw
    rcases List.mem_cons.mp hw with rfl | hw
    · exact ⟨n, List.mem_cons_self .., hv⟩
    · obtain ⟨m, hm, hmw⟩ := ih hothers w hw
      exact ⟨m, List.mem_cons_of_mem _ hm, hmw⟩

theorem memberValues?_eq_some {ms : List (Option String × Node)} {l : List (String × Value)}
    (h : memberValues? ms = some l) : ∀ p ∈ l, ∃ m ∈ ms, m.2.toValue? = some p.2 := by
  induction ms generalizing l with
  | nil =>
    obtain rfl : [] = l := Option.some.inj h
    simp
  | cons m rest ih =>
    simp only [memberValues?, bind, Option.bind_eq_some_iff] at h
    obtain ⟨k, _, v, hv, others, hothers, hall⟩ := h
    obtain rfl : (k, v) :: others = l := Option.some.inj hall
    intro p hp
    rcases List.mem_cons.mp hp with rfl | hp
    · exact ⟨m, List.mem_cons_self .., hv⟩
    · obtain ⟨other, hother, hvalue⟩ := ih hothers p hp
      exact ⟨other, List.mem_cons_of_mem _ hother, hvalue⟩

/-- **A value that is read is well formed, and no deeper than its tree.** -/
theorem Within.toValue? {k : ℕ} {n : Node} (h : n.Within k) {v : Value} (hv : n.toValue? = some v) :
    v.WellFormed ∧ v.depth ≤ k := by
  induction h generalizing v with
  | unreadable | cut => simp [Node.toValue?] at hv
  | null | bool | float | string =>
    obtain rfl := Option.some.inj hv
    exact ⟨trivial, Nat.zero_le _⟩
  | int _ hleast hgreatest =>
    obtain rfl := Option.some.inj hv
    exact ⟨⟨hleast, hgreatest⟩, Nat.zero_le _⟩
  | @array k items _ ih =>
    simp only [Node.toValue?, Option.map_eq_some_iff] at hv
    obtain ⟨vs, hvs, rfl⟩ := hv
    have hitems : ∀ w ∈ vs, w.WellFormed ∧ w.depth ≤ k := by
      intro w hw
      obtain ⟨m, hm, hmw⟩ := itemValues?_eq_some hvs w hw
      exact ih m hm hmw
    have hdepth := Value.depthItems_le_iff.mpr fun w hw => (hitems w hw).2
    exact ⟨Value.wellFormedItems_iff.mpr fun w hw => (hitems w hw).1, by rw [Value.depth]; omega⟩
  | @object k ms _ ih =>
    simp only [Node.toValue?, Option.map_eq_some_iff] at hv
    obtain ⟨l, hl, rfl⟩ := hv
    have hmembers : ∀ p ∈ Dict.ofList l, p.2.WellFormed ∧ p.2.depth ≤ k := by
      intro p hp
      obtain ⟨m, hm, hmp⟩ := memberValues?_eq_some hl p (Dict.mem_of_mem_ofList hp)
      exact ih m hm hmp
    have hdepth := Value.depthMembers_le_iff.mpr fun p hp => (hmembers p hp).2
    exact ⟨⟨Dict.sorted_ofList l, Value.wellFormedMembers_iff.mpr fun p hp => (hmembers p hp).1⟩,
      by rw [Value.depth]; omega⟩

end Node

/-! ## Trees of texts -/

namespace Json

/-- A token that is no integer beyond 64 bits. -/
def Token.Fits : Token → Prop
  | .int n => int64Min ≤ n ∧ n ≤ uint64Max
  | _ => True

/-- The tokens are no integers beyond 64 bits. -/
def AllFit (ts : List Token) : Prop := ∀ t ∈ ts, t.Fits

theorem AllFit.tail {t : Token} {ts : List Token} (h : AllFit (t :: ts)) : AllFit ts :=
  fun u hu => h u (List.mem_cons_of_mem _ hu)

theorem fits_numeral (n : Numeral) : n.token.Fits := by
  have hbounds : int64Min = -0x8000000000000000 ∧ uint64Max = 0xFFFFFFFFFFFFFFFF := ⟨rfl, rfl⟩
  unfold Numeral.token
  simp only [Bool.and_eq_true, decide_eq_true_eq]
  split
  · rename_i h
    simp only [Token.Fits]
    omega
  · split
    · rename_i h
      simp only [Token.Fits]
      omega
    · split <;> trivial

theorem fits_fixedToken? {cs rest : List Char} {t : Token} (h : fixedToken? cs = some (t, rest)) : t.Fits := by
  unfold fixedToken? at h
  split at h <;> simp only [Option.some.injEq, Prod.mk.injEq, reduceCtorEq] at h <;> obtain ⟨rfl, _⟩ := h <;> trivial

theorem fits_nextToken? {cs rest : List Char} {t : Token} (h : nextToken? cs = some (t, rest)) : t.Fits := by
  rw [nextToken?.eq_def] at h
  split at h
  · rename_i found hfixed
    obtain rfl := Option.some.inj h
    exact fits_fixedToken? hfixed
  · split at h
    · simp only [bind, Option.bind_eq_some_iff] at h
      obtain ⟨⟨pieces, others⟩, _, hfound⟩ := h
      obtain ⟨rfl, _⟩ := Prod.mk.inj (Option.some.inj hfound)
      trivial
    · simp only [bind, Option.bind_eq_some_iff] at h
      obtain ⟨⟨n, others⟩, _, hfound⟩ := h
      obtain ⟨rfl, _⟩ := Prod.mk.inj (Option.some.inj hfound)
      exact fits_numeral n

theorem allFit_tokens (cs : List Char) : AllFit (tokens cs) := by
  have hfuel : ∀ (fuel : ℕ) (cs : List Char), AllFit (tokensUpTo fuel cs) := by
    intro fuel
    induction fuel with
    | zero => exact fun _ => List.forall_mem_nil _
    | succ fuel ih =>
      intro cs
      rw [tokensUpTo]
      split
      · exact List.forall_mem_nil _
      · split
        · exact List.forall_mem_singleton.mpr trivial
        · rename_i t rest hnext
          exact List.forall_mem_cons.mpr ⟨fits_nextToken? hnext, ih rest⟩
  exact hfuel _ cs

/-- The tree of a single token that is a value. -/
theorem within_node? {t : Token} (ht : t.Fits) {n : Node} (h : t.node? = some n) (k : ℕ) : n.Within k := by
  cases t with
  | null => exact Option.some.inj h ▸ .null k
  | bool b => exact Option.some.inj h ▸ .bool k b
  | int m => exact Option.some.inj h ▸ .int k ht.1 ht.2
  | float x => exact Option.some.inj h ▸ .float k x
  | overflow => exact Option.some.inj h ▸ .unreadable k
  | string s =>
    cases s with
    | some s => exact Option.some.inj h ▸ .string k s
    | none => exact Option.some.inj h ▸ .unreadable k
  | openArray | closeArray | openObject | closeObject | colon | comma | junk => simp [Token.node?] at h

/-- The tokens behind a part of a text, if it does not break off, are no integers beyond 64 bits. -/
def RestFits (rest : Option (List Token)) : Prop := ∀ ts, rest = some ts → AllFit ts

theorem restFits_none : RestFits none := fun _ h => by simp at h

theorem restFits_some {ts : List Token} : RestFits (some ts) ↔ AllFit ts := by
  simp [RestFits]

/-- Tokens that are read with some fuel give trees that are no deeper than the fuel. -/
structure ReadsWithin (fuel : ℕ) : Prop where
  /-- A value. -/
  value : ∀ ts, AllFit ts → (readValue fuel ts).1.Within fuel ∧ RestFits (readValue fuel ts).2
  /-- The items of an array. -/
  items : ∀ ts, AllFit ts → (∀ n ∈ (readItems fuel ts).1, n.Within fuel) ∧ RestFits (readItems fuel ts).2
  /-- The members of an object. -/
  members : ∀ ts, AllFit ts → (∀ m ∈ (readMembers fuel ts).1, m.2.Within fuel) ∧ RestFits (readMembers fuel ts).2

namespace ReadsWithin

variable {fuel : ℕ}

theorem value_succ (h : ReadsWithin fuel) {ts : List Token} (hts : AllFit ts) :
    (readValue (fuel + 1) ts).1.Within (fuel + 1) ∧ RestFits (readValue (fuel + 1) ts).2 := by
  unfold readValue
  split
  · exact ⟨.cut _, restFits_none⟩
  · exact ⟨.cut _, restFits_none⟩
  · exact ⟨.array (List.forall_mem_nil _), restFits_some.mpr hts.tail.tail⟩
  · rename_i heq
    obtain rfl := Nat.succ.inj heq
    exact ⟨.array (h.items _ hts.tail).1, (h.items _ hts.tail).2⟩
  · exact ⟨.object (List.forall_mem_nil _), restFits_some.mpr hts.tail.tail⟩
  · rename_i heq
    obtain rfl := Nat.succ.inj heq
    exact ⟨.object (h.members _ hts.tail).1, (h.members _ hts.tail).2⟩
  · split
    · rename_i hnode
      exact ⟨within_node? (hts _ (List.mem_cons_self ..)) hnode _, restFits_some.mpr hts.tail⟩
    · exact ⟨.cut _, restFits_none⟩

theorem items_succ (h : ReadsWithin fuel) {ts : List Token} (hts : AllFit ts) :
    (∀ n ∈ (readItems (fuel + 1) ts).1, n.Within (fuel + 1)) ∧ RestFits (readItems (fuel + 1) ts).2 := by
  obtain ⟨hfirst, hrest⟩ := h.value ts hts
  unfold readItems
  split
  · rename_i hread
    rw [hread] at hfirst
    exact ⟨List.forall_mem_singleton.mpr (hfirst.mono (Nat.le_succ _)), restFits_none⟩
  · rename_i hread
    rw [hread] at hfirst hrest
    exact ⟨List.forall_mem_singleton.mpr (hfirst.mono (Nat.le_succ _)), restFits_some.mpr (restFits_some.mp hrest).tail⟩
  · rename_i others hread
    rw [hread] at hfirst hrest
    obtain ⟨hothers, hrest⟩ := h.items others (restFits_some.mp hrest).tail
    exact ⟨List.forall_mem_cons.mpr ⟨hfirst.mono (Nat.le_succ _), fun n hn => (hothers n hn).mono (Nat.le_succ _)⟩,
      hrest⟩
  · rename_i hread
    rw [hread] at hfirst
    exact ⟨List.forall_mem_cons.mpr ⟨hfirst.mono (Nat.le_succ _), List.forall_mem_singleton.mpr (.cut _)⟩,
      restFits_none⟩

theorem members_succ (h : ReadsWithin fuel) {ts : List Token} (hts : AllFit ts) :
    (∀ m ∈ (readMembers (fuel + 1) ts).1, m.2.Within (fuel + 1)) ∧ RestFits (readMembers (fuel + 1) ts).2 := by
  unfold readMembers
  split
  · exact ⟨List.forall_mem_singleton.mpr (.cut _), restFits_none⟩
  · rename_i k ts heq
    obtain rfl := Nat.succ.inj heq
    obtain ⟨hfirst, hrest⟩ := h.value ts hts.tail.tail
    split
    · rename_i hread
      rw [hread] at hfirst
      exact ⟨List.forall_mem_singleton.mpr (hfirst.mono (Nat.le_succ _)), restFits_none⟩
    · rename_i hread
      rw [hread] at hfirst hrest
      exact ⟨List.forall_mem_singleton.mpr (hfirst.mono (Nat.le_succ _)),
        restFits_some.mpr (restFits_some.mp hrest).tail⟩
    · rename_i others hread
      rw [hread] at hfirst hrest
      obtain ⟨hothers, hrest⟩ := h.members others (restFits_some.mp hrest).tail
      exact ⟨List.forall_mem_cons.mpr ⟨hfirst.mono (Nat.le_succ _), fun m hm => (hothers m hm).mono (Nat.le_succ _)⟩,
        hrest⟩
    · rename_i hread
      rw [hread] at hfirst
      exact ⟨List.forall_mem_cons.mpr ⟨hfirst.mono (Nat.le_succ _), List.forall_mem_singleton.mpr (.cut _)⟩,
        restFits_none⟩
  · exact ⟨List.forall_mem_singleton.mpr (.cut _), restFits_none⟩

end ReadsWithin

theorem readsWithin (fuel : ℕ) : ReadsWithin fuel := by
  induction fuel with
  | zero =>
    refine ⟨fun ts _ => ⟨.cut 0, restFits_none⟩, fun ts _ => ⟨?_, restFits_none⟩, fun ts _ => ⟨?_, restFits_none⟩⟩
    · exact List.forall_mem_singleton.mpr (.cut 0)
    · exact List.forall_mem_singleton.mpr (.cut 0)
  | succ fuel ih => exact ⟨fun _ => ih.value_succ, fun _ => ih.items_succ, fun _ => ih.members_succ⟩

/-- **The tree of every text is within the nesting limit.** -/
theorem within_draft (text : String) : (draft text).root.Within Node.nestingLimit := by
  rw [draft]
  exact ((readsWithin _).value _ (allFit_tokens text.toList)).1.prune _

end Json

end GuardedQuery
