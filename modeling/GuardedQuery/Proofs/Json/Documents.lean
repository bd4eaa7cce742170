import GuardedQuery.Json.Decode
import GuardedQuery.Proofs.Outcome

/-!
# Reading structures

A structure is read field by field. So it has every property that its fields keep, and an object whose members were
written in the order of the fields is read in one pass. The nesting limit takes values away from a tree, but no reader
makes something else of what is left: what is read from a pruned tree is read from the whole tree.

## Main definitions

* `Field.Keeps`: a field keeps a property of the structure.
* `Written`: members in the order of the fields, with what reading them makes of a structure.
* `Decoder.ReadsPruned`: what one decoder reads from a pruned tree, another one reads from the whole tree.

## Main statements

* `Decoder.ofFields_keeps`: a structure has what all its fields keep.
* `Decoder.ofFields_of_written`: members that were written field by field are read field by field.
* `Decoder.ReadsPruned.ofFields`: structures are read from whole trees as from pruned ones.
-/

namespace GuardedQuery

/-- The nodes right below a node. -/
def Node.children : Node → List Node
  | array items => items
  | object ms => ms.map Prod.snd
  | _ => []

variable {α β : Type}

namespace Decoder

variable {item : Decoder α} {n : Node}

theorem option_of_ne_null (h : n ≠ .null) : option item n = (item n).map some := by
  cases n with
  | null => exact absurd rfl h
  | bool | int | float | string | unreadable | cut | array | object => rfl

/-- What is there is read by itself. -/
theorem of_option {a : α} (h : option item n = .ok (some a)) : item n = .ok a := by
  by_cases hnull : n = .null
  · rw [hnull] at h
    simp [option] at h
  · rw [option_of_ne_null hnull] at h
    obtain ⟨b, hb, hsome⟩ := Outcome.map_eq_ok_iff.mp h
    exact Option.some.inj hsome ▸ hb

end Decoder

/-! ## What reading keeps -/

section Keeps

variable {P : α → Prop} {fields : List (Field α)} {nodes : List Node} {a b : α}

/-- The field keeps a property of the structure, whichever of the nodes it is read from. -/
def Field.Keeps (f : Field α) (nodes : List Node) (P : α → Prop) : Prop :=
  ∀ n ∈ nodes, ∀ a b, P a → f.read n a = .ok b → P b

theorem Field.Keeps.optional {name : String} {item : Decoder β} {set : β → α → α}
    (hset : ∀ n ∈ nodes, ∀ v, item n = .ok v → ∀ a, P a → P (set v a)) :
    (Field.optional name item set).Keeps nodes P := by
  intro n hn a b ha h
  obtain ⟨v, hv, rfl⟩ := Outcome.map_eq_ok_iff.mp h
  exact hset n hn v hv a ha

theorem Field.Keeps.mandatory {name : String} {item : Decoder β} {set : β → α → α}
    (hset : ∀ n ∈ nodes, ∀ v, item n = .ok v → ∀ a, P a → P (set v a)) :
    (Field.mandatory name item set).Keeps nodes P := by
  have hoptional : (Field.optional name item set).Keeps nodes P := .optional hset
  exact hoptional

namespace Decoder

theorem readMembers_keeps {seen : List String} {ms : List (Option String × Node)}
    (hfields : ∀ f ∈ fields, f.Keeps (ms.map Prod.snd) P) (ha : P a) (h : readMembers fields seen a ms = .ok b) :
    P b := by
  induction ms generalizing seen a with
  | nil =>
    rw [readMembers] at h
    split at h
    · exact Except.ok.inj h ▸ ha
    · simp at h
  | cons m rest ih =>
    have hrest : ∀ f ∈ fields, f.Keeps (rest.map Prod.snd) P := fun f hf n hn =>
      hfields f hf n (List.mem_cons_of_mem _ hn)
    obtain ⟨_ | k, n⟩ := m
    · simp [readMembers] at h
    rw [readMembers] at h
    split at h
    · split at h
      · exact ih hrest ha h
      · simp at h
    · rename_i f hf
      split at h
      · simp at h
      · obtain ⟨between, hbetween, h⟩ := Outcome.bind_eq_ok_iff.mp h
        exact ih hrest (hfields f (List.mem_of_find?_eq_some hf) n (List.mem_cons_self ..) a between ha hbetween) h

theorem readPositions_keeps {items : List Node} (hfields : ∀ f ∈ fields, f.Keeps items P) (ha : P a)
    (h : readPositions fields items a = .ok b) : P b := by
  induction fields generalizing items a with
  | nil =>
    cases items with
    | nil => exact Except.ok.inj h ▸ ha
    | cons n rest => simp [readPositions] at h
  | cons f fields ih =>
    obtain ⟨hf, hothers⟩ := List.forall_mem_cons.mp hfields
    cases items with
    | nil =>
      rw [readPositions] at h
      split at h
      · simp at h
      · exact ih hothers ha h
    | cons n rest =>
      obtain ⟨between, hbetween, h⟩ := Outcome.bind_eq_ok_iff.mp h
      exact ih (fun f hf m hm => hothers f hf m (List.mem_cons_of_mem _ hm))
        (hf n (List.mem_cons_self ..) a between ha hbetween) h

/-- **A structure has what the values of absent fields have and all fields keep.** -/
theorem ofFields_keeps {n : Node} (hfields : ∀ f ∈ fields, f.Keeps n.children P) (ha : P a)
    (h : ofFields fields a n = .ok b) : P b := by
  cases n with
  | object ms => exact readMembers_keeps hfields ha h
  | array items => exact readPositions_keeps hfields ha h
  | null | bool | int | float | string | unreadable | cut => simp [ofFields] at h

end Decoder

end Keeps

/-! ## Members that were written in order -/

/-- Members in the order of the fields, of which optional ones may be absent, with what reading them makes of a
structure. -/
inductive Written : List (Field α) → List (Option String × Node) → α → α → Prop
  /-- No fields are left. -/
  | nil (a : α) : Written [] [] a a
  /-- An optional field is absent. -/
  | absent {f : Field α} {fields : List (Field α)} {ms : List (Option String × Node)} {a b : α} :
    f.required = false → Written fields ms a b → Written (f :: fields) ms a b
  /-- A field is there. -/
  | present {f : Field α} {fields : List (Field α)} {n : Node} {ms : List (Option String × Node)} {a a' b : α} :
    f.read n a = .ok a' → Written fields ms a' b → Written (f :: fields) ((some f.name, n) :: ms) a b

namespace Decoder

/-- Reading goes on behind fields whose names were seen, or that may be absent. -/
theorem readMembers_of_written {fields done : List (Field α)} {ms : List (Option String × Node)} {a b : α}
    (h : Written fields ms a b) {seen : List String} (hnames : ((done ++ fields).map Field.name).Nodup)
    (hrequired : ∀ f ∈ done, f.required = true → f.name ∈ seen) (hseen : ∀ k ∈ seen, k ∈ done.map Field.name) :
    readMembers (done ++ fields) seen a ms = .ok b := by
  induction h generalizing done seen with
  | nil a =>
    have hall : (done ++ []).all fun f => !f.required || seen.contains f.name := by
      rw [List.append_nil, List.all_eq_true]
      intro f hf
      cases hreq : f.required with
      | false => rfl
      | true => simpa using hrequired f hf hreq
    rw [readMembers, if_pos hall]
  | @absent f fields ms a b hoptional _ ih =>
    rw [List.append_cons] at hnames ⊢
    refine ih hnames ?_ fun k hk => ?_
    · intro g hg hreq
      rcases List.mem_append.mp hg with hg | hg
      · exact hrequired g hg hreq
      · rw [List.mem_singleton.mp hg, hoptional] at hreq
        exact absurd hreq Bool.false_ne_true
    · rw [List.map_append]
      exact List.mem_append_left _ (hseen k hk)
  | @present f fields n ms a a' b hread _ ih =>
    have hnew : f.name ∉ done.map Field.name := by
      rw [List.map_append, List.map_cons, List.nodup_append] at hnames
      exact fun hmem => hnames.2.2 _ hmem _ (List.mem_cons_self ..) rfl
    have hfind : (done ++ f :: fields).find? (fun g => g.name == f.name) = some f := by
      have hnone : done.find? (fun g => g.name == f.name) = none := by
        rw [List.find?_eq_none]
        intro g hg hsame
        exact hnew (beq_iff_eq.mp hsame ▸ List.mem_map_of_mem hg)
      rw [List.find?_append, hnone, List.find?_cons_of_pos (by simp)]
      rfl
    have hunseen : seen.contains f.name = false := by
      rw [List.contains_eq_mem, decide_eq_false_iff_not]
      exact fun hmem => hnew (hseen _ hmem)
    have hrest : readMembers (done ++ f :: fields) (f.name :: seen) a' ms = .ok b := by
      rw [List.append_cons] at hnames ⊢
      refine ih hnames ?_ ?_
      · intro g hg hreq
        rcases List.mem_append.mp hg with hg | hg
        · exact List.mem_cons_of_mem _ (hrequired g hg hreq)
        · rw [List.mem_singleton.mp hg]
          exact List.mem_cons_self ..
      · intro k hk
        rw [List.map_append, List.mem_append]
        rcases List.mem_cons.mp hk with rfl | hk
        · exact .inr (by simp)
        · exact .inl (hseen k hk)
    rw [readMembers, hfind]
    simp only [hunseen, Bool.false_eq_true, if_false, hread]
    exact hrest

/-- **Members that were written field by field are read field by field.** -/
theorem ofFields_of_written {fields : List (Field α)} {ms : List (Option String × Node)} {a b : α}
    (hnames : (fields.map Field.name).Nodup) (h : Written fields ms a b) : ofFields fields a (.object ms) = .ok b := by
  have hread : readMembers ([] ++ fields) [] a ms = .ok b := readMembers_of_written h hnames (by simp) (by simp)
  exact hread

end Decoder

/-! ## Pruned trees -/

namespace Node

theorem pruneItems_eq_map (levels : Nat) (items : List Node) : pruneItems levels items = items.map (prune levels) := by
  induction items with
  | nil => rfl
  | cons n rest ih => rw [pruneItems, ih, List.map_cons]

theorem pruneMembers_eq_map (levels : Nat) (ms : List (Option String × Node)) :
    pruneMembers levels ms = ms.map fun m => (m.1, m.2.prune levels) := by
  induction ms with
  | nil => rfl
  | cons m rest ih => rw [pruneMembers, ih, List.map_cons]

mutual

/-- Pruning keeps breaks. -/
theorem complete_prune (levels : Nat) (n : Node) : (n.prune levels).complete = n.complete := by
  cases n with
  | array items =>
    cases levels with
    | zero => cases h : completeItems items <;> simp [prune, complete, h]
    | succ levels => simpa only [prune, complete] using completeItems_prune levels items
  | object ms =>
    cases levels with
    | zero => cases h : completeMembers ms <;> simp [prune, complete, h]
    | succ levels => simpa only [prune, complete] using completeMembers_prune levels ms
  | null | bool | int | float | string | unreadable | cut => cases levels <;> rfl

theorem completeItems_prune (levels : Nat) (items : List Node) :
    completeItems (pruneItems levels items) = completeItems items := by
  cases items with
  | nil => rfl
  | cons n rest => simp only [pruneItems, completeItems, complete_prune levels n, completeItems_prune levels rest]

theorem completeMembers_prune (levels : Nat) (ms : List (Option String × Node)) :
    completeMembers (pruneMembers levels ms) = completeMembers ms := by
  cases ms with
  | nil => rfl
  | cons m rest =>
    simp only [pruneMembers, completeMembers, complete_prune levels m.2, completeMembers_prune levels rest]

end

mutual

/-- Pruning does not make a tree deeper. -/
theorem depth_prune_le (levels : Nat) (n : Node) : (n.prune levels).depth ≤ n.depth := by
  cases n with
  | array items =>
    cases levels with
    | zero => cases h : completeItems items <;> simp [prune, depth, h]
    | succ levels => simpa only [prune, depth] using Nat.add_le_add_left (depthItems_prune_le levels items) 1
  | object ms =>
    cases levels with
    | zero => cases h : completeMembers ms <;> simp [prune, depth, h]
    | succ levels => simpa only [prune, depth] using Nat.add_le_add_left (depthMembers_prune_le levels ms) 1
  | null | bool | int | float | string | unreadable | cut => cases levels <;> exact Nat.le_refl _

theorem depthItems_prune_le (levels : Nat) (items : List Node) :
    depthItems (pruneItems levels items) ≤ depthItems items := by
  cases items with
  | nil => exact Nat.le_refl _
  | cons n rest =>
    have hfirst := depth_prune_le levels n
    have hrest := depthItems_prune_le levels rest
    simp only [pruneItems, depthItems]
    omega

theorem depthMembers_prune_le (levels : Nat) (ms : List (Option String × Node)) :
    depthMembers (pruneMembers levels ms) ≤ depthMembers ms := by
  cases ms with
  | nil => exact Nat.le_refl _
  | cons m rest =>
    have hfirst := depth_prune_le levels m.2
    have hrest := depthMembers_prune_le levels rest
    simp only [pruneMembers, depthMembers]
    omega

end

mutual

/-- A pruned tree that has a value has the value of the whole tree. -/
theorem toValue?_of_prune {levels : Nat} {n : Node} {v : Value} (h : (n.prune levels).toValue? = some v) :
    n.toValue? = some v := by
  cases n with
  | array items =>
    cases levels with
    | zero => cases hitems : completeItems items <;> simp [prune, toValue?, hitems] at h
    | succ levels =>
      simp only [prune, toValue?, Option.map_eq_some_iff] at h ⊢
      obtain ⟨vs, hvs, rfl⟩ := h
      exact ⟨vs, itemValues?_of_prune hvs, rfl⟩
  | object ms =>
    cases levels with
    | zero => cases hmembers : completeMembers ms <;> simp [prune, toValue?, hmembers] at h
    | succ levels =>
      simp only [prune, toValue?, Option.map_eq_some_iff] at h ⊢
      obtain ⟨l, hl, rfl⟩ := h
      exact ⟨l, memberValues?_of_prune hl, rfl⟩
  | null | bool | int | float | string | unreadable | cut => cases levels <;> exact h

theorem itemValues?_of_prune {levels : Nat} {items : List Node} {vs : List Value}
    (h : itemValues? (pruneItems levels items) = some vs) : itemValues? items = some vs := by
  cases items with
  | nil => exact h
  | cons n rest =>
    simp only [pruneItems, itemValues?, bind, Option.bind_eq_some_iff] at h ⊢
    obtain ⟨v, hv, others, hothers, hall⟩ := h
    exact ⟨v, toValue?_of_prune hv, others, itemValues?_of_prune hothers, hall⟩

theorem memberValues?_of_prune {levels : Nat} {ms : List (Option String × Node)} {l : List (String × Value)}
    (h : memberValues? (pruneMembers levels ms) = some l) : memberValues? ms = some l := by
  cases ms with
  | nil => exact h
  | cons m rest =>
    simp only [pruneMembers, memberValues?, bind, Option.bind_eq_some_iff] at h ⊢
    obtain ⟨k, hk, v, hv, others, hothers, hall⟩ := h
    exact ⟨k, hk, v, toValue?_of_prune hv, others, memberValues?_of_prune hothers, hall⟩

end

end Node

/-- Two fields with one name, of which the second one reads from a whole tree what the first one reads from a pruned
tree. -/
structure Field.ReadsPruned (f f' : Field α) : Prop where
  /-- The fields have one name. -/
  name : f.name = f'.name
  /-- Both must be there, or neither. -/
  required : f.required = f'.required
  /-- What the first one reads from a pruned tree, the second one reads. -/
  read : ∀ levels n a b, f.read (n.prune levels) a = .ok b → f'.read n a = .ok b

namespace Decoder

/-- What the first decoder reads from a pruned tree, the second one reads from the whole tree. -/
def ReadsPruned (d d' : Decoder α) : Prop := ∀ levels n a, d (n.prune levels) = .ok a → d' n = .ok a

namespace ReadsPruned

variable {d d' : Decoder α}

theorem value : ReadsPruned value value := by
  intro levels n v h
  cases hpruned : (n.prune levels).toValue? with
  | none => simp [Decoder.value, hpruned] at h
  | some w =>
    rw [Decoder.value, hpruned] at h
    rw [Decoder.value, Node.toValue?_of_prune hpruned]
    exact h

/-- Decoders of values without parts read nothing else. -/
theorem of_plain (h : ∀ n a, d n = .ok a → n ≠ .unreadable ∧ n ≠ .cut ∧ (∀ items, n ≠ .array items) ∧
    ∀ ms, n ≠ .object ms) : ReadsPruned d d := by
  intro levels n a hread
  obtain ⟨hunreadable, hcut, harray, hobject⟩ := h _ a hread
  cases n with
  | array items =>
    cases levels with
    | zero => cases hitems : Node.completeItems items <;> simp [Node.prune, hitems] at hunreadable hcut
    | succ levels => exact absurd rfl (harray _)
  | object ms =>
    cases levels with
    | zero => cases hmembers : Node.completeMembers ms <;> simp [Node.prune, hmembers] at hunreadable hcut
    | succ levels => exact absurd rfl (hobject _)
  | null | bool | int | float | string | unreadable | cut => cases levels <;> exact hread

theorem string : ReadsPruned string string := by
  refine of_plain fun n s h => ?_
  cases n <;> simp [Decoder.string] at h ⊢

theorem bool : ReadsPruned bool bool := by
  refine of_plain fun n b h => ?_
  cases n <;> simp [Decoder.bool] at h ⊢

theorem intBetween (least greatest : Int) : ReadsPruned (intBetween least greatest) (intBetween least greatest) := by
  refine of_plain fun n k h => ?_
  cases n <;> simp [Decoder.intBetween] at h ⊢

theorem map (f : α → β) (h : ReadsPruned d d') : ReadsPruned (fun n => (d n).map f) fun n => (d' n).map f := by
  intro levels n b hread
  obtain ⟨a, ha, rfl⟩ := Outcome.map_eq_ok_iff.mp hread
  exact Outcome.map_eq_ok_iff.mpr ⟨a, h levels n a ha, rfl⟩

theorem bind (f : α → Except Fault β) (h : ReadsPruned d d') :
    ReadsPruned (fun n => d n >>= f) fun n => d' n >>= f := by
  intro levels n b hread
  obtain ⟨a, ha, hb⟩ := Outcome.bind_eq_ok_iff.mp hread
  exact Outcome.bind_eq_ok_iff.mpr ⟨a, h levels n a ha, hb⟩

theorem option (h : ReadsPruned d d') : ReadsPruned (option d) (option d') := by
  intro levels n o hread
  by_cases hnull : n = .null
  · subst hnull
    cases levels <;> exact hread
  · have hpruned : n.prune levels ≠ .null := by
      cases n <;> cases levels <;> simp [Node.prune] at hnull ⊢ <;> split <;> simp
    rw [option_of_ne_null hpruned] at hread
    rw [option_of_ne_null hnull]
    exact map some h levels n o hread

/-- Arrays are read from pruned arrays. -/
theorem exists_array {n : Node} {levels : Nat} {items : List Node} (h : n.prune levels = .array items) :
    ∃ levels' whole, n = .array whole ∧ items = whole.map (Node.prune levels') := by
  cases n <;> cases levels <;> simp [Node.prune] at h
  · split at h <;> simp at h
  · exact ⟨_, _, rfl, h.symm.trans (Node.pruneItems_eq_map _ _)⟩
  · split at h <;> simp at h

theorem list (h : ReadsPruned d d') : ReadsPruned (list d) (list d') := by
  intro levels n as hread
  cases hpruned : n.prune levels with
  | array items =>
    obtain ⟨levels', whole, rfl, rfl⟩ := exists_array hpruned
    rw [hpruned] at hread
    simp only [Decoder.list] at hread ⊢
    rw [Outcome.mapM_eq_ok_iff, List.forall₂_map_left_iff] at hread
    rw [Outcome.mapM_eq_ok_iff]
    exact hread.imp fun m a hm => h levels' m a hm
  | _ => simp [hpruned, Decoder.list] at hread

/-- Objects are read from pruned objects. -/
theorem exists_object {n : Node} {levels : Nat} {ms : List (Option String × Node)} (h : n.prune levels = .object ms) :
    ∃ levels' whole, n = .object whole ∧ ms = whole.map fun m => (m.1, m.2.prune levels') := by
  cases n <;> cases levels <;> simp [Node.prune] at h
  · split at h <;> simp at h
  · split at h <;> simp at h
  · exact ⟨_, _, rfl, h.symm.trans (Node.pruneMembers_eq_map _ _)⟩

theorem dict (h : ReadsPruned d d') : ReadsPruned (dict d) (dict d') := by
  intro levels n as hread
  obtain ⟨members, hmembers, rfl⟩ := Outcome.map_eq_ok_iff.mp hread
  refine Outcome.map_eq_ok_iff.mpr ⟨members, ?_, rfl⟩
  cases hpruned : n.prune levels with
  | object ms =>
    obtain ⟨levels', whole, rfl, rfl⟩ := exists_object hpruned
    rw [hpruned] at hmembers
    simp only [Decoder.pairs] at hmembers ⊢
    rw [Outcome.mapM_eq_ok_iff, List.forall₂_map_left_iff] at hmembers
    rw [Outcome.mapM_eq_ok_iff]
    refine hmembers.imp fun m member hm => ?_
    obtain ⟨_ | k, inner⟩ := m
    · simp at hm
    · exact map (fun v => (k, v)) h levels' inner member hm
  | _ => simp [hpruned, Decoder.pairs] at hmembers

/-! ### Structures -/

variable {fields fields' : List (Field α)}

/-- The fields of one name are found at one place. -/
theorem find?_fields (h : List.Forall₂ Field.ReadsPruned fields fields') (k : String) :
    (fields.find? (fun f => f.name == k) = none ∧ fields'.find? (fun f => f.name == k) = none) ∨
    ∃ f f', fields.find? (fun f => f.name == k) = some f ∧ fields'.find? (fun f => f.name == k) = some f' ∧
      f.ReadsPruned f' := by
  induction h with
  | nil => exact .inl ⟨rfl, rfl⟩
  | @cons f f' fields fields' hf _ ih =>
    by_cases hk : f.name = k
    · have hk' : f'.name = k := hf.name ▸ hk
      exact .inr ⟨f, f', List.find?_cons_of_pos (by simp [hk]), List.find?_cons_of_pos (by simp [hk']), hf⟩
    · have hk' : f'.name ≠ k := hf.name ▸ hk
      rw [List.find?_cons_of_neg (by simp [hk]), List.find?_cons_of_neg (by simp [hk'])]
      exact ih

/-- The fields that must be there are the same. -/
theorem all_required (h : List.Forall₂ Field.ReadsPruned fields fields') (seen : List String) :
    (fields.all fun f => !f.required || seen.contains f.name) =
      fields'.all fun f => !f.required || seen.contains f.name := by
  induction h with
  | nil => rfl
  | cons hf _ ih => rw [List.all_cons, List.all_cons, ih, hf.name, hf.required]

theorem readMembers (h : List.Forall₂ Field.ReadsPruned fields fields') {levels : Nat} {seen : List String} {a b : α}
    {ms : List (Option String × Node)}
    (hread : Decoder.readMembers fields seen a (ms.map fun m => (m.1, m.2.prune levels)) = .ok b) :
    Decoder.readMembers fields' seen a ms = .ok b := by
  induction ms generalizing seen a with
  | nil =>
    rw [List.map_nil, Decoder.readMembers, all_required h] at hread
    rw [Decoder.readMembers]
    exact hread
  | cons m rest ih =>
    obtain ⟨_ | k, n⟩ := m
    · simp [Decoder.readMembers] at hread
    rw [List.map_cons, Decoder.readMembers] at hread
    rw [Decoder.readMembers]
    rcases find?_fields h k with ⟨hnone, hnone'⟩ | ⟨f, f', hf, hf', hfield⟩
    · simp only [hnone, Node.complete_prune] at hread
      simp only [hnone']
      split at hread
      · rename_i hcomplete
        rw [if_pos hcomplete]
        exact ih hread
      · simp at hread
    · simp only [hf] at hread
      simp only [hf']
      split at hread
      · simp at hread
      · rename_i hnew
        rw [if_neg hnew]
        obtain ⟨between, hbetween, hread⟩ := Outcome.bind_eq_ok_iff.mp hread
        exact Outcome.bind_eq_ok_iff.mpr ⟨between, hfield.read levels n a between hbetween, ih hread⟩

theorem readPositions (h : List.Forall₂ Field.ReadsPruned fields fields') {levels : Nat} {a b : α} {items : List Node}
    (hread : Decoder.readPositions fields (items.map (Node.prune levels)) a = .ok b) :
    Decoder.readPositions fields' items a = .ok b := by
  induction h generalizing items a with
  | nil =>
    cases items with
    | nil => exact hread
    | cons n rest => simp [Decoder.readPositions] at hread
  | @cons f f' fields fields' hf _ ih =>
    cases items with
    | nil =>
      rw [List.map_nil, Decoder.readPositions, hf.required] at hread
      rw [Decoder.readPositions]
      split at hread
      · simp at hread
      · rename_i hoptional
        rw [if_neg hoptional]
        exact ih hread
    | cons n rest =>
      obtain ⟨between, hbetween, hread⟩ := Outcome.bind_eq_ok_iff.mp hread
      exact Outcome.bind_eq_ok_iff.mpr ⟨between, hf.read levels n a between hbetween, ih hread⟩

/-- **Structures are read from whole trees as from pruned ones.** -/
theorem ofFields (h : List.Forall₂ Field.ReadsPruned fields fields') (start : α) :
    ReadsPruned (ofFields fields start) (ofFields fields' start) := by
  intro levels n a hread
  cases hpruned : n.prune levels with
  | object ms =>
    obtain ⟨levels', whole, rfl, rfl⟩ := exists_object hpruned
    rw [hpruned] at hread
    exact readMembers h hread
  | array items =>
    obtain ⟨levels', whole, rfl, rfl⟩ := exists_array hpruned
    rw [hpruned] at hread
    exact readPositions h hread
  | _ => simp [hpruned, Decoder.ofFields] at hread

end ReadsPruned

end Decoder

namespace Field.ReadsPruned

variable {name : String} {item item' : Decoder β}

theorem optional (h : Decoder.ReadsPruned item item') (set : β → α → α) :
    Field.ReadsPruned (.optional name item set) (.optional name item' set) :=
  ⟨rfl, rfl, fun levels n a => h.map (fun b => set b a) levels n⟩

theorem mandatory (h : Decoder.ReadsPruned item item') (set : β → α → α) :
    Field.ReadsPruned (.mandatory name item set) (.mandatory name item' set) :=
  ⟨rfl, rfl, fun levels n a => h.map (fun b => set b a) levels n⟩

end Field.ReadsPruned

end GuardedQuery
