import GuardedQuery.Order
import Mathlib.Data.List.Nodup
import Mathlib.Data.String.Basic

/-!
# Look-ups in dictionaries

What a dictionary answers after an update, and that updates keep the order of the names. Look-ups need no
order, so their laws hold of all lists of pairs.

## Main statements

* `Dict.get?_insert`: the look-up after an insertion.
* `Dict.sorted_insert`, `Dict.sorted_ofList`: insertions keep the names in order.
* `Dict.get?_ofList_map`: the dictionary of a function on a list of names.
* `Dict.ofList_of_sorted`: a dictionary is the dictionary of its own pairs.
* `Dict.perm_ofList`: the dictionary of pairs with different names.
-/

namespace GuardedQuery.Dict

variable {α β : Type}

@[simp] theorem get?_insert (d : Dict α) (name : String) (v : α) (k : String) :
    get? (insert d name v) k = if name = k then some v else get? d k := by
  induction d with
  | nil => simp [insert, get?]
  | cons p rest ih =>
    obtain ⟨l, w⟩ := p
    simp only [insert]
    by_cases hlt : name < l
    · simp [hlt, get?]
    by_cases heq : name = l
    · subst heq
      simp only [hlt, if_true, if_false, get?]
      split <;> rfl
    · simp only [hlt, heq, if_false, get?, ih]
      by_cases hl : l = k
      · subst hl; simp [heq]
      · simp [hl]

@[simp] theorem names_cons (p : String × α) (d : Dict α) : names (p :: d) = p.1 :: names d := rfl

/-- The names after an insertion depend on the names before it only. -/
theorem names_insert_congr {d : Dict α} {d' : Dict β} (h : names d = names d') (name : String) (v : α)
    (v' : β) : names (insert d name v) = names (insert d' name v') := by
  induction d generalizing d' with
  | nil =>
    cases d' with
    | nil => rfl
    | cons => simp [names] at h
  | cons p rest ih =>
    cases d' with
    | nil => simp [names] at h
    | cons p' rest' =>
      obtain ⟨k, w⟩ := p
      obtain ⟨k', w'⟩ := p'
      simp only [names_cons, List.cons.injEq] at h
      obtain ⟨rfl, hrest⟩ := h
      simp only [insert]
      split
      · simp [hrest]
      · split
        · simp [hrest]
        · simp [ih hrest]

theorem mem_of_get? {d : Dict α} {k : String} {v : α} (h : get? d k = some v) : (k, v) ∈ d := by
  induction d with
  | nil => simp [get?] at h
  | cons p rest ih =>
    obtain ⟨l, w⟩ := p
    simp only [get?] at h
    split at h
    · rename_i hl
      obtain rfl := Option.some.inj h
      exact hl ▸ List.mem_cons_self
    · exact List.mem_cons_of_mem _ (ih h)

theorem get?_eq_none_iff (d : Dict α) (k : String) : get? d k = none ↔ k ∉ names d := by
  induction d with
  | nil => simp [get?, names]
  | cons p rest ih =>
    simp only [get?, names_cons, List.mem_cons, not_or]
    by_cases h : p.1 = k
    · simp [h]
    · simp [h, ih, Ne.symm h]

@[simp] theorem get?_mapValues (f : α → β) (d : Dict α) (k : String) :
    get? (mapValues f d) k = (get? d k).map f := by
  induction d with
  | nil => rfl
  | cons p rest ih =>
    simp only [mapValues, List.map_cons, get?] at ih ⊢
    by_cases h : p.1 = k
    · simp [h]
    · simpa [h] using ih

@[simp] theorem names_mapValues (f : α → β) (d : Dict α) : names (mapValues f d) = names d := by
  simp [names, mapValues]

/-- A dictionary whose values depend on the names only. -/
theorem get?_map_names (g : String → β) (d : Dict α) (k : String) :
    get? (d.map fun p => (p.1, g p.1)) k = if k ∈ names d then some (g k) else none := by
  induction d with
  | nil => simp [get?, names]
  | cons p rest ih =>
    rw [List.map_cons, get?, ih, names_cons]
    by_cases hk : p.1 = k
    · simp [hk]
    · simp [hk, Ne.symm hk]

/-- Dictionaries with the same names and the same look-ups are equal. -/
theorem eq_of_get? {d d' : Dict α} (hnames : names d = names d') (hnodup : (names d).Nodup)
    (h : ∀ k, get? d k = get? d' k) : d = d' := by
  induction d generalizing d' with
  | nil =>
    cases d' with
    | nil => rfl
    | cons => simp [names] at hnames
  | cons p rest ih =>
    cases d' with
    | nil => simp [names] at hnames
    | cons p' rest' =>
      obtain ⟨k, v⟩ := p
      obtain ⟨k', v'⟩ := p'
      simp only [names_cons, List.cons.injEq] at hnames
      obtain ⟨rfl, hrest⟩ := hnames
      simp only [names_cons, List.nodup_cons] at hnodup
      obtain ⟨hnew, hnodup⟩ := hnodup
      obtain rfl : v = v' := by simpa [get?] using h k
      have hsame : rest = rest' := by
        refine ih hrest hnodup ?_
        intro l
        by_cases hl : k = l
        · subst hl
          rw [(get?_eq_none_iff rest k).mpr hnew, (get?_eq_none_iff rest' k).mpr (hrest ▸ hnew)]
        · simpa [get?, hl] using h l
      rw [hsame]

/-! ## Order -/

theorem sorted_cons {p : String × α} {d : Dict α} : Sorted (p :: d) ↔ (∀ k ∈ names d, p.1 < k) ∧ Sorted d := by
  simp [Sorted, names]

theorem sorted_iff_names {d : Dict α} : Sorted d ↔ List.Pairwise (· < ·) (names d) := by
  rw [Sorted, names, List.pairwise_map]

theorem Sorted.nodup_names {d : Dict α} (h : Sorted d) : (names d).Nodup := by
  induction d with
  | nil => simp [names]
  | cons p rest ih =>
    obtain ⟨hlt, hrest⟩ := sorted_cons.mp h
    simp only [names_cons, List.nodup_cons]
    exact ⟨fun hmem => lt_irrefl _ (hlt _ hmem), ih hrest⟩

theorem mem_names_insert (d : Dict α) (name : String) (v : α) (k : String) :
    k ∈ names (insert d name v) ↔ k = name ∨ k ∈ names d := by
  have h := get?_eq_none_iff (insert d name v) k
  rw [get?_insert] at h
  by_cases hk : name = k
  · subst hk
    simpa using h
  · rw [if_neg hk, get?_eq_none_iff, not_iff_not] at h
    rw [← h]
    simp [Ne.symm hk]

theorem contains_iff (d : Dict α) (k : String) : contains d k = true ↔ k ∈ names d := by
  rw [contains, Option.isSome_iff_ne_none, ne_eq, get?_eq_none_iff, not_not]

theorem contains_eq_false_iff {d : Dict α} {k : String} : contains d k = false ↔ get? d k = none := by
  simp [contains]

theorem mem_names_foldl_insert (pairs : List (String × α)) (d : Dict α) (k : String) :
    k ∈ names (pairs.foldl (fun d p => insert d p.1 p.2) d) ↔ k ∈ pairs.map Prod.fst ∨ k ∈ names d := by
  induction pairs generalizing d with
  | nil => simp
  | cons p rest ih => rw [List.foldl_cons, ih, mem_names_insert, List.map_cons, List.mem_cons, or_assoc, or_left_comm]

/-- A dictionary has the names of the pairs that it is made from. -/
theorem mem_names_ofList (pairs : List (String × α)) (k : String) :
    k ∈ names (ofList pairs) ↔ k ∈ pairs.map Prod.fst := by
  rw [ofList, mem_names_foldl_insert]
  simp [names]

theorem mem_nameSet {l : List String} {k : String} : k ∈ nameSet l ↔ k ∈ l := by
  have h := mem_names_ofList (l.map fun n => (n, ())) k
  rwa [List.map_map, Function.comp_def, List.map_id'] at h

theorem sorted_insert {d : Dict α} (h : Sorted d) (name : String) (v : α) : Sorted (insert d name v) := by
  induction d with
  | nil => simp [insert, Sorted]
  | cons p rest ih =>
    obtain ⟨k, w⟩ := p
    obtain ⟨hlt, hrest⟩ := sorted_cons.mp h
    simp only [insert]
    by_cases hname : name < k
    · rw [if_pos hname, sorted_cons]
      refine ⟨?_, h⟩
      simp only [names_cons, List.forall_mem_cons]
      exact ⟨hname, fun l hl => lt_trans hname (hlt l hl)⟩
    by_cases heq : name = k
    · subst heq
      rw [if_neg hname, if_pos rfl, sorted_cons]
      exact ⟨hlt, hrest⟩
    · rw [if_neg hname, if_neg heq, sorted_cons]
      refine ⟨?_, ih hrest⟩
      intro l hl
      rcases (mem_names_insert rest name v l).mp hl with rfl | hl
      · exact lt_of_le_of_ne (not_lt.mp hname) (Ne.symm heq)
      · exact hlt l hl

theorem sorted_foldl_insert (pairs : List (String × α)) {d : Dict α} (h : Sorted d) :
    Sorted (pairs.foldl (fun d p => insert d p.1 p.2) d) := by
  induction pairs generalizing d with
  | nil => exact h
  | cons p rest ih => exact ih (sorted_insert h p.1 p.2)

theorem sorted_ofList (pairs : List (String × α)) : Sorted (ofList pairs) :=
  sorted_foldl_insert pairs List.Pairwise.nil

theorem get?_foldl_insert_map (f : String → α) (l : List String) (d : Dict α) (k : String) :
    get? ((l.map fun n => (n, f n)).foldl (fun d p => insert d p.1 p.2) d) k =
      if k ∈ l then some (f k) else get? d k := by
  induction l generalizing d with
  | nil => simp
  | cons n rest ih =>
    simp only [List.map_cons, List.foldl_cons, ih, get?_insert, List.mem_cons]
    by_cases hrest : k ∈ rest
    · simp [hrest]
    · by_cases hk : n = k
      · simp [hk]
      · simp [hrest, hk, Ne.symm hk]

/-- A dictionary of a function on a list of names has the value of the function at each of them. -/
theorem get?_ofList_map (f : String → α) (l : List String) (k : String) :
    get? (ofList (l.map fun n => (n, f n))) k = if k ∈ l then some (f k) else none := by
  rw [ofList, get?_foldl_insert_map]
  simp [get?]

theorem mem_of_mem_insert {d : Dict α} {name : String} {v : α} {p : String × α} (h : p ∈ insert d name v) :
    p = (name, v) ∨ p ∈ d := by
  induction d with
  | nil => simpa [insert] using h
  | cons q rest ih =>
    obtain ⟨k, w⟩ := q
    simp only [insert] at h
    split at h
    · simpa using h
    · split at h
      · rcases List.mem_cons.mp h with h | h
        · exact .inl h
        · exact .inr (List.mem_cons_of_mem _ h)
      · rcases List.mem_cons.mp h with h | h
        · exact .inr (h ▸ List.mem_cons_self)
        · rcases ih h with h | h
          · exact .inl h
          · exact .inr (List.mem_cons_of_mem _ h)

theorem mem_of_mem_foldl_insert {pairs : List (String × α)} {d : Dict α} {p : String × α}
    (h : p ∈ pairs.foldl (fun d p => insert d p.1 p.2) d) : p ∈ pairs ∨ p ∈ d := by
  induction pairs generalizing d with
  | nil => exact .inr h
  | cons q rest ih =>
    rcases ih h with h | h
    · exact .inl (List.mem_cons_of_mem _ h)
    · rcases mem_of_mem_insert h with h | h
      · exact .inl (h ▸ List.mem_cons_self)
      · exact .inr h

/-- A dictionary holds no other pairs than those it is made from. -/
theorem mem_of_mem_ofList {pairs : List (String × α)} {p : String × α} (h : p ∈ ofList pairs) : p ∈ pairs := by
  simpa using mem_of_mem_foldl_insert h

/-- Giving a name the value that it has changes nothing. -/
theorem insert_of_get? {d : Dict α} (h : Sorted d) {name : String} {v : α} (hv : get? d name = some v) :
    insert d name v = d := by
  induction d with
  | nil => simp [get?] at hv
  | cons p rest ih =>
    obtain ⟨k, w⟩ := p
    obtain ⟨hlt, hrest⟩ := sorted_cons.mp h
    rw [get?] at hv
    by_cases hk : k = name
    · obtain rfl : w = v := by simpa [hk] using hv
      simp [insert, hk]
    · rw [if_neg hk] at hv
      have hname : k < name := hlt name (List.mem_map_of_mem (mem_of_get? hv))
      rw [insert, if_neg (not_lt_of_gt hname), if_neg (ne_of_gt hname), ih hrest hv]

/-- A name after all others is put at the end. -/
theorem insert_of_forall_lt {d : Dict α} {name : String} (h : ∀ k ∈ names d, k < name) (v : α) :
    insert d name v = d ++ [(name, v)] := by
  induction d with
  | nil => rfl
  | cons p rest ih =>
    obtain ⟨k, w⟩ := p
    simp only [names_cons, List.forall_mem_cons] at h
    obtain ⟨hk, hrest⟩ := h
    simp only [insert]
    rw [if_neg (not_lt_of_gt hk), if_neg (ne_of_gt hk), ih hrest, List.cons_append]

theorem foldl_insert_of_sorted {pairs d : Dict α} (h : Sorted (d ++ pairs)) :
    pairs.foldl (fun d p => insert d p.1 p.2) d = d ++ pairs := by
  induction pairs generalizing d with
  | nil => simp
  | cons p rest ih =>
    obtain ⟨_, _, hlt⟩ := List.pairwise_append.mp h
    have hlast : ∀ k ∈ names d, k < p.1 := by
      simp only [names, List.mem_map, forall_exists_index, and_imp, forall_apply_eq_imp_iff₂]
      exact fun a ha => hlt a ha p (by simp)
    have hsplit : (d ++ [p]) ++ rest = d ++ p :: rest := by simp
    rw [← hsplit] at h ⊢
    rw [List.foldl_cons, insert_of_forall_lt hlast, ih h]

/-- A dictionary is the dictionary of its own pairs. -/
theorem ofList_of_sorted {d : Dict α} (h : Sorted d) : ofList d = d := foldl_insert_of_sorted h

/-! ## Pairs with different names -/

/-- A new name is put somewhere. -/
theorem perm_insert {d : Dict α} {name : String} (h : name ∉ names d) (v : α) :
    (insert d name v).Perm ((name, v) :: d) := by
  induction d with
  | nil => exact List.Perm.refl _
  | cons p rest ih =>
    obtain ⟨k, w⟩ := p
    rw [names_cons, List.mem_cons, not_or] at h
    obtain ⟨hk, hrest⟩ := h
    simp only [insert]
    by_cases hlt : name < k
    · rw [if_pos hlt]
    · rw [if_neg hlt, if_neg hk]
      exact ((ih hrest).cons (k, w)).trans (List.Perm.swap (name, v) (k, w) rest)

theorem perm_foldl_insert {pairs : List (String × α)} {d : Dict α} (hnodup : (pairs.map Prod.fst).Nodup)
    (hnew : ∀ p ∈ pairs, p.1 ∉ names d) : (pairs.foldl (fun d p => insert d p.1 p.2) d).Perm (pairs ++ d) := by
  induction pairs generalizing d with
  | nil => exact List.Perm.refl _
  | cons p rest ih =>
    obtain ⟨hp, hrest⟩ := List.forall_mem_cons.mp hnew
    rw [List.map_cons, List.nodup_cons] at hnodup
    obtain ⟨hother, hnodup⟩ := hnodup
    have hstill : ∀ q ∈ rest, q.1 ∉ names (insert d p.1 p.2) := by
      intro q hq
      rw [mem_names_insert, not_or]
      exact ⟨fun heq => hother (heq ▸ List.mem_map_of_mem hq), hrest q hq⟩
    have hlast : (rest.foldl (fun d p => insert d p.1 p.2) (insert d p.1 p.2)).Perm (rest ++ insert d p.1 p.2) :=
      ih hnodup hstill
    have hfirst : (rest ++ insert d p.1 p.2).Perm (rest ++ p :: d) := (perm_insert hp p.2).append_left rest
    exact (hlast.trans hfirst).trans List.perm_middle

/-- Among pairs with different names, a look-up finds the pair of a name. -/
theorem get?_eq_some_iff {d : Dict α} (h : (names d).Nodup) {k : String} {v : α} :
    get? d k = some v ↔ (k, v) ∈ d := by
  refine ⟨mem_of_get?, fun hmem => ?_⟩
  cases hget : get? d k with
  | none => exact absurd (List.mem_map_of_mem hmem) ((get?_eq_none_iff d k).mp hget)
  | some w =>
    have hsame : (k, w) = (k, v) := List.inj_on_of_nodup_map h (mem_of_get? hget) hmem rfl
    rw [(Prod.mk.inj hsame).2]

/-- **The dictionary of pairs with different names has these pairs**, in the order of the names. -/
theorem perm_ofList {pairs : List (String × α)} (h : (pairs.map Prod.fst).Nodup) : (ofList pairs).Perm pairs := by
  have hperm := perm_foldl_insert (d := []) h fun _ _ => by simp [names]
  rwa [List.append_nil] at hperm

/-- The dictionary of pairs with different names answers as the pairs do. -/
theorem get?_ofList {pairs : List (String × α)} (h : (pairs.map Prod.fst).Nodup) (k : String) :
    get? (ofList pairs) k = get? pairs k := by
  ext v
  rw [get?_eq_some_iff (sorted_ofList pairs).nodup_names, get?_eq_some_iff h, (perm_ofList h).mem_iff]

/-- Dictionaries with the same names have them in the same order. -/
theorem names_eq_of_mem_iff {d : Dict α} {d' : Dict β} (h : Sorted d) (h' : Sorted d')
    (hmem : ∀ k, k ∈ names d ↔ k ∈ names d') : names d = names d' := by
  have hperm : (names d).Perm (names d') := (List.perm_ext_iff_of_nodup h.nodup_names h'.nodup_names).mpr hmem
  exact hperm.eq_of_pairwise (fun a b _ _ hab hba => absurd hab (lt_asymm hba)) (sorted_iff_names.mp h)
    (sorted_iff_names.mp h')

end GuardedQuery.Dict

namespace GuardedQuery.Record

theorem value_of_get? {r : Record} {field : String} {v : Value} (h : Dict.get? r field = some v) :
    value r field = v := by
  rw [value, h, Option.getD_some]

theorem value_of_get?_eq_none {r : Record} {field : String} (h : Dict.get? r field = none) :
    value r field = .null := by
  rw [value, h, Option.getD_none]

end GuardedQuery.Record

namespace GuardedQuery.Value

theorem wellFormedMembers_iff {ms : List (String × Value)} :
    WellFormedMembers ms ↔ ∀ m ∈ ms, m.2.WellFormed := by
  induction ms with
  | nil => simp [WellFormedMembers]
  | cons m rest ih => simp [WellFormedMembers, ih]

end GuardedQuery.Value
