import GuardedQuery.Json.Decode
import GuardedQuery.Proofs.Json.Lexing

/-!
# The trees of written values

The text of a value is read as the tree of the value, which stands for the value again.

## Main statements

* `Value.readValue_tokens`: the tree of a value's tokens.
* `Value.draft_toText`: the tree of a value's text.
* `Value.toValue?_ofValue`: the value of a value's tree.
* `Value.parse?_toText`: a written value is read back.
-/

namespace GuardedQuery

open Json (Token readValue readItems readMembers)

namespace Json

/-- An array with items is read item by item. -/
theorem readValue_openArray {ts : List Token} (h : ∀ rest, ts ≠ .closeArray :: rest) (fuel : Nat) :
    readValue (fuel + 1) (.openArray :: ts) = (.array (readItems fuel ts).1, (readItems fuel ts).2) := by
  cases ts with
  | nil => rfl
  | cons t rest => cases t <;> first | rfl | exact absurd rfl (h rest)

/-- An object with members is read member by member. -/
theorem readValue_openObject {ts : List Token} (h : ∀ rest, ts ≠ .closeObject :: rest) (fuel : Nat) :
    readValue (fuel + 1) (.openObject :: ts) = (.object (readMembers fuel ts).1, (readMembers fuel ts).2) := by
  cases ts with
  | nil => rfl
  | cons t rest => cases t <;> first | rfl | exact absurd rfl (h rest)

/-- A value of one token. -/
theorem readValue_scalar {t : Token} {n : Node} (h : t.node? = some n) (fuel : Nat) (rest : List Token) :
    readValue (fuel + 1) (t :: rest) = (n, some rest) := by
  cases t with
  | null | bool | int | float | overflow | string => simp only [readValue, h]
  | openArray | closeArray | openObject | closeObject | colon | comma | junk => simp [Token.node?] at h

end Json

namespace Value

/-! ## Items and members -/

theorem legibleItems_iff {items : List Value} : LegibleItems items ↔ ∀ v ∈ items, v.Legible := by
  induction items with
  | nil => simp [LegibleItems]
  | cons v rest ih => simp [LegibleItems, ih]

theorem legibleMembers_iff {ms : List (String × Value)} : LegibleMembers ms ↔ ∀ m ∈ ms, m.2.Legible := by
  induction ms with
  | nil => simp [LegibleMembers]
  | cons m rest ih => simp [LegibleMembers, ih]

theorem wellFormedItems_iff {items : List Value} : WellFormedItems items ↔ ∀ v ∈ items, v.WellFormed := by
  induction items with
  | nil => simp [WellFormedItems]
  | cons v rest ih => simp [WellFormedItems, ih]

theorem depthItems_le_iff {items : List Value} {k : ℕ} : depthItems items ≤ k ↔ ∀ v ∈ items, v.depth ≤ k := by
  induction items with
  | nil => simp [depthItems]
  | cons v rest ih => simp [depthItems, ih]

theorem depthMembers_le_iff {ms : List (String × Value)} {k : ℕ} :
    depthMembers ms ≤ k ↔ ∀ m ∈ ms, m.2.depth ≤ k := by
  induction ms with
  | nil => simp [depthMembers]
  | cons m rest ih => simp [depthMembers, ih]

/-! ## From tokens to the tree -/

/-- A value does not start with the end of an array. -/
theorem tokens_ne_closeArray (v : Value) (ts rest : List Token) : v.tokens ++ ts ≠ .closeArray :: rest := by
  cases v <;> simp [tokens]

mutual

/-- The tokens of a value are read as the tree of the value. -/
theorem readValue_tokens (v : Value) {fuel : Nat} (hfuel : 2 * v.tokens.length ≤ fuel) (ts : List Token) :
    readValue fuel (v.tokens ++ ts) = (Node.ofValue v, some ts) := by
  cases fuel with
  | zero => cases v <;> simp [tokens] at hfuel
  | succ fuel =>
    cases v with
    | null | bool | int | float | string => exact Json.readValue_scalar rfl fuel ts
    | array items =>
      by_cases hnone : items = []
      · subst hnone
        rfl
      · have hopen : ∀ others, itemTokens items ++ ts ≠ .closeArray :: others := by
          obtain ⟨w, rest, rfl⟩ := List.exists_cons_of_ne_nil hnone
          intro others
          rw [itemTokens_cons, List.append_assoc]
          exact tokens_ne_closeArray w _ others
        have hitems : readItems fuel (itemTokens items ++ ts) = (Node.ofItems items, some ts) := by
          refine readItems_tokens items hnone ?_ ts
          rw [tokens, List.length_cons] at hfuel
          omega
        rw [tokens, List.cons_append, Json.readValue_openArray hopen, hitems]
        rfl
    | object ms =>
      by_cases hnone : ms = []
      · subst hnone
        rfl
      · have hopen : ∀ others, memberTokens ms ++ ts ≠ .closeObject :: others := by
          obtain ⟨⟨k, w⟩, rest, rfl⟩ := List.exists_cons_of_ne_nil hnone
          intro others
          simp [memberTokens_cons]
        have hmembers : readMembers fuel (memberTokens ms ++ ts) = (Node.ofMembers ms, some ts) := by
          refine readMembers_tokens ms hnone ?_ ts
          rw [tokens, List.length_cons] at hfuel
          omega
        rw [tokens, List.cons_append, Json.readValue_openObject hopen, hmembers]
        rfl

/-- The tokens of the items of an array are read as their trees. -/
theorem readItems_tokens (items : List Value) (hsome : items ≠ []) {fuel : Nat}
    (hfuel : 2 * (itemTokens items).length ≤ fuel) (ts : List Token) :
    readItems fuel (itemTokens items ++ ts) = (Node.ofItems items, some ts) := by
  cases items with
  | nil => exact absurd rfl hsome
  | cons v rest =>
    rw [itemTokens_cons, List.length_append] at hfuel
    have htail : 1 ≤ (itemTailTokens rest).length := by cases rest <;> simp [itemTailTokens]
    cases fuel with
    | zero => omega
    | succ fuel =>
      have hfirst : readValue fuel (v.tokens ++ (itemTailTokens rest ++ ts)) =
          (Node.ofValue v, some (itemTailTokens rest ++ ts)) :=
        readValue_tokens v (by omega) (itemTailTokens rest ++ ts)
      rw [itemTokens_cons, List.append_assoc]
      rw [readItems]
      rw [hfirst]
      by_cases hnone : rest = []
      · subst hnone
        rfl
      · have hcomma : itemTailTokens rest = .comma :: itemTokens rest := by
          cases rest with
          | nil => exact absurd rfl hnone
          | cons => rfl
        rw [hcomma, List.length_cons] at hfuel
        have hothers : readItems fuel (itemTokens rest ++ ts) = (Node.ofItems rest, some ts) :=
          readItems_tokens rest hnone (by omega) ts
        simp [hcomma, hothers, Node.ofItems]

/-- The tokens of the members of an object are read as their names and trees. -/
theorem readMembers_tokens (ms : List (String × Value)) (hsome : ms ≠ []) {fuel : Nat}
    (hfuel : 2 * (memberTokens ms).length ≤ fuel) (ts : List Token) :
    readMembers fuel (memberTokens ms ++ ts) = (Node.ofMembers ms, some ts) := by
  cases ms with
  | nil => exact absurd rfl hsome
  | cons m rest =>
    obtain ⟨k, v⟩ := m
    rw [memberTokens_cons] at hfuel
    simp only [List.length_cons, List.length_append] at hfuel
    cases fuel with
    | zero => omega
    | succ fuel =>
      have hfirst : readValue fuel (v.tokens ++ (memberTailTokens rest ++ ts)) =
          (Node.ofValue v, some (memberTailTokens rest ++ ts)) :=
        readValue_tokens v (by omega) (memberTailTokens rest ++ ts)
      rw [memberTokens_cons]
      simp only [List.cons_append, List.append_assoc]
      rw [readMembers]
      rw [hfirst]
      by_cases hnone : rest = []
      · subst hnone
        rfl
      · have hcomma : memberTailTokens rest = .comma :: memberTokens rest := by
          cases rest with
          | nil => exact absurd rfl hnone
          | cons => rfl
        rw [hcomma, List.length_cons] at hfuel
        have hothers : readMembers fuel (memberTokens rest ++ ts) = (Node.ofMembers rest, some ts) :=
          readMembers_tokens rest hnone (by omega) ts
        simp [hcomma, hothers, Node.ofMembers]

end

/-! ## From the tree to the value -/

mutual

/-- The nesting limit takes nothing away from a value within it. -/
theorem prune_ofValue (v : Value) (levels : Nat) (h : v.depth ≤ levels) :
    (Node.ofValue v).prune levels = Node.ofValue v := by
  cases v with
  | null | bool | int | float | string => cases levels <;> rfl
  | array items =>
    cases levels with
    | zero => simp [depth] at h
    | succ levels =>
      rw [depth] at h
      have hitems := pruneItems_ofItems items levels (by omega)
      simp only [Node.ofValue, Node.prune, hitems]
  | object ms =>
    cases levels with
    | zero => simp [depth] at h
    | succ levels =>
      rw [depth] at h
      have hmembers := pruneMembers_ofMembers ms levels (by omega)
      simp only [Node.ofValue, Node.prune, hmembers]

theorem pruneItems_ofItems (items : List Value) (levels : Nat) (h : depthItems items ≤ levels) :
    Node.pruneItems levels (Node.ofItems items) = Node.ofItems items := by
  cases items with
  | nil => rfl
  | cons v rest =>
    rw [depthItems] at h
    have hfirst := prune_ofValue v levels (by omega)
    have hrest := pruneItems_ofItems rest levels (by omega)
    simp only [Node.ofItems, Node.pruneItems, hfirst, hrest]

theorem pruneMembers_ofMembers (ms : List (String × Value)) (levels : Nat) (h : depthMembers ms ≤ levels) :
    Node.pruneMembers levels (Node.ofMembers ms) = Node.ofMembers ms := by
  cases ms with
  | nil => rfl
  | cons m rest =>
    rw [depthMembers] at h
    have hfirst := prune_ofValue m.2 levels (by omega)
    have hrest := pruneMembers_ofMembers rest levels (by omega)
    simp only [Node.ofMembers, Node.pruneMembers, hfirst, hrest]

end

mutual

/-- The tree of a well-formed value stands for the value. -/
theorem toValue?_ofValue (v : Value) (h : v.WellFormed) : (Node.ofValue v).toValue? = some v := by
  cases v with
  | null | bool | int | float | string => rfl
  | array items => simp [Node.ofValue, Node.toValue?, itemValues?_ofItems items h]
  | object ms =>
    simp [Node.ofValue, Node.toValue?, memberValues?_ofMembers ms h.2, Dict.ofList_of_sorted h.1]

theorem itemValues?_ofItems (items : List Value) (h : WellFormedItems items) :
    Node.itemValues? (Node.ofItems items) = some items := by
  cases items with
  | nil => rfl
  | cons v rest =>
    simp [Node.ofItems, Node.itemValues?, toValue?_ofValue v h.1, itemValues?_ofItems rest h.2]

theorem memberValues?_ofMembers (ms : List (String × Value)) (h : WellFormedMembers ms) :
    Node.memberValues? (Node.ofMembers ms) = some ms := by
  cases ms with
  | nil => rfl
  | cons m rest =>
    simp [Node.ofMembers, Node.memberValues?, toValue?_ofValue m.2 h.1, memberValues?_ofMembers rest h.2]

end

end Value

namespace Decoder

/-- The members of an object are read one by one. -/
theorem pairs_ofMembers {ms : List (String × Value)} (h : Value.WellFormedMembers ms) :
    pairs value (.object (Node.ofMembers ms)) = .ok ms := by
  induction ms with
  | nil => rfl
  | cons m rest ih =>
    obtain ⟨k, v⟩ := m
    have hfirst : value (Node.ofValue v) = .ok v := by
      rw [value, Value.toValue?_ofValue v h.1]
    have hrest := ih h.2
    rw [pairs] at hrest ⊢
    rw [Node.ofMembers, List.mapM_cons, hrest]
    simp only [hfirst]
    rfl

/-- A well-formed object is read from its tree. -/
theorem record_ofValue {ms : Record} (h : (Value.object ms).WellFormed) :
    record (Node.ofValue (.object ms)) = .ok ms := by
  rw [record, dict, Node.ofValue, pairs_ofMembers h.2]
  exact congrArg Except.ok (Dict.ofList_of_sorted h.1)

end Decoder

namespace Value

/-! ## Whole texts -/

/-- The text of a value is read as the tree of the value, up to the nesting limit, with nothing left over. -/
theorem draft_toText_prune {v : Value} (hv : v.Legible) :
    Json.draft v.toText = { root := (Node.ofValue v).prune Node.nestingLimit, ended := true } := by
  have hread : readValue (2 * v.tokens.length + 1) (v.tokens ++ []) = (Node.ofValue v, some []) :=
    readValue_tokens v (by omega) []
  rw [List.append_nil] at hread
  simp only [Json.draft, tokens_toText hv, hread]

/-- **The text of a value within the nesting limit is read as the tree of the value**, with nothing left over. -/
theorem draft_toText {v : Value} (hv : v.Legible) (hdepth : v.depth ≤ Node.nestingLimit) :
    Json.draft v.toText = { root := Node.ofValue v, ended := true } := by
  rw [draft_toText_prune hv, prune_ofValue v _ hdepth]

/-- A written value is read back. -/
theorem parse?_toText {v : Value} (hv : v.Legible) (hwell : v.WellFormed)
    (hdepth : v.depth ≤ Node.nestingLimit) : Json.parse? v.toText = some v := by
  simp [Json.parse?, draft_toText hv hdepth, toValue?_ofValue v hwell]

/-- A decoder reads the text of a value as it reads the value. -/
theorem run_toText {α : Type} (decoder : Decoder α) {v : Value} (hv : v.Legible)
    (hdepth : v.depth ≤ Node.nestingLimit) : decoder.run v.toText = decoder.ofValue v := by
  simp only [Decoder.run, Decoder.ofValue, draft_toText hv hdepth]
  cases decoder (Node.ofValue v) <;> rfl

end Value

end GuardedQuery
