import GuardedQuery.Journal.Line
import GuardedQuery.Proofs.Json.Reading

/-!
# Log lines cannot be forged

A line of the log takes up one line of text, whatever names and texts it carries: quoting leaves no line feed between
quotes, and there is none outside of them. The text is read back as one object, which has the members of the line and
no others. So a line tells what it was written for: two lines have one text if and only if they have the same severity,
event and fields, in whichever order the fields were given.

## Main definitions

* `LogLine.members`: what a line says.
* `LogLine.written`: the same in the order of the text.

## Main statements

* `Value.newline_not_mem_chars`: the text of a value is a single line.
* `LogLine.draft_output`: the text of a line is read as the tree of its members.
* `LogLine.output_unforgeable`: a line with different names is one line of text, and the text stands for its members.
-/

namespace GuardedQuery

/-! ## Single lines -/

namespace Json

theorem newline_not_mem_escapeChar (c : Char) : '\n' ∉ escapeChar c := by
  by_cases hcontrol : c.toNat < 0x20
  · have hall : ∀ n < 0x20, '\n' ∉ escapeChar (Char.ofNat n) := by decide
    rw [← Char.ofNat_toNat c]
    exact hall c.toNat hcontrol
  · have hother : '\n' ≠ c := by
      rintro rfl
      exact hcontrol (by decide)
    by_cases hspecial : c = '"' ∨ c = '\\'
    · rcases hspecial with rfl | rfl <;> decide
    · obtain ⟨hquote, hslash⟩ := not_or.mp hspecial
      have hplain : escapeChar c = [c] := by
        unfold escapeChar
        split_ifs <;> first | rfl | (subst c; simp at hcontrol)
      simpa [hplain] using hother

/-- Quoting leaves no line feed. -/
theorem newline_not_mem_quoteChars (s : String) : '\n' ∉ quoteChars s := by
  simp [quoteChars, newline_not_mem_escapeChar]

end Json

namespace Value

mutual

/-- **The text of a value is a single line.** -/
theorem newline_not_mem_chars (v : Value) : '\n' ∉ v.chars := by
  cases v with
  | null | bool | int | float => exact fun h => (bare_of_opener?_eq_none rfl).2 _ h (by decide)
  | string s => exact Json.newline_not_mem_quoteChars s
  | array items => simpa [chars] using newline_not_mem_itemChars items
  | object ms => simpa [chars] using newline_not_mem_memberChars ms

theorem newline_not_mem_itemChars (items : List Value) : '\n' ∉ itemChars items := by
  cases items with
  | nil => simp [itemChars]
  | cons v rest =>
    have hfirst := newline_not_mem_chars v
    have htail : '\n' ∉ itemTail rest := by
      cases rest with
      | nil => simp [itemTail]
      | cons w others => simpa [itemTail] using newline_not_mem_itemChars (w :: others)
    simp [itemChars_cons, hfirst, htail]

theorem newline_not_mem_memberChars (ms : List (String × Value)) : '\n' ∉ memberChars ms := by
  cases ms with
  | nil => simp [memberChars]
  | cons m rest =>
    obtain ⟨k, v⟩ := m
    have hname := Json.newline_not_mem_quoteChars k
    have hfirst := newline_not_mem_chars v
    have htail : '\n' ∉ memberTail rest := by
      cases rest with
      | nil => simp [memberTail]
      | cons m' others => simpa [memberTail] using newline_not_mem_memberChars (m' :: others)
    simp [memberChars_cons, hname, hfirst, htail]

end

/-- A line feed after an object adds no token. -/
theorem tokens_object_newline {ms : List (String × Value)} (h : LegibleMembers ms) :
    Json.tokens ((object ms).toText ++ "\n").toList = (object ms).tokens := by
  obtain ⟨fuel, hfuel⟩ := Nat.exists_eq_add_of_le (length_memberTokens_le ms)
  have hblank : Json.tokensUpTo (fuel + 2) ['\n'] = [] := rfl
  have hlength : (chars (object ms) ++ ['\n']).length + 1 = (memberTokens ms).length + (fuel + 2) + 1 := by
    simp only [chars, List.length_append, List.length_cons, List.length_nil, hfuel]
    omega
  have hmembers := tokensUpTo_memberChars ms h (fuel + 2) ['\n']
  rw [hblank, List.append_nil] at hmembers
  rw [String.toList_append, toText, String.toList_ofList, Json.tokens]
  change Json.tokensUpTo ((chars (object ms) ++ ['\n']).length + 1) (chars (object ms) ++ ['\n']) = _
  rw [hlength, chars, List.cons_append, Json.tokensUpTo_mark (by decide) (fun _ => rfl), hmembers, tokens]

/-- An object of texts, written on a line, is read as the tree of the object. -/
theorem draft_object_newline {ms : List (String × Value)} (h : LegibleMembers ms) (hdepth : depthMembers ms = 0) :
    Json.draft ((object ms).toText ++ "\n") = { root := Node.ofValue (.object ms), ended := true } := by
  have hread : Json.readValue (2 * (object ms).tokens.length + 1) ((object ms).tokens ++ []) =
      (Node.ofValue (object ms), some []) := readValue_tokens (object ms) (by omega) []
  rw [List.append_nil] at hread
  have hprune : (Node.ofValue (object ms)).prune Node.nestingLimit = Node.ofValue (object ms) :=
    prune_ofValue (object ms) _ (by simp [depth, hdepth, Node.nestingLimit])
  simp only [Json.draft, tokens_object_newline h, hread, hprune]

end Value

namespace LogLine

/-! ## What a line says -/

/-- The members of fields. -/
def fieldMembers (fields : List (String × String)) : List (String × Value) :=
  fields.map fun f => (f.1, .string f.2)

/-- What a line says: its event, its severity and its fields. -/
def members (l : LogLine) : List (String × Value) :=
  ("event", .string l.event) :: ("severity", .string l.severity.name) :: fieldMembers l.fields

/-- What a line says, in the order of its text. -/
def written (l : LogLine) : List (String × Value) :=
  ("event", .string l.event) :: ("severity", .string l.severity.name) :: fieldMembers l.sortedFields

theorem output_eq (l : LogLine) : l.output = (Value.object l.written).toText ++ "\n" := rfl

theorem perm_written (l : LogLine) : l.written.Perm l.members :=
  (((List.mergeSort_perm l.fields _).map _).cons _).cons _

theorem exists_text_of_mem_written {l : LogLine} {m : String × Value} (h : m ∈ l.written) :
    ∃ s, m.2 = .string s := by
  simp only [written, fieldMembers, List.mem_cons, List.mem_map] at h
  obtain rfl | rfl | ⟨f, _, rfl⟩ := h <;> exact ⟨_, rfl⟩

theorem wellFormed_of_mem_written {l : LogLine} {m : String × Value} (h : m ∈ l.written) : m.2.WellFormed := by
  obtain ⟨s, hs⟩ := exists_text_of_mem_written h
  rw [hs]
  trivial

/-- **The text of a line is read as the tree of its members**, each of them once. -/
theorem draft_output (l : LogLine) :
    Json.draft l.output = { root := Node.ofValue (.object l.written), ended := true } := by
  have hlegible : Value.LegibleMembers l.written := by
    refine Value.legibleMembers_iff.mpr fun m hm => ?_
    obtain ⟨s, hs⟩ := exists_text_of_mem_written hm
    rw [hs]
    trivial
  have hdepth : Value.depthMembers l.written ≤ 0 := by
    refine Value.depthMembers_le_iff.mpr fun m hm => ?_
    obtain ⟨s, hs⟩ := exists_text_of_mem_written hm
    simp [hs, Value.depth]
  exact Value.draft_object_newline hlegible (Nat.le_zero.mp hdepth)

/-- The text of a line stands for the object with its members. -/
theorem parse?_output (l : LogLine) : Json.parse? l.output = some (.ofMembers l.written) := by
  have hwell : Value.WellFormedMembers l.written := Value.wellFormedMembers_iff.mpr fun _ => wellFormed_of_mem_written
  simp [Json.parse?, draft_output, Node.ofValue, Node.toValue?, Value.memberValues?_ofMembers _ hwell, Value.ofMembers]

/-- What a line says can be told from its text, together with the order in which it is said. -/
theorem output_eq_iff_written {l l' : LogLine} : l'.output = l.output ↔ l'.written = l.written := by
  refine ⟨fun h => ?_, fun h => by rw [output_eq, output_eq, h]⟩
  have hroot : Node.ofValue (.object l'.written) = Node.ofValue (.object l.written) := by
    have hdraft := congrArg (fun text => (Json.draft text).root) h
    simpa only [draft_output] using hdraft
  have hvalues := congrArg Node.memberValues? (Node.object.inj hroot)
  have hread : ∀ k : LogLine, Node.memberValues? (Node.ofMembers k.written) = some k.written := fun k =>
    Value.memberValues?_ofMembers _ (Value.wellFormedMembers_iff.mpr fun _ => wellFormed_of_mem_written)
  rw [hread, hread] at hvalues
  exact Option.some.inj hvalues

/-! ## The order of the fields -/

theorem Severity.name_injective : Function.Injective Severity.name := by
  intro a b h
  cases a <;> cases b <;> simp [Severity.name] at h ⊢

theorem fieldMembers_injective : Function.Injective fieldMembers := by
  refine List.map_injective_iff.mpr fun f g h => ?_
  simpa [Prod.ext_iff] using h

/-- Fields with different names are sorted in one way. -/
theorem sortedFields_eq_iff {l l' : LogLine} (h : (l.fields.map Prod.fst).Nodup) :
    l'.sortedFields = l.sortedFields ↔ l'.fields.Perm l.fields := by
  have hperm : ∀ k : LogLine, k.sortedFields.Perm k.fields := fun k => List.mergeSort_perm k.fields _
  have hsorted : ∀ k : LogLine, k.sortedFields.Pairwise fun f g => f.1 ≤ g.1 := by
    intro k
    have hpairwise := @List.pairwise_mergeSort (String × String) (fun f g => decide (f.1 ≤ g.1))
      (fun f g k hfg hgk => by simpa using le_trans (by simpa using hfg) (by simpa using hgk))
      (fun f g => by simpa using le_total f.1 g.1) k.fields
    simpa only [sortedFields, decide_eq_true_eq] using hpairwise
  constructor
  · intro heq
    exact (hperm l').symm.trans (heq ▸ hperm l)
  · intro hfields
    refine List.Perm.eq_of_pairwise ?_ (hsorted l') (hsorted l) (((hperm l').trans hfields).trans (hperm l).symm)
    intro f g hf hg hfg hgf
    have hf : f ∈ l.fields := hfields.mem_iff.mp ((hperm l').mem_iff.mp hf)
    exact List.inj_on_of_nodup_map h hf ((hperm l).mem_iff.mp hg) (le_antisymm hfg hgf)

theorem written_eq_iff {l l' : LogLine} :
    l'.written = l.written ↔
      l'.severity = l.severity ∧ l'.event = l.event ∧ l'.sortedFields = l.sortedFields := by
  simp only [written, List.cons.injEq, Prod.mk.injEq, true_and, Value.string.injEq,
    Severity.name_injective.eq_iff, fieldMembers_injective.eq_iff]
  exact and_left_comm

/-- **A line of the log cannot be forged.** Whatever texts it carries, its text ends with the only line feed in it. If
its fields have different names, none of them the name of another member, then the text is one object with the members
of the line, each of them once and no others. Any line with the same text has the same severity, event and fields, and
the order in which the fields are given does not show. -/
theorem output_unforgeable (l : LogLine) (hdistinct : (l.fields.map Prod.fst).Nodup)
    (hnames : ∀ f ∈ l.fields, f.1 ≠ "event" ∧ f.1 ≠ "severity") :
    (∃ line, l.output.toList = line ++ ['\n'] ∧ '\n' ∉ line) ∧
    (∃ written : List (String × Value), written.Perm l.members ∧
      Json.draft l.output = { root := Node.ofValue (.object written), ended := true }) ∧
    (∃ record : Record, record.Perm l.members ∧ Json.parse? l.output = some (.object record)) ∧
    ∀ l' : LogLine, l'.output = l.output ↔
      l'.severity = l.severity ∧ l'.event = l.event ∧ l'.fields.Perm l.fields := by
  refine ⟨⟨Value.chars (.object l.written), ?_, Value.newline_not_mem_chars _⟩,
    ⟨l.written, perm_written l, draft_output l⟩, ⟨Dict.ofList l.written, ?_, parse?_output l⟩, fun l' => ?_⟩
  · rw [output_eq, String.toList_append, Value.toText, String.toList_ofList]
    rfl
  · have hnodup : (l.members.map Prod.fst).Nodup := by
      have hfields : (fieldMembers l.fields).map Prod.fst = l.fields.map Prod.fst := by simp [fieldMembers]
      simp only [members, List.map_cons, hfields, List.nodup_cons, List.mem_cons, List.mem_map, not_or, not_exists,
        not_and]
      exact ⟨⟨by decide, fun f hf => (hnames f hf).1⟩, fun f hf => (hnames f hf).2, hdistinct⟩
    have hwritten : (l.written.map Prod.fst).Nodup := ((perm_written l).map Prod.fst).nodup_iff.mpr hnodup
    exact (Dict.perm_ofList hwritten).trans (perm_written l)
  · rw [output_eq_iff_written, written_eq_iff, sortedFields_eq_iff hdistinct]

/-- A query on an entity whose name is made to look like the end of its line and the beginning of another. -/
def refusedQuery : LogLine where
  severity := .warn
  event := "QUERY_BLOCKED"
  fields := [("reason", "Field 'A' is \"bad\"\nnext"), ("entity", "User\"\x7d\n\x7b\"event\":\"QUERY_EXECUTED")]

/-- The name stays a text: there is one object on one line, and the name is in it as it was given. -/
theorem output_unforgeable_refused :
    (refusedQuery.fields.map Prod.fst).Nodup ∧
    (∀ f ∈ refusedQuery.fields, f.1 ≠ "event" ∧ f.1 ≠ "severity") ∧
    (∃ line, refusedQuery.output.toList = line ++ ['\n'] ∧ '\n' ∉ line) ∧
    (∃ record : Record, record.Perm
        [("event", .string "QUERY_BLOCKED"), ("severity", .string "WARN"),
         ("reason", .string "Field 'A' is \"bad\"\nnext"),
         ("entity", .string "User\"\x7d\n\x7b\"event\":\"QUERY_EXECUTED")] ∧
      Json.parse? refusedQuery.output = some (.object record)) ∧
    { refusedQuery with fields := refusedQuery.fields.reverse }.output = refusedQuery.output ∧
    { refusedQuery with fields := [] }.output ≠ refusedQuery.output := by
  have hdistinct : (refusedQuery.fields.map Prod.fst).Nodup := by decide
  have hnames : ∀ f ∈ refusedQuery.fields, f.1 ≠ "event" ∧ f.1 ≠ "severity" := by decide
  obtain ⟨hline, _, hrecord, hsame⟩ := output_unforgeable refusedQuery hdistinct hnames
  refine ⟨hdistinct, hnames, hline, hrecord, ?_, ?_⟩
  · exact (hsame _).mpr ⟨rfl, rfl, List.reverse_perm _⟩
  · intro h
    exact absurd ((hsame _).mp h).2.2 (by decide)

end LogLine

end GuardedQuery
