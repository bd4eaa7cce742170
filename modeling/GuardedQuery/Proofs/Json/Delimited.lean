import GuardedQuery.Proofs.Dict
import GuardedQuery.Proofs.Json.Quoted

/-!
# Where texts of values end

The text of a value tells where it ends as long as a comma, a closing bracket or nothing follows it. So a
text of an array or an object consists of the texts of its parts in one way only, and two records with the
same names have one text if and only if they have one text at every name. This holds of all values, also of
numbers that no document could hold.

## Main definitions

* `Json.Bare`: characters that are neither marks nor quotes.
* `Json.Ends`: what may follow a value.

## Main statements

* `Value.chars_append_inj`: the text of a value tells where it ends.
* `Record.toText_eq_iff`: when two records have one text.
-/

namespace GuardedQuery

namespace Json

/-- The characters that may follow a value. -/
def closers : List Char := [',', ']', '\x7d']

/-- The characters that stand in no number and no word. -/
def marks : List Char := ['"', '[', '\x7b', ',', ']', '\x7d', ' ', '\n', '\t', '\r']

/-- At least one character, and none of them a mark. -/
def Bare (cs : List Char) : Prop := cs ≠ [] ∧ ∀ c ∈ cs, c ∉ marks

/-- Nothing, or characters that begin with the end of a value. -/
def Ends (r : List Char) : Prop := ∀ c, r.head? = some c → c ∈ closers

theorem ends_nil : Ends [] := by simp [Ends]

theorem ends_cons {c : Char} (h : c ∈ closers) (r : List Char) : Ends (c :: r) := by simpa [Ends] using h

theorem closers_subset_marks {c : Char} (h : c ∈ closers) : c ∈ marks := by
  have hall : ∀ c ∈ closers, c ∈ marks := by simp [closers, marks]
  exact hall c h

/-- Characters without marks end at the first mark. -/
theorem bare_append_inj {a b r r' : List Char} (ha : ∀ c ∈ a, c ∉ marks) (hb : ∀ c ∈ b, c ∉ marks)
    (hr : Ends r) (hr' : Ends r') (h : a ++ r = b ++ r') : a = b ∧ r = r' := by
  induction a generalizing b with
  | nil =>
    cases b with
    | nil => exact ⟨rfl, h⟩
    | cons c b =>
      have hhead : r.head? = some c := by rw [← List.nil_append r, h]; rfl
      exact absurd (closers_subset_marks (hr c hhead)) (hb c (by simp))
  | cons c a ih =>
    cases b with
    | nil =>
      have hhead : r'.head? = some c := by rw [← List.nil_append r', ← h]; rfl
      exact absurd (closers_subset_marks (hr' c hhead)) (ha c (by simp))
    | cons d b =>
      obtain ⟨rfl, htail⟩ := List.cons.inj h
      obtain ⟨rfl, hrest⟩ :=
        ih (fun x hx => ha x (List.mem_cons_of_mem _ hx)) (fun x hx => hb x (List.mem_cons_of_mem _ hx)) htail
      exact ⟨rfl, hrest⟩

theorem not_mem_marks_of_isDigit {c : Char} (h : c.isDigit = true) : c ∉ marks := by
  have hall : ∀ c ∈ marks, c.isDigit = false := by simp [marks]
  intro hc
  simp [hall c hc] at h

theorem toDigits_not_mem_marks (n : Nat) : ∀ c ∈ Nat.toDigits 10 n, c ∉ marks :=
  fun _ hc => not_mem_marks_of_isDigit (Nat.isDigit_of_mem_toDigits (by decide) (by decide) hc)

theorem bare_int (n : Int) : Bare (toString n).toList := by
  have hdigits : ∀ m : Nat, Bare m.repr.toList := by
    intro m
    rw [Nat.toList_repr]
    exact ⟨Nat.toDigits_ne_nil, toDigits_not_mem_marks m⟩
  have hminus : '-' ∉ marks := by decide
  rw [Int.toString_eq_repr, Int.repr_eq_if]
  split
  · exact hdigits _
  · refine ⟨by simp, ?_⟩
    rw [String.toList_append]
    intro c hc
    rcases List.mem_append.mp hc with hc | hc
    · obtain rfl : c = '-' := by simpa using hc
      exact hminus
    · exact (hdigits _).2 c hc

/-- A decimal is laid out without marks if the layout adds none. -/
theorem bare_write {layout : Layout} (hwhole : ∀ c ∈ layout.wholeMark.toList, c ∉ marks)
    (hplus : ∀ c ∈ layout.plus.toList, c ∉ marks) (d : Decimal) : Bare (layout.write d).toList := by
  have hne : Nat.toDigits 10 d.digits ≠ [] := Nat.toDigits_ne_nil
  have hdigits := toDigits_not_mem_marks d.digits
  have htake : ∀ n, ∀ c ∈ (Nat.toDigits 10 d.digits).take n, c ∉ marks :=
    fun n c hc => hdigits c (List.mem_of_mem_take hc)
  have hdrop : ∀ n, ∀ c ∈ (Nat.toDigits 10 d.digits).drop n, c ∉ marks :=
    fun n c hc => hdigits c (List.mem_of_mem_drop hc)
  have hzeros : ∀ n, ∀ c ∈ List.replicate n '0', c ∉ marks := by
    intro n c hc
    rw [List.eq_of_mem_replicate hc]
    decide
  have hsigns : '.' ∉ marks ∧ '0' ∉ marks ∧ 'e' ∉ marks ∧ '-' ∉ marks := by decide
  obtain ⟨hpoint, hzero, hletter, hminus⟩ := hsigns
  simp only [Layout.write]
  generalize Nat.toDigits 10 d.digits = digits at *
  split
  · split
    · refine ⟨by simp [hne], ?_⟩
      simp only [String.toList_append, String.toList_ofList, List.mem_append, or_imp, forall_and]
      exact ⟨⟨hdigits, hzeros _⟩, hwhole⟩
    · split
      · refine ⟨by simp, ?_⟩
        simpa [or_imp, forall_and, hpoint] using ⟨htake _, hdrop _⟩
      · refine ⟨by simp, ?_⟩
        simp only [String.toList_ofList, List.cons_append, List.mem_append, List.mem_cons, or_imp, forall_and,
          forall_eq]
        exact ⟨hzero, hpoint, hzeros _, hdigits⟩
  · refine ⟨by simp, ?_⟩
    simp only [String.toList_append, String.toList_ofList, List.mem_append, or_imp, forall_and]
    refine ⟨⟨⟨?_, by simpa using hletter⟩, ?_⟩, toDigits_not_mem_marks _⟩
    · cases digits with
      | nil => simp
      | cons c rest =>
        cases rest with
        | nil => simpa using hdigits
        | cons => simpa [hpoint] using hdigits
    · split
      · simpa using hminus
      · exact hplus

theorem bare_binary64 (x : Binary64) : Bare x.toText.toList := by
  have hwritten : Bare (Layout.document.write x.shortest).toList :=
    bare_write (by simp [Layout.document, marks]) (by simp [Layout.document, marks]) x.shortest
  obtain ⟨hne, hall⟩ := hwritten
  have hminus : '-' ∉ marks := by decide
  rw [Binary64.toText]
  rw [String.toList_append]
  refine ⟨by simp [hne], ?_⟩
  intro c hc
  rcases List.mem_append.mp hc with hc | hc
  · split at hc
    · obtain rfl : c = '-' := by simpa using hc
      exact hminus
    · simp at hc
  · exact hall c hc

end Json

namespace Value

open Json (Bare Ends closers marks)

/-! ## How values start -/

/-- The mark that a value starts with; numbers and words start with none. -/
def opener? : Value → Option Char
  | string _ => some '"'
  | array _ => some '['
  | object _ => some '\x7b'
  | _ => none

theorem bare_of_opener?_eq_none {v : Value} (h : v.opener? = none) : Bare v.chars := by
  cases v with
  | null => simp [chars, Bare, marks]
  | bool b => cases b <;> simp [chars, Bare, marks]
  | int n => exact Json.bare_int n
  | float x => exact Json.bare_binary64 x
  | string | array | object => simp [opener?] at h

theorem head?_of_opener? {v : Value} {c : Char} (h : v.opener? = some c) :
    v.chars.head? = some c ∧ c ∈ marks := by
  cases v with
  | string | array | object =>
    obtain rfl := Option.some.inj h
    exact ⟨by simp [chars, Json.quoteChars], by simp [marks]⟩
  | null | bool | int | float => simp [opener?] at h

/-- Every value has a first character, which does not end a value. -/
theorem exists_head (v : Value) : ∃ c, v.chars.head? = some c ∧ c ∉ closers := by
  cases hopener : v.opener? with
  | none =>
    obtain ⟨hne, hall⟩ := bare_of_opener?_eq_none hopener
    obtain ⟨c, rest, hcons⟩ := List.exists_cons_of_ne_nil hne
    exact ⟨c, by simp [hcons], fun hc => hall c (by simp [hcons]) (Json.closers_subset_marks hc)⟩
  | some c =>
    refine ⟨c, (head?_of_opener? hopener).1, ?_⟩
    cases v <;> simp [opener?] at hopener <;> simp [← hopener, closers]

theorem head?_chars_append (v : Value) (r : List Char) : (v.chars ++ r).head? = v.chars.head? := by
  obtain ⟨c, hc, _⟩ := exists_head v
  simp [hc]

/-- Values whose texts begin the same characters start alike. -/
theorem opener?_eq_of_append {v w : Value} {r r' : List Char} (h : v.chars ++ r = w.chars ++ r') :
    v.opener? = w.opener? := by
  have hhead : v.chars.head? = w.chars.head? := by
    rw [← head?_chars_append v r, h, head?_chars_append]
  have hmixed : ∀ {v w : Value} {c : Char}, v.chars.head? = w.chars.head? → v.opener? = none →
      w.opener? ≠ some c := by
    intro v w c hhead hv hw
    obtain ⟨hc, hmark⟩ := head?_of_opener? hw
    exact (bare_of_opener?_eq_none hv).2 c (List.mem_of_mem_head? (hhead.trans hc)) hmark
  cases hv : v.opener? with
  | none =>
    cases hw : w.opener? with
    | none => rfl
    | some c => exact absurd hw (hmixed hhead hv)
  | some c =>
    cases hw : w.opener? with
    | none => exact absurd hv (hmixed hhead.symm hw)
    | some d => rw [← (head?_of_opener? hv).1, ← (head?_of_opener? hw).1, hhead]

/-! ## How values end -/

/-- What follows an item of an array. -/
def itemTail : List Value → List Char
  | [] => [']']
  | v :: rest => ',' :: itemChars (v :: rest)

/-- What follows a member of an object. -/
def memberTail : List (String × Value) → List Char
  | [] => ['\x7d']
  | m :: rest => ',' :: memberChars (m :: rest)

theorem itemChars_cons (v : Value) (rest : List Value) :
    itemChars (v :: rest) = v.chars ++ itemTail rest := by
  cases rest <;> simp [itemChars, itemTail]

theorem memberChars_cons (k : String) (v : Value) (rest : List (String × Value)) :
    memberChars ((k, v) :: rest) = Json.quoteChars k ++ ':' :: (v.chars ++ memberTail rest) := by
  cases rest <;> simp [memberChars, memberTail]

theorem ends_itemTail (rest : List Value) (r : List Char) : Ends (itemTail rest ++ r) := by
  cases rest <;> exact Json.ends_cons (by decide) _

theorem ends_memberTail (rest : List (String × Value)) (r : List Char) : Ends (memberTail rest ++ r) := by
  cases rest <;> exact Json.ends_cons (by decide) _

/-- The text of an array depends on the texts of its items only. -/
theorem itemChars_congr {a b : List Value} (h : a.map chars = b.map chars) : itemChars a = itemChars b := by
  induction a generalizing b with
  | nil => obtain rfl : b = [] := by simpa using h.symm
           rfl
  | cons v rest ih =>
    cases b with
    | nil => simp at h
    | cons w rest' =>
      obtain ⟨hfirst, hrest⟩ := List.cons.inj h
      have htail : itemTail rest = itemTail rest' := by
        have := ih hrest
        cases rest <;> cases rest' <;> simp_all [itemTail]
      rw [itemChars_cons, itemChars_cons, hfirst, htail]

/-- The text of an object depends on the names and the texts of its members only. -/
theorem memberChars_congr {a b : List (String × Value)}
    (h : a.map (fun m => (m.1, m.2.chars)) = b.map fun m => (m.1, m.2.chars)) :
    memberChars a = memberChars b := by
  induction a generalizing b with
  | nil => obtain rfl : b = [] := by simpa using h.symm
           rfl
  | cons m rest ih =>
    cases b with
    | nil => simp at h
    | cons m' rest' =>
      obtain ⟨k, v⟩ := m
      obtain ⟨l, w⟩ := m'
      obtain ⟨hfirst, hrest⟩ := List.cons.inj h
      obtain ⟨rfl, hvalue⟩ := Prod.mk.inj hfirst
      have htail : memberTail rest = memberTail rest' := by
        have := ih hrest
        cases rest <;> cases rest' <;> simp_all [memberTail]
      rw [memberChars_cons, memberChars_cons, hvalue, htail]

theorem not_closer_append {c : Char} (hc : c ∈ closers) (v : Value) (r s : List Char) :
    c :: r ≠ v.chars ++ s := by
  obtain ⟨d, hd, hopen⟩ := exists_head v
  intro h
  have hhead : some c = some d := by
    rw [← hd, ← head?_chars_append v s, ← h]
    rfl
  exact hopen (Option.some.inj hhead ▸ hc)

mutual

/-- The text of a value tells where it ends. -/
theorem chars_append_inj (v w : Value) {r r' : List Char} (hr : Ends r) (hr' : Ends r')
    (h : v.chars ++ r = w.chars ++ r') : v.chars = w.chars ∧ r = r' := by
  have hopener := opener?_eq_of_append h
  cases v with
  | null | bool | int | float =>
    exact Json.bare_append_inj (bare_of_opener?_eq_none rfl).2 (bare_of_opener?_eq_none hopener.symm).2 hr hr' h
  | string s =>
    cases w with
    | string t =>
      obtain ⟨rfl, hrest⟩ := Json.quoteChars_append_inj h
      exact ⟨rfl, hrest⟩
    | null | bool | int | float | array | object => simp [opener?] at hopener
  | array a =>
    cases w with
    | array b =>
      obtain ⟨hitems, hrest⟩ := itemChars_append_inj a b (List.cons.inj h).2
      exact ⟨by simp only [chars, itemChars_congr hitems], hrest⟩
    | null | bool | int | float | string | object => simp [opener?] at hopener
  | object a =>
    cases w with
    | object b =>
      obtain ⟨hmembers, hrest⟩ := memberChars_append_inj a b (List.cons.inj h).2
      exact ⟨by simp only [chars, memberChars_congr hmembers], hrest⟩
    | null | bool | int | float | string | array => simp [opener?] at hopener

/-- The items of an array are told apart in its text, which tells where it ends. -/
theorem itemChars_append_inj (a b : List Value) {r r' : List Char}
    (h : itemChars a ++ r = itemChars b ++ r') : a.map chars = b.map chars ∧ r = r' := by
  cases a with
  | nil =>
    cases b with
    | nil => simpa [itemChars] using h
    | cons w rest' =>
      rw [itemChars_cons, List.append_assoc] at h
      exact absurd h (not_closer_append (by decide) w _ _)
  | cons v rest =>
    cases b with
    | nil =>
      rw [itemChars_cons, List.append_assoc] at h
      exact absurd h.symm (not_closer_append (by decide) v _ _)
    | cons w rest' =>
      rw [itemChars_cons, itemChars_cons, List.append_assoc, List.append_assoc] at h
      obtain ⟨hfirst, htail⟩ := chars_append_inj v w (ends_itemTail _ _) (ends_itemTail _ _) h
      cases rest with
      | nil =>
        cases rest' with
        | nil => simpa [itemTail, hfirst] using htail
        | cons => simp [itemTail] at htail
      | cons x others =>
        cases rest' with
        | nil => simp [itemTail] at htail
        | cons y others' =>
          obtain ⟨hrest, hr⟩ := itemChars_append_inj (x :: others) (y :: others') (List.cons.inj htail).2
          exact ⟨congrArg₂ List.cons hfirst hrest, hr⟩

/-- The members of an object are told apart in its text, which tells where it ends. -/
theorem memberChars_append_inj (a b : List (String × Value)) {r r' : List Char}
    (h : memberChars a ++ r = memberChars b ++ r') :
    a.map (fun m => (m.1, m.2.chars)) = b.map (fun m => (m.1, m.2.chars)) ∧ r = r' := by
  cases a with
  | nil =>
    cases b with
    | nil => simpa [memberChars] using h
    | cons m' rest' =>
      rw [memberChars_cons] at h
      simp [memberChars, Json.quoteChars] at h
  | cons m rest =>
    cases b with
    | nil =>
      rw [memberChars_cons] at h
      simp [memberChars, Json.quoteChars] at h
    | cons m' rest' =>
      obtain ⟨k, v⟩ := m
      obtain ⟨l, w⟩ := m'
      rw [memberChars_cons, memberChars_cons, List.append_assoc, List.append_assoc] at h
      obtain ⟨rfl, hvalues⟩ := Json.quoteChars_append_inj h
      simp only [List.cons_append, List.append_assoc, List.cons.injEq, true_and] at hvalues
      obtain ⟨hfirst, htail⟩ := chars_append_inj v w (ends_memberTail _ _) (ends_memberTail _ _) hvalues
      cases rest with
      | nil =>
        cases rest' with
        | nil => simpa [memberTail, hfirst] using htail
        | cons => simp [memberTail] at htail
      | cons x others =>
        cases rest' with
        | nil => simp [memberTail] at htail
        | cons y others' =>
          obtain ⟨hrest, hr⟩ := memberChars_append_inj (x :: others) (y :: others') (List.cons.inj htail).2
          exact ⟨congrArg₂ List.cons (Prod.ext rfl hfirst) hrest, hr⟩

end

theorem toText_eq_iff_chars {v w : Value} : v.toText = w.toText ↔ v.chars = w.chars := by
  rw [toText, toText, String.ofList_inj]

/-- Two objects have one text if and only if their members have the same names and texts in order. -/
theorem object_toText_eq_iff {a b : Record} :
    (object a).toText = (object b).toText ↔ Dict.mapValues chars a = Dict.mapValues chars b := by
  rw [toText_eq_iff_chars]
  constructor
  · intro h
    have hmembers : memberChars a ++ [] = memberChars b ++ [] := by
      rw [List.append_nil, List.append_nil]
      exact (List.cons.inj h).2
    exact (memberChars_append_inj a b hmembers).1
  · intro h
    rw [chars, chars, memberChars_congr h]

end Value

/-- Two records with one list of names have one text if and only if they have one text at every name. -/
theorem Record.toText_eq_iff {a b : Record} (hnames : Dict.names a = Dict.names b)
    (hnodup : (Dict.names a).Nodup) :
    (Value.object a).toText = (Value.object b).toText ↔
      ∀ f, (Dict.get? a f).map Value.toText = (Dict.get? b f).map Value.toText := by
  have htexts : ∀ f, (Dict.get? a f).map Value.toText = (Dict.get? b f).map Value.toText ↔
      Dict.get? (Dict.mapValues Value.chars a) f = Dict.get? (Dict.mapValues Value.chars b) f := by
    intro f
    rw [Dict.get?_mapValues, Dict.get?_mapValues]
    cases Dict.get? a f <;> cases Dict.get? b f <;> simp [Value.toText_eq_iff_chars]
  rw [Value.object_toText_eq_iff]
  simp only [htexts]
  constructor
  · intro h f
    rw [h]
  · intro h
    exact Dict.eq_of_get? (by simpa using hnames) (by simpa using hnodup) h

end GuardedQuery
