import GuardedQuery.Proofs.EntityName
import GuardedQuery.Proofs.Policies

/-!
# What a loaded policy keeps of its document

An entity policy is kept under its name in lower case, and looked up by the trimmed name in lower case. So it is found
under its own name if there is no white space around this name, and under no name otherwise. Documents with two
entities under one key are refused. Projections are kept under the key that they are looked up by, so each look-up
finds one; but of several projections under one key, only the last one in the order of their names stays.

## Main definitions

* `Policy.Finds`: what look-ups in the policy of a document find.

## Main statements

* `Policy.get?_addEntities`, `Policy.get?_addProjections`: what is kept under a key.
* `Policy.trim_of_lookupKey_eq`: no name is looked up by the key of an entity with white space around its name.
* `Policy.loaded_entries_found`: which entries of a document the loaded policy finds.
-/

namespace GuardedQuery

/-- In a list with an element, the search for its key finds an element with this key. -/
theorem exists_find?_key {α : Type} (key : α → String) {l : List α} {a : α} (ha : a ∈ l) :
    ∃ b, (l.find? fun b => key b == key a) = some b ∧ b ∈ l ∧ key b = key a := by
  obtain ⟨b, hb⟩ : ∃ b, (l.find? fun b => key b == key a) = some b := by
    rw [← Option.isSome_iff_exists, List.find?_isSome]
    exact ⟨a, ha, beq_self_eq_true _⟩
  have hkey := List.find?_some hb
  exact ⟨b, hb, List.mem_of_find?_eq_some hb, by simpa using hkey⟩

namespace Policy

variable {p p' : Policy} {e : EntityPolicy} {entities : List EntityPolicy} {projections : Dict (Dict String)}

/-! ## Entities -/

theorem addEntity_eq_ok_iff : p.addEntity e = .ok p' ↔
    Text.isBlankText e.name = false ∧ Dict.get? p.entities e.key = none ∧ p.withEntity e = p' := by
  rw [addEntity]
  cases Text.isBlankText e.name with
  | true => simp
  | false => cases hfree : Dict.get? p.entities e.key <;> simp [Dict.contains, hfree]

/-- Entities are only added under keys that are free. -/
theorem free_of_addEntities (h : entities.foldlM addEntity p = .ok p') :
    (∀ e ∈ entities, Dict.get? p.entities e.key = none) ∧ (entities.map EntityPolicy.key).Nodup := by
  induction entities generalizing p with
  | nil => simp
  | cons e rest ih =>
    rw [List.foldlM_cons] at h
    obtain ⟨between, hfirst, hrest⟩ := Outcome.bind_eq_ok_iff.mp h
    obtain ⟨_, hfree, rfl⟩ := addEntity_eq_ok_iff.mp hfirst
    obtain ⟨hothers, hnodup⟩ := ih hrest
    have hapart : ∀ e' ∈ rest, e.key ≠ e'.key ∧ Dict.get? p.entities e'.key = none := by
      intro e' he'
      simpa [withEntity, ite_eq_iff] using hothers e' he'
    refine ⟨List.forall_mem_cons.mpr ⟨hfree, fun e' he' => (hapart e' he').2⟩, List.nodup_cons.mpr ⟨?_, hnodup⟩⟩
    intro hmem
    obtain ⟨e', he', hkey⟩ := List.mem_map.mp hmem
    exact (hapart e' he').1 hkey.symm

/-- Under a key is what was there, or else the entity with this key. -/
theorem get?_addEntities (h : entities.foldlM addEntity p = .ok p') (k : String) :
    Dict.get? p'.entities k = (Dict.get? p.entities k).or (entities.find? fun e => e.key == k) := by
  induction entities generalizing p with
  | nil =>
    obtain rfl : p = p' := Except.ok.inj h
    simp
  | cons e rest ih =>
    rw [List.foldlM_cons] at h
    obtain ⟨between, hfirst, hrest⟩ := Outcome.bind_eq_ok_iff.mp h
    obtain ⟨_, hfree, rfl⟩ := addEntity_eq_ok_iff.mp hfirst
    rw [ih hrest, withEntity, Dict.get?_insert, List.find?_cons]
    by_cases hkey : e.key = k
    · subst hkey
      simp [hfree]
    · simp [hkey, beq_eq_false_iff_ne.mpr hkey]

/-- Adding entities leaves the projections as they are. -/
theorem projections_addEntities (h : entities.foldlM addEntity p = .ok p') : p'.projections = p.projections := by
  refine Outcome.foldlM_invariant (P := fun b => b.projections = p.projections) (fun e _ b b' hb hadd => ?_) rfl h
  obtain ⟨_, _, rfl⟩ := addEntity_eq_ok_iff.mp hadd
  exact hb

/-! ## Projections -/

theorem addProjection_eq_ok_iff {name : String} {members : Dict String} : p.addProjection name members = .ok p' ↔
    Dict.contains p.entities (lookupKey name) = true ∧
      { p with projections := Dict.insert p.projections (lookupKey name) members } = p' := by
  rw [addProjection]
  cases Dict.contains p.entities (lookupKey name) <;> simp

/-- Under a key is the last projection with this key, or else what was there. -/
theorem get?_addProjections (h : projections.foldlM (fun p entry => addProjection p entry.1 entry.2) p = .ok p')
    (k : String) : Dict.get? p'.projections k =
      ((projections.reverse.find? fun entry => lookupKey entry.1 == k).map Prod.snd).or
        (Dict.get? p.projections k) := by
  induction projections generalizing p with
  | nil =>
    obtain rfl : p = p' := Except.ok.inj h
    simp
  | cons entry rest ih =>
    rw [List.foldlM_cons] at h
    obtain ⟨between, hfirst, hrest⟩ := Outcome.bind_eq_ok_iff.mp h
    obtain ⟨_, rfl⟩ := addProjection_eq_ok_iff.mp hfirst
    rw [ih hrest, Dict.get?_insert, List.reverse_cons, List.find?_append]
    cases rest.reverse.find? fun entry => lookupKey entry.1 == k with
    | some later => simp
    | none => by_cases hkey : lookupKey entry.1 = k <;> simp [hkey]

/-- Adding projections leaves the entities as they are. -/
theorem entities_addProjections
    (h : projections.foldlM (fun p entry => addProjection p entry.1 entry.2) p = .ok p') :
    p'.entities = p.entities := by
  refine Outcome.foldlM_invariant (P := fun b => b.entities = p.entities) (fun entry _ b b' hb hadd => ?_) rfl h
  obtain ⟨_, rfl⟩ := addProjection_eq_ok_iff.mp hadd
  exact hb

/-! ## Documents -/

/-- What look-ups in the policy of a document find: the entity under the key that is looked up, and the last
projection under it. -/
structure Finds (p : Policy) (d : Document) : Prop where
  /-- No two entities have one key. -/
  nodup : (d.entities.map EntityPolicy.key).Nodup
  /-- The entity under the key. -/
  entity? : ∀ name, p.entity? name = d.entities.find? fun e => e.key == lookupKey name
  /-- The last projection under the key. -/
  projection? : ∀ name, p.projection? name =
    (d.projections.reverse.find? fun entry => lookupKey entry.1 == lookupKey name).map Prod.snd

/-- An entity is the one under its key. -/
theorem Finds.find?_key {d : Document} (h : p.Finds d) (he : e ∈ d.entities) :
    (d.entities.find? fun other => other.key == e.key) = some e := by
  obtain ⟨found, hfound, hmem, hkey⟩ := exists_find?_key EntityPolicy.key he
  rw [hfound, List.inj_on_of_nodup_map h.nodup hmem he hkey]

theorem finds_ofDocument {d : Document} (hentities : d.limits.entities = []) (hprojections : d.limits.projections = [])
    (h : ofDocument d = .ok p) : p.Finds d := by
  obtain ⟨_, between, hadded, hfinished⟩ := ofDocument_eq_ok h
  refine ⟨(free_of_addEntities hadded).2, fun name => ?_, fun name => ?_⟩
  · rw [Policy.entity?, entities_addProjections hfinished, get?_addEntities hadded, hentities]
    rfl
  · rw [Policy.projection?, get?_addProjections hfinished, projections_addEntities hadded, hprojections]
    simp [Dict.get?]

/-- An entity is looked up by its key if there is no white space around its name. -/
theorem lookupKey_eq_key_iff : lookupKey e.name = e.key ↔ Text.trim e.name = e.name :=
  Text.lower_trim_eq_lower_iff e.name

/-- No name is looked up by the key of an entity with white space around its name. -/
theorem trim_of_lookupKey_eq {name : String} (h : lookupKey name = e.key) : Text.trim e.name = e.name := by
  have hlower : Text.lower (Text.trim name) = Text.lower e.name := h
  refine (Text.lower_trim_eq_lower_iff e.name).mp ?_
  calc
    Text.lower (Text.trim e.name) = Text.trim (Text.lower (Text.trim name)) := by rw [Text.lower_trim, hlower]
    _ = Text.lower (Text.trim name) := by rw [← Text.lower_trim, Text.trim_trim]
    _ = Text.lower e.name := hlower

/-- **A loaded policy finds the entries of its document** that are named without white space around the name. An
entity with white space around its name is found under no name. Of the projections under one key, every name finds the
last one, so all projections are found if and only if those under one key are the same. -/
theorem loaded_entries_found {text : String} (h : ofText text = .ok p) :
    ∃ d, Decoder.run documentDecoder text = .ok d ∧
      (∀ e ∈ d.entities, Text.trim e.name = e.name → p.entity? e.name = some e) ∧
      (∀ e ∈ d.entities, Text.trim e.name ≠ e.name → ∀ name, p.entity? name ≠ some e) ∧
      (∀ name, p.projection? name =
        (d.projections.reverse.find? fun entry => lookupKey entry.1 == lookupKey name).map Prod.snd) ∧
      ((∀ entry ∈ d.projections, p.projection? entry.1 = some entry.2) ↔
        ∀ a ∈ d.projections, ∀ b ∈ d.projections, lookupKey a.1 = lookupKey b.1 → a.2 = b.2) := by
  obtain ⟨d, hread, hentities, hprojections, hd⟩ := exists_document h
  have hfinds := finds_ofDocument hentities hprojections hd
  refine ⟨d, hread, ?_, ?_, hfinds.projection?, ?_⟩
  · intro e he htrim
    rw [hfinds.entity?, lookupKey_eq_key_iff.mpr htrim]
    exact hfinds.find?_key he
  · intro e he huntrimmed name hfound
    rw [hfinds.entity?] at hfound
    have hkey := List.find?_some hfound
    have heq : e.key = lookupKey name := by simpa using hkey
    exact huntrimmed (trim_of_lookupKey_eq heq.symm)
  · constructor
    · intro hall a ha b hb hkey
      have hsame : p.projection? a.1 = p.projection? b.1 := by rw [projection?, projection?, hkey]
      rw [hall a ha, hall b hb] at hsame
      exact Option.some.inj hsame
    · intro hsame entry hentry
      obtain ⟨last, hlast, hmem, hkey⟩ :=
        exists_find?_key (fun other => lookupKey other.1) (List.mem_reverse.mpr hentry)
      rw [hfinds.projection?, hlast, Option.map_some, hsame last (List.mem_reverse.mp hmem) entry hentry hkey]

/-- A policy for users and guests, with white space before the name of the guests and two projections of users. -/
def tenantText : String :=
  "\x7b\"entities\": [\x7b\"name\": \"User\"\x7d, \x7b\"name\": \" Guest\"\x7d], " ++
    "\"projections\": \x7b\"USER\": \x7b\"A\": \"Id\"\x7d, \"user\": \x7b\"B\": \"Name\"\x7d\x7d\x7d"

/-- The policy that is loaded. -/
def tenantPolicy : Policy where
  entities := [(" guest", { name := " Guest" }), ("user", { name := "User" })]
  projections := [("user", [("B", "Name")])]

/-- Users are found, guests are not, and of the two projections of users the first one is lost. -/
theorem loaded_entries_found_tenants :
    ofText tenantText = .ok tenantPolicy ∧ ∃ d, Decoder.run documentDecoder tenantText = .ok d ∧
      tenantPolicy.entity? "User" = some { name := "User" } ∧
      { name := " Guest" } ∈ d.entities ∧ (∀ name, tenantPolicy.entity? name ≠ some { name := " Guest" }) ∧
      ¬∀ entry ∈ d.projections, tenantPolicy.projection? entry.1 = some entry.2 := by
  have hloaded : ofText tenantText = .ok tenantPolicy := by decide +kernel
  have hentries : (Decoder.run documentDecoder tenantText).toOption.map (fun d => (d.entities, d.projections)) =
      some ([{ name := "User" }, { name := " Guest" }], [("USER", [("A", "Id")]), ("user", [("B", "Name")])]) := by
    decide +kernel
  obtain ⟨d, hd, hfound, hlost, _, hprojections⟩ := loaded_entries_found hloaded
  rw [hd] at hentries
  obtain ⟨hentities, hnamed⟩ := Prod.mk.inj (Option.some.inj hentries)
  have huser : ({ name := "User" } : EntityPolicy) ∈ d.entities := by simp [hentities]
  have hguest : ({ name := " Guest" } : EntityPolicy) ∈ d.entities := by simp [hentities]
  have hfirst : ("USER", [("A", "Id")]) ∈ d.projections := by simp [hnamed]
  have hsecond : ("user", [("B", "Name")]) ∈ d.projections := by simp [hnamed]
  have hkey : lookupKey "USER" = lookupKey "user" := by decide +kernel
  have hkept := hfound _ huser (by decide +kernel)
  have hmissed := hlost _ hguest (by decide +kernel)
  refine ⟨hloaded, d, hd, hkept, hguest, hmissed, ?_⟩
  intro hall
  have hsame := hprojections.mp hall _ hfirst _ hsecond hkey
  simp at hsame

end Policy

end GuardedQuery
