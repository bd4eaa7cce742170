import GuardedQuery.Projection.Offer
import GuardedQuery.Proofs.Failures
import GuardedQuery.Proofs.Registries

/-!
# Which bindings a registry keeps

Under every key a registry keeps the first binding that it has taken, whatever it is offered afterwards and whatever it
has refused before. The bindings that it keeps are fit for the entities that they were offered for, so their rows have
one member for each target, and the identity is a source. A query whose entity was declared by the store that the
bindings were offered for is therefore never told that the identity is not bound.

## Main definitions

* `Registry.TakenFirst`: the first offer under its key to be taken.
* `Storage.LooksUpByKey`: stores that know entities by their keys.

## Main statements

* `Registry.offer_cases`: what one offer does.
* `Registry.find?_offerAll`: under a key the registry keeps the first binding that is fit.
* `Query.failsOnly_unbound`: the keys of a query only lack fields that are not bound.
* `Registry.offers_keep_fit_bindings`: what holds of a registry after any offers.
-/

namespace GuardedQuery

namespace Binding

instance (b : Binding) (schema : EntitySchema) : Decidable (b.Fits schema) :=
  decidable_of_iff (Registry.defect? "" schema b = none) Registry.defect?_eq_none_iff

/-- A fit binding has a target for the identity. -/
theorem Fits.exists_targetOf? {b : Binding} {schema : EntitySchema} (h : b.Fits schema) :
    ∃ target, b.targetOf? schema.identity = some target := by
  have hsome : ¬(b.targetOf? schema.identity).isNone = true := by
    rw [isNone_targetOf?_iff]
    obtain ⟨m, hm, hsource⟩ := h.identity
    exact fun hnone => hnone m hm hsource
  exact Option.ne_none_iff_exists'.mp (by simpa using hsome)

/-- The row of a binding without repeated targets has one member for each target, with the value of its source. -/
theorem perm_project {b : Binding} (h : (b.members.map BoundMember.target).Nodup) (record : Record) :
    (b.project record).Perm (b.members.map fun m => (m.target, Record.value record m.source)) := by
  have hnames : ((b.members.map fun m => (m.target, Record.value record m.source)).map Prod.fst).Nodup := by
    rwa [List.map_map]
  exact Dict.perm_ofList hnames

end Binding

namespace Registry

/-! ## One offer -/

/-- An offer of a binding that is fit under a key that is free is taken, and the binding goes to the end. Any other
offer is refused, and changes nothing. -/
theorem offer_cases (r : Registry) (o : Offer) :
    (o.binding.Fits o.schema ∧ r.find? o.schema.key o.target = none ∧
      r.offer o = (.ok (), { entries := r.entries ++ [o.registration] })) ∨
    (¬(o.binding.Fits o.schema ∧ r.find? o.schema.key o.target = none) ∧ ∃ e, r.offer o = (.error e, r)) := by
  by_cases h : o.binding.Fits o.schema ∧ r.find? o.schema.key o.target = none
  · refine .inl ⟨h.1, h.2, ?_⟩
    rw [offer, register_of_fits h.1 h.2]
    rfl
  · refine .inr ⟨h, ?_⟩
    cases hregister : r.register o.target o.schema o.binding with
    | ok r' =>
      obtain ⟨hfits, hfree, _⟩ := register_eq_ok hregister
      exact absurd ⟨hfits, hfree⟩ h
    | error e => exact ⟨e, by rw [offer, hregister]⟩

theorem offer_eq_ok_iff {r : Registry} {o : Offer} :
    (r.offer o).1 = .ok () ↔ o.binding.Fits o.schema ∧ r.find? o.schema.key o.target = none := by
  rcases offer_cases r o with ⟨hfits, hfree, hoffer⟩ | ⟨hunfit, e, hoffer⟩
  · simp [hoffer, hfits, hfree]
  · simp [hoffer, hunfit]

/-- An offer that is refused leaves the registry as it was. -/
theorem offer_of_error {r r' : Registry} {o : Offer} {e : ProjectionError} (h : r.offer o = (.error e, r')) :
    r' = r := by
  rcases offer_cases r o with ⟨_, _, hoffer⟩ | ⟨_, e', hoffer⟩
  · rw [hoffer] at h
    simp at h
  · rw [hoffer] at h
    exact (Prod.mk.inj h).2.symm

/-- A binding at the end is found if there is none before it. -/
theorem find?_append_registration (r : Registry) (o : Offer) (k : String × String) :
    find? { entries := r.entries ++ [o.registration] } k.1 k.2 =
      (r.find? k.1 k.2).or (if o.key = k then some o.binding else none) := by
  rw [find?, find?, List.find?_append, Option.map_or]
  congr 1
  by_cases hkey : o.key = k
  · subst hkey
    simp [Offer.key, Offer.registration]
  · have hother : ¬(o.schema.key = k.1 ∧ o.target = k.2) := fun h => hkey (Prod.ext h.1 h.2)
    simpa [Offer.registration, hkey] using hother

/-! ## Several offers -/

theorem offerAll_cons (r : Registry) (o : Offer) (rest : List Offer) :
    r.offerAll (o :: rest) = (r.offer o).2.offerAll rest := rfl

/-- **Under a key the registry keeps what it has, or else the first binding that is fit.** -/
theorem find?_offerAll (r : Registry) (offers : List Offer) (k : String × String) :
    (r.offerAll offers).find? k.1 k.2 = (r.find? k.1 k.2).or
      ((offers.find? fun o => o.key = k ∧ o.binding.Fits o.schema).map Offer.binding) := by
  induction offers generalizing r with
  | nil => simp [offerAll]
  | cons o rest ih =>
    rw [offerAll_cons, ih, List.find?_cons]
    rcases offer_cases r o with ⟨hfits, hfree, hoffer⟩ | ⟨hrefused, e, hoffer⟩
    · rw [hoffer, find?_append_registration]
      by_cases hkey : o.key = k
      · simp [hkey, hfits]
      · simp [hkey]
    · rw [hoffer]
      by_cases hunder : o.key = k ∧ o.binding.Fits o.schema
      · obtain ⟨rfl, hfits⟩ := hunder
        have hthere : ∃ b, r.find? o.key.1 o.key.2 = some b :=
          Option.ne_none_iff_exists'.mp fun hnone => hrefused ⟨hfits, hnone⟩
        obtain ⟨b, hb⟩ := hthere
        simp [hb]
      · simp [hunder]

/-- An offer that is the first one under its key to be taken. -/
def TakenFirst (offers : List Offer) (o : Offer) : Prop :=
  ∃ before after, offers = before ++ o :: after ∧ ((offerAll {} before).offer o).1 = .ok () ∧
    ∀ earlier o' later, before = earlier ++ o' :: later → o'.key = o.key → ((offerAll {} earlier).offer o').1 ≠ .ok ()

/-- The first offer to be taken is the first one that is fit. -/
theorem takenFirst_iff {offers : List Offer} {o : Offer} :
    TakenFirst offers o ↔ o.binding.Fits o.schema ∧
      ∃ before after, offers = before ++ o :: after ∧ ∀ o' ∈ before, o'.key = o.key → ¬o'.binding.Fits o'.schema := by
  have hfree : ∀ (before : List Offer), (offerAll {} before).find? o.schema.key o.target = none ↔
      ∀ o' ∈ before, o'.key = o.key → ¬o'.binding.Fits o'.schema := by
    intro before
    have hfind : (offerAll {} before).find? o.schema.key o.target = _ := find?_offerAll {} before o.key
    rw [hfind]
    simp [find?]
  constructor
  · rintro ⟨before, after, hsplit, htaken, _⟩
    obtain ⟨hfits, hnone⟩ := offer_eq_ok_iff.mp htaken
    exact ⟨hfits, before, after, hsplit, (hfree before).mp hnone⟩
  · rintro ⟨hfits, before, after, hsplit, hunfit⟩
    refine ⟨before, after, hsplit, offer_eq_ok_iff.mpr ⟨hfits, (hfree before).mpr hunfit⟩, ?_⟩
    rintro earlier o' later rfl hkey htaken
    exact hunfit o' (by simp) hkey (offer_eq_ok_iff.mp htaken).1

theorem TakenFirst.fits {offers : List Offer} {o : Offer} (h : TakenFirst offers o) : o.binding.Fits o.schema :=
  (takenFirst_iff.mp h).1

theorem TakenFirst.mem {offers : List Offer} {o : Offer} (h : TakenFirst offers o) : o ∈ offers := by
  obtain ⟨before, after, rfl, _⟩ := h
  simp

/-- Under a key a registry keeps the binding of the first offer to be taken. -/
theorem find?_offerAll_eq_some_iff {offers : List Offer} {k : String × String} {b : Binding} :
    (offerAll {} offers).find? k.1 k.2 = some b ↔ ∃ o, TakenFirst offers o ∧ o.key = k ∧ o.binding = b := by
  have hempty : find? {} k.1 k.2 = none := rfl
  rw [find?_offerAll, hempty, Option.none_or, Option.map_eq_some_iff]
  simp only [List.find?_eq_some_iff_append, decide_eq_true_eq, Bool.not_eq_true', decide_eq_false_iff_not, not_and,
    takenFirst_iff]
  constructor
  · rintro ⟨o, ⟨⟨rfl, hfits⟩, before, after, hsplit, hunfit⟩, rfl⟩
    exact ⟨o, ⟨hfits, before, after, hsplit, hunfit⟩, rfl, rfl⟩
  · rintro ⟨o, ⟨hfits, before, after, hsplit, hunfit⟩, rfl, rfl⟩
    exact ⟨o, ⟨⟨rfl, hfits⟩, before, after, hsplit, hunfit⟩, rfl⟩

/-! ## Entries -/

/-- No two entries of a registry have one key. -/
theorem Reachable.nodup_keys {r : Registry} (h : r.Reachable) :
    (r.entries.map fun e => (e.entity, e.target)).Nodup := by
  induction h with
  | empty => exact List.nodup_nil
  | @register r r' target schema b _ hregister ih =>
    obtain ⟨_, hfree, rfl⟩ := register_eq_ok hregister
    rw [List.map_append, List.nodup_append]
    refine ⟨ih, by simp, ?_⟩
    rintro key hold _ hnew rfl
    have hnew : key = (schema.key, target) := by simpa using hnew
    obtain ⟨e, he, hkey⟩ := List.mem_map.mp hold
    obtain ⟨hentity, htarget⟩ := Prod.mk.inj (hkey.trans hnew)
    have hnone := List.find?_eq_none.mp (Option.map_eq_none_iff.mp hfree) e he
    simp [hentity, htarget] at hnone

/-- Every entry of a registry is found by its key. -/
theorem Reachable.find?_of_mem {r : Registry} (h : r.Reachable) {entry : Registration} (hentry : entry ∈ r.entries) :
    r.find? entry.entity entry.target = some entry.binding := by
  cases hfound : r.entries.find? fun e => e.entity == entry.entity && e.target == entry.target with
  | none => simpa using List.find?_eq_none.mp hfound entry hentry
  | some e =>
    have hkey := List.find?_some hfound
    simp only [Bool.and_eq_true, beq_iff_eq] at hkey
    obtain rfl : e = entry :=
      List.inj_on_of_nodup_map h.nodup_keys (List.mem_of_find?_eq_some hfound) hentry (Prod.ext hkey.1 hkey.2)
    rw [find?, hfound, Option.map_some]

theorem Reachable.offer {r : Registry} (h : r.Reachable) (o : Offer) : (r.offer o).2.Reachable := by
  rw [Registry.offer]
  cases hregister : r.register o.target o.schema o.binding with
  | ok r' => exact h.register hregister
  | error e => exact h

theorem Reachable.offerAll {r : Registry} (h : r.Reachable) (offers : List Offer) : (r.offerAll offers).Reachable := by
  induction offers generalizing r with
  | nil => exact h
  | cons o rest ih => exact ih (h.offer o)

/-- Every entry stems from the first offer under its key to be taken. -/
theorem exists_takenFirst_of_mem {offers : List Offer} {entry : Registration}
    (h : entry ∈ (offerAll {} offers).entries) : ∃ o, TakenFirst offers o ∧ entry = o.registration := by
  have hfound := (Reachable.empty.offerAll offers).find?_of_mem h
  obtain ⟨o, htaken, hkey, hbinding⟩ := find?_offerAll_eq_some_iff (k := (entry.entity, entry.target)).mp hfound
  obtain ⟨hentity, htarget⟩ := Prod.mk.inj hkey
  refine ⟨o, htaken, ?_⟩
  rw [Offer.registration, hentity, htarget, hbinding]

end Registry

/-! ## Sort keys -/

/-- A query is only told that it cannot be sorted by a field if the field is not bound. -/
theorem Query.failsOnly_unbound (q : Query) (lookUp : String → Option EntitySchema) (schema : EntitySchema)
    (b : Binding) :
    Outcome.FailsOnly (fun e => ∀ field, e = .sortNotProjected field → b.targetOf? field = none)
      (q.recordKeys lookUp schema b) := by
  refine failsOnly_recordKeys_of (fun item _ => ?_) (fun field hnone field' heq => ?_) (by simp)
  · rw [SortItem.directionOf]
    split
    · exact .ok _
    · simp
  · exact QueryError.sortNotProjected.inj heq ▸ hnone

/-! ## Stores -/

/-- A store that knows entities by their keys: spellings with one key mean one entity, and an entity has the key that
it is found under. -/
structure Storage.LooksUpByKey {σ : Type} [Storage σ] (store : σ) : Prop where
  /-- Spellings with one key mean one entity. -/
  spelling : ∀ name name', entityKey name = entityKey name' → Storage.schema? store name = Storage.schema? store name'
  /-- An entity has the key that it is found under. -/
  key : ∀ name schema, Storage.schema? store name = some schema → schema.key = entityKey name

/-- Stores in memory know entities by their keys. -/
theorem Store.Reachable.looksUpByKey {s : Store} (h : s.Reachable) : Storage.LooksUpByKey s where
  spelling name name' hname := by
    change s.schema? name = s.schema? name'
    rw [schema?, schema?, table?, table?, hname]
  key name schema hschema := by
    obtain ⟨t, ht, rfl⟩ := Option.map_eq_some_iff.mp hschema
    exact (h.sound name t ht).2

namespace Registry

/-- A binding that was offered for the declarations of a store is fit for the entity of a query that it is found for. -/
theorem fits_of_bindingFor {offers : List Offer} {σ : Type} [Storage σ] {store : σ}
    (hstore : Storage.LooksUpByKey store) (hown : ∀ o ∈ offers, Storage.schema? store o.schema.name = some o.schema)
    {q : Query} {target : String} {schema : EntitySchema} {b : Binding}
    (hschema : Storage.schema? store q.entity = some schema)
    (hb : q.bindingFor (offerAll {} offers) target schema = .ok (some b)) : b.Fits schema := by
  have hfound : (offerAll {} offers).find? schema.key target = some b := by
    rw [Query.bindingFor] at hb
    split at hb
    · simp at hb
    · split at hb
      · rename_i hget
        obtain rfl := Option.some.inj (Except.ok.inj hb)
        exact hget
      · simp at hb
  obtain ⟨o, htaken, hkey, rfl⟩ := find?_offerAll_eq_some_iff (k := (schema.key, target)).mp hfound
  have hsame : some o.schema = some schema := by
    rw [← hown o htaken.mem, ← hschema]
    exact hstore.spelling _ _ ((Prod.mk.inj hkey).1.trans (hstore.key _ _ hschema))
  exact Option.some.inj hsame ▸ htaken.fits

/-- **Whatever bindings a registry has been offered, under every key it keeps the first one that it has taken.** Every
entry stems from such an offer. Its binding has members, with different targets, that read declared fields unless a
join attaches them, and the identity of the entity that it was offered for is bound; a row has one member for each
target. An offer that is refused changes nothing. If the offers were made for the declarations of a store that knows
entities by their keys, as stores in memory do, then a query on the store is never told that the identity is not
bound. -/
theorem offers_keep_fit_bindings (offers : List Offer) :
    (∀ entry ∈ (offerAll {} offers).entries, ∃ o, TakenFirst offers o ∧ entry = o.registration) ∧
    (∀ o, TakenFirst offers o → o.binding.Fits o.schema ∧
      (∃ member, o.binding.targetOf? o.schema.identity = some member) ∧
      ∀ record, (o.binding.project record).Perm
        (o.binding.members.map fun m => (m.target, Record.value record m.source))) ∧
    (∀ target entity b, (offerAll {} offers).get? target entity = some b ↔
      ∃ o, TakenFirst offers o ∧ o.key = (entityKey entity, target) ∧ o.binding = b) ∧
    (∀ o e r, (offerAll {} offers).offer o = (.error e, r) → r = offerAll {} offers) ∧
    (∀ {σ : Type} [Storage σ] (store : σ), Storage.LooksUpByKey store →
      (∀ o ∈ offers, Storage.schema? store o.schema.name = some o.schema) →
      ∀ (q : Query) (target : String) (schema : EntitySchema) (b : Binding),
        Storage.schema? store q.entity = some schema → q.bindingFor (offerAll {} offers) target schema = .ok (some b) →
        q.recordKeys (Storage.schema? store) schema b ≠ .error (.sortNotProjected schema.identity)) ∧
    ∀ s : Store, s.Reachable → Storage.LooksUpByKey s := by
  refine ⟨fun _ => exists_takenFirst_of_mem, fun o htaken => ?_, fun target entity b => ?_,
    fun _ _ _ => offer_of_error, ?_, fun _ => Store.Reachable.looksUpByKey⟩
  · have hfits := htaken.fits
    exact ⟨hfits, hfits.exists_targetOf?, Binding.perm_project hfits.targets⟩
  · exact find?_offerAll_eq_some_iff (k := (entityKey entity, target))
  · intro σ _ store hstore hown q target schema b hschema hb herror
    have hfits := fits_of_bindingFor hstore hown hschema hb
    obtain ⟨member, hmember⟩ := hfits.exists_targetOf?
    have hunbound := q.failsOnly_unbound (Storage.schema? store) schema b _ herror _ rfl
    exact Option.some_ne_none _ (hmember.symm.trans hunbound)

/-! ## Members of a club -/

/-- Members of a club. -/
def memberSchema : EntitySchema where
  name := "Member"
  fields := [("Id", .scalar .int), ("Name", .scalar .string)]

/-- Members with their names and what they have paid. -/
def accountBinding : Binding where
  members := [⟨"number", "Id", false⟩, ⟨"name", "Name", false⟩, ⟨"paid", "Payment.Total", true⟩]

/-- Offers with and without success: the first leaves out the identity, the third comes too late, the fourth binds a
target twice, and the last reads a field that is not declared. -/
def memberOffers : List Offer :=
  [{ target := "account", schema := memberSchema, binding := .ofFields ["Name"] },
   { target := "account", schema := memberSchema, binding := accountBinding },
   { target := "account", schema := memberSchema, binding := .ofFields ["Id"] },
   { target := "card", schema := memberSchema, binding := { members := [⟨"Id", "Id", false⟩, ⟨"Id", "Name", false⟩] } },
   { target := "card", schema := memberSchema, binding := .ofFields ["Id", "Phone"] }]

/-- A store that knows the members. -/
def memberStore : Store where
  tables := [(memberSchema.key, { schema := memberSchema })]

/-- Only the second offer is taken, and its binding is kept: a member who has paid nothing has a row with all three
targets, a further offer changes nothing, and a query on the members is not told that the identity is not bound. -/
theorem offers_keep_fit_bindings_members :
    (offerAll {} memberOffers).get? "account" "MEMBER" = some accountBinding ∧
    (offerAll {} memberOffers).get? "card" "member" = none ∧
    accountBinding.Fits memberSchema ∧
    (accountBinding.project [("Id", .int 1), ("Name", .string "Ada")]).Perm
      [("number", .int 1), ("name", .string "Ada"), ("paid", .null)] ∧
    (offerAll {} memberOffers).offer { target := "account", schema := memberSchema, binding := .ofFields ["Id"] } =
      (.error (.alreadyRegistered "Member" "account"), offerAll {} memberOffers) ∧
    Query.recordKeys { entity := "member" } memberStore.schema? memberSchema accountBinding ≠
      .error (.sortNotProjected "Id") := by
  obtain ⟨_, hfirst, hget, hrefused, hsort, hkeyed⟩ := offers_keep_fit_bindings memberOffers
  have hkept : (offerAll {} memberOffers).get? "account" "MEMBER" = some accountBinding := by decide +kernel
  have hschemas : ∀ o ∈ memberOffers, o.schema = memberSchema := by simp [memberOffers]
  obtain ⟨o, htaken, _, hbinding⟩ := (hget "account" "MEMBER" accountBinding).mp hkept
  obtain ⟨hfits, _, hproject⟩ := hfirst o htaken
  rw [hbinding] at hfits hproject
  have hreply : ((offerAll {} memberOffers).offer
      { target := "account", schema := memberSchema, binding := .ofFields ["Id"] }).1 =
      .error (.alreadyRegistered "Member" "account") := by
    decide +kernel
  have hstore : memberStore.Reachable :=
    .ofSchema (by decide) (Dict.sorted_iff_names.mpr (by decide +kernel))
  have hknown : memberStore.schema? "member" = some memberSchema := by
    have hkey : memberSchema.key = entityKey "member" := by decide +kernel
    simp [Store.schema?, Store.table?, memberStore, Dict.get?, hkey]
  have hown : ∀ o ∈ memberOffers, memberStore.schema? o.schema.name = some o.schema := by
    intro o ho
    rw [hschemas o ho]
    exact ((hkeyed _ hstore).spelling "Member" "member" (by decide +kernel)).trans hknown
  have hbound : Query.bindingFor { entity := "member" } (offerAll {} memberOffers) "account" memberSchema =
      .ok (some accountBinding) := by
    have hname : (offerAll {} memberOffers).get? "account" memberSchema.name = some accountBinding := by decide +kernel
    rw [Query.bindingFor, hname]
    rfl
  exact ⟨hkept, by decide +kernel, hschemas o htaken.mem ▸ hfits, hproject _,
    Prod.ext hreply (hrefused _ _ _ (Prod.ext hreply rfl)),
    hsort _ (hkeyed _ hstore) hown _ _ _ _ hknown hbound⟩

end Registry

end GuardedQuery
