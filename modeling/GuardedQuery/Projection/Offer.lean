import GuardedQuery.Projection.Registry

/-!
# Offers

A registry takes bindings one after the other, and is changed in place. Every offer has a reply, and leaves a registry
behind whether it is taken or refused.

## Main definitions

* `Offer`: a binding that a registry is asked to take.
* `Registry.offer`, `Registry.offerAll`: the reply to an offer, and the registry after one or several of them.
-/

namespace GuardedQuery

/-- A binding that a registry is asked to take. -/
structure Offer where
  /-- The form of answer. -/
  target : String
  /-- The entity. -/
  schema : EntitySchema
  /-- The binding. -/
  binding : Binding

namespace Offer

/-- What the binding is found by: the look-up key of the entity, and the form of answer. -/
def key (o : Offer) : String × String := (o.schema.key, o.target)

/-- The entry of the binding in a registry. -/
def registration (o : Offer) : Registration where
  entity := o.schema.key
  target := o.target
  binding := o.binding

end Offer

namespace Registry

/-- The reply to an offer, and the registry after it. -/
def offer (r : Registry) (o : Offer) : Except ProjectionError Unit × Registry :=
  match r.register o.target o.schema o.binding with
  | .ok r' => (.ok (), r')
  | .error e => (.error e, r)

/-- The registry after several offers, whatever the replies. -/
def offerAll (r : Registry) (offers : List Offer) : Registry := offers.foldl (fun r o => (r.offer o).2) r

end Registry

end GuardedQuery
