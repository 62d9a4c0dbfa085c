import Replica.Event
import Replica.Filter

/-!
# The store

A `Store` holds the current objects of a collection, each under its key with its version as a
number, as far as the store's filter accepts them.  Until the first listing is adopted it has no
contents at all, which is not the same as empty contents.

* `sync` reconciles the contents with a full listing;
* `update` applies one event, older versions being skipped;
* `refilter` replaces the filter, with or without a listing.

Each returns the new store with the events that lead from the old contents to the new.
-/

namespace Replica

/-- A stored object with its version as a number. -/
structure Entry where
  version : Nat
  object : Object
  deriving DecidableEq, Inhabited

/-- The stored objects by key. -/
abbrev Contents := SortedMap Key Entry

/-- Contents, once there are any, and the filter that they are bound to. -/
structure Store where
  items : Option Contents
  filter : Filter
  deriving Inhabited

namespace Store

/-- A store that was never filled. -/
def new (filter : Filter) : Store := ⟨none, filter⟩

/-! ### Reconciling with a listing -/

/-- The entry of a listed object, if the filter accepts it, it has a name and its version is a
number. -/
def entryOf? (filter : Filter) (o : Object) : Option (Key × Entry) := do
  guard (filter.accepts o && o.isNamed)
  return (o.key, ⟨← o.version?, o⟩)

/-- The entries of the listed objects that have one; the others are left out one by one. -/
def entries (filter : Filter) (list : List Object) : List (Key × Entry) :=
  list.filterMap (entryOf? filter)

/-- A reconciliation under way: stored entries not listed so far, entries listed so far, and the
events of these. -/
structure Merge where
  unlisted : Contents
  listed : Contents
  events : List Event

/-- Takes one listed entry in: a new key creates, a higher version updates, and anything else keeps
the entry that was there. -/
def Merge.take (m : Merge) (e : Key × Entry) : Merge :=
  let keep (entry : Entry) (events : List Event) : Merge :=
    ⟨m.unlisted.erase e.1, m.listed.insert e.1 entry, m.events ++ events⟩
  match (m.listed.get? e.1).or (m.unlisted.get? e.1) with
  | none => keep e.2 [⟨.create, e.2.object⟩]
  | some old =>
    if old.version < e.2.version then keep e.2 [⟨.update, e.2.object⟩] else keep old []

/-- The events of removing entries. -/
def deletions (gone : Contents) : List Event := gone.values.map fun e => ⟨.delete, e.object⟩

/-- The contents after a listing, and the events between: creations and updates in the order of the
listing, then a deletion for each stored key that is not listed. -/
def reconcile (current : Contents) (incoming : List (Key × Entry)) : Contents × List Event :=
  let m := incoming.foldl Merge.take ⟨current, .empty, []⟩
  (m.listed, m.events ++ deletions m.unlisted)

/-- Reconciles with a full listing.  The first listing is adopted without events. -/
def sync (s : Store) (list : List Object) : Store × List Event :=
  let incoming := entries s.filter list
  match s.items with
  | none => ({ s with items := some (.ofList incoming) }, [])
  | some current =>
    let (next, events) := reconcile current incoming
    ({ s with items := some next }, events)

/-! ### Single events -/

/-- Applies an event on a named object to contents.  A deletion does not look at versions; a
creation or an update of a version that is not above the stored one is skipped, and one that the
filter rejects removes what is stored. -/
def applyEvent (filter : Filter) (items : Contents) (e : Event) : Contents × List Event :=
  let key := e.object.key
  match e.kind, e.object.version? with
  | .delete, _ =>
    if items.contains key then (items.erase key, [⟨.delete, e.object⟩]) else (items, [])
  | _, none => (items, [])
  | _, some version =>
    match items.get? key, filter.accepts e.object with
    | none, false => (items, [])
    | none, true => (items.insert key ⟨version, e.object⟩, [⟨.create, e.object⟩])
    | some old, accepted =>
      if version ≤ old.version then (items, [])
      else if accepted then (items.insert key ⟨version, e.object⟩, [⟨.update, e.object⟩])
      else (items.erase key, [⟨.delete, e.object⟩])

/-- Applies one event.  An event on an object without a name leaves the store as it is; any other
gives a store without contents empty contents first. -/
def update (s : Store) (e : Event) : Store × List Event :=
  if e.object.isNamed then
    let (items, events) := applyEvent s.filter (s.items.getD .empty) e
    ({ s with items := some items }, events)
  else (s, [])

/-! ### Replacing the filter -/

/-- Replaces the filter by a different one.  With a listing this reconciles with what the new filter
accepts of it; without one, what it rejects goes. -/
def refilter (s : Store) (list : Option (List Object)) (filter : Filter) : Store × List Event :=
  if s.filter.same filter then (s, [])
  else match s.items, list with
    | none, none => (⟨none, filter⟩, [])
    | none, some list => (⟨some (.ofList (entries filter list)), filter⟩, [])
    | some items, none =>
      (⟨some (items.filter fun _ e => filter.accepts e.object), filter⟩,
        deletions (items.filter fun _ e => !filter.accepts e.object))
    | some items, some list =>
      let (next, events) := reconcile items (entries filter list)
      (⟨some next, filter⟩, events)

/-! ### Reading -/

/-- The object stored under a key. -/
def get? (s : Store) (key : Key) : Option Object := do
  let items ← s.items
  return (← items.get? key).object

/-- All stored objects, in the order of their keys. -/
def list (s : Store) : List Object :=
  match s.items with
  | none => []
  | some items => items.values.map Entry.object

end Store

end Replica
