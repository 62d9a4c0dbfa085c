import Replica.Store

/-!
# The keeper of a store

A store is owned by a keeper, and everybody else sends it requests, which it answers in the order of
their arrival.
-/

namespace Replica

/-- A request to the keeper of a store. -/
inductive Request where
  | sync (list : List Object)
  | update (e : Event)
  | refilter (list : Option (List Object)) (filter : Filter)
  | get (key : Key)
  | contents
  deriving Inhabited

/-- The answer to a request: events of a change, one object if it is there, or the contents. -/
inductive Reply where
  | events (es : List Event)
  | object (o : Option Object)
  | contents (list : List Object)
  deriving Inhabited

/-- Carries a request out. -/
def Request.run (s : Store) : Request → Store × Reply
  | .sync list => let (s, es) := s.sync list; (s, .events es)
  | .update e => let (s, es) := s.update e; (s, .events es)
  | .refilter list filter => let (s, es) := s.refilter list filter; (s, .events es)
  | .get key => (s, .object (s.get? key))
  | .contents => (s, .contents s.list)

namespace Reply

/-- The events of a change. -/
def eventList : Reply → List Event
  | .events es => es
  | _ => []

/-- The object that was asked for. -/
def object? : Reply → Option Object
  | .object o => o
  | _ => none

/-- The contents that were asked for. -/
def objectList : Reply → List Object
  | .contents list => list
  | _ => []

end Reply

/-- A store with the requests that wait, each with its sender. -/
structure Keeper (σ : Type) where
  store : Store
  requests : List (σ × Request)

namespace Keeper

variable {σ : Type}

/-- A keeper without requests. -/
def new (filter : Filter) : Keeper σ := ⟨.new filter, []⟩

/-- Puts a request behind those that wait. -/
def send (k : Keeper σ) (sender : σ) (r : Request) : Keeper σ :=
  { k with requests := k.requests ++ [(sender, r)] }

/-- Answers the oldest request. -/
def serve (k : Keeper σ) : Option (Keeper σ × σ × Reply) :=
  match k.requests with
  | [] => none
  | (sender, r) :: rest =>
    let (store, reply) := r.run k.store
    some (⟨store, rest⟩, sender, reply)

end Keeper

end Replica
