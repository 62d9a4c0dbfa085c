import Replica.Branch

/-!
# Pipelines

`Network.ofPipeline` builds a pipeline on a server, as the root of a tree of branches.  A pipeline cannot
be built without a server, or with a buffer that has no room.
-/

namespace Replica

open Network

namespace Network

/-- The reason why a pipeline cannot be built, if there is one. -/
def faultOf (server : Option Server) (settings : Settings) : Option Error :=
  if server.isNone then some (.config "controller requires a client")
  else if settings.subscriptionBuffer == 0 || settings.watchBuffer == 0 then
    some (.config "buffer sizes must be non-zero")
  else none

/-- A network with a pipeline on a server: the scope above everything, and the pipeline's branch.  A
detached pipeline is not in that scope, but in one of its own. -/
def ofPipeline (server : Option Server) (settings : Settings) (detached : Bool) :
    Except Error (Network × ScopeId × Branch) :=
  match faultOf server settings with
  | some e => .error e
  | none =>
    let start : Net (ScopeId × Branch) := do
      let above ← newRoot
      let scope ← if detached then newRoot else newChild above
      return (above, ⟨← startPipeline settings scope, none, true⟩)
    let ((above, branch), n) := start.run (Network.new (server.getD default))
    .ok (n, above, branch)

/-- What can be seen of the life of the pipeline. -/
def lifecycle : Net Lifecycle := return ((← get).coordinator.map (·.coordinator.stage)).getD .closed

/-- Asks for a listing now; a request that is waiting already will do. -/
def refresh : Op Unit := do
  match ← requestListing with
  | .refused => throw .notRunning
  | _ => return

/-- A description of the pipeline. -/
def describePipeline : Net String := do
  let n ← get
  let flag (b : Bool) := if b then "true" else "false"
  let ready := (n.coordinator.map fun c => n.scopes.isFired c.ready).getD false
  let closed := (n.coordinator.map fun c => n.scopes.isFired c.scope).getD true
  return "Controller \x7b state: " ++ (← lifecycle).debugText ++ ", ready: " ++ flag ready
    ++ ", closed: " ++ flag closed ++ ", .. \x7d"

end Network

end Replica
