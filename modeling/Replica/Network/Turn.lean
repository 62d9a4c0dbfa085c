import Replica.Network.Basic

/-!
# Turns of tasks

Each task has a function for its next input, `none` while it has to wait, and runs on inputs until it
has to wait or its allowance is used up (`drive`).  Where several inputs are possible the order of the
cases decides; the end of the component always comes first.  Whatever is tried in vain on the way is
an occasion that the task then waits for.

The keepers of stores are the simplest such tasks.
-/

namespace Replica.Network

/-- How many inputs, with those that use up nothing, a task is given in one turn at most. -/
def turnLimit : Nat := 4 * Executor.allowance

/-- Runs a task on its inputs until there is none. -/
def drive {α : Type} (self : TaskId) (next : Net (Option α)) (take : α → Net Unit) :
    Nat → Net Unit
  | 0 => schedule (·.pause self)
  | fuel + 1 => do
    if (← get).executor.left = 0 then schedule (·.pause self)
    else
      match ← next with
      | none => return
      | some input =>
        schedule (·.keepOnly self Occasion.isLasting)
        take input
        drive self next take fuel

/-- Ends a task. -/
def finish (t : TaskId) : Net Unit := schedule (·.remove t)

/-! ### Keepers -/

/-- What a keeper has to do next: to stop, or to answer a request. -/
def nextForKeeper (i : Nat) :
    Net (Option (Option (Keeper (Option TaskId) × Option TaskId × Reply))) := do
  match (← get).keepers[i]? with
  | none => return none
  | some k =>
    if ← isFired k.done then return none
    if ← hasFired (.keeper i) k.scope then return some none
    match k.keeper.serve with
    | some served =>
      spend
      return some (some served)
    | none =>
      await (.keeper i) (.request i)
      return none

/-- Runs a keeper. -/
def runKeeper (i : Nat) : Net Unit :=
  drive (.keeper i) (nextForKeeper i) (fun
    | none => do
      if let some k := (← get).keepers[i]? then fire k.done
      finish (.keeper i)
    | some (keeper, sender, reply) => do
      modifyKeeper i fun k => { k with keeper }
      deliver sender reply) turnLimit

end Replica.Network
