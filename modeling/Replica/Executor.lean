/-!
# Cooperative execution

Tasks take turns: one runs at a time, and it runs until it has to wait.

* **Queue.**  The tasks that can go on run in the order in which they were woken; a task stands in the
  queue once at most.
* **Occasions.**  A task that has to wait names the occasions that wake it.  An occasion that comes
  wakes those that wait for it, in the order in which they began to, and they wait for it no longer.
* **Allowance.**  A task may take so many inputs in one turn (`allowance`).  When they are used up it
  pauses.
* **Rounds.**  A round is a number of turns (`roundLength`), or fewer if nobody can go on.  After each
  round the tasks that pause are woken, the last one first.
-/

namespace Replica

/-- Who can go on, who pauses and who waits for what. -/
structure Executor (τ ω : Type) where
  queue : List τ
  /-- The tasks that pause, the last one first. -/
  paused : List τ
  waiting : List (ω × τ)
  /-- How many inputs the running task may still take. -/
  left : Nat
  deriving Inhabited

namespace Executor

/-- How many inputs a task takes in one turn at most. -/
def allowance : Nat := 128

/-- How many turns make up a round. -/
def roundLength : Nat := 61

variable {τ ω : Type}

/-- Nobody runs. -/
def empty : Executor τ ω := ⟨[], [], [], 0⟩

/-- Whether nobody can go on or pauses. -/
def isQuiet (x : Executor τ ω) : Bool := x.queue.isEmpty && x.paused.isEmpty

/-- Uses one input of the allowance up. -/
def spend (x : Executor τ ω) : Executor τ ω := { x with left := x.left - 1 }

/-- Gives the first task of the queue its turn. -/
def next? (x : Executor τ ω) : Option (τ × Executor τ ω) :=
  match x.queue with
  | [] => none
  | t :: rest => some (t, { x with queue := rest, left := allowance })

variable [BEq τ] [BEq ω]

/-- Puts a task at the end of the queue, unless it is there. -/
def wake (x : Executor τ ω) (t : τ) : Executor τ ω :=
  if x.queue.contains t then x else { x with queue := x.queue ++ [t] }

/-- Lets a task pause for the rest of the round. -/
def pause (x : Executor τ ω) (t : τ) : Executor τ ω :=
  if x.paused.head? == some t then x else { x with paused := t :: x.paused }

/-- Ends a round. -/
def resume (x : Executor τ ω) : Executor τ ω := x.paused.foldl wake { x with paused := [] }

/-- Lets a task wait for an occasion. -/
def await (x : Executor τ ω) (t : τ) (o : ω) : Executor τ ω :=
  if x.waiting.contains (o, t) then x else { x with waiting := x.waiting ++ [(o, t)] }

/-- An occasion comes. -/
def occur (x : Executor τ ω) (o : ω) : Executor τ ω :=
  ((x.waiting.filter (·.1 == o)).map Prod.snd).foldl wake
    { x with waiting := x.waiting.filter (·.1 != o) }

/-- A task waits only for those occasions any more that are to be kept. -/
def keepOnly (x : Executor τ ω) (t : τ) (keep : ω → Bool) : Executor τ ω :=
  { x with waiting := x.waiting.filter fun w => w.2 != t || keep w.1 }

/-- A task is over: nothing wakes it. -/
def remove (x : Executor τ ω) (t : τ) : Executor τ ω :=
  { x.keepOnly t fun _ => false with
    queue := x.queue.filter (· != t), paused := x.paused.filter (· != t) }

end Executor

end Replica
