import Replica.Event

/-! # What is seen of a follower

A run of a follower leaves a trace of `Mark`s: resets, sessions that are opened, events that are received
from them, and events that are delivered to the reader of an output.  Resets divide a trace into periods:
`period j` is what comes after the `j`-th reset and before the next one.  `retries` counts the sessions that
were opened by retry since the last reset or event.

All of these go along with a trace that grows at its end (`period_append`, `retries_append`). -/

namespace Replica

/-- An event that is received. -/
structure Arrival where
  /-- The number of its session. -/
  session : Nat
  event : Event
  /-- How many events waited in the output when it came. -/
  waiting : Nat
  deriving DecidableEq

/-- What is seen of a follower.  Sessions are numbered from `0` in the order of their opening, and outputs
from `1`, each after its reset. -/
inductive Mark where
  /-- A reset was carried out. -/
  | reset (version : String)
  /-- A session was opened at a version, by a reset or by a retry. -/
  | opened (session : Nat) (version : String) (isRetry : Bool)
  /-- An event of a session was received. -/
  | received (a : Arrival)
  /-- An event was read from an output. -/
  | delivered (output : Nat) (e : Event)
  /-- The reader of an output has let go of it. -/
  | released (output : Nat)
  deriving DecidableEq

namespace Mark

def isReset : Mark → Bool
  | .reset _ => true
  | _ => false

/-- The version that a mark moves the follower to. -/
def version? : Mark → Option String
  | .reset version => some version
  | .received a => some a.event.object.metadata.version
  | _ => none

/-- The number of a session that is opened. -/
def opened? : Mark → Option Nat
  | .opened i _ _ => some i
  | _ => none

/-- An event that is received. -/
def arrival? : Mark → Option Arrival
  | .received a => some a
  | _ => none

/-- An event that is read from the output `j`. -/
def deliveredOn? (j : Nat) : Mark → Option Event
  | .delivered i e => if i = j then some e else none
  | _ => none

/-- Whether a session is opened by retry. -/
def isRetry : Mark → Bool
  | .opened _ _ isRetry => isRetry
  | _ => false

/-- Changes the number of retries. -/
def count (n : Nat) : Mark → Nat
  | .reset _ | .received _ => 0
  | .opened _ _ true => n + 1
  | _ => n

/-- The number of resets. -/
def resets (t : List Mark) : Nat := t.countP isReset

/-- The marks after the `j`-th reset and before the next one. -/
def period : Nat → List Mark → List Mark
  | _, [] => []
  | 0, m :: t => if m.isReset then [] else m :: period 0 t
  | j + 1, m :: t => if m.isReset then period j t else period (j + 1) t

/-- The events that are received between the `j`-th reset and the next one. -/
def arrivals (j : Nat) (t : List Mark) : List Arrival := (period j t).filterMap arrival?

/-- The events that are read from the output `j`. -/
def deliveries (j : Nat) (t : List Mark) : List Event := t.filterMap (deliveredOn? j)

/-- How many sessions were opened by retry since the last reset or event. -/
def retries (t : List Mark) : Nat := t.foldl count 0

variable {t u : List Mark} {j : Nat}

/-! ### Periods -/

theorem resets_append (t u : List Mark) : resets (t ++ u) = resets t + resets u :=
  List.countP_append

theorem resets_eq_zero_iff : resets u = 0 ↔ ∀ m ∈ u, m.isReset = false := by
  simp [resets, List.countP_eq_zero]

/-- **A period goes on as long as there is no reset**, and does not begin before its own. -/
theorem period_append (t u : List Mark) (j : Nat) :
    period j (t ++ u) = period j t ++ if resets t ≤ j then period (j - resets t) u else [] := by
  induction t generalizing j with
  | nil => simp [period, resets]
  | cons m t ih =>
      have hresets : resets (m :: t) = resets t + if m.isReset then 1 else 0 := List.countP_cons
      rw [List.cons_append]
      cases hm : m.isReset with
      | true =>
          cases j with
          | zero => simp [period, hm, hresets]
          | succ j => simp [period, hm, hresets, ih j]
      | false =>
          cases j with
          | zero => simp [period, hm, hresets, ih 0]
          | succ j => simp [period, hm, hresets, ih (j + 1)]

theorem period_zero (h : resets u = 0) : period 0 u = u := by
  induction u with
  | nil => rfl
  | cons m u ih =>
      obtain ⟨hm, hu⟩ := List.forall_mem_cons.1 (resets_eq_zero_iff.1 h)
      simp [period, hm, ih (resets_eq_zero_iff.2 hu)]

theorem period_of_resets_lt (h : resets t < j) : period j t = [] := by
  induction t generalizing j with
  | nil => cases j <;> rfl
  | cons m t ih =>
      have hresets : resets (m :: t) = resets t + if m.isReset then 1 else 0 := List.countP_cons
      cases j with
      | zero => cases h
      | succ j =>
          cases hm : m.isReset with
          | true =>
              simp only [hm, if_true] at hresets
              simp [period, hm, ih (show resets t < j by omega)]
          | false =>
              simp only [hm, Bool.false_eq_true, if_false] at hresets
              simp [period, hm, ih (show resets t < j + 1 by omega)]

/-- What is not a reset belongs to the current period. -/
theorem period_append_of_quiet (h : resets u = 0) (t : List Mark) (j : Nat) :
    period j (t ++ u) = if j = resets t then period j t ++ u else period j t := by
  rw [period_append]
  by_cases hj : j = resets t
  · simp [hj, period_zero h]
  · rw [if_neg hj]
    split
    · rw [period_of_resets_lt (show resets u < j - resets t by omega), List.append_nil]
    · exact List.append_nil _

theorem period_append_reset (t : List Mark) (version : String) (h : resets u = 0) (j : Nat) :
    period j (t ++ .reset version :: u) = if j = resets t + 1 then u else period j t := by
  rw [period_append]
  by_cases hj : j = resets t + 1
  · have hnone : period (resets t + 1) t = [] := period_of_resets_lt (Nat.lt_succ_self _)
    simp [hj, hnone, period, isReset, period_zero h]
  · rw [if_neg hj]
    split
    · cases hk : j - resets t with
      | zero => simp [period, isReset]
      | succ k =>
          have hrest : period k u = [] := period_of_resets_lt (by omega)
          simp [period, isReset, hrest]
    · exact List.append_nil _

theorem arrivals_append_of_quiet (h : resets u = 0) (hnone : u.filterMap arrival? = [])
    (t : List Mark) (j : Nat) : arrivals j (t ++ u) = arrivals j t := by
  rw [arrivals, period_append_of_quiet h]
  split
  · rw [List.filterMap_append, hnone, List.append_nil]
    rfl
  · rfl

theorem arrivals_append_received (t : List Mark) (a : Arrival) (j : Nat) :
    arrivals j (t ++ [.received a]) =
      if j = resets t then arrivals j t ++ [a] else arrivals j t := by
  rw [arrivals, period_append_of_quiet rfl]
  split
  · rw [List.filterMap_append]
    rfl
  · rfl

theorem deliveries_append (j : Nat) (t u : List Mark) :
    deliveries j (t ++ u) = deliveries j t ++ deliveries j u :=
  List.filterMap_append

/-! ### Retries -/

theorem retries_append (t u : List Mark) : retries (t ++ u) = u.foldl count (retries t) :=
  List.foldl_append

/-- Without a reset and without an event the number of retries only grows. -/
theorem foldl_count_of_quiet (h : ∀ m ∈ u, m.version? = none) (n : Nat) :
    u.foldl count n = n + u.countP isRetry := by
  induction u generalizing n with
  | nil => rfl
  | cons m u ih =>
      obtain ⟨hm, hu⟩ := List.forall_mem_cons.1 h
      have hcount : count n m = n + if m.isRetry then 1 else 0 := by
        cases m with
        | reset | received => cases hm
        | opened _ _ isRetry => cases isRetry <;> rfl
        | delivered | released => rfl
      rw [List.foldl_cons, ih hu, hcount, List.countP_cons]
      omega

end Mark

end Replica
