import Replica.Proofs.Hub.Seat

/-! # Runs of a hub

`received` and `arrivals` are what moves at a hub deliver and bring to one subscription.

* Before a subscription joins nothing is delivered to it and nothing comes (`Fan.silent_run`), and it
  has joined in one of the moves (`Fan.exists_join`).
* From then on it stays like a reader by itself (`Fan.Seats.run`), which reads what is delivered
  (`Fan.Seats.received_run`) and to which comes what is brought (`Fan.Seats.arrived_run`). -/

namespace Replica

namespace Network

/-- The network after moves at the hub `i`. -/
def after (i : Nat) (n : Network) (moves : List HubMove) : Network :=
  moves.foldl (fun n m => ((m.run i).run n).2) n

/-- What moves at the hub `i` deliver to the subscription `s`. -/
def received (i s : Nat) : Network → List HubMove → List Event
  | _, [] => []
  | n, m :: moves =>
    (deliveredTo s ((m.run i).run n).1).toList ++ received i s ((m.run i).run n).2 moves

/-- The events that moves at the hub `i` bring to the subscription `s`, each with the number of those
that wait there when it comes. -/
def arrivals (i s : Nat) : Network → List HubMove → List (Event × Nat)
  | _, [] => []
  | n, m :: moves => (n.arrival i s m).toList ++ arrivals i s ((m.run i).run n).2 moves

section Runs

variable {n : Network} {i s : Nat}

theorem received_append (as bs : List HubMove) :
    received i s n (as ++ bs) = received i s n as ++ received i s (after i n as) bs := by
  induction as generalizing n with
  | nil => rfl
  | cons m as ih => rw [List.cons_append, received, ih, received, List.append_assoc]; rfl

theorem arrivals_append (as bs : List HubMove) :
    arrivals i s n (as ++ bs) = arrivals i s n as ++ arrivals i s (after i n as) bs := by
  induction as generalizing n with
  | nil => rfl
  | cons m as ih => rw [List.cons_append, arrivals, ih, arrivals, List.append_assoc]; rfl

theorem after_append (as bs : List HubMove) :
    after i n (as ++ bs) = after i (after i n as) bs :=
  List.foldl_append

end Runs

/-! ### Runs of a hub -/

/-- What moves make of a hub. -/
def Fan.run (x : Fan) (moves : List HubMove) : Fan := moves.foldl Fan.step x

theorem fan?_after {n : Network} {i : Nat} {x : Fan} (h : n.fan? i = some x) (moves : List HubMove) :
    (after i n moves).fan? i = some (x.run moves) := by
  induction moves generalizing n x with
  | nil => exact h
  | cons m moves ih => exact ih (fan?_run h m).2

namespace Fan

variable {n : Network} {i room s : Nat} {x : Fan} {sub : Subscription} {r : Reader} {m : HubMove}
  {moves : List HubMove}

theorem Sound.run (h : x.Sound room) (moves : List HubMove) : (x.run moves).Sound room := by
  induction moves generalizing x with
  | nil => exact h
  | cons m moves ih => exact ih (h.step m)

/-- Whatever happens, a subscription stays like the reader. -/
theorem Seats.run (hx : x.Sound room) (h : x.Seats s sub r) (moves : List HubMove) :
    (x.run moves).Seats s sub (r.run (moves.filterMap (HubMove.own s))) := by
  induction moves generalizing x r with
  | nil => exact h
  | cons m moves ih =>
      rw [Reader.run_filterMap_cons]
      exact ih (hx.step m) (h.step hx m)

theorem Seats.received_run (hn : n.fan? i = some x) (hx : x.Sound room) (h : x.Seats s sub r)
    (moves : List HubMove) : (r.run (moves.filterMap (HubMove.own s))).received =
      r.received ++ received i s n moves := by
  induction moves generalizing n x r with
  | nil => simp [received, Reader.run]
  | cons m moves ih =>
      obtain ⟨hdelivery, hn'⟩ := fan?_run hn m
      rw [Reader.run_filterMap_cons, ih hn' (hx.step m) (h.step hx m), h.received_take m, received,
        hdelivery, List.append_assoc]

theorem Seats.arrived_run (hn : n.fan? i = some x) (hx : x.Sound room) (h : x.Seats s sub r)
    {moves : List HubMove} (hopen : (r.run (moves.filterMap (HubMove.own s))).isClosed = false) :
    (r.run (moves.filterMap (HubMove.own s))).arrived = r.arrived ++ arrivals i s n moves := by
  induction moves generalizing n x r with
  | nil => simp [arrivals, Reader.run]
  | cons m moves ih =>
      have hr : r.isClosed = false := Reader.isClosed_eq_false_of_run hopen
      rw [Reader.run_filterMap_cons] at hopen ⊢
      rw [ih (fan?_run hn m).2 (hx.step m) (h.step hx m) hopen, h.arrived_take hn hr m, arrivals,
        List.append_assoc]

/-! ### Before a subscription joins -/

/-- Only who joins gets a subscription. -/
theorem member?_step_of_ne (h : m ≠ .join) (s : Nat) : (x.step m).member? s = x.member? s := by
  cases m with
  | join => exact absurd rfl h
  | event e => rfl
  | forget =>
      rw [step, forget]
      split <;> rfl
  | receive s' | close s' =>
      rw [step]
      cases x.member? s' with
      | none => rfl
      | some sub =>
          simp only [Option.elim_some, read, close]
          split <;> rfl
  | drop s' =>
      rw [step]
      cases x.member? s' with
      | none => rfl
      | some sub =>
          simp only [Option.elim_some, abandon, close]
          split <;> rfl

theorem member?_step (h : x.member? s = some sub) (m : HubMove) :
    (x.step m).member? s = some sub := by
  by_cases hm : m = .join
  · rw [hm, step, member?_join, if_neg (Nat.ne_of_lt (member?_lt h)), h]
  · rw [member?_step_of_ne hm, h]

theorem member?_run (h : x.member? s = some sub) (moves : List HubMove) :
    (x.run moves).member? s = some sub := by
  induction moves generalizing x with
  | nil => exact h
  | cons m moves ih => exact ih (member?_step h m)

/-- **A subscription has come about in a move.** -/
theorem exists_join (hnone : x.member? s = none) (h : (x.run moves).member? s = some sub) :
    ∃ pre post, moves = pre ++ .join :: post ∧ (x.run pre).member? s = none ∧
      (x.run pre).subscriptions.length = s ∧ (x.run pre).newcomer = sub := by
  induction moves generalizing x with
  | nil => simp [Fan.run, hnone] at h
  | cons m moves ih =>
      cases hstep : (x.step m).member? s with
      | none =>
          obtain ⟨pre, post, rfl, hrest⟩ := ih hstep h
          exact ⟨m :: pre, post, rfl, hrest⟩
      | some sub' =>
          have hsub : sub' = sub := Option.some.inj ((member?_run hstep moves).symm.trans h)
          by_cases hm : m = .join
          · subst hm
            rw [step, member?_join] at hstep
            split at hstep
            · rename_i hs
              exact ⟨[], moves, rfl, hnone, hs.symm, (Option.some.inj hstep).trans hsub⟩
            · simp [hnone] at hstep
          · simp [member?_step_of_ne hm, hnone] at hstep

/-- Nothing is delivered to who is not there, and nothing comes. -/
theorem silent_step (hn : n.fan? i = some x) (h : x.member? s = none) (m : HubMove) :
    deliveredTo s (x.delivery m) = none ∧ n.arrival i s m = none := by
  constructor
  · cases m with
    | join | event | forget | close | drop => rfl
    | receive s' =>
        rw [delivery]
        cases hs' : x.member? s' with
        | none => rfl
        | some sub' =>
            have hne : s' ≠ s := by
              rintro rfl
              simp [h] at hs'
            rw [Option.bind_some, deliveredTo_map, if_neg hne]
  · have hserved : n.served? i s = none := by simp [served?, member?_of_fan? hn, h]
    cases m <;> simp [arrival, HubMove.event?, hserved]

theorem silent_run (hn : n.fan? i = some x) (h : (x.run moves).member? s = none) :
    received i s n moves = [] ∧ arrivals i s n moves = [] := by
  induction moves generalizing n x with
  | nil => exact ⟨rfl, rfl⟩
  | cons m moves ih =>
      have hnone : x.member? s = none := by
        cases hs : x.member? s with
        | none => rfl
        | some sub => simp [member?_run hs (m :: moves)] at h
      obtain ⟨hdelivery, hn'⟩ := fan?_run hn m
      obtain ⟨hdelivered, harrival⟩ := silent_step hn hnone m
      obtain ⟨hreceived, harrivals⟩ := ih hn' h
      exact ⟨by rw [received, hdelivery, hdelivered, hreceived]; rfl,
        by rw [arrivals, harrival, harrivals]; rfl⟩

end Fan

end Network

end Replica
