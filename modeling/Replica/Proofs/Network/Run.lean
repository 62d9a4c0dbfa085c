import Replica.Network.Access
import Replica.Proofs.Network.Data

/-! # What holds throughout a run

A computation `Maintains` a property of networks if it never makes it false, and `Keeps` a part of the
network if it leaves that as it is.

A task is driven by its inputs: what holds when it has nothing to do, and after every input, holds after
a turn (`drive_induction`).  What every task maintains in its turn, whoever runs when and however late it
is, is `Stable`: it holds throughout a run (`Stable.settle`, `Stable.advance`). -/

namespace Replica

namespace Network

variable {α β γ : Type} {P : Network → Prop}

/-- The property does not depend on who runs when. -/
def IsOfData (P : Network → Prop) : Prop := ∀ n n', n'.data = n.data → P n → P n'

/-! ### Properties that are maintained -/

/-- The computation does not make the property false. -/
def Maintains (P : Network → Prop) (x : Net α) : Prop := ∀ n, P n → P (x.run n).2

theorem Maintains.pure (a : α) : Maintains P (Pure.pure a : Net α) := fun _ hn => hn

theorem Maintains.bind {x : Net α} {f : α → Net β} (hx : Maintains P x)
    (hf : ∀ a, Maintains P (f a)) : Maintains P (x >>= f) :=
  fun n hn => hf _ _ (hx n hn)

theorem Maintains.get {f : Network → Net α} (h : ∀ n, P n → P ((f n).run n).2) :
    Maintains P (MonadState.get >>= f) := h

theorem Maintains.forIn {f : α → PUnit → Net (ForInStep PUnit)} {as : List α}
    (hf : ∀ a ∈ as, ∀ u, Maintains P (f a u)) : Maintains P (ForIn.forIn as PUnit.unit f) := by
  induction as with
  | nil => exact .pure _
  | cons a as ih =>
      rw [List.forIn_cons]
      refine .bind (hf a List.mem_cons_self _) fun step => ?_
      cases step with
      | done u => exact .pure u
      | yield u => exact ih fun b hb => hf b (List.mem_cons_of_mem a hb)

theorem Schedules.maintains {x : Net α} (hx : Schedules x) (hP : IsOfData P) : Maintains P x :=
  fun n hn => hP n _ (hx n) hn

/-- `P` holds when a task has nothing to do, and when it has taken the input that it has found. -/
def HoldsTaking (P : Network → Prop) (take : α → Net Unit) : Option α → Network → Prop
  | none, n => P n
  | some input, n => ∀ n', n'.data = n.data → P ((take input).run n').2

variable {self : TaskId} {next : Net (Option α)} {take : α → Net Unit}

/-- What holds after every input holds after a turn. -/
theorem drive_induction (hP : IsOfData P) (hinput : ∀ n, P n → Gives next n (HoldsTaking P take))
    (fuel : Nat) : Maintains P (drive self next take fuel) := by
  induction fuel with
  | zero => exact (schedules_schedule _).maintains hP
  | succ fuel ih =>
      refine .get fun n hn => ?_
      split
      · exact (schedules_schedule _).maintains hP n hn
      · have hinput := hinput n hn
        rw [run_bind]
        unfold Gives at hinput
        generalize (next.run n).1 = input?, (next.run n).2 = n' at hinput ⊢
        cases input? with
        | none => exact hinput
        | some input =>
            exact ih _ (hinput _ (schedules_schedule (·.keepOnly self Occasion.isLasting) n'))

theorem Maintains.drive (hP : IsOfData P) (hnext : Maintains P next)
    (htake : ∀ a, Maintains P (take a)) (fuel : Nat) : Maintains P (drive self next take fuel) := by
  refine drive_induction hP (fun n hn => ?_) fuel
  have hfound := hnext n hn
  unfold Gives
  generalize (next.run n).1 = input?, (next.run n).2 = n' at hfound ⊢
  cases input? with
  | none => exact hfound
  | some input => exact fun n'' h => htake input n'' (hP n' n'' h hfound)

/-! ### Parts that are kept -/

/-- The computation leaves a part of the network as it is. -/
def Keeps (part : Network → β) (x : Net α) : Prop := ∀ n, part (x.run n).2 = part n

variable {part : Network → β}

theorem keeps_iff {x : Net α} : Keeps part x ↔ ∀ b, Maintains (part · = b) x :=
  ⟨fun h _ n hn => (h n).trans hn, fun h n => h _ n rfl⟩

theorem Keeps.pure (a : α) : Keeps part (Pure.pure a : Net α) := fun _ => rfl

theorem Keeps.get : Keeps part (MonadState.get : Net Network) := fun _ => rfl

theorem Keeps.bind {x : Net α} {f : α → Net γ} (hx : Keeps part x) (hf : ∀ a, Keeps part (f a)) :
    Keeps part (x >>= f) :=
  fun n => (hf _ _).trans (hx n)

theorem Keeps.forIn {f : α → PUnit → Net (ForInStep PUnit)} {as : List α}
    (hf : ∀ a ∈ as, ∀ u, Keeps part (f a u)) : Keeps part (ForIn.forIn as PUnit.unit f) :=
  keeps_iff.2 fun b => .forIn fun a ha u => keeps_iff.1 (hf a ha u) b

/-- The part does not depend on who runs when. -/
theorem Schedules.keeps {x : Net α} (hx : Schedules x) (hpart : ∀ n, part n = part n.data) :
    Keeps part x :=
  fun n => by rw [hpart, hx n, ← hpart]

theorem Keeps.drive (hpart : ∀ n, part n = part n.data) (hnext : Keeps part next)
    (htake : ∀ a, Keeps part (take a)) (fuel : Nat) : Keeps part (drive self next take fuel) := by
  refine keeps_iff.2 fun b => .drive (fun n n' h hn => ?_) (keeps_iff.1 hnext b)
    (fun a => keeps_iff.1 (htake a) b) fuel
  rw [hpart, h, ← hpart, hn]

/-! ### What single operations leave alone

What an operation changes is said by its first hypothesis: a part that is the same without it is left as it
is. -/

/-- Whether a scope has fired decides what is done. -/
theorem Keeps.ifFired {t : TaskId} {s : ScopeId} {x y : Net α} (hpart : ∀ n, part n = part n.data)
    (hx : Keeps part x) (hy : Keeps part y) : Keeps part (do if ← hasFired t s then x else y) := by
  refine .bind ((schedules_hasFired t s).keeps hpart) fun fired => ?_
  split
  · exact hx
  · exact hy

theorem Keeps.reading {t : TaskId} {o : Occasion} {read : Net (Polled α)} (hpart : ∀ n, part n = part n.data)
    (hread : Keeps part read) : Keeps part (reading t o read) :=
  fun n => by rw [hpart, (run_reading t o read n).2, ← hpart, hread]

theorem Keeps.fire (hpart : ∀ n, part n = part { n.data with scopes := .empty }) (s : ScopeId) :
    Keeps part (fire s) := fun n => by
  rw [hpart, data_fire, hpart n]
  rfl

theorem Keeps.writeWith (hpart : ∀ n, part n = part { n.data with feeds := [] })
    (write : Feed Event → Event → Feed Event × Pushed) (f : FeedId) (e : Event) :
    Keeps part (writeWith write f e) := fun n => by
  rw [hpart, (data_writeWith write f e n).2, hpart n]
  rfl

theorem Keeps.readFeed (hpart : ∀ n, part n = part { n.data with feeds := [] }) (f : FeedId) :
    Keeps part (readFeed f) := fun n => by
  rw [hpart, (data_readFeed f n).2, hpart n]
  rfl

/-- A request that is sent changes a keeper. -/
theorem Keeps.sendRequest (hpart : ∀ n, part n = part { n.data with keepers := [] }) (keeper : Nat)
    (sender : Option TaskId) (r : Request) : Keeps part (sendRequest keeper sender r) := by
  refine .bind (.bind .get fun n => ?_) fun gone => ?_
  · split <;> exact fun _ => rfl
  · split
    · exact .pure _
    · exact fun n => by rw [hpart, hpart n]; rfl

theorem Keeps.ask (hpart : ∀ n, part n = part { n.data with keepers := [] }) (keeper : Nat) (t : TaskId)
    (r : Request) : Keeps part (ask keeper t r) :=
  .bind (fun n => by rw [hpart, hpart n]; rfl) fun _ => .sendRequest hpart keeper _ r

/-- What a task learns about its request changes nothing, but that an answer is taken away. -/
theorem Keeps.answer? {t : TaskId} {keeper : Nat} {reply : Option Reply} {clear : Net Unit} {refused : α}
    {ofReply : Reply → α} (hpart : ∀ n, part n = part n.data) (hclear : Keeps part clear) :
    Keeps part (answer? t keeper reply clear refused ofReply) := by
  refine .bind .get fun n => ?_
  split
  · exact .pure _
  · refine .ifFired hpart (.pure _) ?_
    split
    · exact .bind (schedules_spend.keeps hpart) fun _ => .bind hclear fun _ => .pure _
    · exact .bind ((schedules_await t _).keeps hpart) fun _ => .pure _

/-- A subscription that is closed tells its hub. -/
theorem Keeps.closeSubscription (hpart : ∀ n, part n = part { n.data with scopes := .empty, hubs := [] })
    (i : Nat) : Keeps part (closeSubscription i) := by
  refine .bind .get fun n => ?_
  split
  · exact .pure _
  · refine .bind (fun _ => rfl) fun fired => ?_
    split
    · exact .pure _
    · refine .bind (.fire (fun n => by rw [hpart, hpart { n.data with scopes := .empty }]; rfl) _) fun _ => ?_
      split
      · exact fun n => by rw [hpart, hpart n]; rfl
      · exact .pure _

theorem Keeps.drop (hpart : ∀ n, part n = part { n.data with scopes := .empty, hubs := [], feeds := [] })
    (s : Source) : Keeps part s.drop := by
  have hclose : Keeps part s.close := by
    cases s with
    | subscription i =>
        exact .closeSubscription (fun n => by rw [hpart, hpart { n.data with scopes := .empty, hubs := [] }]; rfl) i
    | view i =>
        refine .bind .get fun n => ?_
        split
        · exact .pure _
        · refine .bind (fun _ => rfl) fun fired => ?_
          split
          · exact .pure _
          · refine .bind (.fire (fun n => ?_) _) fun _ => .pure _
            rw [hpart, hpart { n.data with scopes := .empty }]
            rfl
  refine .bind hclose fun wasOpen => .bind .get fun n => ?_
  split
  · exact .bind (fun n => by rw [hpart, hpart n]; rfl) fun _ => .pure _
  · exact .pure _

/-! ### Runs -/

/-- A property that every task maintains in its turn, and that does not depend on who runs when or on
the time. -/
structure Stable (P : Network → Prop) : Prop where
  ofData : IsOfData P
  later : ∀ n now, P n → P { n with now }
  turn : ∀ t, Maintains P (run t)

namespace Stable

theorem runTurns (h : Stable P) (turns : Nat) : Maintains P (runTurns turns) := by
  induction turns with
  | zero => exact .pure _
  | succ turns ih =>
      refine .get fun n hn => ?_
      split
      · exact hn
      · exact ih _ (h.turn _ _ (h.ofData n _ rfl hn))

theorem runRound (h : Stable P) : Maintains P runRound :=
  (h.runTurns _).bind fun _ => (schedules_schedule _).maintains h.ofData

theorem runRounds (h : Stable P) (isDone : Network → Bool) (fuel : Nat) :
    Maintains P (runRounds isDone fuel) := by
  induction fuel with
  | zero => exact .pure _
  | succ fuel ih =>
      refine .get fun n hn => ?_
      split
      · exact hn
      · exact ih _ (h.runRound n hn)

theorem runUntil (h : Stable P) (isDone : Network → Bool) : Maintains P (runUntil isDone) :=
  h.runRounds isDone _

/-- **What is stable holds after the tasks have run until all of them wait.** -/
theorem settle (h : Stable P) : Maintains P settle := h.runUntil _

theorem advanceTo (h : Stable P) (target fuel : Nat) : Maintains P (advanceTo target fuel) := by
  induction fuel with
  | zero => exact .pure _
  | succ fuel ih =>
      refine .bind h.settle fun _ => .get fun n hn => ?_
      rw [run_bind]
      dsimp only
      split
      · exact h.later n _ hn
      · rename_i instant _
        refine ih _ (h.ofData _ _ (Schedules.forIn (fun d _ _ => ?_) _) (h.later n instant hn))
        split
        · exact (schedules_schedule _).bind fun _ => .pure _
        · exact .pure _

/-- **What is stable holds after time has passed.** -/
theorem advance (h : Stable P) (ms : Nat) : Maintains P (advance ms) :=
  .get fun n hn => h.advanceTo _ _ n hn

end Stable

/-! ### Operations that may be refused -/

theorem Maintains.lift {x : Net α} (hx : Maintains P x) : Maintains P (liftM x : Op α).run :=
  fun n hn => hx n hn

theorem Maintains.throw (e : Error) : Maintains P (MonadExcept.throw e : Op α).run := fun _ hn => hn

theorem Maintains.run_bind {x : Op α} {f : α → Op β} (hx : Maintains P x.run)
    (hf : ∀ a, Maintains P (f a).run) : Maintains P (x >>= f).run := by
  rw [ExceptT.run_bind]
  refine .bind hx fun r => ?_
  cases r with
  | error e => exact .pure _
  | ok a => exact hf a

end Network

end Replica
