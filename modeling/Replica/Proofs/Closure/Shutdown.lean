import Replica.Proofs.Closure.Turns

/-! # Tasks that are told to stop

A task is told to stop by its own scope, by the scope of what it reads, or by the end of the follower's output
(`isTold`).  It may be amid something else then, and learns of that later (`isEngaged`).

A network has `Settled` when no task that has been told to stop has a step left: none of them is engaged, and
none finds an input in a turn of its own.  A hub or an observer has stopped then (`Settled.hub`,
`Settled.observer`).  A view or the coordinator has stopped too, or waits in its last phase for the end of its
store or of its hub (`Settled.view`, `Settled.coordinator`). -/

namespace Replica

namespace Network

variable {α β : Type} {n : Network} {i : Nat} {t : TaskId}

/-! ### What tells a task to stop -/

/-- Whether a task has been told to stop. -/
def isTold (n : Network) : TaskId → Bool
  | .keeper i => n.keepers[i]?.any fun k => n.scopes.isFired k.scope
  | .hub i => n.hubs[i]?.any fun h =>
      n.scopes.isFired h.scope || (h.source.parts? n).any fun p => n.scopes.isFired p.scope
  | .view i => n.views[i]?.any fun v =>
      n.scopes.isFired v.scope || n.subscriptions[v.parent]?.any fun s => n.scopes.isFired s.scope
  | .observer i => n.observers[i]?.any fun o =>
      n.scopes.isFired o.scope || n.subscriptions[o.subscription]?.any fun s => n.scopes.isFired s.scope
  | .coordinator =>
      n.coordinator.any (fun c => n.scopes.isFired c.scope) ||
        n.follower.any fun f => f.follower.output.any Feed.isSealed
  | .poller | .follower | .session _ => false

/-- Whether a task is amid something else, and does not look whether it is to stop. -/
def isEngaged (n : Network) : TaskId → Bool
  | .view i => n.views[i]?.any fun v =>
      match v.view.phase with
      | .idle | .stopping | .stopped => false
      | .reading _ | .applying _ | .noting _ | .updating => true
  | .observer i => n.observers[i]?.any (·.phase = .reading)
  | .coordinator => n.coordinator.any fun c =>
      match c.coordinator.phase with
      | .idle | .closing | .closed => false
      | .syncing _ | .updating | .feeding _ _ | .resetting => true
  | .keeper _ | .hub _ | .poller | .follower | .session _ => false

/-- The network at the beginning of a turn. -/
def rested (n : Network) : Network := { n with executor := { n.executor with left := Executor.allowance } }

/-- Whether a task has been told to stop and has a step left. -/
def isStopping (n : Network) (t : TaskId) : Bool :=
  n.isTold t && (n.isEngaged t || ((task t).next.run n.rested).1.isSome)

/-- **No task that has been told to stop has a step left.** -/
def Settled (n : Network) : Prop := ∀ t, n.isStopping t = false

/-- The tasks that may be told to stop. -/
def told (n : Network) : List TaskId :=
  .coordinator :: ((List.range n.keepers.length).map .keeper ++ (List.range n.hubs.length).map .hub ++
    (List.range n.views.length).map .view ++ (List.range n.observers.length).map .observer)

theorem lt_length_of_any {l : List α} {p : α → Bool} (h : l[i]?.any p = true) : i < l.length := by
  refine Nat.lt_of_not_le fun hle => ?_
  rw [List.getElem?_eq_none hle] at h
  cases h

theorem mem_told_of_isTold (h : n.isTold t = true) : t ∈ n.told := by
  cases t with
  | keeper i | hub i | view i | observer i => simpa [told] using lt_length_of_any h
  | coordinator => exact List.mem_cons_self
  | poller | follower | session i => cases h

instance : Decidable n.Settled :=
  decidable_of_iff (∀ t ∈ n.told, n.isStopping t = false)
    ⟨fun h t => Bool.eq_false_iff.2 fun ht => by
      have hmem := mem_told_of_isTold (Bool.and_eq_true_iff.1 ht).1
      simp [h t hmem] at ht, fun h t _ => h t⟩

/-! ### Finding an input -/

section finds

variable {P : Network → Prop}

/-- From `P` the computation finds something. -/
abbrev Finds (P : Network → Prop) (x : Net (Option α)) : Prop := Leads P x (· ≠ none) fun _ => True

theorem Finds.found (a : α) : Finds P (pure (some a)) := fun _ _ => ⟨nofun, trivial⟩

/-- The network is as it was but for the schedule, and the task may take so many inputs still. -/
structure Rests (n : Network) (left : Nat) (m : Network) : Prop where
  data : m.data = n.data
  left : left ≤ m.executor.left

variable {left : Nat} {s : ScopeId}

theorem rests_rested (n : Network) : Rests n 2 n.rested := ⟨rfl, Nat.le_of_ble_eq_true rfl⟩

theorem rests_await (t : TaskId) (o : Occasion) : Reaches (Rests n left) (await t o) (Rests n left) := by
  refine fun m hm => ⟨trivial, (schedules_await t o m).trans hm.data, ?_⟩
  have hsame : ((await t o).run m).2.executor.left = m.executor.left := by
    change (m.executor.await t o).left = _
    rw [Executor.await]
    split <;> rfl
  exact hsame ▸ hm.left

theorem rests_spend : Reaches (Rests n (left + 1)) spend (Rests n left) :=
  fun _ hm => ⟨trivial, hm.data, Nat.le_sub_one_of_lt hm.left⟩

theorem rests_isFired (s : ScopeId) : Leads (Rests n left) (isFired s) (· = n.scopes.isFired s) (Rests n left) :=
  fun _ hm => ⟨congrArg (Scopes.isFired · s) (congrArg Network.scopes hm.data :), hm⟩

theorem rests_hasFired (t : TaskId) (s : ScopeId) :
    Leads (Rests n left) (hasFired t s) (· = n.scopes.isFired s) (Rests n left) := by
  refine (rests_isFired s).bind fun fired hfired => ?_
  split
  · rename_i htrue
    exact .pure (hfired ▸ htrue.symm)
  · rename_i hfalse
    exact (rests_await t (.fired s)).seq fun _ => .pure (hfired ▸ (Bool.eq_false_iff.2 hfalse).symm)

/-- A scope that has fired is found first. -/
theorem Finds.ifFired {x y : Net (Option α)} (hx : n.scopes.isFired s = true → Finds (Rests n left) x)
    (hy : n.scopes.isFired s = false → Finds (Rests n left) y) :
    Finds (Rests n left) (do if ← hasFired t s then x else y) := by
  refine (rests_hasFired t s).bind fun fired hfired => ?_
  subst hfired
  split
  · exact hx (by assumption)
  · exact hy (Bool.eq_false_iff.2 (by assumption))

/-- A source that is closed has ended. -/
theorem rests_nextWithin {f : FeedId} (fired : n.scopes.isFired s = true) :
    Leads (Rests n left) (nextWithin t s f) (· = .ended) (Rests n left) := by
  refine (rests_hasFired t s).bind fun _ hfired => ?_
  rw [hfired, fired]
  exact .pure rfl

/-- What is read off the network is as it was but for the schedule. -/
theorem Finds.get {f : Network → Net (Option α)}
    (h : ∀ executor : Executor TaskId Occasion, left ≤ executor.left → Finds (Rests n left) (f { n with executor })) :
    Finds (Rests n left) (MonadState.get >>= f) := by
  refine Leads.get fun m hm => ?_
  rw [eq_of_data hm.data]
  exact h m.executor hm.left

theorem Finds.ne_none {x : Net (Option α)} (h : Finds (Rests n 2) x) : (x.run n.rested).1 ≠ none :=
  (h _ (rests_rested n)).1

end finds

/-! ### Settled tasks -/

section settled

variable {s : ScopeId}

/-- A keeper whose scope has fired finds that, until it has stopped. -/
theorem finds_nextForKeeper {k : KeeperTask} (hi : n.keepers[i]? = some k) (fired : n.scopes.isFired k.scope = true)
    (hdone : n.scopes.isFired k.done = false) : Finds (Rests n 2) (nextForKeeper i) := by
  refine .get fun _ _ => ?_
  simp only [hi]
  refine (rests_isFired k.done).bind fun done hd => ?_
  rw [hd, hdone]
  refine Finds.ifFired (fun _ => .found _) fun hopen => ?_
  cases hopen.symm.trans fired

/-- What a hub listens to has ended when it is closed. -/
theorem finds_nextOfSource {source : Source} {p : SourceParts} (hp : source.parts? n = some p)
    (fired : n.scopes.isFired p.scope = true) : Finds (Rests n 1) (nextOfSource t source) := by
  refine .get fun executor _ => ?_
  have hparts : source.parts? { n with executor } = some p := by cases source <;> exact hp
  rw [hparts]
  refine (rests_nextWithin fired).bind fun r hr => ?_
  subst hr
  exact Finds.found _

/-- A hub that has been told to stop finds an input, until it has stopped. -/
theorem finds_nextForHub {h : HubTask} {p : SourceParts} (hi : n.hubs[i]? = some h) (hp : h.source.parts? n = some p)
    (fired : n.scopes.isFired h.scope = true ∨ n.scopes.isFired p.scope = true) (hrunning : h.isStopped = false) :
    Finds (Rests n 2) (nextForHub i) := by
  refine .get fun _ _ => ?_
  simp only [hi, hrunning, Bool.false_eq_true, if_false]
  refine Finds.ifFired (fun _ => .found _) fun hopen => ?_
  split
  · exact fun _ _ => ⟨nofun, trivial⟩
  refine (rests_await _ _).seq fun _ => ?_
  split
  · exact fun _ _ => ⟨nofun, trivial⟩
  have hrest : Finds (Rests n 1) (do
      if (← MonadState.get).executor.left = 0 then
        schedule (·.pause (.hub i))
        return none
      nextOfSource (.hub i) h.source : Net (Option HubInput)) := by
    refine .get fun executor hleft => ?_
    rw [if_neg (Nat.ne_of_gt hleft)]
    exact finds_nextOfSource hp (fired.resolve_left (by simp [hopen]))
  split
  · refine (rests_await _ _).seq fun _ => ?_
    exact hrest.of_imp fun m hm => ⟨hm.data, Nat.le_of_succ_le hm.left⟩
  · exact rests_spend.seq fun _ => hrest

/-- An idle view that has been told to stop finds an input. -/
theorem finds_nextForView {v : ViewTask} {sub : Subscription} (hi : n.views[i]? = some v)
    (hs : n.subscriptions[v.parent]? = some sub)
    (fired : n.scopes.isFired v.scope = true ∨ n.scopes.isFired sub.scope = true) (hidle : v.view.phase = .idle) :
    Finds (Rests n 2) (nextForView i) := by
  refine .get fun _ _ => ?_
  simp only [hi]
  refine .get fun _ _ => ?_
  simp only [hs, hidle]
  refine Finds.ifFired (fun _ => .found _) fun hopen => ?_
  split
  on_goal 1 => refine Finds.ifFired (fun _ => .found _) fun _ => ?_
  -- Whether or not the parent's readiness is looked at first, what follows is the same.
  all_goals
    split
    · exact fun _ _ => ⟨nofun, trivial⟩
    · refine (rests_await _ _).seq fun _ => (rests_nextWithin (fired.resolve_left (by simp [hopen]))).bind fun r hr => ?_
      subst hr
      exact Finds.found _

/-- A view in its last phase finds an input when its store has stopped. -/
theorem finds_nextForView_of_stopping {v : ViewTask} {sub : Subscription} {k : KeeperTask} (hi : n.views[i]? = some v)
    (hs : n.subscriptions[v.parent]? = some sub) (hphase : v.view.phase = .stopping)
    (hk : n.keepers[v.keeper]? = some k) (fired : n.scopes.isFired k.done = true) :
    Finds (Rests n 2) (nextForView i) := by
  refine .get fun _ _ => ?_
  simp only [hi]
  refine .get fun _ _ => ?_
  simp only [hs, hphase]
  refine .get fun _ _ => ?_
  simp only [hk]
  refine (rests_hasFired _ _).bind fun _ hfired => ?_
  rw [hfired, fired]
  exact Finds.found _

/-- An observer that has been told to stop finds an input, unless it is reading the contents or has stopped. -/
theorem finds_nextForObserver {o : ObserverTask} {sub : Subscription} (hi : n.observers[i]? = some o)
    (hs : n.subscriptions[o.subscription]? = some sub)
    (fired : n.scopes.isFired o.scope = true ∨ n.scopes.isFired sub.scope = true)
    (hphase : o.phase = .waiting ∨ o.phase = .dispatching) : Finds (Rests n 2) (nextForObserver i) := by
  refine .get fun _ _ => ?_
  simp only [hi]
  refine .get fun _ _ => ?_
  rcases hphase with hphase | hphase <;> simp only [hs, hphase]
  all_goals refine Finds.ifFired (fun _ => .found _) fun hopen => ?_
  · refine Finds.ifFired (fun _ => .found _) fun hopen' => ?_
    simp [hopen, hopen'] at fired
  · refine (rests_nextWithin (fired.resolve_left (by simp [hopen]))).bind fun r hr => ?_
    subst hr
    exact Finds.found _

/-- Reading an output that is sealed gives something. -/
theorem reads_of_isSealed {f : FollowerTask} {out : Feed Event} (hout : f.follower.output = some out)
    (hsealed : out.isSealed = true) :
    Leads (·.follower = some f) (reading .coordinator .output readFollower) (· ≠ .pending) fun _ => True := by
  refine fun m hm => ⟨?_, trivial⟩
  have hresult : (readFollower.run m).1 = f.follower.next.2 := by
    simp only [readFollower, StateT.run_bind, StateT.run_get, pure_bind, hm]
    rfl
  rw [(run_reading .coordinator .output readFollower m).1, hresult]
  cases hitems : out.items <;> simp [Follower.next, hout, Feed.poll, hitems, hsealed]

/-- An idle coordinator that has been told to stop finds an input. -/
theorem finds_nextForCoordinator {c : CoordinatorTask} (hc : n.coordinator = some c) (hidle : c.coordinator.phase = .idle)
    (htold : n.scopes.isFired c.scope = true ∨
      ∃ f out, n.follower = some f ∧ f.follower.output = some out ∧ out.isSealed = true) :
    Finds (Rests n 2) nextForCoordinator := by
  refine .get fun _ _ => ?_
  simp only [hc, hidle]
  refine Finds.ifFired (fun _ => Finds.found _) fun hopen => ?_
  obtain ⟨f, out, hf, hout, hsealed⟩ := htold.resolve_left (by simp [hopen])
  have hresult : Reaches (Rests n 2) (reading .coordinator .result takeResult) (·.follower = some f) := by
    refine fun m hm => ⟨trivial, ?_⟩
    have hkeeps : Keeps listening (reading .coordinator .result takeResult) :=
      .reading (fun _ => rfl) keeps_takeResult
    exact (congrArg Prod.fst (hkeeps m)).trans ((congrArg Network.follower hm.data :).trans hf)
  refine hresult.bind fun r _ => ?_
  cases r with
  | item l => exact Finds.found _
  | ended => exact Finds.found _
  | pending =>
      refine (reads_of_isSealed hout hsealed).bind fun r hr => ?_
      cases r with
      | item e => exact Finds.found _
      | ended => exact Finds.found _
      | pending => exact absurd rfl hr

/-- The coordinator in its last phase finds an input when its hub has stopped. -/
theorem finds_nextForCoordinator_of_closing {c : CoordinatorTask} {h : HubTask} (hc : n.coordinator = some c)
    (hphase : c.coordinator.phase = .closing) (hi : n.hubs[c.hub]? = some h) (fired : n.scopes.isFired h.done = true) :
    Finds (Rests n 2) nextForCoordinator := by
  refine .get fun _ _ => ?_
  simp only [hc, hphase]
  refine .get fun _ _ => ?_
  simp only [hi]
  refine (rests_hasFired _ _).bind fun _ hfired => ?_
  rw [hfired, fired]
  exact Finds.found _

/-! ### What has settled -/

namespace Settled

/-- A task that has been told to stop is not engaged, and finds nothing. -/
theorem of_isTold (h : n.Settled) (htold : n.isTold t = true) :
    n.isEngaged t = false ∧ ((task t).next.run n.rested).1 = none := by
  simpa [isStopping, htold] using h t

theorem keeper (h : n.Settled) {k : KeeperTask} (hi : n.keepers[i]? = some k)
    (fired : n.scopes.isFired k.scope = true) : n.scopes.isFired k.done = true :=
  eq_true_of_ne_false fun hdone =>
    (finds_nextForKeeper hi fired hdone).ne_none (h.of_isTold (t := .keeper i) (by simpa [isTold, hi] using fired)).2

theorem hub (h : n.Settled) {t : HubTask} {p : SourceParts} (hi : n.hubs[i]? = some t)
    (hp : t.source.parts? n = some p)
    (fired : n.scopes.isFired t.scope = true ∨ n.scopes.isFired p.scope = true) : t.isStopped = true :=
  eq_true_of_ne_false fun hrunning =>
    (finds_nextForHub hi hp fired hrunning).ne_none (h.of_isTold (t := .hub i) (by simpa [isTold, hi, hp] using fired)).2

theorem view (h : n.Settled) {v : ViewTask} {sub : Subscription} (hi : n.views[i]? = some v)
    (hs : n.subscriptions[v.parent]? = some sub)
    (fired : n.scopes.isFired v.scope = true ∨ n.scopes.isFired sub.scope = true) :
    v.view.phase = .stopped ∨ v.view.phase = .stopping ∧
      ∀ k, n.keepers[v.keeper]? = some k → n.scopes.isFired k.done = false := by
  obtain ⟨hengaged, hnone⟩ := h.of_isTold (t := .view i) (by simpa [isTold, hi, hs] using fired)
  cases hphase : v.view.phase with
  | idle => exact absurd hnone (finds_nextForView hi hs fired hphase).ne_none
  | stopping =>
      refine .inr ⟨rfl, fun k hk => Bool.eq_false_iff.2 fun hdone => ?_⟩
      exact (finds_nextForView_of_stopping hi hs hphase hk hdone).ne_none hnone
  | stopped => exact .inl rfl
  | reading job | applying job | noting filter | updating => simp [isEngaged, hi, hphase] at hengaged

theorem observer (h : n.Settled) {o : ObserverTask} {sub : Subscription} (hi : n.observers[i]? = some o)
    (hs : n.subscriptions[o.subscription]? = some sub)
    (fired : n.scopes.isFired o.scope = true ∨ n.scopes.isFired sub.scope = true) : o.phase = .stopped := by
  obtain ⟨hengaged, hnone⟩ := h.of_isTold (t := .observer i) (by simpa [isTold, hi, hs] using fired)
  have hfinds := fun hphase => (finds_nextForObserver hi hs fired hphase).ne_none hnone
  cases hphase : o.phase with
  | stopped => rfl
  | reading => simp [isEngaged, hi, hphase] at hengaged
  | waiting => exact absurd (.inl hphase) hfinds
  | dispatching => exact absurd (.inr hphase) hfinds

theorem coordinator (h : n.Settled) {c : CoordinatorTask} (hc : n.coordinator = some c)
    (htold : n.scopes.isFired c.scope = true ∨
      ∃ f out, n.follower = some f ∧ f.follower.output = some out ∧ out.isSealed = true) :
    c.coordinator.phase = .closed ∨ c.coordinator.phase = .closing ∧
      ∀ t, n.hubs[c.hub]? = some t → n.scopes.isFired t.done = false := by
  have hflag : n.isTold .coordinator = true := by
    rcases htold with fired | ⟨f, out, hf, hout, hsealed⟩
    · simp [isTold, hc, fired]
    · simp [isTold, hf, hout, hsealed]
  obtain ⟨hengaged, hnone⟩ := h.of_isTold hflag
  cases hphase : c.coordinator.phase with
  | idle => exact absurd hnone (finds_nextForCoordinator hc hphase htold).ne_none
  | closing =>
      refine .inr ⟨rfl, fun t ht => Bool.eq_false_iff.2 fun hdone => ?_⟩
      exact (finds_nextForCoordinator_of_closing hc hphase ht hdone).ne_none hnone
  | closed => exact .inl rfl
  | syncing version | updating | feeding rest version | resetting => simp [isEngaged, hc, hphase] at hengaged

end Settled

end settled

end Network

end Replica
