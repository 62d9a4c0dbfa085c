import Replica.Proofs.Coordinator.Standing
import Replica.Proofs.Network.Beginning
import Replica.Proofs.Network.Run

/-! # A coordinator in a running network

The parts of a pipeline in a network (`Outfit`) show an `Upkeep`.  What the coordinator of the network finds in its
turn is what the coordinator of the upkeep notices (`gives_nextForCoordinator`), and what it does on that is
done to the upkeep (`displays_takeForCoordinator`).  So in its turns it makes moves of the upkeep
(`maintains_isTended`), from the start of a pipeline on (`displays_ofPipeline`). -/

namespace Replica

namespace Scopes

/-- The scope stands alone. -/
def IsSignal (s : Scopes) (i : ScopeId) : Prop := s.parent? i = none ∧ ∀ j, s.parent? j ≠ some i

variable {s : Scopes} {i j : ScopeId}

theorem IsSignal.not_below (h : s.IsSignal i) (hne : j ≠ i) : ¬ s.Below i j := by
  intro hb
  induction hb with
  | refl => exact hne rfl
  | @child k l _ hl ih =>
      by_cases hk : k = i
      · exact h.2 l (hk ▸ hl)
      · exact ih hk

theorem IsSignal.not_above (h : s.IsSignal j) (hne : j ≠ i) : ¬ s.Below i j := by
  intro hb
  cases hb with
  | refl => exact hne rfl
  | child _ hk =>
      rw [h.1] at hk
      cases hk

/-- A signal has nothing to do with what else fires. -/
theorem isFired_fire_of_ne (h : s.IsSignal i ∨ s.IsSignal j) (hne : j ≠ i) :
    (s.fire i).1.isFired j = s.isFired j :=
  isFired_fire_of_not_below (h.elim (·.not_below hne) (·.not_above hne))

theorem IsSignal.fire (h : s.IsSignal i) (j : ScopeId) : (s.fire j).1.IsSignal i := by
  simp only [IsSignal, parent?_fire]
  exact h

end Scopes

namespace Network

/-! ### The parts of a pipeline -/

/-- The scopes of a pipeline: the scope of its store is right below its own and fires with it, and the signals
stand alone. -/
structure Wired (s : Scopes) (scope ready done store hub : ScopeId) : Prop where
  ordered : s.Ordered
  down : s.Down
  made : scope < s.list.length
  announced : ready < s.list.length
  parent : s.parent? store = some scope
  fired : s.isFired store = s.isFired scope
  apart : [scope, ready, done, hub].Nodup
  ready : s.IsSignal ready
  done : s.IsSignal done
  hub : s.IsSignal hub

/-- The parts of a pipeline. -/
structure Outfit where
  coordinator : CoordinatorTask
  poller : PollerTask
  follower : FollowerTask
  feed : Feed Event
  keeper : KeeperTask
  hub : HubTask

/-- What the coordinator has asked of a store. -/
def KeeperTask.asked (k : KeeperTask) : Option Request :=
  (k.keeper.requests.filter (·.1 = some .coordinator)).getLast?.map Prod.snd

/-- What the parts of a pipeline show. -/
def Outfit.upkeep (o : Outfit) (scopes : Scopes) : Upkeep where
  coordinator := o.coordinator.coordinator
  store := o.keeper.keeper.store
  asked := o.keeper.asked
  answer := o.coordinator.reply.map Reply.eventList
  slot := o.poller.poller.slot
  pollerGone := o.poller.poller.phase = .stopped
  follower := o.follower.follower
  inbox := o.follower.inbox
  wasReset := o.follower.wasReset
  feed := o.feed
  hubGone := scopes.isFired o.hub.done
  isFired := scopes.isFired o.coordinator.scope
  isReady := scopes.isFired o.coordinator.ready

/-- A network with the parts of a pipeline. -/
structure Equips (n : Network) (o : Outfit) : Prop where
  coordinator : n.coordinator = some o.coordinator
  poller : n.poller = some o.poller
  follower : n.follower = some o.follower
  feed : n.feeds[o.coordinator.feed]? = some o.feed
  keeper : n.keepers[o.coordinator.keeper]? = some o.keeper
  hub : n.hubs[o.coordinator.hub]? = some o.hub
  wired : Wired n.scopes o.coordinator.scope o.coordinator.ready o.coordinator.done o.keeper.scope o.hub.done

variable {n n' : Network} {o : Outfit} {p : Upkeep}

theorem scopes_of_data (h : n'.data = n.data) : n'.scopes = n.scopes := by rw [eq_of_data h]

theorem Equips.of_data (h : n.Equips o) (hdata : n'.data = n.data) : n'.Equips o := by
  rw [eq_of_data hdata]
  exact ⟨h.coordinator, h.poller, h.follower, h.feed, h.keeper, h.hub, h.wired⟩

theorem Equips.modifyCoordinator (h : n.Equips o) (change : CoordinatorTask → CoordinatorTask)
    {coordinator : Coordinator} {reply : Option Reply}
    (hchange : change o.coordinator = { o.coordinator with coordinator, reply }) :
    ((Network.modifyCoordinator change).run n).2.Equips
      { o with coordinator := { o.coordinator with coordinator, reply } } := by
  refine ⟨?_, h.poller, h.follower, h.feed, h.keeper, h.hub, h.wired⟩
  change n.coordinator.map change = _
  rw [h.coordinator, Option.map_some, hchange]

theorem Equips.modifyPoller (h : n.Equips o) (change : PollerTask → PollerTask) :
    ((Network.modifyPoller change).run n).2.Equips { o with poller := change o.poller } :=
  ⟨h.coordinator, congrArg (Option.map change) h.poller, h.follower, h.feed, h.keeper, h.hub, h.wired⟩

theorem Equips.modifyFollower (h : n.Equips o) (change : FollowerTask → FollowerTask) :
    ((Network.modifyFollower change).run n).2.Equips { o with follower := change o.follower } :=
  ⟨h.coordinator, h.poller, congrArg (Option.map change) h.follower, h.feed, h.keeper, h.hub, h.wired⟩

theorem Equips.modifyFeed (h : n.Equips o) (change : Feed Event → Feed Event)
    (hdata : n'.data = { n with feeds := n.feeds.modify o.coordinator.feed change }.data) :
    n'.Equips { o with feed := change o.feed } := by
  refine Equips.of_data (n := { n with feeds := n.feeds.modify o.coordinator.feed change }) ?_ hdata
  exact ⟨h.coordinator, h.poller, h.follower, getElem?_modify_of_some h.feed change, h.keeper, h.hub, h.wired⟩

theorem Equips.modifyKeeper (h : n.Equips o) (change : KeeperTask → KeeperTask)
    (scope : (change o.keeper).scope = o.keeper.scope) :
    ((Network.modifyKeeper o.coordinator.keeper change).run n).2.Equips { o with keeper := change o.keeper } :=
  ⟨h.coordinator, h.poller, h.follower, h.feed, getElem?_modify_of_some h.keeper change, h.hub, scope.symm ▸ h.wired⟩

/-! ### What fires -/

section wired

variable {s : Scopes} {scope ready done store hub : ScopeId}

theorem Wired.store_ne (h : Wired s scope ready done store hub) {i : ScopeId} (hi : s.IsSignal i) : store ≠ i := by
  rintro rfl
  have hparent := h.parent
  rw [hi.1] at hparent
  cases hparent

theorem Wired.fire (h : Wired s scope ready done store hub) {i : ScopeId}
    (fired : (s.fire i).1.isFired store = (s.fire i).1.isFired scope) :
    Wired (s.fire i).1 scope ready done store hub where
  ordered := h.ordered.fire i
  down := h.down.fire h.ordered i
  made := by rw [Scopes.length_fire]; exact h.made
  announced := by rw [Scopes.length_fire]; exact h.announced
  parent := by rw [Scopes.parent?_fire]; exact h.parent
  fired := fired
  ready := h.ready.fire i
  done := h.done.fire i
  hub := h.hub.fire i
  apart := h.apart

/-- The scope of a pipeline fires, and with it that of its store. -/
theorem Wired.fire_scope (h : Wired s scope ready done store hub) :
    Wired (s.fire scope).1 scope ready done store hub ∧ (s.fire scope).1.isFired scope = true := by
  have hscope : (s.fire scope).1.isFired scope = true := Scopes.isFired_fire_self h.made
  refine ⟨h.fire ?_, hscope⟩
  rw [hscope]
  refine h.down.fire h.ordered scope store scope ?_ hscope
  rw [Scopes.parent?_fire]
  exact h.parent

/-- A signal fires. -/
theorem Wired.fire_signal (h : Wired s scope ready done store hub) {i : ScopeId} (hi : s.IsSignal i)
    (hne : scope ≠ i) :
    Wired (s.fire i).1 scope ready done store hub ∧ (s.fire i).1.isFired scope = s.isFired scope := by
  have hscope := Scopes.isFired_fire_of_ne (.inl hi) hne
  refine ⟨h.fire ?_, hscope⟩
  rw [hscope, Scopes.isFired_fire_of_ne (.inl hi) (h.store_ne hi)]
  exact h.fired

end wired

/-- A network with a pipeline that shows `p`. -/
def Displays (n : Network) (p : Upkeep) : Prop := ∃ o, n.Equips o ∧ o.upkeep n.scopes = p

/-- The network shows what some moves have made of a pipeline. -/
def IsTended (p : Upkeep) (n : Network) : Prop := ∃ moves, n.Displays (p.after moves)

theorem Displays.of_data (h : n.Displays p) (hdata : n'.data = n.data) : n'.Displays p := by
  obtain ⟨o, ho, rfl⟩ := h
  exact ⟨o, ho.of_data hdata, by rw [eq_of_data hdata]⟩

/-! ### What the coordinator finds -/

/-- The coordinator of the network finds what the coordinator of the upkeep notices. -/
def Notes (p : Upkeep) (input : Option Coordinator.Input) (n : Network) : Prop :=
  ∃ q, n.Displays q ∧ p.notice = (input, q)

theorem Equips.notes (h : n.Equips o) {scopes : Scopes} (hscopes : n.scopes = scopes) {input : Option Coordinator.Input}
    (hp : p.notice = (input, o.upkeep scopes)) : Notes p input n :=
  ⟨_, ⟨o, h, by rw [hscopes]⟩, hp⟩

theorem gives_next_of_idle (h : n.Equips o) (phase : o.coordinator.coordinator.phase = .idle) :
    Gives nextForCoordinator n (Notes (o.upkeep n.scopes)) := by
  rw [nextForCoordinator]
  refine .get ?_
  rw [h.coordinator]
  dsimp only
  rw [phase]
  dsimp only
  refine .hasFired fun n₁ h₁ => ?_
  have hs₁ : n₁.scopes = n.scopes := scopes_of_data h₁
  split
  · rename_i fired
    exact .pure ((h.of_data h₁).notes hs₁ (by simp [Upkeep.notice, Outfit.upkeep, phase, fired]))
  rename_i alive
  refine .reading (.get ?_)
  rw [(h.of_data h₁).poller]
  dsimp only
  split
  · rename_i r slot
    intro n₂ h₂
    have hleft := ((h.of_data h₁).modifyPoller fun t =>
      { t with poller := (t.poller.step .take).getD t.poller }).of_data h₂
    refine .pure (hleft.notes ((scopes_of_data h₂).trans hs₁) ?_)
    simp [Upkeep.notice, Outfit.upkeep, phase, alive, slot, Poller.step]
  rename_i slot
  refine .pure fun n₂ h₂ => ?_
  replace h₂ := h₂.trans h₁
  have hs₂ : n₂.scopes = n.scopes := scopes_of_data h₂
  by_cases gone : o.poller.poller.phase = .stopped
  · rw [if_pos gone]
    exact .pure ((h.of_data h₂).notes hs₂ (by simp [Upkeep.notice, Outfit.upkeep, phase, alive, slot, gone]))
  rw [if_neg gone]
  refine .reading (.get ?_)
  rw [(h.of_data h₂).follower]
  dsimp only
  cases hnext : o.follower.follower.next with
  | mk follower polled =>
      intro n₃ h₃
      have hleft := ((h.of_data h₂).modifyFollower fun f => { f with follower }).of_data h₃
      have hs₃ : n₃.scopes = n.scopes := (scopes_of_data h₃).trans hs₂
      cases polled with
      | _ =>
          refine .pure (hleft.notes hs₃ ?_)
          simp [Upkeep.notice, Outfit.upkeep, phase, alive, slot, gone, hnext]

theorem gives_next_of_waiting (h : n.Equips o)
    (phase : (∃ version, o.coordinator.coordinator.phase = .syncing version) ∨
      o.coordinator.coordinator.phase = .updating) :
    Gives nextForCoordinator n (Notes (o.upkeep n.scopes)) := by
  suffices Gives (answer? .coordinator o.coordinator.keeper o.coordinator.reply
      (modifyCoordinator fun c => { c with reply := none }) .refused (Coordinator.Input.applied ·.eventList)) n
      (Notes (o.upkeep n.scopes)) by
    rw [nextForCoordinator]
    refine .get ?_
    rw [h.coordinator]
    dsimp only
    obtain ⟨version, phase⟩ | phase := phase <;> rw [phase] <;> exact this
  refine .get ?_
  rw [h.keeper]
  refine .hasFired fun n₁ h₁ => ?_
  rw [h.wired.fired]
  split
  · rename_i fired
    refine .pure ((h.of_data h₁).notes (scopes_of_data h₁) ?_)
    obtain ⟨version, phase⟩ | phase := phase <;> simp [Upkeep.notice, Outfit.upkeep, phase, fired]
  rename_i alive
  split
  · rename_i r there
    refine .seq schedules_spend fun _ n₂ h₂ => ?_
    have hscopes : n₂.scopes = n.scopes := scopes_of_data (h₂.trans h₁)
    have hleft := (h.of_data (h₂.trans h₁)).modifyCoordinator (fun c => { c with reply := none }) rfl
    refine .pure (hleft.notes hscopes ?_)
    obtain ⟨version, phase⟩ | phase := phase <;> simp [Upkeep.notice, Outfit.upkeep, phase, alive, there]
  · rename_i nothing
    refine .seq (schedules_await _ _) fun _ n₂ h₂ => .pure ?_
    refine (h.of_data (h₂.trans h₁)).notes (scopes_of_data (h₂.trans h₁)) ?_
    obtain ⟨version, phase⟩ | phase := phase <;> simp [Upkeep.notice, Outfit.upkeep, phase, alive, nothing]

theorem gives_next_of_feeding (h : n.Equips o) {e : Event} {rest : List Event} {version : Option String}
    (phase : o.coordinator.coordinator.phase = .feeding (e :: rest) version) :
    Gives nextForCoordinator n (Notes (o.upkeep n.scopes)) := by
  rw [nextForCoordinator]
  refine .get ?_
  rw [h.coordinator]
  dsimp only
  rw [phase]
  dsimp only
  refine .hasFired fun n₁ h₁ => ?_
  have hs₁ : n₁.scopes = n.scopes := scopes_of_data h₁
  split
  · rename_i fired
    exact .pure ((h.of_data h₁).notes hs₁ (by simp [Upkeep.notice, Outfit.upkeep, phase, fired]))
  rename_i alive
  refine .writeWith (h.of_data h₁).feed fun n₂ h₂ => ?_
  have hleft := (h.of_data h₁).modifyFeed (fun feed => (feed.push e).1) h₂
  have hs₂ : n₂.scopes = n.scopes := (scopes_of_data h₂).trans hs₁
  have hsame := o.feed.push_of_ne_taken (a := e)
  cases hpush : o.feed.push e with
  | mk feed pushed =>
      rw [hpush] at hleft hsame
      cases pushed with
      | taken =>
          refine .seq schedules_spend fun _ n₃ h₃ => .pure ?_
          refine (hleft.of_data h₃).notes ((scopes_of_data h₃).trans hs₂) ?_
          simp [Upkeep.notice, Outfit.upkeep, phase, alive, hpush]
      | full =>
          obtain rfl := hsame (by simp)
          refine .seq (schedules_await _ _) fun _ n₃ h₃ => .pure ?_
          refine (hleft.of_data h₃).notes ((scopes_of_data h₃).trans hs₂) ?_
          simp [Upkeep.notice, Outfit.upkeep, phase, alive, hpush]
      | refused =>
          obtain rfl := hsame (by simp)
          refine .pure (hleft.notes hs₂ ?_)
          simp [Upkeep.notice, Outfit.upkeep, phase, alive, hpush]

theorem gives_next_of_resetting (h : n.Equips o) (phase : o.coordinator.coordinator.phase = .resetting) :
    Gives nextForCoordinator n (Notes (o.upkeep n.scopes)) := by
  rw [nextForCoordinator]
  refine .get ?_
  rw [h.coordinator]
  dsimp only
  rw [phase]
  dsimp only
  refine .get ?_
  rw [h.follower]
  dsimp only
  split
  · rename_i wasReset
    refine .seq schedules_spend fun _ n₁ h₁ => ?_
    have hs₁ : n₁.scopes = n.scopes := scopes_of_data h₁
    have hleft := (h.of_data h₁).modifyFollower fun f => { f with wasReset := false }
    refine .pure (hleft.notes hs₁ ?_)
    simp [Upkeep.notice, Outfit.upkeep, phase, wasReset]
  rename_i waits
  split
  · rename_i stopped
    exact .pure (h.notes rfl (by simp [Upkeep.notice, Outfit.upkeep, phase, waits, stopped]))
  · rename_i running
    refine .seq (schedules_await _ _) fun _ n₁ h₁ => .pure ?_
    refine (h.of_data h₁).notes (scopes_of_data h₁) ?_
    simp [Upkeep.notice, Outfit.upkeep, phase, waits, running]

/-- **What the coordinator finds in its turn is what is noticed of the pipeline.** -/
theorem gives_nextForCoordinator (h : n.Equips o) (hp : o.upkeep n.scopes = p) :
    Gives nextForCoordinator n (Notes p) := by
  obtain rfl := hp
  cases phase : o.coordinator.coordinator.phase with
  | idle => exact gives_next_of_idle h phase
  | syncing version => exact gives_next_of_waiting h (.inl ⟨version, phase⟩)
  | updating => exact gives_next_of_waiting h (.inr phase)
  | resetting => exact gives_next_of_resetting h phase
  | feeding rest version =>
      cases rest with
      | cons e rest => exact gives_next_of_feeding h phase
      | nil =>
          have hnotice : (o.upkeep n.scopes).notice = (some .allFed, o.upkeep n.scopes) := by
            simp [Upkeep.notice, Outfit.upkeep, phase]
          refine .get ?_
          rw [h.coordinator]
          dsimp only
          rw [phase]
          dsimp only
          split
          · exact .seq schedules_spend fun _ n₁ h₁ => .pure ((h.of_data h₁).notes (scopes_of_data h₁) hnotice)
          · exact .pure (h.notes rfl hnotice)
  | closing =>
      refine .get ?_
      rw [h.coordinator]
      dsimp only
      rw [phase]
      refine .get ?_
      rw [h.hub]
      refine .hasFired fun n₁ h₁ => .pure ?_
      refine (h.of_data h₁).notes (scopes_of_data h₁) ?_
      simp only [Upkeep.notice, Outfit.upkeep, phase]
      rfl
  | closed =>
      refine .get ?_
      rw [h.coordinator]
      dsimp only
      rw [phase]
      exact .pure (h.notes rfl (by simp [Upkeep.notice, Outfit.upkeep, phase]))

/-! ### What the coordinator does -/

/-- The network displays `p` with the coordinator's task being `c`. -/
def DisplaysBy (c : CoordinatorTask) (p : Upkeep) (n : Network) : Prop :=
  ∃ o, n.Equips o ∧ o.coordinator = c ∧ o.upkeep n.scopes = p

theorem Equips.fire (h : n.Equips o) {i : ScopeId}
    (wired : Wired (n.scopes.fire i).1 o.coordinator.scope o.coordinator.ready o.coordinator.done o.keeper.scope
      o.hub.done) : ((Network.fire i).run n).2.Equips o := by
  refine Equips.of_data (n := { n with scopes := (n.scopes.fire i).1 }) ?_ (data_fire i n)
  exact ⟨h.coordinator, h.poller, h.follower, h.feed, h.keeper, h.hub, wired⟩

theorem scopes_fire (i : ScopeId) (n : Network) : ((fire i).run n).2.scopes = (n.scopes.fire i).1 :=
  scopes_of_data (data_fire i n)

theorem run_keeperGone (h : n.Equips o) :
    (keeperGone o.coordinator.keeper).run n = (n.scopes.isFired o.coordinator.scope, n) := by
  rw [← h.wired.fired]
  simp only [keeperGone, StateT.run_bind, StateT.run_get, pure_bind, h.keeper]
  rfl

theorem Equips.displays (h : n.Equips o) {scopes : Scopes} (hscopes : n.scopes = scopes)
    (hp : o.upkeep scopes = p) : DisplaysBy o.coordinator p n := ⟨o, h, rfl, hscopes ▸ hp⟩

/-- **What the coordinator wants done is done to the pipeline.** -/
theorem displays_actForCoordinator {c : CoordinatorTask} (h : n.DisplaysBy c p) (a : Coordinator.Action) :
    ((actForCoordinator c a).run n).2.DisplaysBy c (p.act a) := by
  obtain ⟨o, ho, rfl, rfl⟩ := h
  suffices Gives (actForCoordinator o.coordinator a) n fun _ n' => n'.DisplaysBy o.coordinator _ from this
  obtain ⟨⟨hready, hdone, hhub⟩, ⟨hrd, hrh⟩, hdh⟩ : (_ ≠ _ ∧ _ ≠ _ ∧ _ ≠ _) ∧ (_ ≠ _ ∧ _ ≠ _) ∧ _ ≠ _ := by
    simpa using ho.wired.apart
  cases a with
  | ask r =>
      refine .seq schedules_spend fun _ n₁ h₁ => ?_
      have hs₁ : n₁.scopes = n.scopes := scopes_of_data h₁
      rw [Gives, sendRequest, run_bind, run_keeperGone (ho.of_data h₁), hs₁]
      split
      · rename_i fired
        exact (ho.of_data h₁).displays hs₁ (if_pos fired).symm
      · rename_i alive
        have hsent := (ho.of_data h₁).modifyKeeper
          (fun k => { k with keeper := k.keeper.send (some .coordinator) r }) rfl
        refine (hsent.of_data (schedules_occur _ _)).displays hs₁ ((if_neg alive).trans ?_).symm
        simp [Outfit.upkeep, KeeperTask.asked, Keeper.send]
  | fireReady =>
      obtain ⟨hwired, hscope⟩ := ho.wired.fire_signal ho.wired.ready hready
      refine (ho.fire hwired).displays (scopes_fire _ _) ?_
      simp [Upkeep.act, Outfit.upkeep, hscope, Scopes.isFired_fire_self ho.wired.announced,
        Scopes.isFired_fire_of_ne (.inl ho.wired.ready) (Ne.symm hrh)]
  | reset version =>
      have hnoted := ho.modifyFollower fun f => { f with inbox := some version }
      exact (hnoted.of_data (schedules_occur _ _)).displays rfl rfl
  | shutDown =>
      refine .seq (schedules_schedule _) fun _ n₁ h₁ => ?_
      have hs₁ : n₁.scopes = n.scopes := scopes_of_data h₁
      obtain ⟨hwired, hscope⟩ := (ho.of_data h₁).wired.fire_scope
      have hclosed : ((closeFeed o.coordinator.feed).run ((fire o.coordinator.scope).run n₁).2).2.Equips
          { o with feed := o.feed.close } := ((ho.of_data h₁).fire hwired).modifyFeed Feed.close rfl
      refine hclosed.displays ((scopes_fire _ _).trans (by rw [hs₁])) ?_
      rw [hs₁] at hscope
      simp [Upkeep.act, Outfit.upkeep, hscope, Scopes.isFired_fire_of_ne (.inr ho.wired.ready) hready.symm,
        Scopes.isFired_fire_of_ne (.inr ho.wired.hub) hhub.symm]
  | fireDone =>
      refine .seq (schedules_schedule _) fun _ n₁ h₁ => ?_
      have hs₁ : n₁.scopes = n.scopes := scopes_of_data h₁
      obtain ⟨hwired, hscope⟩ := (ho.of_data h₁).wired.fire_signal (ho.of_data h₁).wired.done hdone
      refine ((ho.of_data h₁).fire hwired).displays ((scopes_fire _ _).trans (by rw [hs₁])) ?_
      rw [hs₁] at hscope
      simp [Upkeep.act, Outfit.upkeep, hscope, Scopes.isFired_fire_of_ne (.inl ho.wired.done) hrd,
        Scopes.isFired_fire_of_ne (.inl ho.wired.done) (Ne.symm hdh)]

theorem displays_actions {c : CoordinatorTask} (h : n.DisplaysBy c p) (actions : List Coordinator.Action) :
    ((do for a in actions do actForCoordinator c a : Net Unit).run n).2.DisplaysBy c (actions.foldl Upkeep.act p) := by
  suffices ∀ {n p}, DisplaysBy c p n → DisplaysBy c (actions.foldl Upkeep.act p)
      ((ForIn.forIn actions PUnit.unit fun a _ => do
        actForCoordinator c a
        return ForInStep.yield PUnit.unit : Net PUnit).run n).2 from this h
  induction actions with
  | nil => exact id
  | cons a actions ih =>
      intro n p h
      rw [List.forIn_cons]
      exact ih (displays_actForCoordinator h a)

/-- What the coordinator does on an input. -/
def takeForCoordinator (input : Coordinator.Input) : Net Unit := do
  let some c := (← get).coordinator | return
  let (coordinator, actions) := c.coordinator.step input
  modifyCoordinator fun c => { c with coordinator }
  for a in actions do actForCoordinator c a

/-- The coordinator takes an input as that of the pipeline does. -/
theorem displays_takeForCoordinator (h : n.Displays p) (input : Coordinator.Input) :
    ((takeForCoordinator input).run n).2.Displays (p.tell input) := by
  obtain ⟨o, ho, rfl⟩ := h
  suffices Gives (takeForCoordinator input) n fun _ n' => n'.Displays _ from this
  refine .get ?_
  rw [ho.coordinator]
  have hchanged := ho.modifyCoordinator
    (fun c => { c with coordinator := (o.coordinator.coordinator.step input).1 }) rfl
  -- the actions do not look at the coordinator's phase
  have hsame : actForCoordinator o.coordinator =
      actForCoordinator { o.coordinator with coordinator := (o.coordinator.coordinator.step input).1 } := by
    funext a
    cases a <;> rfl
  obtain ⟨o', ho', -, hp⟩ := displays_actions (hchanged.displays rfl rfl) (o.coordinator.coordinator.step input).2
  refine ⟨o', ?_, ?_⟩
  · dsimp only
    rw [hsame]
    exact ho'
  · dsimp only
    rw [hsame]
    exact hp

/-! ### Turns -/

/-- **The coordinator in its turns makes moves of the pipeline.** -/
theorem maintains_isTended (p : Upkeep) : Maintains (IsTended p) runCoordinator := by
  refine drive_induction (fun n n' hdata hn => ?_) (fun n hn => ?_) _
  · obtain ⟨moves, h⟩ := hn
    exact ⟨moves, h.of_data hdata⟩
  obtain ⟨moves, o, ho, hp⟩ := hn
  have hfound := gives_nextForCoordinator ho hp
  have hmove (q : Upkeep) (n : Network) (hq : (p.after moves).step .turn = q) (h : n.Displays q) : IsTended p n :=
    ⟨moves ++ [.turn], by rwa [Upkeep.after, List.foldl_append, List.foldl_cons, List.foldl_nil, ← Upkeep.after, hq]⟩
  unfold Gives at hfound ⊢
  generalize (nextForCoordinator.run n).1 = input?, (nextForCoordinator.run n).2 = n' at hfound ⊢
  obtain ⟨q, hq, hnotice⟩ := hfound
  cases input? with
  | none => exact hmove q n' (Upkeep.turn_of_wait hnotice).1 hq
  | some input =>
      intro n'' hdata
      exact hmove _ _ (Upkeep.turn_of_notice hnotice).1 (displays_takeForCoordinator (hq.of_data hdata) input)

/-- **A pipeline that is tended from its start takes its course.** -/
theorem IsTended.standing {settings : Settings} (h : IsTended (.start settings) n) :
    ∃ moves, n.Displays ((Upkeep.start settings).after moves) ∧
      Upkeep.Standing ((Upkeep.start settings).trace moves) ((Upkeep.start settings).after moves) := by
  obtain ⟨moves, hn⟩ := h
  exact ⟨moves, hn, ((Upkeep.sound_start settings).after moves).standing⟩

/-- The scopes of a pipeline that has just been started. -/
theorem wired_begun (server : Server) (settings : Settings) (detached : Bool) :
    Wired (begun server settings detached).scopes 1 2 3 4 10 := by
  have hsignal {i : ScopeId} (hi : (begun server settings detached).scopes.parent? i = none) (hne : i ≠ 0 ∧ i ≠ 1) :
      (begun server settings detached).scopes.IsSignal i := by
    refine ⟨hi, fun j hj => ?_⟩
    obtain ⟨-, h⟩ | ⟨-, h⟩ := parent?_begun hj
    · exact hne.1 h
    · exact hne.2 h
  exact
    { ordered := ordered_begun
      down := down_begun
      made := (by decide : 1 < 11)
      announced := (by decide : 2 < 11)
      parent := rfl
      fired := by rw [isFired_begun, isFired_begun]
      apart := by decide
      ready := hsignal rfl (by decide)
      done := hsignal rfl (by decide)
      hub := hsignal rfl (by decide) }

/-- **A pipeline that has just been started is at its start.** -/
theorem displays_ofPipeline {server : Option Server} {settings : Settings} {detached : Bool} {n₀ : Network}
    {above : ScopeId} {branch : Branch} (h : ofPipeline server settings detached = .ok (n₀, above, branch)) :
    n₀.Displays (.start settings) := by
  refine Displays.of_data ?_ (data_ofPipeline h)
  exact ⟨⟨_, _, _, _, _, _⟩, ⟨rfl, rfl, rfl, rfl, rfl, rfl, wired_begun _ settings detached⟩, rfl⟩

end Network

end Replica
