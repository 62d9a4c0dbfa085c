import Replica.Proofs.Closure.Listening
import Replica.Proofs.Coordinator.Turn
import Replica.Proofs.Follower.Run

/-! # Turns of the coordinator

What the coordinator does in its turn keeps a network sound.  It stops only if the pipeline is caused to close, or
a listing has failed (`sound_nextForCoordinator`), and then the scope of the pipeline fires
(`sound_stopForCoordinator`). -/

namespace Replica

namespace Coordinator

/-- The input ends a pipeline. -/
inductive Input.Ends : Input → Prop
  | cancel : Ends .cancel
  | ended : Ends .ended
  | refused : Ends .refused
  | failed (e : FetchError) : Ends (.listed (.error e))

/-- The input tells that somebody has failed that an idle coordinator listens to. -/
inductive Input.Halts : Input → Prop
  | ended : Halts .ended
  | failed (e : FetchError) : Halts (.listed (.error e))

theorem Input.Halts.ends {i : Input} (h : i.Halts) : i.Ends := by
  cases h with
  | ended => exact .ended
  | failed e => exact .failed e

/-- An idle coordinator stops when somebody has failed that it listens to. -/
theorem step_of_halts {c : Coordinator} {i : Input} (hidle : c.phase = .idle) (h : i.Halts) : c.step i = c.stop := by
  obtain ⟨phase, stage⟩ := c
  obtain rfl : phase = .idle := hidle
  cases h <;> rfl

/-- The action has nothing to do with the end. -/
def Action.isPlain : Action → Bool
  | .shutDown | .fireDone => false
  | .ask _ | .fireReady | .reset _ => true

/-- A coordinator begins to stop, or tells that it has stopped, or does neither. -/
theorem step_cases (c : Coordinator) (i : Input) :
    (i.Ends ∧ c.step i = c.stop) ∨
      (c.isRunning = false ∧ (c.step i).1.isRunning = false ∧ (c.step i).2 = [.fireDone]) ∨
        ((c.step i).1.isRunning = c.isRunning ∧ ((c.step i).1.phase = .closed → c.phase = .closed) ∧
          ∀ a ∈ (c.step i).2, a.isPlain = true) := by
  obtain ⟨phase, stage⟩ := c
  unfold step
  split
  case h_1 | h_12 => exact .inl ⟨.cancel, rfl⟩
  case h_2 => exact .inl ⟨.ended, rfl⟩
  case h_3 => exact .inl ⟨.failed _, rfl⟩
  case h_13 | h_14 | h_15 | h_16 => exact .inl ⟨.refused, rfl⟩
  case h_17 hphase => exact .inr (.inl ⟨by rw [isRunning, hphase], rfl, rfl⟩)
  case h_6 hphase =>
    refine .inr (.inr ⟨by rw [isRunning, isRunning, hphase], by simp, ?_⟩)
    dsimp only
    split <;> simp [Action.isPlain]
  all_goals exact .inr (.inr ⟨by simp_all [isRunning], by simp_all, by simp [Action.isPlain]⟩)

end Coordinator

namespace Network

variable {w : Plan} {causes : List Node} {marks : List Mark} {busy : Option Activity}

/-- The coordinator stops only if the pipeline is caused to close, or a listing has failed. -/
def AllowsCoordinator (w : Plan) (causes : List Node) (input : Coordinator.Input) : Prop :=
  input.Ends → w.Caused causes .pipeline ∨ ∃ e, input = .listed (.error e)

/-- The poller has ended for its reader only if the pipeline is caused to close. -/
theorem sound_takeResult :
    Leads (Sound w causes marks busy) takeResult (fun r => r = .ended → w.Caused causes .pipeline)
      (Sound w causes marks busy) := by
  refine .get fun n h => ?_
  obtain ⟨p, hp, -⟩ := h.exists_poller
  rw [hp]
  dsimp only
  split
  · refine .seq (Reaches.change fun m hm => hm.modifyPoller (fun _ => rfl) fun p hp hr => ?_) fun _ => ?_
    · exact (phase_step_poller hr).elim (hm.poller p hp) (by simp)
    · exact (schedules_occur _).sound.seq fun _ => .pure (by simp)
  · refine .pure ?_
    split
    · exact fun _ => h.poller p hp (by assumption)
    · simp

/-- The follower has ended for its reader only if the pipeline is caused to close.  That it has ended is read once,
and so it must not have been noted. -/
theorem sound_readFollower (hmarks : .halted ∉ marks) :
    Leads (Sound w causes marks busy) readFollower (fun r => r = .ended → w.Caused causes .pipeline)
      (Sound w causes marks busy) := by
  refine .getAt fun n h => ?_
  split
  · exact Leads.of_imp (.pure nofun) (by rintro _ rfl; exact h)
  · rename_i f hf
    have hproper := h.proper f hf
    have hstopped : f.follower.next.1.isStopped = f.follower.isStopped := by rw [Follower.next_eq]
    refine .seq (Q := Sound w causes marks busy) (Reaches.change ?_) fun _ => .pure ?_
    · rintro _ rfl
      refine h.modifyFollower (fun _ => rfl) (fun hm => absurd hm hmarks) (fun t ht hr => ?_) fun t ht => ?_
      · exact h.follower f hf (hstopped ▸ hr)
      · obtain rfl := Option.some.inj (hf.symm.trans ht)
        exact hproper.next
    · exact fun hended => h.follower f hf (hproper.isStopped hended)

theorem sound_nextForCoordinator (hmarks : .halted ∉ marks) :
    Leads (Sound w causes marks busy) nextForCoordinator
      (fun r => ∀ input, r = some input → AllowsCoordinator w causes input) (Sound w causes marks busy) := by
  have hplain : ∀ input : Coordinator.Input, ¬ input.Ends → ∀ i, some input = some i → AllowsCoordinator w causes i := by
    rintro input hi _ ⟨⟩ hc
    exact absurd hc hi
  have hcaused : ∀ input : Coordinator.Input, w.Caused causes .pipeline → ∀ i, some input = some i →
      AllowsCoordinator w causes i := by
    rintro input hi _ - -
    exact .inl hi
  refine .get fun n h => ?_
  split
  swap
  · exact .nothing
  rename_i c hc
  have hlaid := h.coordinates hc
  obtain ⟨k, hk, hrole⟩ := hlaid.keeper
  have hserves : w.Serves c.keeper .pipeline := ⟨k, _, hk, hrole, .refl⟩
  have hanswer : Leads (Sound w causes marks busy) (answer? .coordinator c.keeper c.reply
      (modifyCoordinator fun c => { c with reply := none }) Coordinator.Input.refused (.applied ·.eventList))
      (fun r => ∀ input, r = some input → AllowsCoordinator w causes input) (Sound w causes marks busy) := by
    refine sound_answer? hserves (Reaches.change fun n h => h.noteCoordinator (fun _ => rfl) fun _ => rfl) ?_ ?_
    · exact fun hc => hcaused _ hc _ rfl
    · exact fun r hends => by cases hends
  dsimp only
  split
  · refine (sound_hasFired _ hlaid.scope).bind fun fired hfired => ?_
    split
    · exact .pure (hcaused _ (hfired (by assumption)))
    refine (sound_reading sound_takeResult).bind fun r hr => ?_
    split
    · refine .pure ?_
      rintro _ ⟨⟩ hends
      cases hends with
      | failed e => exact .inr ⟨e, rfl⟩
    · exact .pure (hcaused _ (hr rfl))
    · refine (sound_reading (sound_readFollower hmarks)).bind fun r hr => ?_
      split
      · exact .pure (hplain (.event _) (by rintro ⟨⟩))
      · exact .pure (hcaused _ (hr rfl))
      · exact .nothing
  · exact hanswer
  · exact hanswer
  · split
    · exact schedules_spend.sound.seq fun _ => .pure (hplain _ (by rintro ⟨⟩))
    · exact .pure (hplain _ (by rintro ⟨⟩))
  · rename_i e rest version hphase
    refine (sound_hasFired _ hlaid.scope).bind fun fired hfired => ?_
    split
    · exact .pure (hcaused _ (hfired (by assumption)))
    refine (sound_writeWith e (isOpen_push e) hlaid.bound).bind fun r hr => ?_
    split
    · exact schedules_spend.sound.seq fun _ => .pure (hplain _ (by rintro ⟨⟩))
    · exact (schedules_await _ _).sound.seq fun _ => .nothing
    · exact .pure (hcaused _ (hlaid.feed ▸ hr rfl))
  · refine .get fun n h => ?_
    obtain ⟨f, hf, -⟩ := h.exists_follower
    rw [hf]
    dsimp only
    split
    · refine schedules_spend.sound.seq fun _ => ?_
      exact .seq (sound_noteFollower (fun _ => rfl) (fun _ => rfl) fun _ => id) fun _ => .pure (hplain _ (by rintro ⟨⟩))
    · split
      · exact .pure (hcaused _ (h.follower f hf (by assumption)))
      · exact (schedules_await _ _).sound.seq fun _ => .nothing
  · refine .get fun n h => ?_
    split
    · refine (schedules_hasFired _ _).sound.seq fun fired => .pure ?_
      split
      · exact hplain _ (by rintro ⟨⟩)
      · rintro _ ⟨⟩
    · exact .pure (hplain _ (by rintro ⟨⟩))
  · exact .nothing

theorem sound_plainForCoordinator {c : CoordinatorTask} (hlaid : w.Coordinates c.bare) {a : Coordinator.Action}
    (ha : a.isPlain = true) :
    Reaches (Sound w causes marks busy) (actForCoordinator c a) (Sound w causes marks busy) := by
  cases a with
  | ask r => exact sound_ask _ _ _
  | fireReady => exact sound_fire_ready hlaid.ready
  | reset version =>
      refine .seq (sound_noteFollower (fun _ => rfl) (fun _ => rfl) fun _ => id) fun _ => ?_
      exact (schedules_occur _).sound
  | shutDown => cases ha
  | fireDone => cases ha

/-- The coordinator stops if the pipeline is caused to close. -/
theorem sound_shutDownForCoordinator {c : CoordinatorTask} (hlaid : w.Coordinates c.bare)
    (hcaused : w.Caused causes .pipeline) :
    Reaches (Sound w causes marks (some (.stopping .coordinator))) (actForCoordinator c .shutDown)
      (Sound w causes (.fired c.scope :: marks) none) := by
  refine (schedules_schedule _).sound.seq fun _ => (sound_fire_life (s := c.scope) hlaid.scope hcaused).seq fun _ => ?_
  refine (sound_closeFeed (f := c.feed) (hlaid.feed ▸ hcaused)).mono (fun _ => id) fun n h => ?_
  refine h.finish ?_
  intro j hj
  rw [hlaid.needs] at hj
  obtain rfl := List.mem_singleton.1 hj
  exact List.mem_cons_self

/-- The coordinator takes an input at which it stops. -/
theorem sound_stopForCoordinator {c : CoordinatorTask} {input : Coordinator.Input}
    (hstep : c.coordinator.step input = c.coordinator.stop) (hcaused : w.Caused causes .pipeline) :
    Reaches (fun n => Sound w causes marks none n ∧ n.coordinator = some c) (takeForCoordinator input)
      (Sound w causes (.fired c.scope :: marks) none) := by
  refine .getAt fun n hn => ?_
  obtain ⟨h, hc⟩ := hn
  rw [hc]
  dsimp only
  rw [hstep]
  refine .seq (Q := Sound w causes marks (some (.stopping .coordinator))) (Reaches.change ?_) fun _ => ?_
  · rintro _ rfl
    refine (h.begin _).modifyCoordinator (fun _ => rfl) (fun c' hc' hr => ⟨?_, fun hb => absurd rfl hb⟩) nofun
    rintro _ ⟨⟩
    exact hcaused
  · exact (sound_shutDownForCoordinator (h.coordinates hc) hcaused).single

/-- The coordinator tells that it has stopped. -/
theorem sound_tellForCoordinator {c : CoordinatorTask} {input : Coordinator.Input}
    (hstopped : c.coordinator.isRunning = false) (hactions : (c.coordinator.step input).2 = [.fireDone]) :
    Reaches (fun n => Sound w causes marks none n ∧ n.coordinator = some c) (takeForCoordinator input)
      (Sound w causes marks none) := by
  refine .getAt fun n hn => ?_
  obtain ⟨h, hc⟩ := hn
  have hlaid := h.coordinates hc
  have hstops := h.coordinator c hc hstopped
  have hscope : Mark.Holds n (.fired c.scope) := hstops.isFired (by simp [hlaid.needs, CoordinatorTask.bare])
  rw [hc]
  dsimp only
  rw [hactions]
  have htelling := (h.mark hscope).begin (.telling .coordinator)
  refine .seq (Q := Sound w causes (.fired c.scope :: marks) (some (.telling .coordinator))) (Reaches.change ?_) fun _ => ?_
  · rintro _ rfl
    exact htelling.modifyCoordinator (fun _ => rfl) (fun c' hc' hr => htelling.coordinator c hc hstopped)
      fun _ _ _ => .inr rfl
  · refine Reaches.single ((schedules_schedule _).sound.seq fun _ => ?_)
    have htold : w.parts.told? .coordinator = some c.done := by
      rw [← h.skeleton]
      simp [Network.told?, skeleton, hc, CoordinatorTask.bare]
    refine (sound_fire_done (s := c.done) hlaid.done hstops.caused fun j hj => ?_).mono (fun _ => id) fun m hm => ?_
    · rw [hlaid.needs] at hj
      obtain rfl := List.mem_singleton.1 hj
      exact List.mem_cons_self
    · refine (hm.told htold List.mem_cons_self).unmark ?_
      exact fun m hm => List.mem_cons_of_mem _ (List.mem_cons_of_mem _ hm)

/-- The coordinator takes an input that has nothing to do with the end. -/
theorem sound_goOnForCoordinator {c : CoordinatorTask} {input : Coordinator.Input}
    (hsame : (c.coordinator.step input).1.isRunning = c.coordinator.isRunning)
    (hclosed : (c.coordinator.step input).1.phase = .closed → c.coordinator.phase = .closed)
    (hplain : ∀ a ∈ (c.coordinator.step input).2, a.isPlain = true) :
    Reaches (fun n => Sound w causes marks none n ∧ n.coordinator = some c) (takeForCoordinator input)
      (Sound w causes marks none) := by
  refine .getAt fun n hn => ?_
  obtain ⟨h, hc⟩ := hn
  rw [hc]
  dsimp only
  refine .seq (Q := Sound w causes marks none) (Reaches.change ?_) fun _ => ?_
  · rintro _ rfl
    refine h.modifyCoordinator (fun _ => rfl) (fun c' hc' hr => h.coordinator c hc (hsame ▸ hr)) fun c' hc' hr => ?_
    obtain rfl := Option.some.inj (hc.symm.trans hc')
    exact .inl (hclosed hr)
  · exact Reaches.each fun a ha => sound_plainForCoordinator (h.coordinates hc) (hplain a ha)

/-- The coordinator takes an input; at one that ends it the pipeline is caused to close. -/
theorem sound_takeForCoordinator {c : CoordinatorTask} {input : Coordinator.Input}
    (hinput : input.Ends → w.Caused causes .pipeline) :
    Reaches (fun n => Sound w causes marks none n ∧ n.coordinator = some c) (takeForCoordinator input)
      (Sound w causes marks none) := by
  rcases c.coordinator.step_cases input with ⟨hends, hstep⟩ | ⟨hstopped, -, hactions⟩ | ⟨hsame, hclosed, hplain⟩
  · exact (sound_stopForCoordinator hstep (hinput hends)).unmark (List.subset_cons_self _ _)
  · exact sound_tellForCoordinator hstopped hactions
  · exact sound_goOnForCoordinator hsame hclosed hplain

/-! ### What an idle coordinator listens to -/

/-- What the coordinator is at. -/
def coordinating (n : Network) : Option Coordinator := n.coordinator.map CoordinatorTask.coordinator

/-- Looking for the next input leaves the coordinator as it is. -/
theorem keeps_nextForCoordinator : Keeps coordinating nextForCoordinator := by
  have hdata {α : Type} {x : Net α} (hx : Schedules x) : Keeps coordinating x := hx.keeps fun _ => rfl
  have hresult : Keeps coordinating takeResult := by
    refine .bind .get fun n => ?_
    split
    · exact .pure _
    split
    · exact .bind (fun _ => rfl) fun _ => .bind (hdata (schedules_occur _)) fun _ => .pure _
    · exact .pure _
  have houtput : Keeps coordinating readFollower := by
    refine .bind .get fun n => ?_
    split
    · exact .pure _
    · exact .bind (fun _ => rfl) fun _ => .pure _
  have hclear : Keeps coordinating (modifyCoordinator fun c => { c with reply := none }) := fun n =>
    Option.map_map _ _ n.coordinator
  refine .bind .get fun n => ?_
  split
  swap
  · exact .pure _
  dsimp only
  split
  · refine .ifFired (fun _ => rfl) (.pure _) (.bind (.reading (fun _ => rfl) hresult) fun polled => ?_)
    split
    · exact .pure _
    · exact .pure _
    · refine .bind (.reading (fun _ => rfl) houtput) fun polled => ?_
      split <;> exact .pure _
  · exact .answer? (fun _ => rfl) hclear
  · exact .answer? (fun _ => rfl) hclear
  · split
    · exact .bind (hdata schedules_spend) fun _ => .pure _
    · exact .pure _
  · refine .ifFired (fun _ => rfl) (.pure _) (.bind (.writeWith (fun _ => rfl) _ _ _) fun pushed => ?_)
    split
    · exact .bind (hdata schedules_spend) fun _ => .pure _
    · exact .bind (hdata (schedules_await _ _)) fun _ => .pure _
    · exact .pure _
  · refine .bind .get fun n => ?_
    split
    · exact .pure _
    split
    · exact .bind (hdata schedules_spend) fun _ => .bind (fun _ => rfl) fun _ => .pure _
    split
    · exact .pure _
    · exact .bind (hdata (schedules_await _ _)) fun _ => .pure _
  · refine .bind .get fun n => ?_
    split
    · exact .bind (hdata (schedules_hasFired _ _)) fun _ => .pure _
    · exact .pure _
  · exact .pure _

/-- The coordinator learns only when it is idle that somebody has failed. -/
theorem idle_of_halts {n : Network} {c : CoordinatorTask} (hc : n.coordinator = some c) :
    Gives nextForCoordinator n fun r _ => ∀ input, r = some input → input.Halts → c.coordinator.phase = .idle := by
  by_cases hidle : c.coordinator.phase = .idle
  · exact fun _ _ _ => hidle
  suffices Gives nextForCoordinator n fun r _ => ∀ input, r = some input → ¬ input.Halts from
    fun input hr hhalts => absurd hhalts (this input hr)
  have hanswer : Gives (answer? .coordinator c.keeper c.reply (modifyCoordinator fun c => { c with reply := none })
      Coordinator.Input.refused (.applied ·.eventList)) n fun r _ => ∀ input, r = some input → ¬ input.Halts :=
    .answer? (fun _ _ => by rintro _ ⟨⟩ ⟨⟩) (fun _ _ _ => nofun) fun _ _ _ _ => by rintro _ ⟨⟩ ⟨⟩
  refine .get ?_
  rw [hc]
  dsimp only
  split
  · rename_i phase
    exact absurd phase hidle
  · exact hanswer
  · exact hanswer
  · split
    · exact .seq schedules_spend fun _ _ _ => by rintro _ ⟨⟩ ⟨⟩
    · exact .pure (by rintro _ ⟨⟩ ⟨⟩)
  · refine .hasFired fun n₁ _ => ?_
    split
    · exact .pure (by rintro _ ⟨⟩ ⟨⟩)
    refine .bind fun pushed n₂ => ?_
    split
    · exact .seq schedules_spend fun _ _ _ => by rintro _ ⟨⟩ ⟨⟩
    · exact .seq (schedules_await _ _) fun _ _ _ => nofun
    · exact .pure (by rintro _ ⟨⟩ ⟨⟩)
  · refine .get ?_
    split
    · exact .pure (by rintro _ ⟨⟩ ⟨⟩)
    split
    · exact .seq schedules_spend fun _ _ _ => by rintro _ ⟨⟩ ⟨⟩
    split
    · exact .pure (by rintro _ ⟨⟩ ⟨⟩)
    · exact .seq (schedules_await _ _) fun _ _ _ => nofun
  · refine .get ?_
    split
    · refine .hasFired fun n₁ _ => .pure ?_
      split
      · rintro _ ⟨⟩ ⟨⟩
      · nofun
    · exact .pure (by rintro _ ⟨⟩ ⟨⟩)
  · exact .pure nofun

/-! ### The end of the follower's output -/

theorem Mark.Holds.of_listening {n n' : Network} (h : Mark.halted.Holds n) (hsame : n'.listening = n.listening) :
    Mark.halted.Holds n' :=
  fun f hf => h f ((congrArg Prod.fst hsame).symm.trans hf)

/-- The coordinator that reads the output of a follower that has given up finds that it has ended, or leaves the
end there. -/
theorem halted_readFollower {n : Network} (h : Mark.halted.Holds n) :
    Gives readFollower n fun r n' => r = .ended ∨ Mark.halted.Holds n' := by
  refine .get ?_
  split
  · exact .inr h
  · rename_i f hf
    by_cases hended : f.follower.next.2 = .ended
    · exact .inl hended
    · refine .inr fun t ht => ?_
      obtain ⟨t', ht', rfl⟩ := Option.map_eq_some_iff.1 ht
      exact (h f hf).next hended

/-- The coordinator that looks for its next input finds that the follower has ended, or leaves that to be found. -/
theorem halted_nextForCoordinator {n : Network} (h : Mark.halted.Holds n) :
    Gives nextForCoordinator n fun r n' => r = some .ended ∨ Mark.halted.Holds n' := by
  have hspares {x : Net (Option Coordinator.Input)} (hx : Spares x) :
      Gives x n fun r n' => r = some .ended ∨ Mark.halted.Holds n' := .inr (h.of_listening (hx.listening n))
  have hanswer (c : CoordinatorTask) : Spares (answer? .coordinator c.keeper c.reply
      (modifyCoordinator fun c => { c with reply := none }) Coordinator.Input.refused (.applied ·.eventList)) :=
    spares_answer? fun _ => rfl
  refine .get ?_
  split
  swap
  · exact .inr h
  rename_i c _
  dsimp only
  split
  · refine .spare (schedules_hasFired _ _).spares fun fired n₁ h₁ => ?_
    split
    · exact .inr (h.of_listening h₁)
    refine .keep (.reading (fun _ => rfl) keeps_takeResult) fun polled n₂ h₂ => ?_
    have hn₂ := h.of_listening (h₂.trans h₁)
    split
    · exact .inr hn₂
    · exact .inr hn₂
    · obtain ⟨hresult, hdata⟩ := run_reading .coordinator .output readFollower n₂
      rw [Gives, run_bind, hresult]
      have hread := halted_readFollower hn₂
      unfold Gives at hread
      split
      · exact .inr ((hread.resolve_left (by simp [*])).of_listening (listening_of_data hdata))
      · exact .inl rfl
      · exact .inr ((hread.resolve_left (by simp [*])).of_listening (listening_of_data hdata))
  · exact hspares (hanswer c)
  · exact hspares (hanswer c)
  · split
    · exact hspares (.bind spares_spend fun _ => .pure _)
    · exact hspares (.pure _)
  · refine hspares (.ifFired (fun _ => rfl) (.pure _) (.bind (spares_writeWith _ _ _) fun pushed => ?_))
    split
    · exact .bind spares_spend fun _ => .pure _
    · exact .bind (spares_await _ _) fun _ => .pure _
    · exact .pure _
  · refine .get ?_
    split
    · exact .inr h
    · split
      · refine .spare spares_spend fun _ n₁ h₁ => .inr fun t ht => ?_
        obtain ⟨t', ht', rfl⟩ := Option.map_eq_some_iff.1 ht
        exact h.of_listening h₁ t' ht'
      · split
        · exact .inr h
        · exact hspares (.bind (spares_await _ _) fun _ => .pure _)
  · refine hspares (.bind .get fun m => ?_)
    split
    · exact .bind (schedules_hasFired _ _).spares fun _ => .pure _
    · exact .pure _
  · exact .inr h

end Network

end Replica
