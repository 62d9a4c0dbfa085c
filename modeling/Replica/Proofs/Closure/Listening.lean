import Replica.Proofs.Closure.Acts
import Replica.Proofs.Network.Frame
import Replica.Proofs.Follower.Outputs

/-! # Turns of those who listen to the server

What the keepers, the poller, the sessions and the follower do in their turns keeps a network sound.  The keepers
of a node and the parts of the pipeline stop only if the node is caused to close, but for one failure: the
follower gives up at the end of a session when there is no delay that it could wait for. -/

namespace Replica

namespace Network

variable {w : Plan} {causes : List Node} {marks : List Mark} {busy : Option Activity}

/-! ### Keepers -/

/-- A keeper stops only at a node that is caused to close. -/
def AllowsKeeper {α : Type} (w : Plan) (causes : List Node) (i : Nat) : Option α → Prop
  | none => ∀ (k : KeeperTask) (x : Node), w.parts.keepers[i]? = some k → w.role k.scope = .life x → w.Caused causes x
  | some _ => True

theorem sound_nextForKeeper (i : Nat) :
    Leads (Sound w causes marks busy) (nextForKeeper i)
      (fun r => ∀ input, r = some input → AllowsKeeper w causes i input) (Sound w causes marks busy) := by
  refine .get fun n h => ?_
  split
  · exact .nothing
  · rename_i k hk
    obtain ⟨x, hscope, -⟩ := h.laid.keeper i k.bare (h.keeperAt hk)
    refine .ifFired (.nothing) ?_
    refine (sound_hasFired _ (s := k.scope) hscope).bind fun fired hfired => ?_
    split
    · refine .pure ?_
      rintro _ ⟨⟩ k' y hk' hy
      obtain rfl : k.bare = k' := Option.some.inj ((h.keeperAt hk).symm.trans hk')
      obtain rfl : x = y := Role.life.inj (hscope.symm.trans hy)
      exact hfired (by assumption)
    · split
      · refine schedules_spend.sound.seq fun _ => .pure ?_
        rintro _ ⟨⟩
        trivial
      · exact (schedules_await _ _).sound.seq fun _ => .nothing

/-- What a keeper does on an input. -/
def takeForKeeper (i : Nat) : Option (Keeper (Option TaskId) × Option TaskId × Reply) → Net Unit
  | none => do
    if let some k := (← get).keepers[i]? then fire k.done
    finish (.keeper i)
  | some (keeper, sender, reply) => do
    modifyKeeper i fun k => { k with keeper }
    deliver sender reply

theorem sound_takeForKeeper (i : Nat) {input : Option (Keeper (Option TaskId) × Option TaskId × Reply)}
    (hinput : AllowsKeeper w causes i input) :
    Reaches (Sound w causes marks busy) (takeForKeeper i input) (Sound w causes marks busy) := by
  rcases input with _ | ⟨keeper, sender, reply⟩
  · refine .get fun n h => ?_
    have hfinish : Reaches (Sound w causes marks busy) (finish (.keeper i)) (Sound w causes marks busy) :=
      (schedules_schedule _).sound
    split
    · rename_i k hk
      obtain ⟨x, hscope, hdone⟩ := h.laid.keeper i k.bare (h.keeperAt hk)
      have hcaused : w.Caused causes x := hinput k.bare x (h.keeperAt hk) hscope
      refine .seq ?_ fun _ => hfinish
      exact (sound_fire_life (s := k.done) hdone hcaused).unmark (List.subset_cons_self _ _)
    · exact hfinish
  · refine (Reaches.change fun n h => h.modifyKeeper i fun k => rfl).seq fun _ => ?_
    exact sound_deliver sender reply

/-! ### The poller -/

/-- The poller stops only if the pipeline is caused to close. -/
def AllowsPoller (w : Plan) (causes : List Node) (input : Poller.Input) : Prop :=
  input = .cancel → w.Caused causes .pipeline

theorem sound_nextForPoller :
    Leads (Sound w causes marks busy) nextForPoller (fun r => ∀ input, r = some input → AllowsPoller w causes input)
      (Sound w causes marks busy) := by
  refine .get fun n h => ?_
  split
  · exact .nothing
  · rename_i p hp
    obtain ⟨p', hp', hscope⟩ := h.exists_poller
    obtain rfl : p = p' := Option.some.inj (hp.symm.trans hp')
    split
    · exact .nothing
    refine (sound_hasFired _ (s := p.scope) hscope).bind fun fired hfired => ?_
    split
    · refine .pure ?_
      rintro _ ⟨⟩ -
      exact hfired (by assumption)
    · have hplain : ∀ input : Poller.Input, input ≠ .cancel → ∀ i, some input = some i → AllowsPoller w causes i := by
        rintro input hi _ ⟨⟩ hc
        exact absurd hc hi
      split
      · split
        · exact schedules_spend.sound.seq fun _ => .pure (hplain _ (by simp))
        · exact (schedules_await _ _).sound.seq fun _ => .nothing
      · have hanswer : ∀ i, n.server.listing.map Poller.Input.answer = some i → AllowsPoller w causes i := by
          intro i hi
          obtain ⟨r, -, rfl⟩ := Option.map_eq_some_iff.1 hi
          exact hplain (.answer r) (by simp) _ rfl
        split
        · exact (schedules_await _ _).sound.seq fun _ => .pure hanswer
        · exact .pure hanswer
      · split
        · exact schedules_spend.sound.seq fun _ => .pure (hplain _ (by simp))
        · split
          · exact schedules_spend.sound.seq fun _ => .pure (hplain _ (by simp))
          · exact (schedules_await _ _).sound.seq fun _ => .nothing
      · exact .nothing

/-- What a poller does on an input. -/
def takeForPoller (input : Poller.Input) : Net Unit := do
  modifyPoller fun p => { p with poller := (p.poller.step input).getD p.poller }
  let n ← get
  match input with
  | .start => set { n with server := n.server.noteList n.now }
  | .answer _ =>
    modifyPoller fun p => { p with deadline := dueIn n.now p.period }
    occur .result
  | .cancel =>
    finish .poller
    occur .result
  | _ => return

/-- A poller stops when it is cancelled. -/
theorem phase_step_poller {p : Poller} {input : Poller.Input}
    (h : ((p.step input).getD p).phase = .stopped) : p.phase = .stopped ∨ input = .cancel := by
  cases input <;> simp only [Poller.step] at h <;> (try split at h) <;> simp_all

theorem sound_takeForPoller {input : Poller.Input} (hinput : AllowsPoller w causes input) :
    Reaches (Sound w causes marks busy) (takeForPoller input) (Sound w causes marks busy) := by
  refine .seq (Reaches.change fun n h => h.modifyPoller (fun _ => rfl) fun p hp hr => ?_) fun _ => .get fun n h => ?_
  case refine_1 => exact (phase_step_poller hr).elim (h.poller p hp) hinput
  case refine_2 =>
    split
    · exact sound_set { h with }
    · refine (Reaches.change fun m hm => hm.modifyPoller (fun _ => rfl) fun p hp hr => hm.poller p hp hr).seq fun _ => ?_
      exact (schedules_occur _).sound
    · exact (schedules_schedule _).sound.seq fun _ => (schedules_occur _).sound
    · exact .pure trivial

/-! ### Sessions -/

theorem sound_modifySession (i : Nat) {f : SessionTask → SessionTask} (hf : ∀ s, (f s).scope = s.scope) :
    Reaches (Sound w causes marks busy) (modifySession i f) (Sound w causes marks busy) :=
  Reaches.change fun _ h => h.modifySession i hf

theorem sound_nextForSession (i : Nat) :
    Reaches (Sound w causes marks busy) (nextForSession i) (Sound w causes marks busy) := by
  have hread : ∀ stream, Reaches (Sound w causes marks busy) (readStream stream) (Sound w causes marks busy) := by
    refine fun stream => .get fun n h => ?_
    split
    · exact .pure trivial
    · exact (Reaches.change fun m hm => { hm with }).seq fun _ => .pure trivial
  refine .get fun n h => ?_
  split
  · exact .pure trivial
  split
  · exact .pure trivial
  refine (schedules_hasFired _ _).sound.seq fun fired => ?_
  split
  · exact .pure trivial
  split
  · exact .pure trivial
  refine (sound_reading (hread _)).seq fun r => ?_
  split <;> exact .pure trivial

theorem sound_releaseStream (stream : Nat) :
    Reaches (Sound w causes marks busy) (releaseStream stream) (Sound w causes marks busy) :=
  Reaches.change fun _ h => { h with }

theorem sound_updateSession (i : Nat) (session : Session) :
    Reaches (Sound w causes marks busy) (updateSession i session) (Sound w causes marks busy) := by
  have hfinish : Reaches (Sound w causes marks busy) (finish (.session i)) (Sound w causes marks busy) :=
    (schedules_schedule _).sound
  refine .get fun n h => ?_
  dsimp only
  refine .seq (sound_modifySession i fun _ => rfl) fun _ => ?_
  have hlast : Reaches (Sound w causes marks busy) (if session.isOver = true then finish (.session i) else pure ())
      (Sound w causes marks busy) := by
    split
    · exact hfinish
    · exact .pure trivial
  split
  · exact (schedules_occur _).sound.seq fun _ => hlast
  · exact hlast

theorem sound_actForSession (i : Nat) (input : SessionInput) :
    Reaches (Sound w causes marks busy) (actForSession i input) (Sound w causes marks busy) := by
  refine .get fun n h => ?_
  split
  · split
    · split
      · exact (sound_releaseStream _).seq fun _ => sound_updateSession i _
      · exact sound_updateSession i _
    · rename_i s _ _
      rcases n.server.openWatch s.version n.now with ⟨server, stream⟩
      refine .seq (sound_set { h with }) fun _ => .seq (sound_modifySession i fun _ => rfl) fun _ => ?_
      split
      · exact sound_updateSession i _
      · exact .pure trivial
    · dsimp only
      split
      · exact (sound_releaseStream _).seq fun _ => sound_updateSession i _
      · exact sound_updateSession i _
  · exact .pure trivial

/-! ### The follower -/

end Network

namespace Follower

variable {f : Follower} {i : Input}

/-- A follower stops when it is cancelled, or at the end of a session. -/
theorem stops_step (h : (f.step i).isStopped = true) : f.isStopped = true ∨ i = .cancel ∨ i = .sessionEnded := by
  cases i with
  | reset version isAwaited => cases isAwaited <;> exact .inl h
  | event e => exact .inl h
  | sessionEnded => exact .inr (.inr rfl)
  | retryElapsed => exact .inl h
  | cancel => exact .inr (.inl rfl)

/-- The input can come to a follower that has not stopped. -/
structure Takes (f : Follower) (isDue : Bool) (i : Input) : Prop where
  running : f.isStopped = false
  session : i = .sessionEnded → f.session.isSome = true
  due : i = .retryElapsed → isDue = true

variable {isDue : Bool}

theorem Proper.stop (h : f.Proper isDue) : f.stop.Proper isDue where
  ends _ _ _ := rfl
  read out hout := by
    obtain ⟨old, hold, rfl⟩ := Option.map_eq_some_iff.1 hout
    exact h.read old hold
  output hr := nomatch hr

/-- A follower that has not stopped keeps an output that it has. -/
theorem isSome_output_step (h : f.Proper isDue) (hi : f.Takes isDue i) (hout : f.output.isSome = true) :
    (f.step i).output.isSome = true := by
  obtain ⟨out, hout⟩ := Option.isSome_iff_exists.1 hout
  cases i with
  | reset version isAwaited => cases isAwaited <;> simp [Follower.step, «open», hout]
  | event e =>
      have hrunning := hi.running
      have hsealed : out.isSealed = false := Bool.eq_false_iff.2 fun hs => by simp [h.ends out hout hs] at hrunning
      simp [Follower.step, hout, passOn_eq, hsealed, h.read out hout]
  | sessionEnded =>
      simp only [Follower.step]
      split
      · split <;> simp [Follower.stop, hout]
      · simp [hout]
  | retryElapsed => simp [Follower.step, «open», hout]
  | cancel => simp [Follower.step, Follower.stop, hout]

theorem Proper.step (h : f.Proper isDue) (hi : f.Takes isDue i) : (f.step i).Proper isDue := by
  have hkeeps := isSome_output_step h hi
  cases i with
  | reset version isAwaited =>
      cases isAwaited with
      | false => exact h
      | true =>
          exact
            { ends := by
                rintro _ ⟨⟩ hsealed
                cases hsealed
              read := by
                rintro _ ⟨⟩
                rfl
              output := fun _ _ => rfl }
  | event e =>
      have hpassed : ∀ out, (f.output.bind (passOn e)) = some out → out.isSealed = false ∧ out.isAbandoned = false := by
        intro out hout
        obtain ⟨old, hold, hpass⟩ := Option.bind_eq_some_iff.1 hout
        rw [passOn_eq] at hpass
        split at hpass
        · cases hpass
        · obtain rfl := Option.some.inj hpass
          rename_i hopen
          simpa [and_comm] using hopen
      exact
        { ends := fun out hout hs => by simp [(hpassed out hout).1] at hs
          read := fun out hout => (hpassed out hout).2
          output := fun hr hneeds => hkeeps (h.output hr hneeds) }
  | sessionEnded =>
      have hleft : ({ f with session := none } : Follower).Proper isDue :=
        { h with output := fun hr hneeds => h.output hr (.inr (hneeds.resolve_left nofun)) }
      simp only [Follower.step]
      split
      · split
        · exact { hleft with }
        · exact h.stop
      · exact hleft
  | retryElapsed => exact { h with output := fun hr _ => h.output hr (.inr (hi.due rfl)) }
  | cancel => exact h.stop

/-- Reading leaves a proper output. -/
theorem Proper.next (h : f.Proper isDue) : f.next.1.Proper isDue := by
  have hleft : ∀ out, f.next.1.output = some out →
      ∃ old, f.output = some old ∧ out.isSealed = old.isSealed ∧ out.isAbandoned = old.isAbandoned := by
    intro out hout
    rw [next_eq] at hout
    obtain ⟨old, hold, hnext⟩ := Option.bind_eq_some_iff.1 hout
    split at hnext
    · cases hnext
    · obtain rfl := Option.some.inj hnext
      exact ⟨old, hold, rfl, rfl⟩
  have hsame : f.next.1.isStopped = f.isStopped ∧ f.next.1.session = f.session := by
    rw [next_eq]
    exact ⟨rfl, rfl⟩
  exact
    { ends := fun out hout hs => by
        obtain ⟨old, hold, hsealed, -⟩ := hleft out hout
        exact hsame.1.trans (h.ends old hold (hsealed ▸ hs))
      read := fun out hout => by
        obtain ⟨old, hold, -, habandoned⟩ := hleft out hout
        exact habandoned.trans (h.read old hold)
      output := fun hr hneeds => by
        rw [hsame.1] at hr
        rw [hsame.2] at hneeds
        obtain ⟨out, hout⟩ := Option.isSome_iff_exists.1 (h.output hr hneeds)
        have hsealed : out.isSealed = false := Bool.eq_false_iff.2 fun hs => by simp [h.ends out hout hs] at hr
        simp [next_eq, hout, hsealed] }

/-- A follower that gives up at the end of a session tells so. -/
theorem hasEnded_step (h : f.Proper isDue) (hi : f.Takes isDue .sessionEnded)
    (hstopped : (f.step .sessionEnded).isStopped = true) : (f.step .sessionEnded).HasEnded := by
  obtain ⟨out, hout⟩ := Option.isSome_iff_exists.1 (h.output hi.running (.inl (hi.session rfl)))
  have hrunning := hi.running
  have hstep : f.step .sessionEnded = f.stop := by
    simp only [Follower.step] at hstopped ⊢
    split
    · rename_i hallows
      rw [if_pos hallows] at hstopped
      split
      · rename_i hdelay
        simp [hdelay, hrunning] at hstopped
      · rfl
    · rename_i hallows
      simp [hallows, hrunning] at hstopped
  rw [hstep]
  exact ⟨rfl, out.close, by simp [Follower.stop, hout], rfl⟩

/-- The end of an output is read once, and till then it is there. -/
theorem HasEnded.next (h : f.HasEnded) (hmore : f.next.2 ≠ .ended) : f.next.1.HasEnded := by
  obtain ⟨out, hout, hsealed⟩ := h.output
  have hitems : out.items ≠ [] := fun hnil => hmore (by simp [Follower.next, hout, Feed.poll, hnil, hsealed])
  rw [next_eq]
  exact ⟨h.stopped, { out with items := out.items.tail }, by simp [hout, hitems], hsealed⟩

/-- Who reads the output finds that it has ended only if the follower has stopped. -/
theorem Proper.isStopped (h : f.Proper isDue) (hended : f.next.2 = .ended) : f.isStopped = true := by
  unfold Follower.next at hended
  split at hended
  · cases hended
  · rename_i out hout
    cases hsealed : out.isSealed with
    | true => exact h.ends out hout hsealed
    | false =>
        unfold Feed.poll at hended
        rw [hsealed] at hended
        cases hitems : out.items <;> simp [hitems] at hended

end Follower

namespace Network

variable {w : Plan} {causes : List Node} {marks : List Mark} {busy : Option Activity}

/-- The follower stops only if the pipeline is caused to close. -/
def AllowsFollower (w : Plan) (causes : List Node) (input : Follower.Input) : Prop :=
  input = .cancel → w.Caused causes .pipeline

theorem Sound.followerScope {n : Network} (h : Sound w causes marks busy n) {f : FollowerTask}
    (hf : n.follower = some f) : w.role f.scope = .life .pipeline := by
  obtain ⟨f', hf', hrole⟩ := h.exists_follower
  obtain rfl : f = f' := Option.some.inj (hf.symm.trans hf')
  exact hrole

theorem sound_nextForFollower :
    Leads (Sound w causes marks busy) nextForFollower (fun r => ∀ input, r = some input → AllowsFollower w causes input)
      (Sound w causes marks busy) := by
  have hplain : ∀ input : Follower.Input, input ≠ .cancel → ∀ i, some input = some i → AllowsFollower w causes i := by
    rintro input hi _ ⟨⟩ hc
    exact absurd hc hi
  have hread : ∀ i, Reaches (Sound w causes marks busy) (readSession i) (Sound w causes marks busy) := by
    refine fun i => .get fun n h => ?_
    split
    · exact .pure trivial
    · exact .seq (sound_modifySession i fun _ => rfl) fun _ => .pure trivial
  refine .get fun n h => ?_
  split
  · exact .nothing
  rename_i f hf
  split
  · exact .nothing
  refine (sound_hasFired _ (h.followerScope hf)).bind fun fired hfired => ?_
  split
  · refine .pure ?_
    rintro _ ⟨⟩ -
    exact hfired (by assumption)
  split
  · exact schedules_spend.sound.seq fun _ => .pure (hplain _ nofun)
  refine (schedules_await _ _).sound.seq fun _ => ?_
  have hrest : Leads (Sound w causes marks busy) (do
      if f.deadline.any (· ≤ n.now) then
        spend
        return some .retryElapsed
      return none : Net (Option Follower.Input)) (fun r => ∀ input, r = some input → AllowsFollower w causes input)
      (Sound w causes marks busy) := by
    split
    · exact schedules_spend.sound.seq fun _ => .pure (hplain _ nofun)
    · exact .nothing
  dsimp only
  split
  · refine (sound_reading (hread _)).seq fun r => ?_
    split
    · exact .pure (hplain (.event _) nofun)
    · exact .pure (hplain _ nofun)
    · exact hrest
  · exact hrest

/-- Looking for the next input leaves the follower as it is, and what is found can come to it. -/
theorem takes_nextForFollower (f : FollowerTask) :
    Leads (·.follower = some f) nextForFollower
      (fun r => ∀ input, r = some input → f.follower.Takes f.deadline.isSome input) (·.follower = some f) := by
  have hdata : IsOfData fun n => n.follower = some f := fun n n' h hn => by
    rw [eq_of_data h]
    exact hn
  have hschedules : ∀ {α : Type} {x : Net α}, Schedules x → Reaches (·.follower = some f) x (·.follower = some f) :=
    fun hx => (hx.maintains hdata).reaches
  have hread : ∀ i, Reaches (·.follower = some f) (reading .follower (.followed i) (readSession i)) (·.follower = some f) := by
    intro i n hn
    refine ⟨trivial, hdata _ _ (run_reading .follower (.followed i) (readSession i) n).2 ?_⟩
    have hkeeps : Keeps (·.follower) (readSession i) := by
      refine .bind .get fun n => ?_
      split
      · exact .pure _
      · exact .bind (fun _ => rfl) fun _ => .pure _
    exact (hkeeps n).trans hn
  refine .get fun n hn => ?_
  split
  · exact .nothing
  rename_i f' hf'
  obtain rfl : f = f' := Option.some.inj (hn.symm.trans hf')
  split
  · exact .nothing
  rename_i hrunning
  have htakes : ∀ input : Follower.Input, (input = .sessionEnded → f.follower.session.isSome = true) →
      (input = .retryElapsed → f.deadline.isSome = true) →
        ∀ i, some input = some i → f.follower.Takes f.deadline.isSome i := by
    rintro input hsession hdue _ ⟨⟩
    exact ⟨Bool.eq_false_iff.2 hrunning, hsession, hdue⟩
  refine (hschedules (schedules_hasFired _ _)).seq fun fired => ?_
  split
  · exact .pure (htakes _ nofun nofun)
  split
  · exact (hschedules schedules_spend).seq fun _ => .pure (htakes _ nofun nofun)
  refine (hschedules (schedules_await _ _)).seq fun _ => ?_
  have hrest : ∀ now : Nat, Leads (·.follower = some f) (do
      if f.deadline.any (· ≤ now) then
        spend
        return some .retryElapsed
      return none : Net (Option Follower.Input))
      (fun r => ∀ input, r = some input → f.follower.Takes f.deadline.isSome input) (·.follower = some f) := by
    intro now
    split
    · rename_i hdue
      refine (hschedules schedules_spend).seq fun _ => .pure (htakes _ nofun fun _ => ?_)
      cases hd : f.deadline with
      | none => simp [hd] at hdue
      | some d => rfl
    · exact .nothing
  dsimp only
  split
  · rename_i i hsession
    refine (hread _).seq fun r => ?_
    split
    · exact .pure (htakes _ nofun nofun)
    · exact .pure (htakes _ (fun _ => by simp [hsession]) nofun)
    · exact hrest _
  · exact hrest _

theorem Sound.addSession {n : Network} (h : Sound w causes marks busy n) {parent : ScopeId}
    (hparent : w.role parent ≠ .neutral) (version : String) (capacity : Nat) :
    Sound w causes marks busy
      { n with
        scopes := (n.scopes.addChild parent).1
        sessions := n.sessions ++ [⟨.new capacity, version, none, n.scopes.list.length⟩] } := by
  obtain ⟨hsound, hneutral⟩ := h.addChild (h.known parent hparent)
  refine { hsound with session := fun i s hi => ?_ }
  rcases List.mem_append.1 (List.mem_of_getElem? hi) with hs | hs
  · obtain ⟨k, hk⟩ := List.getElem?_of_mem hs
    exact hsound.session k s hk
  · obtain rfl := List.mem_singleton.1 hs
    exact ⟨hneutral, Scopes.length_addChild.symm ▸ Nat.lt_succ_self _⟩

theorem sound_startFollowed (f : Follower) {scope : ScopeId} (hscope : w.role scope ≠ .neutral) :
    Reaches (Sound w causes marks busy) (startFollowed f scope) (Sound w causes marks busy) := by
  intro n h
  have hdata : ((startFollowed f scope).run n).2.data =
      ({ n with
        scopes := (n.scopes.addChild scope).1
        sessions := n.sessions ++ [⟨.new f.capacity, f.version, none, n.scopes.list.length⟩] } : Network).data := rfl
  exact ⟨trivial, Sound.ofData w causes marks busy _ _ hdata (h.addSession hscope f.version f.capacity)⟩

theorem sound_leaveSession (f : FollowerTask) :
    Reaches (Sound w causes marks busy) (leaveSession f) (Sound w causes marks busy) := by
  unfold leaveSession
  split
  · refine (schedules_schedule _).sound.seq fun _ => .get fun n h => ?_
    split
    · rename_i s hs
      have hneutral := (h.session _ s hs).1
      exact sound_fire (fun y hy => by simp [Plan.owner?, hneutral] at hy) fun t ht => by cases hneutral.symm.trans ht
    · exact .pure trivial
  · exact .pure trivial

theorem sound_noteFollower {f : FollowerTask → FollowerTask} (hf : ∀ t, (f t).bare = t.bare)
    (follower : ∀ t, (f t).follower = t.follower)
    (deadline : ∀ t, (f t).deadline.isSome = true → t.deadline.isSome = true) :
    Reaches (Sound w causes marks busy) (modifyFollower f) (Sound w causes marks busy) :=
  Reaches.change fun _ h => h.noteFollower hf follower deadline

theorem sound_endFollower : Reaches (Sound w causes marks busy) endFollower (Sound w causes marks busy) := by
  refine .seq (sound_noteFollower (fun _ => rfl) (fun _ => rfl) fun _ hdue => absurd hdue Bool.false_ne_true) fun _ => ?_
  exact (schedules_schedule _).sound.seq fun _ => (schedules_occur _).sound.seq fun _ => (schedules_occur _).sound

/-- The follower has an output, or has stopped. -/
def Backed (n : Network) : Prop :=
  ∀ t, n.follower = some t → t.follower.isStopped = false → t.follower.output.isSome = true

/-- The follower goes through the end of a session. -/
theorem sound_endSession (f : FollowerTask) {deadline : Option Nat} {next : Follower} :
    Reaches (fun n => Sound w causes marks busy n ∧ n.Backed) (do
      leaveSession f
      modifyFollower fun f => { f with deadline }
      if next.isStopped then endFollower) (Sound w causes marks busy) := by
  have hbacked : Reaches Backed (leaveSession f) Backed := by
    refine fun n hn => ⟨trivial, fun t ht => hn t ?_⟩
    exact (congrArg Prod.fst ((spares_leaveSession f).listening n)).symm.trans ht
  refine .seq (((sound_leaveSession f).and hbacked).mono (fun _ _ => trivial) fun _ => id) fun _ => ?_
  refine .seq (Q := Sound w causes marks busy) (Reaches.change fun n hn => ?_) fun _ => ?_
  · refine hn.1.modifyFollower (fun _ => rfl) (fun _ _ _ hr => hr) hn.1.follower fun t ht => ?_
    exact { hn.1.proper t ht with output := fun hr _ => hn.2 t ht hr }
  · split
    · exact sound_endFollower
    · exact .pure trivial

/-- The follower takes an input; it may give up at the end of a session only if the pipeline is caused to close.
That it has given up can be noted. -/
theorem sound_actForFollower {input : Follower.Input} (hinput : AllowsFollower w causes input) {f : FollowerTask}
    (htakes : f.follower.Takes f.deadline.isSome input)
    (hend : input = .sessionEnded → (f.follower.step .sessionEnded).isStopped = true → w.Caused causes .pipeline)
    {marks' : List Mark} (hmarks : ∀ m ∈ marks', m ∈ marks ∨
      m = .halted ∧ input = .sessionEnded ∧ (f.follower.step .sessionEnded).isStopped = true) :
    Reaches (fun n => Sound w causes marks busy n ∧ n.follower = some f) (actForFollower input)
      (Sound w causes marks' busy) := by
  refine .getAt fun n hn => ?_
  obtain ⟨h, hf⟩ := hn
  rw [hf]
  dsimp only
  have hscope : w.role f.scope ≠ .neutral := by simp [h.followerScope hf]
  have hproper := h.proper f hf
  have hstep : Sound w causes marks busy
      { n with follower := n.follower.map fun t => { t with follower := f.follower.step input } } := by
    refine h.modifyFollower (fun _ => rfl) (fun _ t ht hr => ?_) (fun t ht hr => ?_) fun t ht => ?_
    · obtain rfl := Option.some.inj (hf.symm.trans ht)
      exact absurd hr.stopped (Bool.eq_false_iff.1 htakes.running)
    · rcases Follower.stops_step hr with hr | rfl | rfl
      · exact h.follower f hf hr
      · exact hinput rfl
      · exact hend rfl hr
    · obtain rfl := Option.some.inj (hf.symm.trans ht)
      exact hproper.step htakes
  have hnoted : Sound w causes marks' busy
      { n with follower := n.follower.map fun t => { t with follower := f.follower.step input } } := by
    refine { hstep with marked := fun m hm => ?_ }
    rcases hmarks m hm with hm | ⟨rfl, rfl, hstopped⟩
    · exact hstep.marked m hm
    · intro t ht
      obtain ⟨t', -, rfl⟩ := Option.map_eq_some_iff.1 ht
      exact Follower.hasEnded_step hproper htakes hstopped
  refine .seq (Q := fun m => Sound w causes marks' busy m ∧
      m.follower = some { f with follower := f.follower.step input }) (Reaches.change ?_) fun _ => ?_
  · rintro _ rfl
    exact ⟨hnoted, by rw [hf]; rfl⟩
  cases input with
  | reset version isAwaited =>
      refine Leads.of_imp ?_ fun m hm => hm.1
      refine .seq (sound_noteFollower (fun _ => rfl) (fun _ => rfl) fun _ => id) fun _ => ?_
      split
      · refine .seq (sound_noteFollower (fun _ => rfl) (fun _ => rfl) fun _ hdue => absurd hdue Bool.false_ne_true) fun _ => ?_
        refine (schedules_occur _).sound.seq fun _ => (schedules_occur _).sound.seq fun _ => ?_
        exact (sound_leaveSession f).seq fun _ => sound_startFollowed _ hscope
      · exact .pure trivial
  | event e =>
      refine Leads.of_imp ?_ fun m hm => hm.1
      dsimp only
      split
      · exact (schedules_occur _).sound
      · exact .pure trivial
  | sessionEnded =>
      refine (sound_endSession f).of_imp fun m hm => ⟨hm.1, fun t ht hr => ?_⟩
      obtain rfl := Option.some.inj (hm.2.symm.trans ht)
      exact Follower.isSome_output_step hproper htakes (hproper.output htakes.running (.inl (htakes.session rfl)))
  | retryElapsed =>
      refine Leads.of_imp ?_ fun m hm => hm.1
      refine .seq (sound_noteFollower (fun _ => rfl) (fun _ => rfl) fun _ hdue => absurd hdue Bool.false_ne_true) fun _ => ?_
      exact sound_startFollowed _ hscope
  | cancel =>
      refine Leads.of_imp ?_ fun m hm => hm.1
      exact (sound_leaveSession f).seq fun _ => sound_endFollower

end Network

end Replica
