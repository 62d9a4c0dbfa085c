import Replica.Proofs.Coordinator.Upkeep

/-! # What the moves of a pipeline do

`Change` lists what a move can do, with what is seen of it.  `change_turn` finds what the coordinator does in
its turn, phase by phase, and `change_step` what any move does. -/

namespace Replica

namespace Upkeep

/-- What a move does. -/
inductive Change (p : Upkeep) : Upkeep → List Mark → Prop
  | still : Change p p []
  /-- Something comes about that the coordinator has not noticed yet. -/
  | outside (slot : Option ListResult) (pollerGone hubGone : Bool) :
      Change p { p with slot, pollerGone, hubGone } []
  /-- The coordinator begins the end. -/
  | close {u : List Mark} (slot : Option ListResult) (follower : Follower)
      (running : p.coordinator.isRunning = true) (reason : u = [] ∨ ∃ e, u = [.listed (.error e)])
      (output : p.follower.output = none → follower.output = none) :
      Change p
        { p with
          coordinator := p.coordinator.stop.1, slot, follower, isFired := true, feed := p.feed.close }
        (u ++ [.staged .closed])
  /-- A listing is taken. -/
  | order (list : Listing) (phase : p.coordinator.phase = .idle) (alive : p.isFired = false) :
      Change p
        { p with
          coordinator := { p.coordinator with phase := .syncing list.version }
          slot := none, asked := some (.sync list.items) }
        [.listed (.ok list)]
  /-- An event of the follower is taken. -/
  | receive (e : Event) (follower : Follower) (phase : p.coordinator.phase = .idle)
      (alive : p.isFired = false) (next : p.follower.next = (follower, .item e)) :
      Change p
        { p with
          coordinator := { p.coordinator with phase := .updating }, follower, asked := some (.update e) } []
  /-- The store has taken the first listing over. -/
  | adopt {version : String} {events : List Event} (phase : p.coordinator.phase = .syncing version)
      (answer : p.answer = some events) (first : p.coordinator.stage = .initializing) :
      Change p
        { p with coordinator := ⟨.feeding events (some version), .ready⟩, answer := none, isReady := true }
        [.synced, .readied, .staged .ready]
  /-- The store has taken another listing over. -/
  | sync {version : String} {events : List Event} (phase : p.coordinator.phase = .syncing version)
      (answer : p.answer = some events) (later : p.coordinator.stage = .ready) :
      Change p { p with coordinator := ⟨.feeding events (some version), .ready⟩, answer := none } [.synced]
  /-- The store has applied an event. -/
  | update {events : List Event} (phase : p.coordinator.phase = .updating)
      (answer : p.answer = some events) :
      Change p
        { p with coordinator := { p.coordinator with phase := .feeding events none }, answer := none } []
  | feed {e : Event} {rest : List Event} {version : Option String} {feed : Feed Event}
      (phase : p.coordinator.phase = .feeding (e :: rest) version) (taken : p.feed.push e = (feed, .taken)) :
      Change p
        { p with coordinator := { p.coordinator with phase := .feeding rest version }, feed } [.fed e]
  | done (phase : p.coordinator.phase = .feeding [] none) :
      Change p { p with coordinator := { p.coordinator with phase := .idle } } []
  | reset {version : String} (phase : p.coordinator.phase = .feeding [] (some version)) :
      Change p
        { p with coordinator := { p.coordinator with phase := .resetting }, inbox := some version } []
  /-- The follower has started over. -/
  | resume (phase : p.coordinator.phase = .resetting) :
      Change p { p with coordinator := { p.coordinator with phase := .idle }, wasReset := false } []
  /-- The hub has stopped. -/
  | finish (phase : p.coordinator.phase = .closing) :
      Change p { p with coordinator := { p.coordinator with phase := .closed } } []
  | serve {r : Request} (alive : p.isFired = false) (asked : p.asked = some r) :
      Change p
        { p with
          store := (r.run p.store).1, asked := none, answer := some (r.run p.store).2.eventList }
        [.did r]
  | follow (follower : Follower) (output : p.follower.output = none → follower.output = none) :
      Change p { p with follower } []
  | restart {version : String} (follower : Follower) (told : p.inbox = some version) :
      Change p { p with follower, inbox := none, wasReset := true } []
  | read {e : Event} {feed : Feed Event} (next : p.feed.poll = (feed, .item e)) :
      Change p { p with feed } [.read e]
  | abandon : Change p { p with feed := p.feed.abandon } []
  | cancel (alive : p.isFired = false) : Change p { p with isFired := true } [.cancelled]

variable {p : Upkeep}

theorem change_stop (hclosed : p.coordinator.stage = .closed → p.coordinator.isRunning = false) {u : List Mark}
    (slot : Option ListResult) (follower : Follower) (running : p.coordinator.isRunning = true)
    (output : p.follower.output = none → follower.output = none) {i : Coordinator.Input}
    (hstop : p.coordinator.step i = p.coordinator.stop) (hu : ofInput p.coordinator i = u)
    (reason : u = [] ∨ ∃ e, u = [.listed (.error e)]) :
    p.Change (({ p with slot, follower } : Upkeep).tell i) (ofStep p.coordinator i) := by
  have hstage : ¬ Lifecycle.closed = p.coordinator.stage := fun hstage => by
    simp [hclosed hstage.symm] at running
  have hmarks : ofStep p.coordinator i = u ++ [.staged .closed] := by
    rw [ofStep, hu, hstop]
    simp [Coordinator.stop, ofAction, hstage]
  have htell : ({ p with slot, follower } : Upkeep).tell i =
      { p with
        coordinator := p.coordinator.stop.1, slot, follower, isFired := true, feed := p.feed.close } := by
    simp only [tell, hstop]
    rfl
  rw [hmarks, htell]
  exact .close slot follower running reason output

theorem next_of_output {f : Follower} (h : f.output = none) : f.next = (f, .pending) := by
  simp [Follower.next, h]

theorem eq_of_next_pending {f f' : Follower} (h : f.next = (f', .pending)) : f' = f := by
  unfold Follower.next at h
  split at h
  · cases h
    rfl
  · rename_i out hout
    cases hitems : out.items with
    | nil =>
        cases hsealed : out.isSealed with
        | true => simp [Feed.poll, hitems, hsealed] at h
        | false =>
            simp only [Feed.poll, hitems, hsealed, Bool.false_eq_true, if_false, Prod.mk.injEq] at h
            rw [← h.1, ← hout]
    | cons a rest => simp [Feed.poll, hitems] at h

/-- What the coordinator does in its turn. -/
theorem turn_of_notice {i : Coordinator.Input} {q : Upkeep} (h : p.notice = (some i, q)) :
    p.step .turn = q.tell i ∧ p.marks .turn = ofStep p.coordinator i := by
  simp only [step, marks, play, h, and_self]

theorem turn_of_wait {q : Upkeep} (h : p.notice = (none, q)) :
    p.step .turn = q ∧ p.marks .turn = [] := by
  simp only [step, marks, play, h, and_self]

theorem change_turn_of_stop (hclosed : p.coordinator.stage = .closed → p.coordinator.isRunning = false)
    (running : p.coordinator.isRunning = true) {i : Coordinator.Input} (slot : Option ListResult)
    (follower : Follower) (output : p.follower.output = none → follower.output = none)
    (hnotice : p.notice = (some i, { p with slot, follower }))
    (hstep : p.coordinator.step i = p.coordinator.stop)
    (reason : ofInput p.coordinator i = [] ∨ ∃ e, ofInput p.coordinator i = [.listed (.error e)]) :
    p.Change (p.step .turn) (p.marks .turn) := by
  obtain ⟨hturn, hmarks⟩ := turn_of_notice hnotice
  rw [hturn, hmarks]
  exact change_stop hclosed slot follower running output hstep rfl reason

theorem change_turn_of_idle (hclosed : p.coordinator.stage = .closed → p.coordinator.isRunning = false)
    (phase : p.coordinator.phase = .idle) : p.Change (p.step .turn) (p.marks .turn) := by
  have running : p.coordinator.isRunning = true := by simp [Coordinator.isRunning, phase]
  cases alive : p.isFired with
  | true =>
      have hnotice : p.notice = (some .cancel, p) := by simp only [notice, phase, alive, if_true]
      exact change_turn_of_stop hclosed running p.slot p.follower id hnotice (by simp [Coordinator.step, phase]) (.inl rfl)
  | false =>
      cases hslot : p.slot with
      | some r =>
          have hnotice : p.notice = (some (.listed r), { p with slot := none }) := by
            simp [notice, phase, alive, hslot]
          cases r with
          | error e =>
              exact change_turn_of_stop hclosed running none p.follower id hnotice (by simp [Coordinator.step, phase]) (.inr ⟨e, rfl⟩)
          | ok list =>
              obtain ⟨hturn, hmarks⟩ := turn_of_notice hnotice
              have htell : ({ p with slot := none } : Upkeep).tell (.listed (.ok list)) =
                  { p with
                    coordinator := { p.coordinator with phase := .syncing list.version }
                    slot := none, asked := some (.sync list.items) } := by
                simp [tell, Coordinator.step, phase, act, alive]
              have hseen : ofStep p.coordinator (.listed (.ok list)) = [.listed (.ok list)] := by
                simp [ofStep, ofInput, Coordinator.step, phase, ofAction]
              rw [hturn, hmarks, htell, hseen]
              exact .order list phase alive
      | none =>
          cases hgone : p.pollerGone with
          | true =>
              have hnotice : p.notice = (some .ended, p) := by
                simp [notice, phase, alive, hslot, hgone]
              exact change_turn_of_stop hclosed running p.slot p.follower id hnotice (by simp [Coordinator.step, phase]) (.inl rfl)
          | false =>
              cases hnext : p.follower.next with
              | mk follower polled =>
                  cases polled with
                  | item e =>
                      have hnotice : p.notice = (some (.event e), { p with follower }) := by
                        simp [notice, phase, alive, hslot, hgone, hnext]
                      obtain ⟨hturn, hmarks⟩ := turn_of_notice hnotice
                      have htell : ({ p with follower } : Upkeep).tell (.event e) =
                          { p with
                            coordinator := { p.coordinator with phase := .updating }, follower
                            asked := some (.update e) } := by
                        simp [tell, Coordinator.step, phase, act, alive]
                      have hseen : ofStep p.coordinator (.event e) = [] := by
                        simp [ofStep, ofInput, Coordinator.step, phase, ofAction]
                      rw [hturn, hmarks, htell, hseen]
                      exact .receive e follower phase alive hnext
                  | ended =>
                      have hnotice : p.notice = (some .ended, { p with follower }) := by
                        simp [notice, phase, alive, hslot, hgone, hnext]
                      refine change_turn_of_stop hclosed running p.slot follower (fun houtput => ?_) hnotice
                        (by simp [Coordinator.step, phase]) (.inl rfl)
                      rw [next_of_output houtput] at hnext
                      cases hnext
                  | pending =>
                      have hnotice : p.notice = (none, { p with follower }) := by
                        simp [notice, phase, alive, hslot, hgone, hnext]
                      obtain ⟨hturn, hmarks⟩ := turn_of_wait hnotice
                      rw [hturn, hmarks, eq_of_next_pending hnext]
                      exact .still

theorem change_turn_of_waiting (hclosed : p.coordinator.stage = .closed → p.coordinator.isRunning = false)
    (phase : (∃ version, p.coordinator.phase = .syncing version) ∨ p.coordinator.phase = .updating) :
    p.Change (p.step .turn) (p.marks .turn) := by
  have running : p.coordinator.isRunning = true := by
    rcases phase with ⟨version, phase⟩ | phase <;> simp [Coordinator.isRunning, phase]
  cases alive : p.isFired with
  | true =>
      have hnotice : p.notice = (some .refused, p) := by
        rcases phase with ⟨version, phase⟩ | phase <;> simp only [notice, phase, alive, if_true]
      refine change_turn_of_stop hclosed running p.slot p.follower id hnotice ?_ (.inl rfl)
      rcases phase with ⟨version, phase⟩ | phase <;> simp [Coordinator.step, phase]
  | false =>
      cases answer : p.answer with
      | none =>
          have hnotice : p.notice = (none, p) := by
            rcases phase with ⟨version, phase⟩ | phase <;> simp [notice, phase, alive, answer]
          obtain ⟨hturn, hmarks⟩ := turn_of_wait hnotice
          rw [hturn, hmarks]
          exact .still
      | some events =>
          have hnotice : p.notice = (some (.applied events), { p with answer := none }) := by
            rcases phase with ⟨version, phase⟩ | phase <;> simp [notice, phase, alive, answer]
          obtain ⟨hturn, hmarks⟩ := turn_of_notice hnotice
          rw [hturn, hmarks]
          rcases phase with ⟨version, phase⟩ | phase
          · cases stage : p.coordinator.stage with
            | initializing =>
                have hseen : ofStep p.coordinator (.applied events) = [.synced, .readied, .staged .ready] := by
                  simp [ofStep, ofInput, Coordinator.step, phase, stage, ofAction]
                have htell : ({ p with answer := none } : Upkeep).tell (.applied events) =
                    { p with
                      coordinator := ⟨.feeding events (some version), .ready⟩, answer := none
                      isReady := true } := by
                  simp [tell, Coordinator.step, phase, stage, act]
                rw [hseen, htell]
                exact .adopt phase answer stage
            | ready =>
                have hseen : ofStep p.coordinator (.applied events) = [.synced] := by
                  simp [ofStep, ofInput, Coordinator.step, phase, stage]
                have htell : ({ p with answer := none } : Upkeep).tell (.applied events) =
                    { p with coordinator := ⟨.feeding events (some version), .ready⟩, answer := none } := by
                  simp [tell, Coordinator.step, phase, stage]
                rw [hseen, htell]
                exact .sync phase answer stage
            | closed => simp [hclosed stage] at running
          · have hseen : ofStep p.coordinator (.applied events) = [] := by
              simp [ofStep, ofInput, Coordinator.step, phase]
            have htell : ({ p with answer := none } : Upkeep).tell (.applied events) =
                { p with
                  coordinator := { p.coordinator with phase := .feeding events none }, answer := none } := by
              simp [tell, Coordinator.step, phase]
            rw [hseen, htell]
            exact .update phase answer

theorem change_turn_of_feeding (hclosed : p.coordinator.stage = .closed → p.coordinator.isRunning = false)
    {events : List Event} {version : Option String} (phase : p.coordinator.phase = .feeding events version) :
    p.Change (p.step .turn) (p.marks .turn) := by
  have running : p.coordinator.isRunning = true := by simp [Coordinator.isRunning, phase]
  cases events with
  | nil =>
      have hnotice : p.notice = (some .allFed, p) := by simp only [notice, phase]
      obtain ⟨hturn, hmarks⟩ := turn_of_notice hnotice
      rw [hturn, hmarks]
      cases version with
      | none =>
          have hseen : ofStep p.coordinator .allFed = [] := by
            simp [ofStep, ofInput, Coordinator.step, phase]
          have htell : p.tell .allFed = { p with coordinator := { p.coordinator with phase := .idle } } := by
            simp [tell, Coordinator.step, phase]
          rw [hseen, htell]
          exact .done phase
      | some version =>
          have hseen : ofStep p.coordinator .allFed = [] := by
            simp [ofStep, ofInput, Coordinator.step, phase, ofAction]
          have htell : p.tell .allFed =
              { p with coordinator := { p.coordinator with phase := .resetting }, inbox := some version } := by
            simp [tell, Coordinator.step, phase, act]
          rw [hseen, htell]
          exact .reset phase
  | cons e rest =>
      have hstop {i : Coordinator.Input} (hnotice : p.notice = (some i, p))
          (hstep : p.coordinator.step i = p.coordinator.stop) (hseen : ofInput p.coordinator i = []) :
          p.Change (p.step .turn) (p.marks .turn) :=
        change_turn_of_stop hclosed running p.slot p.follower id hnotice hstep (.inl hseen)
      cases alive : p.isFired with
      | true =>
          have hnotice : p.notice = (some .cancel, p) := by simp only [notice, phase, alive, if_true]
          exact hstop hnotice (by simp [Coordinator.step, phase]) rfl
      | false =>
          cases hpush : p.feed.push e with
          | mk feed pushed =>
              cases pushed with
              | taken =>
                  have hnotice : p.notice = (some .fed, { p with feed }) := by
                    simp [notice, phase, alive, hpush]
                  obtain ⟨hturn, hmarks⟩ := turn_of_notice hnotice
                  have hseen : ofStep p.coordinator .fed = [.fed e] := by
                    simp [ofStep, ofInput, Coordinator.step, phase]
                  have htell : ({ p with feed } : Upkeep).tell .fed =
                      { p with
                        coordinator := { p.coordinator with phase := .feeding rest version }, feed } := by
                    simp [tell, Coordinator.step, phase]
                  rw [hturn, hmarks, hseen, htell]
                  exact .feed phase hpush
              | full =>
                  have hnotice : p.notice = (none, p) := by simp [notice, phase, alive, hpush]
                  obtain ⟨hturn, hmarks⟩ := turn_of_wait hnotice
                  rw [hturn, hmarks]
                  exact .still
              | refused =>
                  have hnotice : p.notice = (some .refused, p) := by simp [notice, phase, alive, hpush]
                  exact hstop hnotice (by simp [Coordinator.step, phase]) rfl

theorem change_turn_of_resetting (hclosed : p.coordinator.stage = .closed → p.coordinator.isRunning = false)
    (phase : p.coordinator.phase = .resetting) : p.Change (p.step .turn) (p.marks .turn) := by
  have running : p.coordinator.isRunning = true := by simp [Coordinator.isRunning, phase]
  cases wasReset : p.wasReset with
  | true =>
      have hnotice : p.notice = (some .wasReset, { p with wasReset := false }) := by
        simp [notice, phase, wasReset]
      obtain ⟨hturn, hmarks⟩ := turn_of_notice hnotice
      have hseen : ofStep p.coordinator .wasReset = [] := by
        simp [ofStep, ofInput, Coordinator.step, phase]
      have htell : ({ p with wasReset := false } : Upkeep).tell .wasReset =
          { p with coordinator := { p.coordinator with phase := .idle }, wasReset := false } := by
        simp [tell, Coordinator.step, phase]
      rw [hturn, hmarks, hseen, htell]
      exact .resume phase
  | false =>
      cases stopped : p.follower.isStopped with
      | true =>
          have hnotice : p.notice = (some .refused, p) := by simp [notice, phase, wasReset, stopped]
          exact change_turn_of_stop hclosed running p.slot p.follower id hnotice
            (by simp [Coordinator.step, phase]) (.inl rfl)
      | false =>
          have hnotice : p.notice = (none, p) := by simp [notice, phase, wasReset, stopped]
          obtain ⟨hturn, hmarks⟩ := turn_of_wait hnotice
          rw [hturn, hmarks]
          exact .still

/-- **What a coordinator does in its turn is one of the changes.** -/
theorem change_turn (hclosed : p.coordinator.stage = .closed → p.coordinator.isRunning = false) :
    p.Change (p.step .turn) (p.marks .turn) := by
  cases phase : p.coordinator.phase with
  | idle => exact change_turn_of_idle hclosed phase
  | syncing version => exact change_turn_of_waiting hclosed (.inl ⟨version, phase⟩)
  | updating => exact change_turn_of_waiting hclosed (.inr phase)
  | feeding events version => exact change_turn_of_feeding hclosed phase
  | resetting => exact change_turn_of_resetting hclosed phase
  | closing =>
      cases gone : p.hubGone with
      | true =>
          have hnotice : p.notice = (some .hubStopped, p) := by simp [notice, phase, gone]
          obtain ⟨hturn, hmarks⟩ := turn_of_notice hnotice
          have hseen : ofStep p.coordinator .hubStopped = [] := by
            simp [ofStep, ofInput, Coordinator.step, phase, ofAction]
          have htell : p.tell .hubStopped =
              { p with coordinator := { p.coordinator with phase := .closed } } := by
            simp [tell, Coordinator.step, phase, act]
          rw [hturn, hmarks, hseen, htell]
          exact .finish phase
      | false =>
          have hnotice : p.notice = (none, p) := by simp [notice, phase, gone]
          obtain ⟨hturn, hmarks⟩ := turn_of_wait hnotice
          rw [hturn, hmarks]
          exact .still
  | closed =>
      have hnotice : p.notice = (none, p) := by simp only [notice, phase]
      obtain ⟨hturn, hmarks⟩ := turn_of_wait hnotice
      rw [hturn, hmarks]
      exact .still

theorem output_step_of_none {f : Follower} (h : f.output = none) {i : Follower.Input}
    (hi : ∀ version isAwaited, i ≠ .reset version isAwaited) : (f.step i).output = none := by
  cases i with
  | reset version isAwaited => exact absurd rfl (hi version isAwaited)
  | event e => simp [Follower.step, h]
  | sessionEnded =>
      rw [Follower.step]
      (repeat' split) <;> simp [Follower.stop, h]
  | retryElapsed => exact h
  | cancel => simp [Follower.step, Follower.stop, h]

/-- **Every move is one of the changes.** -/
theorem change_step (hclosed : p.coordinator.stage = .closed → p.coordinator.isRunning = false) (m : Move) :
    p.Change (p.step m) (p.marks m) := by
  cases m with
  | turn => exact change_turn hclosed
  | list r =>
      rw [step, marks, play]
      split
      · exact .outside (some r) p.pollerGone p.hubGone
      · exact .still
  | stopPoller => exact .outside p.slot true p.hubGone
  | stopHub => exact .outside p.slot p.pollerGone true
  | serve =>
      rw [step, marks, play]
      split
      · exact .still
      · rename_i alive
        split
        · rename_i r asked
          exact .serve (by simpa using alive) asked
        · exact .still
  | follow i =>
      cases i with
      | reset version isAwaited => exact .still
      | event e | sessionEnded | retryElapsed | cancel =>
          simp only [step, marks, play]
          split
          · exact .still
          · exact .follow _ fun output => output_step_of_none output nofun
  | restart =>
      rw [step, marks, play]
      split
      · rename_i version told
        split
        · exact .still
        · exact .restart _ told
      · exact .still
  | read =>
      rw [step, marks, play]
      split
      · rename_i feed e next
        exact .read next
      · exact .still
  | abandon => exact .abandon
  | cancel =>
      rw [step, marks, play]
      cases alive : p.isFired with
      | true =>
          have hsame : ({ p with isFired := true } : Upkeep) = p := by rw [← alive]
          rw [hsame]
          exact .still
      | false => exact .cancel alive

end Upkeep

end Replica
