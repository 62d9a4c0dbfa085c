import Replica.Proofs.Coordinator.Course

/-! # How a pipeline stands

What is kept by every move of a pipeline is `Sound`, and `Standing` is what follows of its course, after any
moves (`standing_after`).

A pipeline whose scope has fired closes: once its follower has stopped, each turn of the coordinator brings
the end nearer (`IsEnding.turn`), and nothing else holds it up (`Sound.closes`). -/

namespace Replica

namespace Upkeep

open Upkeep.Mark

variable {t u : List Mark} {p q : Upkeep}

/-! ### All together -/

/-- What every move keeps. -/
structure Sound (t : List Mark) (p : Upkeep) : Prop where
  kept : Kept t p
  known : Known t p
  begun : Begun t p
  carried : Carried t p

theorem sound_start (settings : Settings) : Sound [] (start settings) where
  kept := ⟨rfl, by simp, rfl⟩
  known := ⟨.initializing, by simp [start, Coordinator.new, Coordinator.isRunning], nofun, by simp, by simp [start],
    by simp, nofun⟩
  begun := ⟨fun _ => ⟨⟨rfl, rfl, rfl⟩, .inr (.unlisted rfl rfl rfl rfl rfl)⟩, .inl rfl, by simp, fun _ => rfl⟩
  carried := ⟨fun _ => rfl, List.nil_prefix, rfl, nofun, fun _ _ => ⟨rfl, rfl⟩⟩

/-- **Every change keeps what is known of a pipeline.** -/
theorem Sound.change (h : Sound t p) (hc : p.Change q u) : Sound (t ++ u) q where
  kept := h.kept.change hc
  known := h.known.change hc
  begun := h.begun.change h.kept h.known hc
  carried := h.carried.change h.kept hc

theorem Sound.change_step (h : Sound t p) (m : Move) : p.Change (p.step m) (p.marks m) :=
  Upkeep.change_step h.known.closed.1 m

theorem Sound.step (h : Sound t p) (m : Move) : Sound (t ++ p.marks m) (p.step m) :=
  h.change (h.change_step m)

theorem Sound.after (h : Sound t p) (moves : List Move) : Sound (t ++ p.trace moves) (p.after moves) := by
  induction moves generalizing p t with
  | nil => rwa [trace, List.append_nil]
  | cons m moves ih =>
      rw [trace, ← List.append_assoc]
      exact ih (h.step m)

/-! ### The end -/

/-- How many turns a coordinator needs at most to begin the end, when its scope has fired and its follower
has stopped. -/
def distance (p : Upkeep) : Nat :=
  match p.coordinator.phase with
  | .closing | .closed => 0
  | .feeding [] none | .resetting => 2
  | .feeding [] (some _) => 3
  | _ => 1

/-- The scope of the pipeline has fired, and its follower has stopped. -/
structure IsEnding (p : Upkeep) : Prop where
  fired : p.isFired = true
  stopped : p.follower.isStopped = true

theorem IsEnding.stop (h : p.IsEnding) {i : Coordinator.Input} (hnotice : p.notice = (some i, p))
    (hstop : p.coordinator.step i = p.coordinator.stop) :
    (p.step .turn).IsEnding ∧ (p.step .turn).distance = 0 := by
  rw [(turn_of_notice hnotice).1, tell, hstop]
  exact ⟨⟨rfl, h.stopped⟩, rfl⟩

/-- A turn brings the end nearer. -/
theorem IsEnding.turn (h : p.IsEnding) :
    (p.step .turn).IsEnding ∧ (p.step .turn).distance ≤ p.distance - 1 := by
  have hstop {i : Coordinator.Input} (hnotice : p.notice = (some i, p))
      (hstep : p.coordinator.step i = p.coordinator.stop) :
      (p.step .turn).IsEnding ∧ (p.step .turn).distance ≤ p.distance - 1 := by
    obtain ⟨hending, hdistance⟩ := h.stop hnotice hstep
    exact ⟨hending, by omega⟩
  cases phase : p.coordinator.phase with
  | idle =>
      exact hstop (i := .cancel) (by simp only [notice, phase, h.fired, if_true]) (by simp [Coordinator.step, phase])
  | syncing version | updating =>
      exact hstop (i := .refused) (by simp only [notice, phase, h.fired, if_true])
        (by simp [Coordinator.step, phase])
  | feeding events version =>
      cases events with
      | cons e rest =>
          exact hstop (i := .cancel) (by simp only [notice, phase, h.fired, if_true])
            (by simp [Coordinator.step, phase])
      | nil =>
          have hnotice : p.notice = (some .allFed, p) := by simp only [notice, phase]
          rw [(turn_of_notice hnotice).1]
          cases version with
          | none =>
              have htell : p.tell .allFed = { p with coordinator := { p.coordinator with phase := .idle } } := by
                simp [tell, Coordinator.step, phase]
              rw [htell]
              exact ⟨⟨h.fired, h.stopped⟩, by simp [distance, phase]⟩
          | some version =>
              have htell : p.tell .allFed =
                  { p with
                    coordinator := { p.coordinator with phase := .resetting }, inbox := some version } := by
                simp [tell, Coordinator.step, phase, act]
              rw [htell]
              exact ⟨⟨h.fired, h.stopped⟩, by simp [distance, phase]⟩
  | resetting =>
      cases wasReset : p.wasReset with
      | false =>
          exact hstop (i := .refused) (by simp [notice, phase, wasReset, h.stopped])
            (by simp [Coordinator.step, phase])
      | true =>
          have hnotice : p.notice = (some .wasReset, { p with wasReset := false }) := by
            simp [notice, phase, wasReset]
          have htell : ({ p with wasReset := false } : Upkeep).tell .wasReset =
              { p with coordinator := { p.coordinator with phase := .idle }, wasReset := false } := by
            simp [tell, Coordinator.step, phase]
          rw [(turn_of_notice hnotice).1, htell]
          exact ⟨⟨h.fired, h.stopped⟩, by simp [distance, phase]⟩
  | closing =>
      cases gone : p.hubGone with
      | true =>
          have hnotice : p.notice = (some .hubStopped, p) := by simp [notice, phase, gone]
          have htell : p.tell .hubStopped =
              { p with coordinator := { p.coordinator with phase := .closed } } := by
            simp [tell, Coordinator.step, phase, act]
          rw [(turn_of_notice hnotice).1, htell]
          exact ⟨⟨h.fired, h.stopped⟩, Nat.zero_le _⟩
      | false =>
          have hnotice : p.notice = (none, p) := by simp [notice, phase, gone]
          rw [(turn_of_wait hnotice).1]
          exact ⟨h, by simp [distance, phase]⟩
  | closed =>
      have hnotice : p.notice = (none, p) := by simp only [notice, phase]
      rw [(turn_of_wait hnotice).1]
      exact ⟨h, by simp [distance, phase]⟩

theorem step_of_stopped (stopped : p.follower.isStopped = true) {m : Move} (hm : m ≠ .turn) :
    (p.step m).coordinator = p.coordinator ∧ (p.step m).follower = p.follower ∧
      (p.isFired = true → (p.step m).isFired = true) := by
  cases m with
  | turn => exact absurd rfl hm
  | stopPoller | stopHub | abandon => exact ⟨rfl, rfl, id⟩
  | cancel => exact ⟨rfl, rfl, fun _ => rfl⟩
  | list r =>
      rw [step, play]
      split <;> exact ⟨rfl, rfl, id⟩
  | serve =>
      rw [step, play]
      split
      · exact ⟨rfl, rfl, id⟩
      · split <;> exact ⟨rfl, rfl, id⟩
  | follow i =>
      cases i <;> simp [step, play, stopped]
  | restart =>
      rw [step, play]
      split
      · rw [if_pos stopped]
        exact ⟨rfl, rfl, id⟩
      · exact ⟨rfl, rfl, id⟩
  | read =>
      rw [step, play]
      split <;> exact ⟨rfl, rfl, id⟩

theorem IsEnding.step (h : p.IsEnding) (m : Move) : (p.step m).IsEnding ∧ (p.step m).distance ≤ p.distance := by
  by_cases hm : m = .turn
  · subst hm
    obtain ⟨hending, hdistance⟩ := h.turn
    exact ⟨hending, by omega⟩
  · obtain ⟨hcoordinator, hfollower, hfired⟩ := step_of_stopped h.stopped hm
    refine ⟨⟨hfired h.fired, hfollower ▸ h.stopped⟩, Nat.le_of_eq ?_⟩
    simp only [distance, hcoordinator]

/-- Enough turns bring the end about, whatever happens between them. -/
theorem IsEnding.closes (h : p.IsEnding) {n : Nat} (hn : p.distance ≤ n) {moves : List Move}
    (hmoves : (List.replicate n .turn).Sublist moves) : (p.after moves).distance = 0 := by
  induction moves generalizing p n with
  | nil =>
      have := List.sublist_nil.1 hmoves
      simp_all [after]
  | cons m moves ih =>
      rw [List.sublist_cons_iff] at hmoves
      obtain hrest | ⟨l, hl, hrest⟩ := hmoves
      · obtain ⟨hending, hdistance⟩ := h.step m
        exact ih hending (Nat.le_trans hdistance hn) hrest
      · cases n with
        | zero => cases hl
        | succ n =>
            obtain ⟨rfl, rfl⟩ : m = .turn ∧ l = List.replicate n .turn := by
              rw [List.replicate_succ, List.cons.injEq] at hl
              exact ⟨hl.1.symm, hl.2.symm⟩
            obtain ⟨hending, hdistance⟩ := h.turn
            exact ih hending (by omega) hrest

theorem distance_le (p : Upkeep) : p.distance ≤ 3 := by
  unfold distance
  split <;> decide

/-- **A pipeline whose scope has fired closes** as soon as its follower has noticed that and its coordinator
had three turns after that, whatever else happens. -/
theorem Sound.closes (h : Sound t p) (fired : p.isFired = true) {moves : List Move}
    (hmoves : [.follow .cancel, .turn, .turn, .turn].Sublist moves) :
    (p.after moves).coordinator.stage = .closed := by
  suffices (p.after moves).distance = 0 by
    refine (h.after moves).known.closed.2 ?_
    unfold distance at this
    unfold Coordinator.isRunning
    split at this <;> simp_all
  induction moves generalizing p t with
  | nil => cases hmoves
  | cons m moves ih =>
      rw [List.sublist_cons_iff] at hmoves
      obtain hrest | ⟨l, hl, hrest⟩ := hmoves
      · refine ih (h.step m) ?_ hrest
        obtain hq | ⟨hq, -⟩ := (h.change_step m).isFired
        · exact hq
        · exact hq.trans fired
      · obtain ⟨rfl, rfl⟩ := List.cons.inj hl
        have hending : (p.step (.follow .cancel)).IsEnding := by
          simp only [Upkeep.step, play]
          split
          · rename_i stopped
            exact ⟨fired, stopped⟩
          · exact ⟨fired, rfl⟩
        exact hending.closes (distance_le _) hrest

/-! ### The course of a pipeline -/

/-- What is so of a pipeline, when `t` was seen of it. -/
structure Standing (t : List Mark) (p : Upkeep) : Prop where
  /-- The first thing that the store does is to take over the first listing. -/
  first : SyncedFirst t
  /-- The readiness is told when the store has taken a listing over for the first time. -/
  ready : p.isReady = true ↔ .synced ∈ t
  /-- When that is so, the first listing was a success, and it was taken over. -/
  adopted : p.isReady = true → ∃ list, (listings t).head? = some (.ok list) ∧
    (operations t).head? = some (.sync list.items)
  /-- The next move tells the readiness, and the stage with it, exactly if the coordinator learns by it that
  the store has taken a listing over, and has not learnt that before. -/
  told : ∀ m,
    (.readied ∈ p.marks m ↔ .synced ∈ p.marks m ∧ .synced ∉ t) ∧
      (.staged .ready ∈ p.marks m ↔ .synced ∈ p.marks m ∧ .synced ∉ t)
  /-- Nothing is fed before the pipeline is ready, nor by the move that makes it ready. -/
  early : p.isReady = false → feds t = [] ∧ ∀ m, feds (p.marks m) = []
  /-- The stages come in their order, nothing comes after the end, and the last one is the current one. -/
  stages : (stages t <+: [.initializing, .ready, .closed] ∨ stages t <+: [.initializing, .closed]) ∧
    (stages t).getLast? = some p.coordinator.stage
  /-- A listing that failed closes the pipeline at once. -/
  failed : ∀ e, .listed (.error e) ∈ t → p.coordinator.stage = .closed
  /-- A pipeline that was cancelled closes when its parts had their turns, whatever else happens. -/
  cancelled : .cancelled ∈ t → ∀ moves, [.follow .cancel, .turn, .turn, .turn].Sublist moves →
    (p.after moves).coordinator.stage = .closed
  /-- The store holds what it has taken over, and from the end or its cause on it does nothing. -/
  store : p.store = (Store.new .acceptAll).after (operations t) ∧ operations (aftermath t) = []
  /-- What was fed is what the store gave, in order, up to what is still to be fed; only the end cuts it
  short. -/
  fed : feds t <+: emitted t ∧ (p.coordinator.stage ≠ .closed → feds t ++ p.toFeed = emitted t)
  /-- The hub gets what was fed, in order. -/
  read : Mark.reads t ++ p.feed.items = feds t

theorem Sound.standing (h : Sound t p) : Standing t p where
  first := h.begun.first
  ready := h.known.ready
  adopted := fun ready => h.begun.first.resolve_left (h.begun.begun (h.known.ready.1 ready))
  told := by
    intro m
    have hc := h.change_step m
    generalize p.marks m = u, p.step m = q at hc ⊢
    cases hc with
    | adopt phase answer first => simp [h.known.initial first]
    | sync phase answer later => simp [h.known.later later]
    | @close u slot follower running reason => obtain rfl | ⟨e, rfl⟩ := reason <;> simp
    | _ => simp
  early := by
    intro unready
    have hsynced : .synced ∉ t := fun hmem => by simp [h.known.ready.2 hmem] at unready
    refine ⟨h.begun.silent hsynced, fun m => ?_⟩
    have hc := h.change_step m
    have hnext := (h.step m).begun.silent
    generalize p.marks m = u, p.step m = q at hc hnext ⊢
    cases hc with
    | feed phase =>
        have hnone := hnext (by simpa using hsynced)
        rw [feds_append] at hnone
        exact (List.append_eq_nil_iff.1 hnone).2
    | @close u slot follower running reason => obtain rfl | ⟨e, rfl⟩ := reason <;> rfl
    | _ => rfl
  stages := h.known.course.shape
  failed := h.known.failed
  cancelled := fun hmem moves hmoves => h.closes (h.kept.fired ⟨_, hmem, rfl⟩) hmoves
  store := ⟨h.kept.store, h.kept.still⟩
  fed := by
    refine ⟨h.carried.cut, fun hopen => h.carried.full ?_⟩
    cases hrunning : p.coordinator.isRunning with
    | true => rfl
    | false => exact absurd (h.known.closed.2 hrunning) hopen
  read := h.carried.reads

/-- **The course of a pipeline.**  Whatever results its listings come to, whatever its follower goes through,
however its hub reads and whenever its scope fires, the first thing that its store does is to take over the
first listing, readiness is told with that, the stages come in their order, a failed listing and a
cancellation close the pipeline and leave its store as it is, and the events that its store gives are fed in
order, cut short only by the end. -/
theorem standing_after (settings : Settings) (moves : List Move) :
    Standing ((start settings).trace moves) ((start settings).after moves) :=
  ((sound_start settings).after moves).standing

end Upkeep

end Replica
