import Replica.Proofs.Coordinator.Change
import Replica.Proofs.Feed

/-! # The life of a pipeline

What is seen of a pipeline is tied to its state in four ways, each kept by every move:

* `Kept`: the store has done what it was seen to do, and nothing since the end;
* `Known`: the stages that became known follow `Course`, and readiness is told with the first listing;
* `Begun`: before the first listing is taken over there is no event, and nothing but that listing is done;
* `Carried`: what was fed is what the store gave, up to what is still to be fed. -/

namespace Replica

theorem Store.emitted_append (s : Store) (rs rs' : List Request) :
    s.emitted (rs ++ rs') = s.emitted rs ++ (s.after rs).emitted rs' := by
  induction rs generalizing s with
  | nil => rfl
  | cons r rs ih =>
      rw [List.cons_append, Store.emitted, Store.emitted, ih, List.append_assoc]
      rfl

namespace Upkeep

namespace Mark

variable {t u : List Mark}

@[simp] theorem listings_append : listings (t ++ u) = listings t ++ listings u := List.filterMap_append

@[simp] theorem operations_append : operations (t ++ u) = operations t ++ operations u := List.filterMap_append

@[simp] theorem stages_append : stages (t ++ u) = stages t ++ u.filterMap staged? := by simp [stages]

@[simp] theorem feds_append : feds (t ++ u) = feds t ++ feds u := List.filterMap_append

@[simp] theorem reads_append : reads (t ++ u) = reads t ++ reads u := List.filterMap_append

theorem aftermath_append_of_end (h : ∃ m ∈ t, m.isEnd = true) (u : List Mark) :
    aftermath (t ++ u) = aftermath t ++ u := by
  induction t with
  | nil => simp at h
  | cons m t ih =>
      cases hm : m.isEnd with
      | true => simp [aftermath, hm]
      | false =>
          have ih := ih (by simpa [hm] using h)
          simpa [aftermath, hm] using ih

theorem aftermath_append (h : ¬ ∃ m ∈ t, m.isEnd = true) (u : List Mark) :
    aftermath (t ++ u) = aftermath u :=
  List.dropWhile_append_of_pos (by simpa using h)

end Mark

open Upkeep.Mark

variable {t u : List Mark} {p q : Upkeep}

/-! ### The store -/

/-- The store has done what it was seen to do, and nothing from the end on. -/
structure Kept (t : List Mark) (p : Upkeep) : Prop where
  store : p.store = (Store.new .acceptAll).after (operations t)
  fired : (∃ m ∈ t, m.isEnd = true) → p.isFired = true
  still : operations (aftermath t) = []

theorem Change.operations (h : p.Change q u) :
    (operations u = [] ∧ q.store = p.store) ∨
      ∃ r, u = [.did r] ∧ p.isFired = false ∧ q.store = (r.run p.store).1 := by
  cases h with
  | serve alive asked => exact .inr ⟨_, rfl, alive, rfl⟩
  | close slot follower running reason =>
      obtain rfl | ⟨e, rfl⟩ := reason <;> exact .inl ⟨rfl, rfl⟩
  | _ => exact .inl ⟨rfl, rfl⟩

/-- A scope that has fired stays fired, and at the end it has. -/
theorem Change.isFired (h : p.Change q u) :
    q.isFired = true ∨ q.isFired = p.isFired ∧ ¬ ∃ m ∈ u, m.isEnd = true := by
  cases h with
  | close | cancel => exact .inl rfl
  | _ => exact .inr ⟨rfl, by simp [isEnd]⟩

theorem Kept.change (h : Kept t p) (hc : p.Change q u) : Kept (t ++ u) q where
  store := by
    rw [operations_append, Store.after_append, ← h.store]
    obtain ⟨hnone, hstore⟩ | ⟨r, rfl, -, hstore⟩ := hc.operations
    · rw [hnone, hstore]
      rfl
    · exact hstore
  fired := by
    rintro ⟨m, hm, hend⟩
    obtain hq | ⟨hq, hu⟩ := hc.isFired
    · exact hq
    · rw [hq]
      refine h.fired ⟨m, (List.mem_append.1 hm).resolve_right fun hmem => hu ⟨m, hmem, hend⟩, hend⟩
  still := by
    by_cases hend : ∃ m ∈ t, m.isEnd = true
    · rw [aftermath_append_of_end hend, operations_append, h.still]
      obtain ⟨hnone, -⟩ | ⟨r, -, alive, -⟩ := hc.operations
      · exact hnone
      · cases alive.symm.trans (h.fired hend)
    · rw [aftermath_append hend]
      obtain ⟨hnone, -⟩ | ⟨r, rfl, -⟩ := hc.operations
      · exact List.filterMap_eq_nil_iff.2 fun m hm =>
          List.filterMap_eq_nil_iff.1 hnone m ((List.dropWhile_sublist _).subset hm)
      · rfl

/-! ### Stages -/

/-- The stages that can become known one after the other, with the last one. -/
inductive Course : List Lifecycle → Lifecycle → Prop
  | initializing : Course [.initializing] .initializing
  | ready : Course [.initializing, .ready] .ready
  | failed : Course [.initializing, .closed] .closed
  | closed : Course [.initializing, .ready, .closed] .closed

theorem Course.close {l : List Lifecycle} {stage : Lifecycle} (h : Course l stage) (hs : stage ≠ .closed) :
    Course (l ++ [.closed]) .closed := by
  cases h with
  | initializing => exact .failed
  | ready => exact .closed
  | failed | closed => exact absurd rfl hs

/-- **The stages come in their order, and nothing comes after the end.** -/
theorem Course.shape {l : List Lifecycle} {stage : Lifecycle} (h : Course l stage) :
    (l <+: [.initializing, .ready, .closed] ∨ l <+: [.initializing, .closed]) ∧ l.getLast? = some stage := by
  cases h <;> decide

/-- What is known of the stages. -/
structure Known (t : List Mark) (p : Upkeep) : Prop where
  course : Course (stages t) p.coordinator.stage
  closed : p.coordinator.stage = .closed ↔ p.coordinator.isRunning = false
  fired : p.coordinator.stage = .closed → p.isFired = true
  failed : ∀ e, .listed (.error e) ∈ t → p.coordinator.stage = .closed
  ready : p.isReady = true ↔ .synced ∈ t
  initial : p.coordinator.stage = .initializing → .synced ∉ t
  later : p.coordinator.stage = .ready → .synced ∈ t

theorem Known.go (h : Known t p) (hu : ∀ m ∈ u, m.staged? = none ∧ m ≠ .synced ∧ ∀ e, m ≠ .listed (.error e))
    (stage : q.coordinator.stage = p.coordinator.stage)
    (running : q.coordinator.isRunning = p.coordinator.isRunning)
    (fired : p.isFired = true → q.isFired = true) (ready : q.isReady = p.isReady) : Known (t ++ u) q := by
  have hsynced : .synced ∈ t ++ u ↔ .synced ∈ t := by
    simp only [List.mem_append, or_iff_left_iff_imp]
    exact fun hm => absurd rfl (hu _ hm).2.1
  have hstages : stages (t ++ u) = stages t := by
    rw [stages_append, List.filterMap_eq_nil_iff.2 fun m hm => (hu m hm).1, List.append_nil]
  refine ⟨?_, ?_, ?_, ?_, ?_, ?_, ?_⟩
  · rw [hstages, stage]
    exact h.course
  · rw [stage, running]
    exact h.closed
  · rw [stage]
    exact fun hc => fired (h.fired hc)
  · intro e he
    rw [stage]
    exact h.failed e ((List.mem_append.1 he).resolve_right fun hm => (hu _ hm).2.2 e rfl)
  · rw [ready, hsynced]
    exact h.ready
  · rw [stage, hsynced]
    exact h.initial
  · rw [stage, hsynced]
    exact h.later

theorem Known.change (h : Known t p) (hc : p.Change q u) : Known (t ++ u) q := by
  have hrunning {phase : Coordinator.Phase} (hphase : p.coordinator.phase = phase) (c : Coordinator)
      (hsame : c.isRunning = (⟨phase, p.coordinator.stage⟩ : Coordinator).isRunning) :
      c.isRunning = p.coordinator.isRunning := by rw [hsame, ← hphase]
  cases hc with
  | still | outside | serve | follow | restart | read | abandon =>
      exact h.go (by simp [staged?]) rfl rfl id rfl
  | cancel => exact h.go (by simp [staged?]) rfl rfl (fun _ => rfl) rfl
  | order list phase | receive e follower phase | update phase | feed phase | done phase | resume phase
  | reset phase | finish phase =>
      exact h.go (by simp [staged?]) rfl (hrunning phase _ rfl) id rfl
  | @close u slot follower running reason =>
      have hstage : p.coordinator.stage ≠ .closed := fun hc => by simp [h.closed.1 hc] at running
      obtain ⟨hsynced, hstages⟩ : .synced ∉ u ∧ u.filterMap staged? = [] := by
        obtain rfl | ⟨e, rfl⟩ := reason <;> simp [staged?]
      refine ⟨?_, iff_of_true rfl rfl, fun _ => rfl, fun _ _ => rfl, ?_, nofun, nofun⟩
      · rw [stages_append, List.filterMap_append, hstages]
        exact h.course.close hstage
      · simpa [hsynced] using h.ready
  | adopt phase answer first =>
      refine ⟨?_, iff_of_false nofun nofun, nofun, ?_, by simp, nofun, by simp⟩
      · have hcourse := h.course
        rw [first] at hcourse
        rw [stages_append]
        generalize stages t = l at hcourse ⊢
        cases hcourse
        exact .ready
      · intro e he
        have := h.failed e (by simpa using he)
        cases first.symm.trans this
  | sync phase answer later =>
      refine ⟨?_, iff_of_false nofun nofun, nofun, ?_, ?_, nofun, by simp⟩
      · have hcourse := h.course
        rw [later] at hcourse
        rw [stages_append, show [Mark.synced].filterMap staged? = [] from rfl, List.append_nil]
        exact hcourse
      · intro e he
        have := h.failed e (by simpa using he)
        cases later.symm.trans this
      · simpa using h.ready.2 (h.later later)

/-! ### The first listing -/

/-- Nothing was heard of the follower. -/
structure IsNew (p : Upkeep) : Prop where
  output : p.follower.output = none
  inbox : p.inbox = none
  wasReset : p.wasReset = false

/-- How far a pipeline is with its first listing. -/
inductive Outset (t : List Mark) (p : Upkeep) : Prop
  | unlisted (phase : p.coordinator.phase = .idle) (asked : p.asked = none) (answer : p.answer = none)
      (listings : listings t = []) (operations : operations t = [])
  | ordered (list : Listing) (phase : p.coordinator.phase = .syncing list.version)
      (asked : p.asked = some (.sync list.items)) (answer : p.answer = none)
      (listings : listings t = [.ok list]) (operations : operations t = [])
  | served (list : Listing) (phase : p.coordinator.phase = .syncing list.version) (asked : p.asked = none)
      (answer : p.answer = some []) (listings : listings t = [.ok list])
      (operations : operations t = [.sync list.items])

/-- The first thing that was done is to take the first listing over. -/
def SyncedFirst (t : List Mark) : Prop :=
  operations t = [] ∨ ∃ list, (listings t).head? = some (.ok list) ∧
    (operations t).head? = some (.sync list.items)

theorem SyncedFirst.append (h : SyncedFirst t) (u : List Mark) (hu : operations t = [] → operations u = []) :
    SyncedFirst (t ++ u) := by
  obtain hnone | ⟨list, hlist, hfirst⟩ := h
  · exact .inl (by rw [operations_append, hnone, hu hnone, List.append_nil])
  · exact .inr ⟨list, by simp [hlist], by simp [hfirst]⟩

/-- What is so before the first listing is taken over, and of what was done first. -/
structure Begun (t : List Mark) (p : Upkeep) : Prop where
  outset : .synced ∉ t → p.IsNew ∧ (p.coordinator.stage = .closed ∨ Outset t p)
  first : SyncedFirst t
  begun : .synced ∈ t → operations t ≠ []
  silent : .synced ∉ t → feds t = []

theorem Begun.go (h : Begun t p) (hu : operations u = [] ∧ feds u = [] ∧ .synced ∉ u)
    (houtset : .synced ∉ t → p.IsNew → (p.coordinator.stage = .closed ∨ Outset t p) →
      q.IsNew ∧ (q.coordinator.stage = .closed ∨ Outset (t ++ u) q)) : Begun (t ++ u) q where
  outset := by
    intro hsynced
    rw [List.mem_append, not_or] at hsynced
    obtain ⟨hnew, hstage⟩ := h.outset hsynced.1
    exact houtset hsynced.1 hnew hstage
  first := h.first.append u fun _ => hu.1
  begun := by
    intro hsynced
    rw [operations_append, hu.1, List.append_nil]
    exact h.begun ((List.mem_append.1 hsynced).resolve_right hu.2.2)
  silent := by
    intro hsynced
    rw [feds_append, hu.2.1, h.silent fun hmem => hsynced (List.mem_append_left _ hmem), List.append_nil]

theorem Outset.go (h : Outset t p) (hu : operations u = [] ∧ listings u = [])
    (phase : q.coordinator.phase = p.coordinator.phase) (asked : q.asked = p.asked)
    (answer : q.answer = p.answer) : Outset (t ++ u) q := by
  have hoperations : operations (t ++ u) = operations t := by simp [hu.1]
  have hlistings : listings (t ++ u) = listings t := by simp [hu.2]
  cases h with
  | unlisted phase' asked' answer' listings' operations' =>
      exact .unlisted (phase.trans phase') (asked.trans asked') (answer.trans answer')
        (hlistings.trans listings') (hoperations.trans operations')
  | ordered list phase' asked' answer' listings' operations' =>
      exact .ordered list (phase.trans phase') (asked.trans asked') (answer.trans answer')
        (hlistings.trans listings') (hoperations.trans operations')
  | served list phase' asked' answer' listings' operations' =>
      exact .served list (phase.trans phase') (asked.trans asked') (answer.trans answer')
        (hlistings.trans listings') (hoperations.trans operations')

/-- A coordinator that runs is idle or waits for its store until the first listing is taken over. -/
theorem Begun.early (h : Begun t p) (hk : Known t p) (hsynced : .synced ∉ t)
    (running : p.coordinator.isRunning = true) : p.IsNew ∧ Outset t p := by
  obtain ⟨hnew, hstage⟩ := h.outset hsynced
  refine ⟨hnew, hstage.resolve_left fun hclosed => ?_⟩
  simp [hk.closed.1 hclosed] at running

/-- The first listing has been taken over when the coordinator waits for anything but its store's first answer. -/
theorem Begun.synced (h : Begun t p) (hk : Known t p) (running : p.coordinator.isRunning = true)
    (hidle : p.coordinator.phase ≠ .idle) (hsyncing : ∀ version, p.coordinator.phase ≠ .syncing version) :
    .synced ∈ t := by
  refine Classical.byContradiction fun hsynced => ?_
  cases (h.early hk hsynced running).2 with
  | unlisted phase => exact hidle phase
  | ordered list phase | served list phase => exact hsyncing _ phase

theorem Begun.late (h : Begun t p) (hsynced : .synced ∈ t) (hu : operations u = []) : Begun (t ++ u) q := by
  refine ⟨fun hmem => absurd (List.mem_append_left _ hsynced) hmem, h.first.append u fun _ => hu, fun _ => ?_,
    fun hmem => absurd (List.mem_append_left _ hsynced) hmem⟩
  rw [operations_append, hu, List.append_nil]
  exact h.begun hsynced

/-- What the store does first is to take the first listing over, and it gives no events for it. -/
theorem Begun.serve (h : Begun t p) (hkept : Kept t p) (hopen : p.coordinator.stage ≠ .closed) {r : Request}
    (asked : p.asked = some r) : Begun (t ++ [.did r])
      { p with store := (r.run p.store).1, asked := none, answer := some (r.run p.store).2.eventList } := by
  by_cases hsynced : .synced ∈ t
  · refine ⟨fun hmem => absurd (List.mem_append_left _ hsynced) hmem, ?_,
      fun _ => by simp [operations, did?], fun hmem => absurd (List.mem_append_left _ hsynced) hmem⟩
    exact h.first.append _ fun hnone => absurd hnone (h.begun hsynced)
  · obtain ⟨hnew, hstage⟩ := h.outset hsynced
    cases hstage.resolve_left hopen with
    | unlisted _ asked' | served _ _ asked' => cases asked.symm.trans asked'
    | ordered list phase asked' _ hlistings hoperations =>
        cases asked.symm.trans asked'
        have hfirst : operations (t ++ [.did (.sync list.items)]) = [.sync list.items] := by
          rw [operations_append, hoperations]
          rfl
        have hlisted : listings (t ++ [.did (.sync list.items)]) = [.ok list] := by
          rw [listings_append, hlistings]
          rfl
        have hanswer : ((Request.sync list.items).run p.store).2.eventList = [] := by
          rw [hkept.store, hoperations]
          rfl
        refine ⟨fun _ => ⟨⟨hnew.output, hnew.inbox, hnew.wasReset⟩, .inr ?_⟩, ?_, fun _ => by simp [hfirst],
          fun _ => ?_⟩
        · exact .served list phase rfl (congrArg some hanswer) hlisted hfirst
        · exact .inr ⟨list, by simp [hlisted], by simp [hfirst]⟩
        · rw [feds_append, h.silent hsynced]
          rfl

/-- **The first listing is taken over before anything else is done.** -/
theorem Begun.change (h : Begun t p) (hkept : Kept t p) (hk : Known t p) (hc : p.Change q u) : Begun (t ++ u) q := by
  cases hc with
  | still | outside | read | abandon | cancel =>
      refine h.go ⟨rfl, rfl, by simp⟩ fun _ hnew hstage => ⟨⟨hnew.output, hnew.inbox, hnew.wasReset⟩, ?_⟩
      exact hstage.imp_right fun ho => ho.go ⟨rfl, rfl⟩ rfl rfl rfl
  | follow follower output =>
      refine h.go ⟨rfl, rfl, by simp⟩ fun _ hnew hstage =>
        ⟨⟨output hnew.output, hnew.inbox, hnew.wasReset⟩, ?_⟩
      exact hstage.imp_right fun ho => ho.go ⟨rfl, rfl⟩ rfl rfl rfl
  | @close u slot follower running reason output =>
      have hu : operations (u ++ [.staged .closed]) = [] ∧ feds (u ++ [.staged .closed]) = [] ∧
          .synced ∉ u ++ [.staged .closed] := by
        obtain rfl | ⟨e, rfl⟩ := reason <;> exact ⟨rfl, rfl, by simp⟩
      exact h.go hu fun _ hnew _ => ⟨⟨output hnew.output, hnew.inbox, hnew.wasReset⟩, .inl rfl⟩
  | order list phase =>
      refine h.go ⟨rfl, rfl, by simp⟩ fun hsynced _ _ => ?_
      obtain ⟨hnew, houtset⟩ := h.early hk hsynced (by simp [Coordinator.isRunning, phase])
      refine ⟨⟨hnew.output, hnew.inbox, hnew.wasReset⟩, .inr ?_⟩
      cases houtset with
      | unlisted _ _ answer hlistings hoperations =>
          exact .ordered list rfl rfl answer (by rw [listings_append, hlistings]; rfl)
            (by rw [operations_append, hoperations]; rfl)
      | ordered _ phase' | served _ phase' => cases phase.symm.trans phase'
  | receive e follower phase alive next =>
      refine h.go ⟨rfl, rfl, by simp⟩ fun _ hnew _ => ?_
      rw [next_of_output hnew.output] at next
      cases next
  | @adopt version events phase answer first =>
      have hsynced : .synced ∉ t := hk.initial first
      obtain ⟨-, houtset⟩ := h.early hk hsynced (by simp [Coordinator.isRunning, phase])
      refine ⟨fun hmem => absurd (by simp) hmem, h.first.append _ fun _ => rfl, fun _ => ?_,
        fun hmem => absurd (by simp) hmem⟩
      cases houtset with
      | unlisted phase' => cases phase.symm.trans phase'
      | ordered list _ _ answer' => cases answer.symm.trans answer'
      | served list _ _ _ _ hoperations => simp [hoperations]
  | sync phase answer later =>
      refine ⟨fun hmem => absurd (by simp) hmem, h.first.append _ fun _ => rfl, fun _ => ?_,
        fun hmem => absurd (by simp) hmem⟩
      simp [h.begun (hk.later later)]
  | update phase | feed phase | done phase | reset phase | resume phase =>
      exact h.late (h.synced hk (by simp [Coordinator.isRunning, phase]) (by simp [phase]) (by simp [phase])) rfl
  | finish phase =>
      refine h.go ⟨rfl, rfl, by simp⟩ fun _ hnew _ =>
        ⟨⟨hnew.output, hnew.inbox, hnew.wasReset⟩, .inl (hk.closed.2 ?_)⟩
      simp [Coordinator.isRunning, phase]
  | serve alive asked =>
      exact h.serve hkept (fun hclosed => by simp [hk.fired hclosed] at alive) asked
  | restart follower told =>
      refine h.go ⟨rfl, rfl, by simp⟩ fun _ hnew _ => ?_
      cases told.symm.trans hnew.inbox

/-! ### What is fed -/

/-- The events that the store has given and that are still to be fed. -/
def toFeed (p : Upkeep) : List Event :=
  (match p.coordinator.phase with
    | .feeding rest _ => rest
    | _ => []) ++ p.answer.getD []

/-- What was fed, with what the store gave and what the hub has read. -/
structure Carried (t : List Mark) (p : Upkeep) : Prop where
  full : p.coordinator.isRunning = true → feds t ++ p.toFeed = emitted t
  cut : feds t <+: emitted t
  reads : reads t ++ p.feed.items = feds t
  /-- The store is asked for one thing at a time. -/
  single : p.asked.isSome = true → p.answer = none
  /-- The coordinator waits for what it has asked for. -/
  awaited : p.coordinator.isRunning = true → p.coordinator.isWaiting = false → p.asked = none ∧ p.answer = none

theorem Kept.emitted_append (h : Kept t p) (u : List Mark) :
    emitted (t ++ u) = emitted t ++ p.store.emitted (operations u) := by
  rw [emitted, operations_append, Store.emitted_append, ← h.store]
  rfl

theorem emitted_append_of_none (hu : operations u = []) : emitted (t ++ u) = emitted t := by
  rw [emitted, operations_append, hu, List.append_nil]
  rfl

theorem Carried.go (h : Carried t p) (hu : operations u = [] ∧ feds u = [] ∧ Mark.reads u = [])
    (running : q.coordinator.isRunning = true → p.coordinator.isRunning = true ∧ q.toFeed = p.toFeed)
    (items : q.feed.items = p.feed.items) (single : q.asked.isSome = true → q.answer = none)
    (awaited : q.coordinator.isRunning = true → q.coordinator.isWaiting = false →
      q.asked = none ∧ q.answer = none) : Carried (t ++ u) q where
  full := by
    intro hrunning
    rw [feds_append, hu.2.1, List.append_nil, emitted_append_of_none hu.1, (running hrunning).2]
    exact h.full (running hrunning).1
  cut := by
    rw [feds_append, hu.2.1, List.append_nil, emitted_append_of_none hu.1]
    exact h.cut
  reads := by
    rw [feds_append, reads_append, hu.2.1, hu.2.2, List.append_nil, List.append_nil, items]
    exact h.reads
  single := single
  awaited := awaited

theorem items_of_taken {f f' : Feed Event} {e : Event} (h : f.push e = (f', .taken)) :
    f'.items = f.items ++ [e] := by
  rw [Feed.push] at h
  split at h
  · cases h
  · split at h
    · cases h
      rfl
    · cases h

/-- **What is fed is what the store gave.** -/
theorem Carried.change (h : Carried t p) (hkept : Kept t p) (hc : p.Change q u) : Carried (t ++ u) q := by
  cases hc with
  | still | outside | follow | restart | abandon | cancel =>
      exact h.go ⟨rfl, rfl, rfl⟩ (fun hrunning => ⟨hrunning, rfl⟩) rfl h.single h.awaited
  | @close u slot follower running reason =>
      have hends : p.coordinator.stop.1.isRunning ≠ true := Bool.false_ne_true
      refine h.go ?_ (absurd · hends) rfl h.single (absurd · hends)
      obtain rfl | ⟨e, rfl⟩ := reason <;> exact ⟨rfl, rfl, rfl⟩
  | order list phase | receive e follower phase =>
      obtain ⟨-, hanswer⟩ := h.awaited (by simp [Coordinator.isRunning, phase])
        (by simp [Coordinator.isWaiting, phase])
      refine h.go ⟨rfl, rfl, rfl⟩ (fun _ => ⟨by simp [Coordinator.isRunning, phase], ?_⟩) rfl
        (fun _ => hanswer) (by simp [Coordinator.isWaiting])
      simp [toFeed, phase]
  | adopt phase answer | sync phase answer | update phase answer =>
      have hasked : p.asked = none := by
        cases hasked : p.asked with
        | none => rfl
        | some r =>
            have := h.single (by rw [hasked]; rfl)
            cases answer.symm.trans this
      refine h.go ⟨rfl, rfl, rfl⟩ (fun _ => ⟨by simp [Coordinator.isRunning, phase], ?_⟩) rfl
        (fun _ => rfl) (fun _ _ => ⟨hasked, rfl⟩)
      simp [toFeed, phase, answer]
  | @feed e rest version feed phase taken =>
      have running : p.coordinator.isRunning = true := by simp [Coordinator.isRunning, phase]
      have hfull := h.full running
      have hleft : p.toFeed = e :: (rest ++ p.answer.getD []) := by simp [toFeed, phase]
      have hfeds : feds (t ++ [.fed e]) = feds t ++ [e] := feds_append
      have hemitted : emitted (t ++ [.fed e]) = emitted t := emitted_append_of_none rfl
      have hall : feds (t ++ [.fed e]) ++ (rest ++ p.answer.getD []) = emitted (t ++ [.fed e]) := by
        rw [hemitted, ← hfull, hfeds, hleft, List.append_assoc]
        rfl
      refine ⟨fun _ => hall, ⟨_, hall⟩, ?_, h.single, fun _ _ => ?_⟩
      · rw [hfeds, items_of_taken taken, ← List.append_assoc, reads_append, ← h.reads,
          show Mark.reads [.fed e] = [] from rfl, List.append_nil]
      · exact h.awaited running (by simp [Coordinator.isWaiting, phase])
  | done phase | reset phase | resume phase =>
      have running : p.coordinator.isRunning = true := by simp [Coordinator.isRunning, phase]
      refine h.go ⟨rfl, rfl, rfl⟩ (fun _ => ⟨running, ?_⟩) rfl h.single fun _ _ => ?_
      · simp [toFeed, phase]
      · exact h.awaited running (by simp [Coordinator.isWaiting, phase])
  | finish phase =>
      exact h.go ⟨rfl, rfl, rfl⟩ (by simp [Coordinator.isRunning]) rfl h.single (by simp [Coordinator.isRunning])
  | @serve r alive asked =>
      have hanswer : p.answer = none := h.single (by rw [asked]; rfl)
      have hemitted : emitted (t ++ [.did r]) = emitted t ++ (r.run p.store).2.eventList := by
        rw [hkept.emitted_append]
        exact congrArg _ (List.append_nil _)
      have hfeds : feds (t ++ [.did r]) = feds t := List.append_nil (feds t) ▸ feds_append
      refine ⟨fun running => ?_, ?_, ?_, (by simp), fun running hidle => ?_⟩
      · rw [hemitted, hfeds, ← h.full running, List.append_assoc]
        simp [toFeed, hanswer]
      · rw [hemitted, hfeds]
        exact h.cut.trans (List.prefix_append _ _)
      · rw [hfeds, reads_append, ← h.reads]
        simp [Mark.reads, read?]
      · cases asked.symm.trans (h.awaited running hidle).1
  | @read e feed next =>
      have hitems := p.feed.item?_append_items_poll
      rw [next] at hitems
      have hfeds : feds (t ++ [.read e]) = feds t := List.append_nil (feds t) ▸ feds_append
      have hemitted : emitted (t ++ [.read e]) = emitted t := emitted_append_of_none rfl
      refine ⟨fun running => ?_, ?_, ?_, h.single, h.awaited⟩
      · rw [hfeds, hemitted]
        exact h.full running
      · rw [hfeds, hemitted]
        exact h.cut
      · rw [hfeds, reads_append, ← h.reads, List.append_assoc, ← hitems]
        rfl

end Upkeep

end Replica
