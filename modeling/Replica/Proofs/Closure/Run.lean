import Replica.Pipeline
import Replica.Proofs.Closure.Making
import Replica.Proofs.Closure.Turns

/-! # Runs of a network

What `Happens` in a network is that a task takes an input, that a user asks, reads, subscribes, makes something
of a subscription or closes something, that the pipeline is cancelled, or that the surroundings change.  A `Run`
is a number of these in any order, with the nodes that were closed, that were cancelled or that failed by them.

Each of them keeps what is closing (`Closing.happens`), and so do all runs (`Closing.run`). -/

namespace Replica

open Network

/-- The node of a branch: a pipeline's is the root, and any other one is where its hub is. -/
inductive Branch.At (n : Network) (b : Branch) : Node → Prop
  | pipeline (hb : b.isPipeline = true) : b.At n .pipeline
  | grown {s : Nat} (hb : b.isPipeline = false) (hx : n.tree.hub? b.hub = some (.grown s)) : b.At n (.grown s)

namespace Network

/-! ### What can happen -/

/-- One thing happens, and the nodes are those that are closed or cancelled or fail by it. -/
inductive Happens (n : Network) : List Node → Network → Prop
  /-- A task looks for an input, and takes it. -/
  | proceed {t : TaskId} {n' : Network} (hn : n.Proceeds t n') : Happens n (failures n t) n'
  /-- Tasks go on, pause or begin to wait. -/
  | schedule {n' : Network} (same : n'.data = n.data) : Happens n [] n'
  /-- Time passes. -/
  | pass (now : Nat) : Happens n [] { n with now }
  /-- Something happens at the server. -/
  | serve (server : Server) : Happens n [] { n with server }
  /-- A user asks a store. -/
  | request (keeper : Nat) (r : Request) : Happens n [] ((sendRequest keeper none r).run n).2
  /-- A user awaits another answer. -/
  | await : Happens n [] { n with reply := none }
  /-- A user wants to subscribe. -/
  | apply (i : Nat) : Happens n [] ((modifyHub i fun h => { h with isAsked := true, granted := none }).run n).2
  /-- A user gives a branch up. -/
  | release (b : Branch) : Happens n [] (b.release.run n).2
  /-- A user reads a source. -/
  | read (s : Source) : Happens n [] (s.next.run n).2
  /-- A user looks at the calls of an observer. -/
  | takeCalls (i : Nat) : Happens n [] ((takeCalls i).run n).2
  /-- A user replaces a filter. -/
  | refilter (i : Nat) (filter : Filter) :
    Happens n [] ((modifyView i fun v => { v with request := some filter }).run n).2
  /-- A user wants the pipeline to list. -/
  | list : Happens n [] (requestListing.run n).2
  /-- A user wants the follower to start over. -/
  | reset (version : String) :
    Happens n [] ((modifyFollower fun f => { f with inbox := some version, wasReset := false }).run n).2
  /-- A hub is made of a source. -/
  | startHub {s : Source} {k : Nat} (hx : n.tree.source? s = some (.grown k)) (capacity : Nat) :
    Happens n [] ((startHub s capacity).run n).2
  /-- A view is made of a subscription. -/
  | startView {s k : Nat} (hx : n.tree.subscription? s = some (.grown k)) (filter : Filter) (deferred : Bool) :
    Happens n [] ((startView s filter deferred).run n).2
  /-- An observer is made of a subscription. -/
  | startObserver {s k : Nat} (hx : n.tree.subscription? s = some (.grown k)) (interest : Observer.Interest) :
    Happens n [] ((startObserver s interest).run n).2
  /-- A subscription or a view is closed. -/
  | close {s : Source} {k : Nat} (hx : n.tree.source? s = some (.grown k)) : Happens n [.grown k] (s.close.run n).2
  /-- A subscription or a view is gone with its reader. -/
  | drop {s : Source} {k : Nat} (hx : n.tree.source? s = some (.grown k)) : Happens n [.grown k] (s.drop.run n).2
  /-- A branch is closed. -/
  | closeBranch {b : Branch} {x : Node} (hx : b.At n x) : Happens n [x] (b.close.run n).2
  /-- An observer is closed. -/
  | closeObserver {i k : Nat} (hx : n.tree.observer? i = some (.grown k)) :
    Happens n [.grown k] ((closeObserver i).run n).2
  /-- The scope that the pipeline is in fires. -/
  | cancel {c : CoordinatorTask} {p : ScopeId} (hc : n.coordinator = some c)
    (hp : n.scopes.parent? c.scope = some p) : Happens n [.pipeline] ((fire p).run n).2

/-- Things happen one after another, and the nodes are all that were closed or cancelled or failed by them. -/
inductive Run (n₀ : Network) : List Node → Network → Prop
  | start : Run n₀ [] n₀
  | happen {causes new : List Node} {n n' : Network} (h : Run n₀ causes n) (hn : n.Happens new n') :
    Run n₀ (new ++ causes) n'

theorem Run.proceed {n₀ n : Network} {causes : List Node} (h : n₀.Run causes n) (t : TaskId) :
    n₀.Run (failures n t ++ causes) (n.proceed t) :=
  h.happen (.proceed (proceeds_proceed n t))

/-! ### What is made -/

variable {w : Plan} {causes new : List Node} {marks : List Mark} {busy : Option Activity} {n₀ n n' : Network} {x : Node}

/-- The network has grown, by something that is made. -/
theorem closing_grown {m : Network} (hends : ∀ a ∈ causes, ∃ mark ∈ marks, w.Ends a mark)
    (hm : ∃ w', w.Extends w' n.scopes.list.length ∧ Sound w' causes marks none m) (hdata : n'.data = m.data) :
    Closing causes n' := by
  obtain ⟨w', he, hsound⟩ := hm
  refine ⟨w', marks, Sound.ofData w' causes marks none m n' hdata hsound, fun a ha => ?_⟩
  obtain ⟨mark, hmark, hend⟩ := hends a ha
  exact ⟨mark, hmark, he.ends hend⟩

theorem exists_parts? {s : Source} (hx : n.tree.source? s = some x) : ∃ p, s.parts? n = some p := by
  cases s with
  | subscription i =>
      obtain ⟨sub, hsub, -⟩ := Option.map_eq_some_iff.1 hx
      exact ⟨_, Option.map_eq_some_iff.2 ⟨sub, hsub, rfl⟩⟩
  | view i =>
      obtain ⟨parent, hparent, -⟩ := Option.bind_eq_some_iff.1 hx
      rw [tree, List.getElem?_map] at hparent
      obtain ⟨v, hv, -⟩ := Option.map_eq_some_iff.1 hparent
      exact ⟨_, Option.map_eq_some_iff.2 ⟨v, hv, rfl⟩⟩

theorem closing_startHub {s : Source} (h : Closing causes n) (hx : n.tree.source? s = some x) (capacity : Nat) :
    Closing causes ((startHub s capacity).run n).2 := by
  obtain ⟨w, marks, hsound, hends⟩ := h
  obtain ⟨p, hp⟩ := exists_parts? hx
  exact closing_grown hends (grow_hubbed hsound (hsound.tree_eq ▸ hx) hp capacity) (data_startHub hp capacity)

theorem closing_startView {s : Nat} (h : Closing causes n) (hx : n.tree.subscription? s = some x) (filter : Filter)
    (deferred : Bool) : Closing causes ((startView s filter deferred).run n).2 := by
  obtain ⟨w, marks, hsound, hends⟩ := h
  obtain ⟨sub, hs, -⟩ := Option.map_eq_some_iff.1 hx
  exact closing_grown hends (grow_viewed hsound (hsound.tree_eq ▸ hx) hs filter deferred _)
    (data_startView hs filter deferred)

theorem closing_startObserver {s : Nat} (h : Closing causes n) (hx : n.tree.subscription? s = some x)
    (interest : Observer.Interest) : Closing causes ((startObserver s interest).run n).2 := by
  obtain ⟨w, marks, hsound, hends⟩ := h
  obtain ⟨sub, hs, -⟩ := Option.map_eq_some_iff.1 hx
  exact closing_grown hends (grow_observed hsound (hsound.tree_eq ▸ hx) hs interest) (data_startObserver n s interest)

/-! ### What is closed -/

/-- A node is told to close, and what tells it has happened for good. -/
theorem closing_told {α : Type} {act : Net α} {m : Mark} (h : Sound w causes marks none n)
    (hends : ∀ a ∈ causes, ∃ mark ∈ marks, w.Ends a mark) (hm : w.Ends x m)
    (hact : w.Caused (x :: causes) x →
      Reaches (Sound w (x :: causes) marks none) act (Sound w (x :: causes) (m :: marks) none)) :
    Closing (x :: causes) (act.run n).2 := by
  have hcaused : w.Caused (x :: causes) x := ⟨x, List.mem_cons_self, .refl⟩
  refine ⟨w, m :: marks, (hact hcaused n (h.widen (List.subset_cons_self x causes))).2, fun a ha => ?_⟩
  rcases List.mem_cons.1 ha with rfl | ha
  · exact ⟨m, List.mem_cons_self, hm⟩
  · obtain ⟨mark, hmark, hend⟩ := hends a ha
    exact ⟨mark, List.mem_cons_of_mem m hmark, hend⟩

/-- Of a source at a grown node, the scope tells that the node is closed. -/
theorem Plan.Ends.ofSource {s : Source} {p : SourceParts} {k : Nat} (hp : s.parts? w.parts = some p)
    (hx : w.tree.source? s = some (.grown k)) : w.Ends (.grown k) (.fired p.scope) := by
  cases s with
  | subscription i =>
      obtain ⟨sub, hsub, rfl⟩ := Option.map_eq_some_iff.1 hp
      obtain ⟨sub', hsub', hnode⟩ := Option.map_eq_some_iff.1 hx
      obtain rfl : i = k := by
        split at hnode
        · exact Node.grown.inj hnode
        · cases hnode
      exact .subscription hsub hx
  | view i =>
      obtain ⟨v, hv, rfl⟩ := Option.map_eq_some_iff.1 hp
      exact .view hv hx

theorem closing_close {s : Source} {k : Nat} (h : Closing causes n) (hx : n.tree.source? s = some (.grown k)) :
    Closing (.grown k :: causes) (s.close.run n).2 := by
  obtain ⟨w, marks, hsound, hends⟩ := h
  obtain ⟨p, hp⟩ := exists_parts? hx
  rw [hsound.tree_eq] at hx
  rw [hsound.parts?] at hp
  exact closing_told hsound hends (.ofSource hp hx) fun hcaused => sound_close hsound.laid hx hp hcaused

theorem closing_drop {s : Source} {k : Nat} (h : Closing causes n) (hx : n.tree.source? s = some (.grown k)) :
    Closing (.grown k :: causes) (s.drop.run n).2 := by
  obtain ⟨w, marks, hsound, hends⟩ := h
  obtain ⟨p, hp⟩ := exists_parts? hx
  rw [hsound.tree_eq] at hx
  rw [hsound.parts?] at hp
  exact closing_told hsound hends (.ofSource hp hx) fun hcaused => sound_drop hsound.laid hx hp hcaused

theorem closing_closeBranch {b : Branch} (h : Closing causes n) (hx : b.At n x) :
    Closing (x :: causes) (b.close.run n).2 := by
  obtain ⟨w, marks, hsound, hends⟩ := h
  cases hx with
  | pipeline hb =>
      obtain ⟨c', hc', -⟩ := hsound.laid.coordinator
      obtain ⟨c, hc, rfl⟩ : ∃ c, n.coordinator = some c ∧ c.bare = c' := by
        rw [← hsound.skeleton] at hc'
        exact Option.map_eq_some_iff.1 hc'
      have hrun : (b.close).run n = (fire c.scope).run n := by
        simp only [Branch.close, Branch.life?, hb, if_true, hc, StateT.run_bind, StateT.run_get, pure_bind, Option.map_some]
      rw [hrun]
      exact closing_told hsound hends (.pipeline hc') fun hcaused =>
        sound_fire_life (s := c.scope) (hsound.coordinates hc).scope hcaused
  | @grown k hb hk =>
      obtain ⟨source, hsource, -⟩ := Option.bind_eq_some_iff.1 hk
      rw [tree, List.getElem?_map] at hsource
      obtain ⟨t, ht, -⟩ := Option.map_eq_some_iff.1 hsource
      have hrun : (b.close).run n = (fire t.scope).run n := by
        simp only [Branch.close, Branch.life?, hb, Branch.hub?, ht, Bool.false_eq_true, if_false, StateT.run_bind,
          StateT.run_get, pure_bind, Option.map_some]
      rw [hsound.tree_eq] at hk
      obtain ⟨y, hy, hlaid⟩ := hsound.laid.hub b.hub t.bare (hsound.hubAt ht)
      obtain rfl : y = .grown k := Option.some.inj (hy.symm.trans hk)
      rw [hrun]
      exact closing_told hsound hends (.hub (t := t.bare) (hsound.hubAt ht) hk) fun hcaused =>
        sound_fire_life (s := t.scope) hlaid.scope hcaused

theorem closing_closeObserver {i k : Nat} (h : Closing causes n) (hx : n.tree.observer? i = some (.grown k)) :
    Closing (.grown k :: causes) ((closeObserver i).run n).2 := by
  obtain ⟨w, marks, hsound, hends⟩ := h
  obtain ⟨watched, hwatched, -⟩ := Option.bind_eq_some_iff.1 hx
  rw [tree, List.getElem?_map] at hwatched
  obtain ⟨o, ho, -⟩ := Option.map_eq_some_iff.1 hwatched
  rw [hsound.tree_eq] at hx
  obtain ⟨y, hy, hlaid⟩ := hsound.laid.observer i o.bare (hsound.observerAt ho)
  obtain rfl : y = .grown k := Option.some.inj (hy.symm.trans hx)
  have hrun : (closeObserver i).run n = (fire o.scope).run n := by
    simp only [closeObserver, StateT.run_bind, StateT.run_get, pure_bind, ho]
  rw [hrun]
  exact closing_told hsound hends (.observer (o := o.bare) (hsound.observerAt ho) hx) fun hcaused =>
    sound_fire_life (s := o.scope) hlaid.scope hcaused

/-- The pipeline's scope fires with the one that it is in. -/
theorem closing_cancel {c : CoordinatorTask} {p : ScopeId} (h : Closing causes n) (hc : n.coordinator = some c)
    (hp : n.scopes.parent? c.scope = some p) : Closing (.pipeline :: causes) ((fire p).run n).2 := by
  obtain ⟨w, marks, hsound, hends⟩ := h
  have hlaid := hsound.coordinates hc
  have hscope : w.role c.scope = .life .pipeline := hlaid.scope
  have habove : w.above c.scope = some p := hsound.above c.scope (by simp [hscope]) ▸ hp
  obtain ⟨x, y, hx, hy, hup⟩ := hsound.laid.above c.scope p (by simp [hscope]) habove
  obtain rfl : x = .pipeline := Role.life.inj (hx.symm.trans hscope)
  obtain rfl : y = .pipeline := by
    rcases hup with rfl | hup
    · rfl
    · cases hup
  refine closing_told hsound hends (.pipeline (c := c.bare) ?_) fun hcaused => ?_
  · rw [← hsound.skeleton]
    exact Option.map_eq_some_iff.2 ⟨c, hc, rfl⟩
  · refine (sound_fire_life (s := p) hy hcaused).mono (fun _ => id) fun m hm => ?_
    have hparent : m.scopes.parent? c.scope = some p := (hm.above c.scope (by simp [hscope])).trans habove
    have hfired : Mark.Holds m (.fired c.scope) := hm.down c.scope p hparent (hm.marked (.fired p) List.mem_cons_self)
    exact (hm.unmark (List.subset_cons_self (.fired p) marks)).mark hfired

/-! ### Whatever happens -/

theorem sound_next (s : Source) : Reaches (Sound w causes marks busy) s.next (Sound w causes marks busy) := by
  refine .get fun n h => ?_
  split
  · rename_i p hp
    obtain ⟨x, hx⟩ : ∃ x, w.tree.source? s = some x := by
      rw [h.parts?] at hp
      cases s with
      | subscription i =>
          obtain ⟨sub, hsub, -⟩ := Option.map_eq_some_iff.1 hp
          obtain ⟨x, hx, -⟩ := h.laid.subscription i sub hsub
          exact ⟨x, hx⟩
      | view i =>
          obtain ⟨v, hv, -⟩ := Option.map_eq_some_iff.1 hp
          obtain ⟨x, hx, -⟩ := h.laid.view i v hv
          exact ⟨x, hx⟩
    have hemits := h.laid.emits hx (h.parts? s ▸ hp)
    exact .ifFired (.pure trivial) ((sound_readFeed hemits.bound).mono (fun _ _ => trivial) fun _ => id)
  · exact .pure trivial

theorem sound_requestListing : Reaches (Sound w causes marks busy) requestListing (Sound w causes marks busy) := by
  refine .getAt fun n h => ?_
  split
  · exact Leads.of_imp (.pure trivial) (by rintro _ rfl; exact h)
  · rename_i p hp
    split
    · exact Leads.of_imp (.pure trivial) (by rintro _ rfl; exact h)
    · rename_i poller hstep
      have hphase : poller.phase = p.poller.phase := by
        simp only [Poller.step, Option.ite_none_right_eq_some] at hstep
        rw [← Option.some.inj hstep.2]
      refine .seq (Q := Sound w causes marks busy) (Reaches.change ?_) fun _ => ?_
      · rintro _ rfl
        exact h.modifyPoller (fun _ => rfl) fun p' hp' hr => h.poller p hp (hphase ▸ hr)
      · split
        · exact .pure trivial
        · exact (schedules_occur _).sound.seq fun _ => .pure trivial

/-- **Whatever happens keeps what is closing**, with what it causes itself. -/
theorem Closing.happens (h : Closing causes n) (hn : n.Happens new n') : Closing (new ++ causes) n' := by
  have hkeeps : ∀ {α : Type} {act : Net α}, (∀ w marks, Reaches (Sound w causes marks none) act (Sound w causes marks none)) →
      Closing causes (act.run n).2 := by
    obtain ⟨w, marks, hsound, hends⟩ := h
    exact fun hact => ⟨w, marks, (hact w marks n hsound).2, hends⟩
  have hchanges : ∀ f : Network → Network, (∀ w marks m, Sound w causes marks none m → Sound w causes marks none (f m)) →
      Closing causes (f n) := by
    obtain ⟨w, marks, hsound, hends⟩ := h
    exact fun f hf => ⟨w, marks, hf w marks n hsound, hends⟩
  cases hn with
  | proceed hn => exact h.proceeds hn
  | schedule same => exact Closing.ofData causes n n' same h
  | pass now => exact hchanges (fun n => { n with now }) fun _ _ _ h => { h with }
  | serve server => exact hchanges (fun n => { n with server }) fun _ _ _ h => { h with }
  | await => exact hchanges (fun n => { n with reply := none }) fun _ _ _ h => { h with }
  | request keeper r => exact hkeeps fun w marks => sound_sendRequest keeper none r
  | apply i =>
      exact hkeeps fun w marks => sound_noteHub i (fun _ => rfl) (fun _ => rfl) (fun _ => rfl) nofun fun _ f' hf' => .inl hf'
  | release b =>
      refine hkeeps fun w marks => .seq ?_ fun _ => (schedules_occur _).sound
      exact sound_noteHub b.hub (fun _ => rfl) (fun _ => rfl) (fun _ => rfl) (fun _ _ => id) fun _ f' hf' => .inl hf'
  | read s => exact hkeeps fun w marks => sound_next s
  | takeCalls i =>
      refine hkeeps fun w marks => .get fun n h => .seq (Q := Sound w causes marks none) ?_ fun _ => .pure trivial
      exact Reaches.change fun n h => h.noteObserver i (fun _ => rfl) fun _ => rfl
  | refilter i filter => exact hkeeps fun w marks => sound_noteView i (fun _ => rfl) fun _ => rfl
  | list => exact hkeeps fun w marks => sound_requestListing
  | reset version => exact hkeeps fun w marks => sound_noteFollower (fun _ => rfl) (fun _ => rfl) fun _ => id
  | startHub hx capacity => exact closing_startHub h hx capacity
  | startView hx filter deferred => exact closing_startView h hx filter deferred
  | startObserver hx interest => exact closing_startObserver h hx interest
  | close hx => exact closing_close h hx
  | drop hx => exact closing_drop h hx
  | closeBranch hx => exact closing_closeBranch h hx
  | closeObserver hx => exact closing_closeObserver h hx
  | cancel hc hp => exact closing_cancel h hc hp

/-- **So does every run.** -/
theorem Closing.run (h₀ : Closing [] n₀) (h : n₀.Run causes n) : Closing causes n := by
  induction h with
  | start => exact h₀
  | happen _ hn ih => exact ih.happens hn

end Network

end Replica
