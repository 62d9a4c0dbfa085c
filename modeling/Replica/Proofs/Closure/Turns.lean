import Replica.Proofs.Closure.Coordination
import Replica.Proofs.Closure.Distribution
import Replica.Proofs.Closure.Growth

/-! # Turns

A task looks for an input and takes it (`Proceeds`), and its turn is some of these in a row (`run_eq_drive`).

`Closing` is what holds of a network after some nodes have been caused to close: nothing is closed but at such a
node or below it, and of each of them a part has been told to close.  It is kept whatever task takes an input
(`Closing.proceeds`).  A task causes something itself only where it fails (`failures`). -/

namespace Replica

namespace Network

/-! ### Tasks -/

/-- What a task looks for, and what it does when it has found that. -/
structure Task where
  Input : Type
  next : Net (Option Input)
  take : Input → Net Unit

/-- The task of a component. -/
def task : TaskId → Task
  | .keeper i => ⟨_, nextForKeeper i, takeForKeeper i⟩
  | .poller => ⟨_, nextForPoller, takeForPoller⟩
  | .follower => ⟨_, nextForFollower, actForFollower⟩
  | .session i => ⟨_, nextForSession i, actForSession i⟩
  | .coordinator => ⟨_, nextForCoordinator, takeForCoordinator⟩
  | .hub i => ⟨_, nextForHub i, actForHub i⟩
  | .view i => ⟨_, nextForView i, takeForView i⟩
  | .observer i => ⟨_, nextForObserver i, tellObserver i⟩

/-- A turn is looking for inputs and taking them. -/
theorem run_eq_drive (t : TaskId) : run t = drive t (task t).next (task t).take turnLimit := by
  cases t <;> rfl

variable {P : Network → Prop} {n n' : Network} {t : TaskId}

/-- A task looks for an input and takes it, if there is one.  In between only the schedule may change. -/
inductive Proceeds (n : Network) (t : TaskId) : Network → Prop
  | idle (unfound : ((task t).next.run n).1 = none) : Proceeds n t ((task t).next.run n).2
  | take {input : (task t).Input} {m : Network} (found : ((task t).next.run n).1 = some input)
    (same : m.data = ((task t).next.run n).2.data) : Proceeds n t (((task t).take input).run m).2

/-- The network after a task has looked for an input and, if there is one, has taken it at once. -/
def proceed (n : Network) (t : TaskId) : Network :=
  match (task t).next.run n with
  | (none, m) => m
  | (some input, m) => (((task t).take input).run m).2

theorem proceeds_proceed (n : Network) (t : TaskId) : n.Proceeds t (n.proceed t) := by
  unfold proceed
  rcases hfound : (task t).next.run n with ⟨_ | input, m⟩
  · obtain rfl : ((task t).next.run n).2 = m := by rw [hfound]
    exact .idle (by rw [hfound])
  · exact .take (by rw [hfound]) (by rw [hfound])

theorem gives_iff : Gives (task t).next n (HoldsTaking P (task t).take) ↔ ∀ n', Proceeds n t n' → P n' := by
  constructor
  · intro h n' hn'
    unfold Gives at h
    cases hn' with
    | idle hnone =>
        rw [hnone] at h
        exact h
    | take found same =>
        rw [found] at h
        exact h _ same
  · intro h
    unfold Gives
    cases hfound : ((task t).next.run n).1 with
    | none => exact h _ (.idle hfound)
    | some input => exact fun m hm => h _ (.take hfound hm)

/-- What is found is taken from where looking for it has led to. -/
theorem gives_of_leads {α : Type} {next : Net (Option α)} {take : α → Net Unit} {A : α → Prop} {Q R : Network → Prop}
    (hnext : Leads P next (fun r => ∀ input, r = some input → A input) Q) (hdata : IsOfData Q)
    (hnone : (next.run n).1 = none → ∀ n', Q n' → R n') (htake : ∀ input, (next.run n).1 = some input → A input → Reaches Q (take input) R)
    (hn : P n) : Gives next n (HoldsTaking R take) := by
  obtain ⟨hallowed, hleft⟩ := hnext n hn
  unfold Gives
  generalize (next.run n).1 = input?, (next.run n).2 = n' at hallowed hleft hnone htake ⊢
  cases input? with
  | none => exact hnone rfl n' hleft
  | some input =>
      exact fun n'' h => (htake input rfl (hallowed input rfl) n'' (hdata n' n'' h hleft)).2

/-! ### Causes -/

/-- What tells that a part of a node has been told to close. -/
inductive Plan.Ends (w : Plan) : Node → Mark → Prop
  | subscription {s : Nat} {sub : Subscription} (hs : w.parts.subscriptions[s]? = some sub)
    (hx : w.tree.subscription? s = some (.grown s)) : w.Ends (.grown s) (.fired sub.scope)
  | view {i s : Nat} {v : ViewTask} (hi : w.parts.views[i]? = some v) (hx : w.tree.view? i = some (.grown s)) :
    w.Ends (.grown s) (.fired v.scope)
  | hub {i s : Nat} {t : HubTask} (hi : w.parts.hubs[i]? = some t) (hx : w.tree.hub? i = some (.grown s)) :
    w.Ends (.grown s) (.fired t.scope)
  | observer {i s : Nat} {o : ObserverTask} (hi : w.parts.observers[i]? = some o)
    (hx : w.tree.observer? i = some (.grown s)) : w.Ends (.grown s) (.fired o.scope)
  | pipeline {c : CoordinatorTask} (hc : w.parts.coordinator = some c) : w.Ends .pipeline (.fired c.scope)
  | halted : w.Ends .pipeline .halted

theorem Plan.Extends.ends {w w' : Plan} {scopes : Nat} (h : w.Extends w' scopes) {a : Node} {m : Mark}
    (hm : w.Ends a m) : w'.Ends a m := by
  cases hm with
  | subscription hs hx => exact .subscription (Tree.getElem?_of_prefix h.subscriptions hs) (h.grows.subscription? hx)
  | view hi hx => exact .view (Tree.getElem?_of_prefix h.views hi) (h.grows.view? hx)
  | hub hi hx => exact .hub (Tree.getElem?_of_prefix h.hubs hi) (h.grows.hub? hx)
  | observer hi hx => exact .observer (Tree.getElem?_of_prefix h.observers hi) (h.grows.observer? hx)
  | pipeline hc => exact .pipeline (h.coordinator.trans hc)
  | halted => exact .halted

/-- Nothing is closed but at the causes or below them, and of each of them a part has been told to close. -/
def Closing (causes : List Node) (n : Network) : Prop :=
  ∃ (w : Plan) (marks : List Mark), Sound w causes marks none n ∧ ∀ a ∈ causes, ∃ m ∈ marks, w.Ends a m

section widen

variable {w : Plan} {causes causes' : List Node} {marks : List Mark} {busy : Option Activity}

/-- There may be more causes. -/
theorem Sound.widen (h : Sound w causes marks busy n) (hsub : causes ⊆ causes') : Sound w causes' marks busy n := by
  have hstops : ∀ t, Stops w causes n.scopes busy t → Stops w causes' n.scopes busy t :=
    fun t ht => ⟨fun x hx => (ht.caused x hx).mono hsub, ht.fired⟩
  exact
    { h with
      fired := fun j x hj hx => (h.fired j x hj hx).mono hsub
      feed := fun f feed hf hopen => (h.feed f feed hf hopen).mono hsub
      hub := fun i t hi =>
        { stopped := fun hr x hx => ((h.hub i t hi).stopped hr x hx).mono hsub
          leaving := fun f hf => ((h.hub i t hi).leaving f hf).imp id fun hc => hc.mono hsub
          live := (h.hub i t hi).live
          nodup := (h.hub i t hi).nodup
          granted := (h.hub i t hi).granted }
      seated := fun s sub i t hs hsub' hi => (h.seated s sub i t hs hsub' hi).imp id fun hc => hc.mono hsub
      view := fun i v hi hr => hstops _ (h.view i v hi hr)
      observer := fun i o hi hr x hx => (h.observer i o hi hr x hx).mono hsub
      coordinator := fun c hc hr => hstops _ (h.coordinator c hc hr)
      poller := fun p hp hr => (h.poller p hp hr).mono hsub
      follower := fun f hf hr => (h.follower f hf hr).mono hsub }

end widen

theorem Closing.ofData (causes : List Node) : IsOfData (Closing causes) := by
  rintro n n' hdata ⟨w, marks, h, hends⟩
  exact ⟨w, marks, Sound.ofData w causes marks none n n' hdata h, hends⟩

/-! ### Failures -/

/-- The pipeline fails where the coordinator takes a listing that has failed, or the follower gives up at the end
of a session. -/
def failures (n : Network) : TaskId → List Node
  | .coordinator =>
    match (nextForCoordinator.run n).1 with
    | some (.listed (.error _)) => [.pipeline]
    | _ => []
  | .follower =>
    match (nextForFollower.run n).1, n.follower with
    | some .sessionEnded, some f => if (f.follower.step .sessionEnded).isStopped then [.pipeline] else []
    | _, _ => []
  | _ => []

theorem mem_failures_coordinator {a : Node} : a ∈ failures n .coordinator ↔
    a = .pipeline ∧ ∃ e, (nextForCoordinator.run n).1 = some (.listed (.error e)) := by
  rw [failures]
  split
  · rename_i e he
    simp [he]
  · rename_i hne
    simp only [List.not_mem_nil, false_iff, not_and, not_exists]
    exact fun _ e he => hne e he

theorem mem_failures_follower {a : Node} {f : FollowerTask} (hf : n.follower = some f) :
    a ∈ failures n .follower ↔ a = .pipeline ∧ (nextForFollower.run n).1 = some .sessionEnded ∧
      (f.follower.step .sessionEnded).isStopped = true := by
  rw [failures, hf]
  split
  · rename_i f' hended hf'
    obtain rfl := Option.some.inj hf'
    split
    · rename_i hstopped
      simp [hended, hstopped]
    · rename_i hgoes
      simp [hgoes]
  · rename_i hne
    simp only [List.not_mem_nil, false_iff, not_and]
    exact fun _ hended => absurd rfl (hne f hended)

/-! ### Turns keep what is closing -/

section turns

variable {w : Plan} {causes : List Node} {marks : List Mark}

theorem closing_join {i : Nat} (h : Sound w causes marks none n) (hends : ∀ a ∈ causes, ∃ m ∈ marks, w.Ends a m) :
    Closing causes ((actForHub i .join).run n).2 := by
  cases hi : n.hubs[i]? with
  | none =>
      have hrun : (actForHub i .join).run n = ((), n) := by
        simp only [actForHub, StateT.run_bind, StateT.run_get, pure_bind, hi]
        rfl
      rw [hrun]
      exact ⟨w, marks, h, hends⟩
  | some t =>
      obtain ⟨w', he, h'⟩ := grow_joined h hi
      refine ⟨w', marks, Sound.ofData w' causes marks none _ _ (data_join hi) h', fun a ha => ?_⟩
      obtain ⟨m, hm, hend⟩ := hends a ha
      exact ⟨m, hm, he.ends hend⟩

theorem closing_hub (i : Nat) (h : Sound w causes marks none n) (hends : ∀ a ∈ causes, ∃ m ∈ marks, w.Ends a m) :
    Gives (nextForHub i) n (HoldsTaking (Closing causes) (actForHub i)) := by
  refine gives_of_leads (sound_nextForHub i) (Sound.ofData w causes marks none)
    (fun _ m hm => ⟨w, marks, hm, hends⟩) (fun input _ hallowed => ?_) h
  have hclosing : ∀ m, Sound w causes marks none m → Closing causes m := fun m hm => ⟨w, marks, hm, hends⟩
  cases input with
  | stop => exact (sound_stop hallowed).mono (fun _ => id) hclosing
  | leave f => exact (sound_leave i hallowed).mono (fun _ => id) hclosing
  | join => exact fun m hm => ⟨trivial, closing_join hm hends⟩
  | event e => exact (sound_event i e).mono (fun _ => id) hclosing

theorem closing_follower (h : Sound w (failures n .follower ++ causes) marks none n)
    (hends : ∀ a ∈ causes, ∃ m ∈ marks, w.Ends a m) :
    Gives nextForFollower n (HoldsTaking (Closing (failures n .follower ++ causes)) actForFollower) := by
  obtain ⟨f, hf, -⟩ := h.exists_follower
  have hnext : Leads (fun m => Sound w (failures n .follower ++ causes) marks none m ∧ m.follower = some f)
      nextForFollower (fun r => ∀ input, r = some input →
        AllowsFollower w (failures n .follower ++ causes) input ∧ f.follower.Takes f.deadline.isSome input)
      (fun m => Sound w (failures n .follower ++ causes) marks none m ∧ m.follower = some f) :=
    (sound_nextForFollower.and (takes_nextForFollower f)).mono
      (fun r hr input hinput => ⟨hr.1 input hinput, hr.2 input hinput⟩) fun _ => id
  have hdata : IsOfData fun m => Sound w (failures n .follower ++ causes) marks none m ∧ m.follower = some f := by
    rintro m m' hm ⟨hsound, hfollower⟩
    refine ⟨Sound.ofData w _ marks none m m' hm hsound, ?_⟩
    rw [eq_of_data hm]
    exact hfollower
  refine gives_of_leads hnext hdata (fun hnone m hm => ?_) (fun input hinput hallowed => ?_) ⟨h, hf⟩
  · refine ⟨w, marks, hm.1, fun a ha => ?_⟩
    rcases List.mem_append.1 ha with ha | ha
    · cases hnone.symm.trans ((mem_failures_follower hf).1 ha).2.1
    · exact hends a ha
  · have hend : input = .sessionEnded → (f.follower.step .sessionEnded).isStopped = true →
        w.Caused (failures n .follower ++ causes) .pipeline := by
      rintro rfl hstopped
      exact ⟨.pipeline, List.mem_append_left _ ((mem_failures_follower hf).2 ⟨rfl, hinput, hstopped⟩), .refl⟩
    by_cases hfails : input = .sessionEnded ∧ (f.follower.step .sessionEnded).isStopped = true
    · have hmarks : ∀ m ∈ Mark.halted :: marks, m ∈ marks ∨
          m = .halted ∧ input = .sessionEnded ∧ (f.follower.step .sessionEnded).isStopped = true := fun m hm =>
        (List.mem_cons.1 hm).symm.imp id fun hhalted => ⟨hhalted, hfails⟩
      refine (sound_actForFollower hallowed.1 hallowed.2 hend hmarks).mono (fun _ => id) fun m hm => ⟨w, _, hm, fun a ha => ?_⟩
      rcases List.mem_append.1 ha with ha | ha
      · obtain ⟨rfl, -⟩ := (mem_failures_follower hf).1 ha
        exact ⟨.halted, List.mem_cons_self, .halted⟩
      · obtain ⟨mark, hmark, hend⟩ := hends a ha
        exact ⟨mark, List.mem_cons_of_mem _ hmark, hend⟩
    · refine (sound_actForFollower hallowed.1 hallowed.2 hend fun m => .inl).mono (fun _ => id)
        fun m hm => ⟨w, marks, hm, fun a ha => ?_⟩
      rcases List.mem_append.1 ha with ha | ha
      · obtain ⟨-, hended, hstopped⟩ := (mem_failures_follower hf).1 ha
        exact absurd ⟨Option.some.inj (hinput.symm.trans hended), hstopped⟩ hfails
      · exact hends a ha

/-- That the follower has given up is noted again. -/
theorem Sound.remark {causes : List Node} (h : Sound w causes (marks.filter (· ≠ .halted)) none n)
    (hhalted : .halted ∈ marks → Mark.halted.Holds n) : Sound w causes marks none n := by
  refine { h with marked := fun m hm => ?_ }
  by_cases hm' : m = .halted
  · subst hm'
    exact hhalted hm
  · exact h.marked m (List.mem_filter.2 ⟨hm, by simpa using hm'⟩)

/-- When the scope of the pipeline has fired, this tells whatever the pipeline had been caused to close by. -/
theorem closing_of_stopped {new : List Node} {c : CoordinatorTask} (hnew : ∀ a ∈ new, a = .pipeline)
    (hc : w.parts.coordinator = some c) (hends : ∀ a ∈ causes, ∃ m ∈ marks, w.Ends a m)
    (h : Sound w (new ++ causes) (.fired c.scope :: marks.filter (· ≠ .halted)) none n) :
    Closing (new ++ causes) n := by
  have hpipeline : w.Ends .pipeline (.fired c.scope) := .pipeline hc
  refine ⟨w, _, h, fun a ha => ?_⟩
  rcases List.mem_append.1 ha with ha | ha
  · obtain rfl := hnew a ha
    exact ⟨_, List.mem_cons_self, hpipeline⟩
  · obtain ⟨m, hm, hend⟩ := hends a ha
    by_cases hm' : m = .halted
    · subst hm'
      cases hend
      exact ⟨_, List.mem_cons_self, hpipeline⟩
    · exact ⟨m, List.mem_cons_of_mem _ (List.mem_filter.2 ⟨hm, by simpa using hm'⟩), hend⟩

/-- The coordinator takes an input.  When it learns of a failure, the pipeline's scope fires. -/
theorem closing_coordinator (h : Sound w (failures n .coordinator ++ causes) marks none n)
    (hends : ∀ a ∈ causes, ∃ m ∈ marks, w.Ends a m) :
    Gives nextForCoordinator n (HoldsTaking (Closing (failures n .coordinator ++ causes)) takeForCoordinator) := by
  obtain ⟨c, hc, -⟩ := h.exists_coordinator
  have hmarks : Mark.halted ∉ marks.filter (· ≠ .halted) := fun hm => by simp at hm
  obtain ⟨hallowed, hsound⟩ := sound_nextForCoordinator hmarks n (h.unmark (List.filter_subset_self _))
  have hkept := (keeps_nextForCoordinator n).trans (congrArg (Option.map CoordinatorTask.coordinator) hc)
  have hidle := idle_of_halts hc
  have hhalted := fun hm => halted_nextForCoordinator (h.marked .halted hm)
  unfold Gives at hhalted hidle ⊢
  cases hfound : (nextForCoordinator.run n).1 with
  | none =>
      refine ⟨w, marks, hsound.remark fun hm => (hhalted hm).resolve_left (by simp [hfound]), fun a ha => ?_⟩
      rcases List.mem_append.1 ha with ha | ha
      · obtain ⟨-, e, he⟩ := mem_failures_coordinator.1 ha
        cases hfound.symm.trans he
      · exact hends a ha
  | some input =>
      intro m hm
      have hleft := Sound.ofData w _ _ none _ m hm hsound
      obtain ⟨c₁, hc₁, hsame⟩ := Option.map_eq_some_iff.1
        ((congrArg coordinating (eq_of_data hm)).trans hkept)
      have hparts : w.parts.coordinator = some c₁.bare := by simp [← hleft.skeleton, skeleton, hc₁]
      have hpipeline : ∀ a ∈ failures n .coordinator, a = .pipeline := fun a ha => (mem_failures_coordinator.1 ha).1
      by_cases hhalts : input.Halts
      · have hcaused : w.Caused (failures n .coordinator ++ causes) .pipeline := by
          refine (hallowed input hfound hhalts.ends).elim id ?_
          rintro ⟨e, rfl⟩
          exact ⟨.pipeline, List.mem_append_left _ (mem_failures_coordinator.2 ⟨rfl, e, hfound⟩), .refl⟩
        have hstep := Coordinator.step_of_halts (hsame ▸ hidle input hfound hhalts) hhalts
        exact closing_of_stopped hpipeline hparts hends (sound_stopForCoordinator hstep hcaused m ⟨hleft, hc₁⟩).2
      · have hnothing : ∀ e, input ≠ .listed (.error e) := by
          rintro e rfl
          exact hhalts (.failed e)
        have hends' : input.Ends → w.Caused (failures n .coordinator ++ causes) .pipeline :=
          fun hi => (hallowed input hfound hi).resolve_right fun hlisted => hlisted.elim hnothing
        have hmarked : Sound w (failures n .coordinator ++ causes) marks none m := by
          refine hleft.remark fun hm' => ((hhalted hm').resolve_left fun hended => ?_).of_listening (listening_of_data hm)
          obtain rfl := Option.some.inj (hfound.symm.trans hended)
          exact hhalts .ended
        refine ⟨w, marks, (sound_takeForCoordinator hends' m ⟨hmarked, hc₁⟩).2, fun a ha => ?_⟩
        rcases List.mem_append.1 ha with ha | ha
        · obtain ⟨-, e, he⟩ := mem_failures_coordinator.1 ha
          exact absurd (Option.some.inj (hfound.symm.trans he)) (hnothing e)
        · exact hends a ha

/-- **What is closing stays so whatever task takes an input**, and what fails then is one cause more. -/
theorem Closing.proceeds (h : Closing causes n) (hn : n.Proceeds t n') : Closing (failures n t ++ causes) n' := by
  obtain ⟨w, marks, hsound, hends⟩ := h
  have hclosing : ∀ m, Sound w causes marks none m → Closing causes m := fun m hm => ⟨w, marks, hm, hends⟩
  have hdata := Sound.ofData w causes marks none
  refine gives_iff.1 ?_ n' hn
  cases t with
  | keeper i =>
      refine gives_of_leads (sound_nextForKeeper i) hdata (fun _ => hclosing) (fun input _ hallowed => ?_) hsound
      exact (sound_takeForKeeper i hallowed).mono (fun _ => id) hclosing
  | poller =>
      refine gives_of_leads sound_nextForPoller hdata (fun _ => hclosing) (fun input _ hallowed => ?_) hsound
      exact (sound_takeForPoller hallowed).mono (fun _ => id) hclosing
  | follower => exact closing_follower (hsound.widen (List.subset_append_right _ _)) hends
  | session i =>
      have hnext : Leads (Sound w causes marks none) (nextForSession i) (fun r => ∀ input, r = some input → True)
          (Sound w causes marks none) := (sound_nextForSession i).mono (fun _ _ _ _ => trivial) fun _ => id
      refine gives_of_leads hnext hdata (fun _ => hclosing) (fun input _ _ => ?_) hsound
      exact (sound_actForSession i input).mono (fun _ => id) hclosing
  | coordinator => exact closing_coordinator (hsound.widen (List.subset_append_right _ _)) hends
  | hub i => exact closing_hub i hsound hends
  | view i =>
      refine gives_of_leads (sound_nextForView i) hdata (fun _ => hclosing) (fun input _ hallowed => ?_) hsound
      exact (sound_takeForView hallowed).mono (fun _ => id) hclosing
  | observer i =>
      refine gives_of_leads (sound_nextForObserver i) hdata (fun _ => hclosing) (fun input _ hallowed => ?_) hsound
      exact (sound_tellObserver hallowed).mono (fun _ => id) hclosing

end turns

end Network

end Replica
