import Replica.Proofs.View.Agreement
import Replica.Proofs.View.Turn

/-! # A view in a network

What a view does in its turn in a network are moves of a `Tandem`, as long as it runs (`maintains_runView`):
it senses readiness, is asked for another filter, takes events, and hears answers.  Of the tandem the network
shows what the view itself has to do with (`Pairs`): the view, the feed that it reads, readiness, and the
answer that waits for it.

A tandem of which only the view and its own store are looked at is a `Vantage`, and its moves are moves of that
(`vantage_after`).  So what holds of either after any moves holds of the views of a network as they run. -/

namespace Replica

namespace Errand

/-- What a view finds of an errand: the answer that is on its way. -/
def Brings : Errand → Option Reply → Prop
  | .contents list, reply => reply.map Reply.objectList = some list
  | .answered events, reply => reply.map Reply.eventList = some events
  | _, reply => reply = none

theorem brings_ofActions (actions : List View.Action) : (ofActions actions).Brings none := by
  unfold ofActions
  split <;> rfl

end Errand

namespace View

variable {v : View} {own : Store} {errand : Errand} {r : Reply}

theorem Stage.nothing_of_idle (h : v.Stage own errand) (free : v.phase = .idle) : errand = .nothing := by
  cases h with
  | idle => rfl
  | reading phase | read _ phase | applying _ phase | applied _ phase | noting phase | noted _ phase
  | updating _ phase | updated _ phase =>
      rw [free] at phase
      cases phase

theorem Stage.contents_of_reading {job : Job} (h : v.Stage own errand) (waits : v.phase = .reading job)
    (hr : errand.Brings (some r)) : errand = .contents r.objectList := by
  cases h with
  | read list => exact congrArg _ (Option.some.inj hr).symm
  | reading | applying | noting | updating | idle => cases hr
  | applied _ phase | noted _ phase | updated _ phase =>
      rw [waits] at phase
      cases phase

theorem Stage.answered_of_isWaiting (h : v.Stage own errand) (waits : v.isWaiting = true)
    (hr : errand.Brings (some r)) : errand = .answered r.eventList := by
  cases h with
  | applied | noted | updated => exact congrArg _ (Option.some.inj hr).symm
  | reading | applying | noting | updating | idle => cases hr
  | read _ phase =>
      rw [isWaiting, phase] at waits
      cases waits

end View

namespace Network

variable {n n' : Network} {i : Nat} {t t' : ViewTask} {s : Subscription} {feed' : Feed Event}

/-! ### The tandem of a view -/

variable {o : Tandem} {input : View.Input}

/-- A network shows the part that a view's task has in a tandem. -/
structure Pairs (n : Network) (i : Nat) (t : ViewTask) (s : Subscription) (o : Tandem) : Prop where
  sees : n.Sees i t s o.feed
  view : t.view = o.view
  stage : o.view.Stage o.own o.errand
  /-- Readiness is looked for once. -/
  told : o.view.parentReady = false → n.scopes.isFired s.ready = o.isFired
  reply : o.errand.Brings t.reply

theorem Pairs.of_data (h : n.Pairs i t s o) (hdata : n'.data = n.data) : n'.Pairs i t s o :=
  ⟨h.sees.of_data hdata, h.view, h.stage, by rw [eq_of_data hdata]; exact h.told, h.reply⟩

theorem Pairs.exists_move (h : n.Pairs i t s o)
    (hfinds : t.Finds (n.scopes.isFired s.ready) o.feed input t' feed')
    (hgoes : (o.view.step input).1.isRunning = true) :
    (∃ m, o.step m = ({ o with feed := feed' } : Tandem).tell input) ∧ t'.reply = none := by
  have hview := h.view
  have hfree : t.view.phase = .idle → o.errand = .nothing ∧ t.reply = none := by
    intro free
    have hnothing := h.stage.nothing_of_idle (hview ▸ free)
    have hreply := h.reply
    rw [hnothing] at hreply
    exact ⟨hnothing, hreply⟩
  cases hfinds with
  | cancel free | parentEnded free =>
      rw [hview] at free
      simp [View.step, free, View.stop, View.isRunning] at hgoes
  | refused waits =>
      have hbusy : o.errand ≠ .nothing := fun hnothing => waits (hview ▸ (hnothing ▸ h.stage).of_nothing.1)
      rw [h.stage.step_refused hbusy] at hgoes
      cases hgoes
  | parentReady free first ready =>
      obtain ⟨hnothing, hreply⟩ := hfree free
      rw [hview] at first
      refine ⟨⟨.sense, ?_⟩, hreply⟩
      rw [h.told first] at ready
      have hsense : o.step .sense = o.tell .parentReady := by simp [Tandem.step, hnothing, ready, first]
      exact hsense
  | @refilter filter free asked =>
      obtain ⟨hnothing, hreply⟩ := hfree free
      refine ⟨⟨.refilter filter, ?_⟩, hreply⟩
      rw [Tandem.step, hnothing]
      rfl
  | @event e free oldest =>
      obtain ⟨hnothing, hreply⟩ := hfree free
      refine ⟨⟨.take, ?_⟩, hreply⟩
      rw [Tandem.step, hnothing]
      generalize o.feed.poll = r at oldest ⊢
      obtain ⟨left, polled⟩ := r
      obtain rfl := oldest
      rfl
  | @contents job r waits there =>
      refine ⟨⟨.hear, ?_⟩, rfl⟩
      have hcontents := h.stage.contents_of_reading (hview ▸ waits) (there ▸ h.reply)
      rw [Tandem.step, hcontents]
      rfl
  | @applied r waits there =>
      refine ⟨⟨.hear, ?_⟩, rfl⟩
      have hanswered := h.stage.answered_of_isWaiting (hview ▸ waits) (there ▸ h.reply)
      rw [Tandem.step, hanswered]
      rfl
  | storeStopped waits =>
      have hruns := h.stage.isRunning
      rw [View.isRunning, ← hview, waits] at hruns
      cases hruns

/-- What a view does on what it has found is a move of the tandem, or the view stops. -/
theorem Pairs.take (h : n.Pairs i t s o) (hfinds : t.Finds (n.scopes.isFired s.ready) o.feed input t' feed')
    (hsees : n'.Sees i t' s feed') (hscopes : n'.scopes = n.scopes) :
    ((takeForView i input).run n').2.Halts i ∨
      ∃ m u, ((takeForView i input).run n').2.Pairs i u s (o.step m) := by
  by_cases hgoes : (o.view.step input).1.isRunning = true
  · obtain ⟨⟨m, hm⟩, hreply⟩ := h.exists_move hfinds hgoes
    have hview : t'.view = o.view := hfinds.view.trans h.view
    have hplain : ∀ a ∈ (t'.view.step input).2, a.isPlain = true := by
      rw [hview]
      obtain ⟨-, hstop⟩ | ⟨-, hstopped, -⟩ | ⟨-, -, hplain⟩ := o.view.step_cases input
      · rw [hstop] at hgoes
        cases hgoes
      · rw [hstopped] at hgoes
        cases hgoes
      · exact hplain
    obtain ⟨hafter, hsame⟩ := sees_takeForView hsees hplain
    have hstage := (Tandem.change_step h.stage m).stage h.stage
    rw [hview] at hafter hsame
    refine .inr ⟨m, { t' with view := (o.view.step input).1 }, ?_⟩
    rw [hm] at hstage ⊢
    refine ⟨hafter, rfl, hstage, fun hunready => ?_, ?_⟩
    · change (o.view.step input).1.parentReady = false at hunready
      rw [hsame fun hmem => by simp [h.stage.parentReady_step hmem] at hunready, hscopes]
      refine h.told (Bool.eq_false_iff.2 fun hready => ?_)
      simp [o.view.parentReady_step hready] at hunready
    · change (Errand.ofActions (o.view.step input).2).Brings t'.reply
      rw [hreply]
      exact Errand.brings_ofActions _
  · refine .inl (halts_takeForView hsees.task ?_)
    rw [hfinds.view, h.view]
    exact Bool.eq_false_iff.2 hgoes

/-- The network shows what a tandem has become after some moves, or the view has begun to stop. -/
def IsPaired (i : Nat) (o : Tandem) (n : Network) : Prop :=
  n.Halts i ∨ ∃ moves t s, n.Pairs i t s (o.after moves)

/-- **A view in its turn makes moves of its tandem**, until it stops. -/
theorem maintains_runView (i : Nat) (o : Tandem) : Maintains (IsPaired i o) (runView i) := by
  refine drive_induction (fun n n' hdata hn => ?_) (fun n hn => ?_) _
  · exact hn.imp (·.of_data hdata) fun ⟨moves, t, s, h⟩ => ⟨moves, t, s, h.of_data hdata⟩
  obtain hhalts | ⟨moves, t, s, h⟩ := hn
  · have hleft := halts_nextForView hhalts
    unfold Gives at hleft ⊢
    generalize ((nextForView i).run n).1 = input?, ((nextForView i).run n).2 = n' at hleft ⊢
    cases input? with
    | none => exact .inl hleft
    | some input =>
        intro n'' hdata
        obtain ⟨t, ht, hstopped⟩ := hleft.of_data hdata
        exact .inl (halts_takeForView ht (View.isRunning_step hstopped input))
  · have hfound := gives_nextForView h.sees
    unfold Gives at hfound ⊢
    generalize ((nextForView i).run n).1 = input?, ((nextForView i).run n).2 = n' at hfound ⊢
    cases input? with
    | none =>
        obtain ⟨hscopes, hsees⟩ := hfound
        exact .inr ⟨moves, t, s, hsees, h.view, h.stage, hscopes ▸ h.told, h.reply⟩
    | some input =>
        intro n'' hdata
        obtain ⟨hscopes, t', feed', hfinds, hsees⟩ := hfound
        have hscopes' : n''.scopes = n.scopes := by rw [eq_of_data hdata, hscopes]
        obtain hhalts | ⟨m, u, hu⟩ := h.take hfinds (hsees.of_data hdata) hscopes'
        · exact .inl hhalts
        · refine .inr ⟨moves ++ [m], u, s, ?_⟩
          rwa [Tandem.after, List.foldl_append, List.foldl_cons, List.foldl_nil, ← Tandem.after]

/-- A view that has just started shows a tandem in which nothing was done by the view yet. -/
theorem pairs_startView {k : Nat} (hs : n.subscriptions[k]? = some s) (hfeed : n.feeds[s.feed]? = some o.feed)
    (hready : n.scopes.isFired s.ready = o.isFired) {filter : Filter} {deferred : Bool}
    (view : o.view = .new filter deferred) (own : o.own = .new filter) (errand : o.errand = .nothing) :
    IsPaired n.views.length o ((startView k filter deferred).run n).2 := by
  obtain ⟨t, hsees, hview, hreply, hscopes⟩ := sees_startView hs hfeed filter deferred
  refine .inr ⟨[], t, s, hsees, hview.trans view.symm, ?_, fun _ => (hscopes _).trans hready, ?_⟩
  · change o.view.Stage o.own o.errand
    rw [view, own, errand]
    exact .idle rfl ⟨rfl, rfl, nofun⟩
  · change o.errand.Brings t.reply
    rw [errand, hreply]
    rfl

end Network

/-! ### The vantage of a tandem -/

/-- An errand, when it is not seen that the parent's contents are on their way. -/
def Errand.unseen : Errand → Errand
  | .contents _ => .reading
  | errand => errand

theorem Errand.unseen_ofActions (actions : List View.Action) : (ofActions actions).unseen = ofActions actions := by
  unfold ofActions
  split <;> rfl

theorem Vantage.after_tell (p : Vantage) {i : View.Input} (h : p.canHear i = true) :
    p.after [.tell i] = (p.tell i).1 := by
  change (p.turn (.tell i)).1 = _
  rw [turn, if_pos h]

namespace Tandem

/-- A tandem of which only the view and its own store are looked at. -/
def vantage (t : Tandem) : Vantage := ⟨t.view, t.own, t.errand.unseen⟩

theorem vantage_tell (t : Tandem) (i : View.Input) : (t.tell i).vantage = (t.vantage.tell i).1 := by
  rw [vantage, tell, Errand.unseen_ofActions]
  rfl

theorem vantage_step (t : Tandem) (m : Move) : ∃ moves, (t.step m).vantage = t.vantage.after moves := by
  cases m with
  | parent r => exact ⟨[], rfl⟩
  | fire =>
      refine ⟨[], ?_⟩
      rw [step]
      split <;> rfl
  | deliver =>
      refine ⟨[], ?_⟩
      rw [step]
      split <;> rfl
  | sense =>
      rw [step]
      split
      · rename_i hfree
        split
        · rename_i hfirst
          refine ⟨[.tell .parentReady], ?_⟩
          have hears : t.vantage.canHear .parentReady = true := by
            simp only [Bool.and_eq_true] at hfirst
            simpa [vantage, Vantage.canHear, hfree, Errand.unseen] using hfirst.2
          rw [t.vantage.after_tell hears, vantage_tell]
        · exact ⟨[], rfl⟩
      · exact ⟨[], rfl⟩
  | refilter filter =>
      rw [step]
      split
      · rename_i hfree
        refine ⟨[.tell (.refilter filter)], ?_⟩
        rw [t.vantage.after_tell (by simp [vantage, Vantage.canHear, hfree, Errand.unseen]), vantage_tell]
      · exact ⟨[], rfl⟩
  | take =>
      rw [step]
      split
      · rename_i feed e hfree hpoll
        refine ⟨[.tell (.event e)], ?_⟩
        rw [t.vantage.after_tell (by simp [vantage, Vantage.canHear, hfree, Errand.unseen]), vantage_tell]
        rfl
      · exact ⟨[], rfl⟩
  | read =>
      refine ⟨[], ?_⟩
      rw [step]
      split
      · rename_i hasked
        change Vantage.mk _ _ _ = Vantage.mk _ _ _
        rw [hasked]
        rfl
      · rfl
  | serve =>
      rw [step]
      split
      · rename_i r hasked
        refine ⟨[.serve], ?_⟩
        change _ = (t.vantage.turn .serve).1
        simp only [Vantage.turn, vantage, hasked, Errand.unseen]
      · exact ⟨[], rfl⟩
  | hear =>
      rw [step]
      split
      · rename_i list htold
        refine ⟨[.tell (.contents list)], ?_⟩
        rw [t.vantage.after_tell (by simp [vantage, Vantage.canHear, htold, Errand.unseen]), vantage_tell]
      · rename_i events htold
        refine ⟨[.hear], ?_⟩
        rw [vantage_tell]
        change _ = (t.vantage.turn .hear).1
        simp only [Vantage.turn, vantage, htold, Errand.unseen]
      · exact ⟨[], rfl⟩

/-- **The moves of a tandem are moves of its vantage.** -/
theorem vantage_after (t : Tandem) (moves : List Move) : ∃ moves', (t.after moves).vantage = t.vantage.after moves' := by
  induction moves generalizing t with
  | nil => exact ⟨[], rfl⟩
  | cons m moves ih =>
      obtain ⟨first, hfirst⟩ := t.vantage_step m
      obtain ⟨rest, hrest⟩ := ih (t.step m)
      have happend : t.vantage.after (first ++ rest) = (t.vantage.after first).after rest := List.foldl_append
      refine ⟨first ++ rest, ?_⟩
      rw [happend, ← hfirst]
      exact hrest

end Tandem

/-- **A view of a network that runs is what some moves have made of a vantage.** -/
theorem Network.IsPaired.exists_vantage {n : Network} {i : Nat} {o : Tandem} (h : n.IsPaired i o) :
    n.Halts i ∨ ∃ moves t, n.views[i]? = some t ∧ t.view = (o.vantage.after moves).view := by
  refine h.imp id fun ⟨moves, t, s, hpairs⟩ => ?_
  obtain ⟨moves', hmoves⟩ := o.vantage_after moves
  exact ⟨moves', t, hpairs.sees.task, hpairs.view.trans (congrArg Vantage.view hmoves)⟩

end Replica
