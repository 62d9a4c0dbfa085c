import Replica.Proofs.Follower.Outputs
import Replica.Proofs.Network.Frame

/-! # A pursuit in a network

A network with a follower shows a `Pursuit` (`Shows`): the follower itself, its sessions, and the output
that is still written.  What the follower does in its turn are moves of the pursuit
(`maintains_runFollower`). -/

namespace Replica

/-- What is opened, of a session's task. -/
def Network.SessionTask.watch (s : Network.SessionTask) : Watch := ⟨s.version, s.session⟩

/-- A follower that is told something, with the session that it opens on that. -/
def Pursuit.react (p : Pursuit) : Follower.Input → Pursuit
  | .reset version true =>
    { (p.tell (.reset version true)).launch with
      past := p.past ++ [p.follower.output.map Feed.close] }
  | .reset _ false => p
  | .retryElapsed => (p.tell .retryElapsed).launch
  | input => p.tell input

namespace Follower

/-- Nobody has let go of the follower's output. -/
def IsRead (f : Follower) : Prop := ∀ out, f.output = some out → out.isAbandoned = false

variable {f : Follower}

/-- Nobody lets go of an output that only its writer changes, or that is only read. -/
theorem IsRead.of_bind (h : f.IsRead) {f' : Follower} {g : Feed Event → Option (Feed Event)}
    (output : f'.output = f.output.bind g)
    (hg : ∀ out out', g out = some out' → out'.isAbandoned = out.isAbandoned) : f'.IsRead := by
  intro out hout
  rw [output] at hout
  obtain ⟨before, hbefore, hbound⟩ := Option.bind_eq_some_iff.1 hout
  rw [hg before out hbound, h before hbefore]

theorem IsRead.stop (h : f.IsRead) : f.stop.IsRead :=
  h.of_bind Option.map_eq_bind fun out out' heq => by
    obtain rfl := Option.some.inj heq
    rfl

theorem IsRead.step (h : f.IsRead) (i : Input) : (f.step i).IsRead := by
  cases i with
  | reset version isAwaited =>
      cases isAwaited with
      | true =>
          rintro out ⟨⟩
          rfl
      | false => exact h
  | event e =>
      refine h.of_bind rfl fun out out' heq => ?_
      rw [passOn_eq] at heq
      split at heq
      · cases heq
      · obtain rfl := Option.some.inj heq
        rfl
  | sessionEnded =>
      rw [Follower.step]
      split
      · split
        · exact h
        · exact h.stop
      · exact h
  | retryElapsed => exact h
  | cancel => exact h.stop

theorem IsRead.next (h : f.IsRead) : f.next.1.IsRead := by
  rw [next_eq]
  refine h.of_bind rfl fun out out' heq => ?_
  split at heq
  · cases heq
  · obtain rfl := Option.some.inj heq
    rfl

theorem step_sessionEnded (f : Follower) :
    (f.step .sessionEnded).session = none ∧ (f.step .sessionEnded).opened = f.opened := by
  rw [Follower.step]
  split
  · split <;> exact ⟨rfl, rfl⟩
  · exact ⟨rfl, rfl⟩

end Follower

theorem Session.eq_of_poll {s left : Session} {polled : Polled Event} (h : s.poll = (left, polled))
    (nothing : polled.item? = none) : left = s := by
  obtain ⟨rfl, rfl⟩ := Prod.mk.inj h
  exact congrArg Session.mk (Feed.poll_of_item? nothing)

namespace Network

/-- A follower's task and the tasks of the sessions show a pursuit. -/
structure Depicts (f : FollowerTask) (sessions : List SessionTask) (p : Pursuit) : Prop where
  follower : f.follower = p.follower
  watches : sessions.map SessionTask.watch = p.watches
  opened : p.follower.opened = p.watches.length
  live : ∀ i, p.follower.session = some i → i < p.follower.opened
  /-- A time is waited for only while an attempt is to be made. -/
  due : f.deadline.isSome → p.follower.retry.isSome
  isRead : p.follower.IsRead

/-- The network shows a pursuit. -/
def Shows (n : Network) (p : Pursuit) : Prop :=
  ∃ f sessions, n.listening = (some f, sessions) ∧ Depicts f sessions p

/-- The network shows what a pursuit has become after some moves. -/
def IsLed (p : Pursuit) (n : Network) : Prop := ∃ moves, n.Shows (p.after moves)

variable {n n' : Network} {p : Pursuit} {f : FollowerTask} {sessions : List SessionTask}

theorem Shows.of_listening (h : n'.listening = n.listening) (hn : n.Shows p) : n'.Shows p := by
  obtain ⟨f, sessions, hl, hd⟩ := hn
  exact ⟨f, sessions, h.trans hl, hd⟩

theorem Shows.isLed (hn : n.Shows p) : IsLed p n := ⟨[], hn⟩

theorem isLed_concat {moves : List Pursuit.Move} {m : Pursuit.Move}
    (hn : n.Shows ((p.after moves).step m)) : IsLed p n :=
  ⟨moves ++ [m], by rwa [Pursuit.after_append]⟩

theorem isOfData_isLed : IsOfData (IsLed p) := by
  rintro n n' h ⟨moves, hn⟩
  exact ⟨moves, hn.of_listening (listening_of_data h)⟩

/-! ### Parts of a computation -/

theorem Gives.keep {α β : Type} {x : Net α} {g : α → Net β} {P : β → Network → Prop}
    (hx : Keeps Network.listening x) (h : ∀ a n', n'.listening = n.listening → Gives (g a) n' P) :
    Gives (x >>= g) n P :=
  h _ _ (hx n)

theorem Gives.spare {α β : Type} {x : Net α} {g : α → Net β} {P : β → Network → Prop} (hx : Spares x)
    (h : ∀ a n', n'.listening = n.listening → Gives (g a) n' P) : Gives (x >>= g) n P :=
  .keep hx.listening h

theorem Gives.thenSpare {α β : Type} {x : Net α} {g : α → Net β} (hx : (x.run n).2.Shows p)
    (hg : ∀ a, Spares (g a)) : Gives (x >>= g) n fun _ n' => n'.Shows p :=
  hx.of_listening ((hg _).listening _)

theorem Gives.modifyFollower {β : Type} {change : FollowerTask → FollowerTask} {g : Unit → Net β}
    {P : β → Network → Prop} (hl : n.listening = (some f, sessions))
    (h : ∀ n', n'.listening = (some (change f), sessions) → Gives (g ()) n' P) :
    Gives (Network.modifyFollower change >>= g) n P := by
  obtain ⟨hf, hs⟩ := Prod.mk.inj hl
  refine h _ ?_
  change (n.follower.map change, n.sessions) = _
  rw [hf, hs]
  rfl

theorem listening_startSession (hl : n.listening = (some f, sessions)) (version : String)
    (capacity : Nat) (parent : ScopeId) :
    ∃ scope, ((startSession version capacity parent).run n).2.listening =
      (some f, sessions ++ [⟨.new capacity, version, none, scope⟩]) := by
  obtain ⟨hf, hs⟩ := Prod.mk.inj hl
  refine ⟨n.scopes.list.length, ?_⟩
  rw [← hf, ← hs]
  rfl

/-! ### The follower -/

/-- The outputs of former resets are not in the network. -/
theorem Depicts.past (h : Depicts f sessions p) (past : List (Option (Feed Event))) :
    Depicts f sessions { p with past } :=
  ⟨h.follower, h.watches, h.opened, h.live, h.due, h.isRead⟩

theorem Depicts.launch (h : Depicts f sessions p) (i : Follower.Input) {f' : FollowerTask}
    {s : SessionTask} (follower : f'.follower = f.follower.step i)
    (opens : p.follower.step i = { p.follower.step i with
      session := some p.follower.opened, opened := p.follower.opened + 1 })
    (deadline : f'.deadline = none)
    (watch : s.watch = ⟨(f.follower.step i).version, .new (f.follower.step i).capacity⟩) :
    Depicts f' (sessions ++ [s]) (p.tell i).launch where
  follower := by rw [follower, h.follower]; rfl
  watches := by rw [List.map_append, List.map_singleton, h.watches, watch, h.follower]; rfl
  opened := by
    have hlength : (p.tell i).launch.watches.length = p.watches.length + 1 := List.length_append
    rw [hlength, ← h.opened]
    exact congrArg Follower.opened opens
  live k hk := by
    have hsession := congrArg Follower.session opens
    have hopened := congrArg Follower.opened opens
    change (p.follower.step i).session = some k at hk
    rw [hsession] at hk
    obtain rfl := Option.some.inj hk
    change _ < (p.follower.step i).opened
    rw [hopened]
    exact Nat.lt_succ_self _
  due hdue := by
    rw [deadline] at hdue
    cases hdue
  isRead := h.isRead.step i

theorem Depicts.tell (h : Depicts f sessions p) (i : Follower.Input) {f' : FollowerTask}
    (follower : f'.follower = f.follower.step i)
    (opened : (p.follower.step i).opened = p.follower.opened)
    (live : ∀ k, (p.follower.step i).session = some k → p.follower.session = some k)
    (due : f'.deadline.isSome → (p.follower.step i).retry.isSome) : Depicts f' sessions (p.tell i) where
  follower := by rw [follower, h.follower]; rfl
  watches := h.watches
  opened := opened.trans h.opened
  live k hk := by
    rw [Pursuit.tell, opened]
    exact h.live k (live k hk)
  due := due
  isRead := h.isRead.step i

theorem Depicts.sessionEnded (h : Depicts f sessions p) {f' : FollowerTask}
    (follower : f'.follower = f.follower.step .sessionEnded)
    (due : f'.deadline.isSome → (f.follower.step .sessionEnded).retry.isSome) :
    Depicts f' sessions (p.tell .sessionEnded) := by
  obtain ⟨hsession, hopened⟩ := p.follower.step_sessionEnded
  refine h.tell _ follower hopened (fun k hk => ?_) (h.follower ▸ due)
  rw [hsession] at hk
  cases hk

theorem listening_endFollower (hl : n.listening = (some f, sessions)) :
    (endFollower.run n).2.listening = (some { f with inbox := none, deadline := none }, sessions) := by
  suffices Gives endFollower n fun _ n' => n'.listening = _ from this
  refine .modifyFollower hl fun n₁ h₁ => ?_
  exact ((spares_occur _).listening _).trans (((spares_occur _).listening _).trans (((spares_finish _).listening _).trans h₁))

/-- What a follower does on an input is done to the pursuit. -/
theorem shows_actForFollower (hn : n.Shows p) (input : Follower.Input) :
    ((actForFollower input).run n).2.Shows (p.react input) := by
  obtain ⟨f, sessions, hl, hd⟩ := hn
  suffices Gives (actForFollower input) n fun _ n' => n'.Shows (p.react input) from this
  have hf : n.follower = some f := congrArg Prod.fst hl
  refine .get ?_
  rw [hf]
  refine .modifyFollower hl fun n₁ h₁ => ?_
  cases input with
  | reset version isAwaited =>
      refine .modifyFollower h₁ fun n₂ h₂ => ?_
      cases isAwaited with
      | false =>
          exact ⟨_, _, h₂, hd.follower, hd.watches, hd.opened, hd.live, hd.due, hd.isRead⟩
      | true =>
          refine .modifyFollower h₂ fun n₃ h₃ => ?_
          refine .spare (spares_occur _) fun _ n₄ h₄ => .spare (spares_occur _) fun _ n₅ h₅ =>
            .spare (spares_leaveSession f) fun _ n₆ h₆ => ?_
          obtain ⟨scope, hstart⟩ := listening_startSession (h₆.trans (h₅.trans (h₄.trans h₃)))
            version f.follower.capacity f.scope
          exact ⟨_, _, hstart, (hd.launch (.reset version true) rfl rfl rfl rfl).past _⟩
  | event e =>
      have hevent : Depicts { f with follower := f.follower.step (.event e) } sessions
          (p.react (.event e)) :=
        hd.tell (.event e) rfl rfl (fun _ hk => hk) hd.due
      have hshows : n₁.Shows (p.react (.event e)) := ⟨_, _, h₁, hevent⟩
      dsimp only
      split
      · exact hshows.of_listening ((spares_occur _).listening _)
      · exact hshows
  | sessionEnded =>
      refine .spare (spares_leaveSession f) fun _ n₂ h₂ => ?_
      refine .modifyFollower (h₂.trans h₁) fun n₃ h₃ => ?_
      -- the time that is set is that of the attempt to be made, so without one there is none
      have hdue : ∀ delay : Option Nat, delay = ((f.follower.step .sessionEnded).retry.bind
          (f.follower.step .sessionEnded).reconnect.delay?).map (dueIn n.now ·.ceilMillis) →
          delay.isSome → (f.follower.step .sessionEnded).retry.isSome := by
        rintro _ rfl hsome
        rw [Option.isSome_map] at hsome
        exact Option.isSome_of_isSome_bind hsome
      split
      · exact ⟨_, _, listening_endFollower h₃, hd.sessionEnded rfl nofun⟩
      · exact ⟨_, _, h₃, hd.sessionEnded rfl (hdue _ rfl)⟩
  | retryElapsed =>
      refine .modifyFollower h₁ fun n₂ h₂ => ?_
      obtain ⟨scope, hstart⟩ := listening_startSession h₂ f.follower.version f.follower.capacity f.scope
      exact ⟨_, _, hstart, hd.launch .retryElapsed rfl rfl rfl rfl⟩
  | cancel =>
      refine .spare (spares_leaveSession f) fun _ n₂ h₂ => ?_
      exact ⟨_, _, listening_endFollower (h₂.trans h₁), hd.tell .cancel rfl rfl nofun nofun⟩

theorem map_modify {α β : Type} (g : α → β) {l : List α} {i : Nat} {a : α} (ha : l[i]? = some a)
    (change : α → α) (change' : β → β) (h : g (change a) = change' (g a)) :
    (l.modify i change).map g = (l.map g).modify i change' := by
  refine List.ext_getElem? fun j => ?_
  rw [List.getElem?_map, List.getElem?_modify, List.getElem?_modify, List.getElem?_map]
  by_cases hj : i = j
  · subst hj
    rw [ha]
    simp only [if_pos]
    exact congrArg some h
  · simp only [if_neg hj, id_map']

theorem Depicts.onSession {i : Nat} {s : SessionTask} (h : Depicts f sessions p)
    (hs : sessions[i]? = some s) {change : SessionTask → SessionTask} {g : Session → Session}
    (watch : (change s).watch = ⟨s.version, g s.session⟩) :
    Depicts f (sessions.modify i change) (p.onSession i g) where
  follower := h.follower
  watches := by
    rw [map_modify SessionTask.watch hs change (fun w => { w with session := g w.session }) watch,
      h.watches]
    rfl
  opened := by
    rw [Pursuit.onSession, List.length_modify]
    exact h.opened
  live := h.live
  due := h.due
  isRead := h.isRead

theorem Depicts.exists_session {i : Nat} (h : Depicts f sessions p) (hi : f.follower.session = some i) :
    ∃ s, sessions[i]? = some s ∧ p.live? = some (i, s.session) := by
  rw [h.follower] at hi
  have hlt : i < sessions.length := by
    rw [← List.length_map (f := SessionTask.watch), h.watches, ← h.opened]
    exact h.live i hi
  refine ⟨sessions[i], List.getElem?_eq_getElem hlt, ?_⟩
  rw [Pursuit.live?, hi, Option.bind_some, ← h.watches, List.getElem?_map,
    List.getElem?_eq_getElem hlt]
  rfl

theorem modify_same {i : Nat} {s : SessionTask} (hs : sessions[i]? = some s) :
    (sessions.modify i fun t => { t with session := s.session }) = sessions := by
  have hmap := map_modify id hs (fun t => { t with session := s.session }) id rfl
  rwa [List.map_id, List.map_id, List.modify_id] at hmap

theorem listening_readSession {i : Nat} {s : SessionTask} (hl : n.listening = (some f, sessions))
    (hs : sessions[i]? = some s) :
    ((readSession i).run n).1 = s.session.poll.2 ∧
      ((readSession i).run n).2.listening =
        (some f, sessions.modify i fun t => { t with session := s.session.poll.1 }) := by
  have hf : n.follower = some f := congrArg Prod.fst hl
  have hn : n.sessions = sessions := congrArg Prod.snd hl
  rw [← hn] at hs ⊢
  rw [← hf]
  suffices Gives (readSession i) n fun r n' => r = s.session.poll.2 ∧ n'.listening =
      (n.follower, n.sessions.modify i fun t => { t with session := s.session.poll.1 }) from this
  refine .get ?_
  rw [hs]
  exact ⟨rfl, rfl⟩

/-- What a follower finds to do in a network that shows `p`: with that the pursuit makes a move. -/
def Readies (p : Pursuit) : Option Follower.Input → Network → Prop
  | none, n => n.Shows p
  | some input, n => ∃ q m, n.Shows q ∧ q.react input = p.step m

theorem Readies.of_step {input : Follower.Input} (hn : n.Shows p) {m : Pursuit.Move}
    (h : p.react input = p.step m) : Readies p (some input) n := ⟨p, m, hn, h⟩

/-- What a follower finds to do is something that can happen to the pursuit. -/
theorem gives_nextForFollower (hn : n.Shows p) : Gives nextForFollower n (Readies p) := by
  obtain ⟨f, sessions, hl, hd⟩ := hn
  have hf : n.follower = some f := congrArg Prod.fst hl
  have hshows : ∀ n' : Network, n'.listening = n.listening → n'.Shows p := fun n' h =>
    ⟨f, sessions, h.trans hl, hd⟩
  -- what is looked at last, whether there is no session or only nothing to read on it
  have hlast : ∀ n' : Network, n'.listening = n.listening → p.follower.isStopped = false → Gives (do
      if f.deadline.any (· ≤ n.now) then
        spend
        return some Follower.Input.retryElapsed
      return none) n' (Readies p) := by
    intro n' h running
    split
    · rename_i elapsed
      refine .spare spares_spend fun _ n'' h' => ?_
      refine .of_step (hshows n'' (h'.trans h)) (m := .elapse) ?_
      have hpending : p.follower.retry.isSome = true := hd.due (Option.isSome_of_any elapsed)
      simp [Pursuit.react, Pursuit.step, Pursuit.turn, running, hpending]
    · exact hshows n' h
  rw [nextForFollower]
  refine .get ?_
  rw [hf]
  dsimp only
  split
  · exact hshows n rfl
  rename_i running
  rw [hd.follower, Bool.not_eq_true] at running
  refine .spare (schedules_hasFired _ _).spares fun fired n₁ h₁ => ?_
  split
  · refine .of_step (hshows n₁ h₁) (m := .cancel) ?_
    simp [Pursuit.react, Pursuit.step, Pursuit.turn, running]
  split
  · rename_i version _
    refine .spare spares_spend fun _ n₂ h₂ => ?_
    refine .of_step (hshows n₂ (h₂.trans h₁)) (m := .reset version true) ?_
    simp [Pursuit.react, Pursuit.step, Pursuit.turn, running]
  refine .spare (spares_await _ _) fun _ n₂ h₂ => ?_
  split
  · rename_i i hi
    obtain ⟨s, hs, hlive⟩ := hd.exists_session hi
    have hl₂ := h₂.trans (h₁.trans hl)
    obtain ⟨hresult, hdata⟩ := run_reading .follower (.followed i) (readSession i) n₂
    obtain ⟨hread, hleft⟩ := listening_readSession hl₂ hs
    rw [Gives, run_bind]
    have hl₃ := (listening_of_data hdata).trans hleft
    rw [hread] at hresult
    generalize (reading .follower (.followed i) (readSession i)).run n₂ = r at hresult hl₃ ⊢
    obtain ⟨polled, n₃⟩ := r
    subst hresult
    dsimp only at hl₃ ⊢
    cases hpoll : s.session.poll with
    | mk left polled =>
      rw [hpoll] at hl₃
      cases polled with
      | item e =>
          refine ⟨p.onSession i fun _ => left, .take, ⟨_, _, hl₃, hd.onSession hs rfl⟩, ?_⟩
          simp [Pursuit.react, Pursuit.step, Pursuit.turn, hlive, hpoll]
      | ended =>
          rw [Session.eq_of_poll hpoll rfl, modify_same hs] at hl₃
          refine .of_step (hshows n₃ (hl₃.trans hl.symm)) (m := .take) ?_
          simp [Pursuit.react, Pursuit.step, Pursuit.turn, hlive, hpoll]
      | pending =>
          rw [Session.eq_of_poll hpoll rfl, modify_same hs] at hl₃
          exact hlast n₃ (hl₃.trans hl.symm) running
  · exact hlast n₂ (h₂.trans h₁) running

/-- A follower in its turn makes moves. -/
theorem maintains_runFollower : Maintains (IsLed p) runFollower := by
  refine drive_induction isOfData_isLed (fun n hn => ?_) _
  obtain ⟨moves, hn⟩ := hn
  have hfound := gives_nextForFollower hn
  unfold Gives at hfound ⊢
  generalize (nextForFollower.run n).1 = input?, (nextForFollower.run n).2 = n' at hfound ⊢
  cases input? with
  | none => exact ⟨moves, hfound⟩
  | some input =>
      obtain ⟨q, m, hq, hreact⟩ := hfound
      intro n'' h
      have hacted := shows_actForFollower (hq.of_listening (listening_of_data h)) input
      exact isLed_concat (hreact ▸ hacted)

end Network

end Replica
