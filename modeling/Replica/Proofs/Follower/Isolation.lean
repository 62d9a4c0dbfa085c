import Replica.Proofs.Follower.Outputs
import Replica.Proofs.Store.Run

/-! # Each reset has its own sessions

A follower goes from session to session and from reset to reset without mixing them up.

* `Steered`: a follower that runs is at the version of the last reset or event, and its session is one
  that was opened since the last reset.
* `Isolated` says of a whole run where each session begins and what the reader of each output gets, and
  `isolated` shows it for every run. -/

namespace Replica

namespace Pursuit

open Mark

variable {t u : List Mark} {p p' : Pursuit} {m : Move} {room : Nat}

/-- The version of the last reset or event. -/
def cursor (t : List Mark) : Option String := (t.filterMap version?).getLast?

/-- The sessions that were opened after the `j`-th reset and before the next one. -/
def openings (j : Nat) (t : List Mark) : List Nat := (period j t).filterMap opened?

/-- Each session begins at the version of the last reset or event before it. -/
def BeginsAtCursor (t : List Mark) : Prop :=
  ∀ pre i version isRetry post, t = pre ++ .opened i version isRetry :: post →
    cursor pre = some version

/-- What comes of a run: `t` is what was seen of it, `p` is where it has led, and outputs have room for
`room` events. -/
structure Isolated (room : Nat) (t : List Mark) (p : Pursuit) : Prop where
  /-- Each session begins at the version of the last reset or event before it. -/
  begins : BeginsAtCursor t
  /-- Sessions are numbered in the order of their opening, so no number stands for two of them. -/
  numbered : t.filterMap opened? = List.range p.follower.opened
  /-- There is one output for each reset, and the follower has the last. -/
  outputs : p.past.length = resets t
  /-- What is received between a reset and the next one is of sessions that were opened in between. -/
  own : ∀ j, ∀ a ∈ arrivals j t, a.session ∈ openings j t
  /-- What is read from an output is some of what was received between its reset and the next one, in the
  same order and no event twice. -/
  ordered : ∀ j, (deliveries j t).Sublist ((arrivals j t).map Arrival.event)
  /-- Until the reader of an output lets go of it, what was read and what waits are all events but those
  that found it full. -/
  complete : ∀ j, .released j ∉ t → deliveries j t ++ p.waitingOn j =
    ((arrivals j t).filter (·.waiting < room)).map Arrival.event

/-! ### Versions -/

theorem cursor_append_of_quiet (h : u.filterMap version? = []) (t : List Mark) :
    cursor (t ++ u) = cursor t := by
  rw [cursor, List.filterMap_append, h, List.append_nil]
  rfl

theorem cursor_append_of_version {k : Mark} {v : String} (h : k.version? = some v) (t : List Mark) :
    cursor (t ++ [k]) = some v := by
  rw [cursor, List.filterMap_append, List.filterMap_cons_some h]
  exact List.getLast?_concat

theorem beginsAtCursor_nil : BeginsAtCursor [] := by
  intro pre i version isRetry post h
  simp at h

theorem BeginsAtCursor.concat {k : Mark} (h : BeginsAtCursor t)
    (hk : ∀ i version isRetry, k = .opened i version isRetry → cursor t = some version) :
    BeginsAtCursor (t ++ [k]) := by
  intro pre i version isRetry post heq
  rcases List.eq_nil_or_concat post with rfl | ⟨init, last, rfl⟩
  · obtain ⟨rfl, hlast⟩ := List.append_inj' heq rfl
    exact hk i version isRetry (List.cons.inj hlast).1
  · rw [List.concat_eq_append, ← List.cons_append, ← List.append_assoc] at heq
    exact h pre i version isRetry init (List.append_inj' heq rfl).1

theorem BeginsAtCursor.append_of_quiet (h : BeginsAtCursor t) (hu : u.filterMap opened? = []) :
    BeginsAtCursor (t ++ u) := by
  induction u generalizing t with
  | nil => rwa [List.append_nil]
  | cons k u ih =>
      have hnone : k.opened? = none := by
        cases hk : k.opened? with
        | none => rfl
        | some i => simp [hk] at hu
      rw [List.filterMap_cons_none hnone] at hu
      rw [List.append_cons]
      refine ih (h.concat fun i version isRetry heq => ?_) hu
      subst heq
      cases hnone

/-! ### Sessions -/

theorem range_concat (n : Nat) : List.range n ++ [n] = List.range (n + 1) := List.range_succ.symm

theorem openings_append (h : resets u = 0) (t : List Mark) (j : Nat) :
    openings j (t ++ u) =
      if j = resets t then openings j t ++ u.filterMap opened? else openings j t := by
  rw [openings, period_append_of_quiet h]
  split
  · exact List.filterMap_append
  · rfl

theorem openings_append_reset (t : List Mark) (version : String) (h : resets u = 0) (j : Nat) :
    openings j (t ++ .reset version :: u) =
      if j = resets t + 1 then u.filterMap opened? else openings j t := by
  rw [openings, period_append_reset t version h]
  split <;> rfl

theorem mem_openings_append (h : resets u = 0) {j i : Nat} (hi : i ∈ openings j t) :
    i ∈ openings j (t ++ u) := by
  rw [openings_append h]
  split
  · exact List.mem_append_left _ hi
  · exact hi

theorem arrivals_append_reset (t : List Mark) (version : String) (h : resets u = 0)
    (hnone : u.filterMap arrival? = []) (j : Nat) :
    arrivals j (t ++ .reset version :: u) = if j = resets t + 1 then [] else arrivals j t := by
  rw [arrivals, period_append_reset t version h]
  split
  · exact hnone
  · rfl

/-! ### Where a follower is -/

/-- Where a follower is, after what was seen of it. -/
structure Steered (t : List Mark) (p : Pursuit) : Prop where
  /-- Only a follower that runs and was reset has a session. -/
  live : p.follower.session ≠ none → resets t ≠ 0 ∧ p.follower.isStopped = false
  /-- Only a follower that was reset waits for another attempt. -/
  pending : p.follower.retry ≠ none → resets t ≠ 0
  version : resets t ≠ 0 → cursor t = some p.follower.version
  opened : t.filterMap opened? = List.range p.follower.opened
  /-- The session was opened since the last reset. -/
  current : ∀ i, p.follower.session = some i → i ∈ openings (resets t) t
  begins : BeginsAtCursor t
  own : ∀ j, ∀ a ∈ arrivals j t, a.session ∈ openings j t

/-- A change in which nothing is opened and nothing comes, and no session is got. -/
theorem Steered.of_quiet (h : Steered t p) (quiet : resets u = 0) (versions : u.filterMap version? = [])
    (openedNone : u.filterMap opened? = []) (arrived : u.filterMap arrival? = [])
    (session : p'.follower.session = none ∨
      p'.follower.session = p.follower.session ∧ p'.follower.isStopped = p.follower.isStopped)
    (retry : p'.follower.retry ≠ none → p.follower.retry ≠ none ∨ p.follower.session ≠ none)
    (version : p'.follower.version = p.follower.version)
    (opened : p'.follower.opened = p.follower.opened) : Steered (t ++ u) p' := by
  have hresets : resets (t ++ u) = resets t := by rw [resets_append, quiet, Nat.add_zero]
  have hopenings : ∀ j, openings j (t ++ u) = openings j t := by
    intro j
    rw [openings_append quiet, openedNone, List.append_nil, ite_self]
  constructor
  case live =>
    rw [hresets]
    intro hsession
    rcases session with hnone | ⟨hsame, hstopped⟩
    · exact absurd hnone hsession
    · rw [hstopped]
      exact h.live (hsame ▸ hsession)
  case pending =>
    rw [hresets]
    exact fun hretry => (retry hretry).elim h.pending fun hsession => (h.live hsession).1
  case version =>
    rw [hresets, cursor_append_of_quiet versions, version]
    exact h.version
  case opened => rw [List.filterMap_append, openedNone, List.append_nil, opened, h.opened]
  case current =>
    intro i hi
    rw [hresets, hopenings]
    rcases session with hnone | ⟨hsame, -⟩
    · rw [hnone] at hi
      cases hi
    · exact h.current i (hsame ▸ hi)
  case begins => exact h.begins.append_of_quiet openedNone
  case own =>
    intro j a ha
    rw [arrivals_append_of_quiet quiet arrived] at ha
    rw [hopenings]
    exact h.own j a ha

/-- A reset moves the follower to its version and opens the first session of a new period there. -/
theorem Steered.reset (h : Steered t p) (version : String) (session : p'.follower.session = some p.follower.opened)
    (running : p'.follower.isStopped = false) (retry : p'.follower.retry = none)
    (hversion : p'.follower.version = version) (opened : p'.follower.opened = p.follower.opened + 1) :
    Steered (t ++ [.reset version, .opened p.follower.opened version false]) p' := by
  have hresets : resets (t ++ [.reset version, .opened p.follower.opened version false]) = resets t + 1 :=
    resets_append t _
  have hcursor : cursor (t ++ [.reset version]) = some version := cursor_append_of_version rfl t
  constructor
  case live => exact fun _ => ⟨by rw [hresets]; exact Nat.succ_ne_zero _, running⟩
  case pending => exact absurd retry
  case version =>
    intro _
    rw [List.append_cons, cursor_append_of_quiet rfl, hversion]
    exact hcursor
  case opened =>
    rw [List.filterMap_append, h.opened, opened]
    exact range_concat _
  case current =>
    intro i hi
    obtain rfl := Option.some.inj (session.symm.trans hi)
    rw [hresets, openings_append_reset t version rfl, if_pos rfl]
    exact .head _
  case begins =>
    have hbegins : BeginsAtCursor (t ++ [.reset version]) := h.begins.append_of_quiet rfl
    rw [List.append_cons]
    refine hbegins.concat ?_
    rintro _ _ _ ⟨⟩
    exact hcursor
  case own =>
    intro j a ha
    rw [arrivals_append_reset t version rfl rfl] at ha
    rw [openings_append_reset t version rfl]
    by_cases hj : j = resets t + 1
    · rw [if_pos hj] at ha
      cases ha
    · rw [if_neg hj] at ha ⊢
      exact h.own j a ha

/-- An event moves the follower to its version, and it comes from a session of the current period. -/
theorem Steered.event (h : Steered t p) {i : Nat} {e : Event} {waiting : Nat} (live : p.follower.session = some i)
    (session : p'.follower.session = p.follower.session) (running : p'.follower.isStopped = p.follower.isStopped)
    (retry : p'.follower.retry = p.follower.retry) (version : p'.follower.version = e.object.metadata.version)
    (opened : p'.follower.opened = p.follower.opened) : Steered (t ++ [.received ⟨i, e, waiting⟩]) p' := by
  have hresets : resets (t ++ [.received ⟨i, e, waiting⟩]) = resets t := resets_append t _
  constructor
  case live =>
    rw [hresets, session, running]
    exact h.live
  case pending =>
    rw [hresets, retry]
    exact h.pending
  case version =>
    rw [version]
    exact fun _ => cursor_append_of_version rfl t
  case opened =>
    rw [List.filterMap_append, h.opened, opened]
    exact List.append_nil _
  case current =>
    intro k hk
    rw [hresets]
    exact mem_openings_append rfl (h.current k (session ▸ hk))
  case begins => exact h.begins.append_of_quiet rfl
  case own =>
    intro j a ha
    refine mem_openings_append rfl ?_
    rw [arrivals_append_received] at ha
    split at ha
    · rename_i hj
      subst hj
      rcases List.mem_append.1 ha with hold | hnew
      · exact h.own _ a hold
      · rw [List.mem_singleton.1 hnew]
        exact h.current i live
    · exact h.own j a ha

/-- A retry opens a session where the follower is. -/
theorem Steered.elapse (h : Steered t p) (pending : p.follower.retry ≠ none)
    (session : p'.follower.session = some p.follower.opened) (running : p'.follower.isStopped = false)
    (retry : p'.follower.retry = none) (version : p'.follower.version = p.follower.version)
    (opened : p'.follower.opened = p.follower.opened + 1) :
    Steered (t ++ [.opened p.follower.opened p.follower.version true]) p' := by
  have hreset : resets t ≠ 0 := h.pending pending
  have hresets : resets (t ++ [.opened p.follower.opened p.follower.version true]) = resets t := resets_append t _
  constructor
  case live => exact fun _ => ⟨by rwa [hresets], running⟩
  case pending => exact absurd retry
  case version =>
    intro _
    rw [cursor_append_of_quiet rfl, version]
    exact h.version hreset
  case opened =>
    rw [List.filterMap_append, h.opened, opened]
    exact range_concat _
  case current =>
    intro i hi
    obtain rfl := Option.some.inj (session.symm.trans hi)
    rw [hresets, openings_append rfl, if_pos rfl]
    exact List.mem_append_right _ (.head _)
  case begins =>
    refine h.begins.concat ?_
    rintro _ _ _ ⟨⟩
    exact h.version hreset
  case own =>
    intro j a ha
    rw [arrivals_append_of_quiet rfl rfl] at ha
    exact mem_openings_append rfl (h.own j a ha)

/-- **Every change keeps a follower where it should be.** -/
theorem Steered.change (h : Steered t p) (hc : p.Change m p' u) : Steered (t ++ u) p' := by
  cases hc with
  | still => exact h.of_quiet rfl rfl rfl rfl (.inr ⟨rfl, rfl⟩) .inl rfl rfl
  | signal => exact h.of_quiet rfl rfl rfl rfl (.inr ⟨rfl, rfl⟩) .inl rfl rfl
  | ended live => exact h.of_quiet rfl rfl rfl rfl (.inl rfl) (fun _ => .inr (by simp [live])) rfl rfl
  | exhausted => exact h.of_quiet rfl rfl rfl rfl (.inl rfl) .inl rfl rfl
  | stop => exact h.of_quiet rfl rfl rfl rfl (.inl rfl) .inl rfl rfl
  | @read j out held isRead =>
      obtain ⟨output, past, heq⟩ := p.readOutput_eq j
      rw [heq]
      refine h.of_quiet ?_ ?_ ?_ ?_ (.inr ⟨rfl, rfl⟩) .inl rfl rfl
      · rw [resets_eq_zero_iff]
        simp [isReset]
      · simp [version?, Function.comp_def]
      · simp [opened?, Function.comp_def]
      · simp [arrival?, Function.comp_def]
  | @release j out held =>
      obtain ⟨output, past, heq⟩ := p.releaseOutput_eq j
      rw [heq]
      exact h.of_quiet rfl rfl rfl rfl (.inr ⟨rfl, rfl⟩) .inl rfl rfl
  | reset version running => exact h.reset version rfl running rfl rfl rfl
  | event s live => exact h.event live rfl rfl rfl rfl rfl
  | elapse running pending => exact h.elapse (by simp [pending]) rfl running rfl rfl rfl

/-! ### Any run -/

/-- The invariant of a run. -/
structure Sound (room : Nat) (t : List Mark) (p : Pursuit) : Prop where
  steered : Steered t p
  outlet : Outlet room t p
  served : Served room t p

/-- **The invariant holds at the start.** -/
theorem sound_start (reconnect : Reconnect) (capacity : Nat) :
    Sound (max capacity 1) [] (start reconnect capacity) where
  steered := ⟨absurd rfl, absurd rfl, absurd rfl, rfl, nofun, beginsAtCursor_nil, nofun⟩
  outlet := ⟨rfl, rfl, Nat.le_max_right _ _, nofun, fun _ => nofun, absurd rfl⟩
  served := by
    intro j
    have hwaiting : (start reconnect capacity).waitingOn j = [] := by
      rw [waitingOn_eq]
      split <;> rfl
    have harrivals : arrivals j [] = [] := by cases j <;> rfl
    rw [hwaiting, harrivals]
    exact ⟨.refl _, fun _ => rfl⟩

/-- **Every change keeps the invariant.** -/
theorem Sound.change (h : Sound room t p) (hc : p.Change m p' u) : Sound room (t ++ u) p' :=
  ⟨h.steered.change hc, h.outlet.change hc, h.served.change h.outlet h.steered.live hc⟩

theorem sound_after (reconnect : Reconnect) (capacity : Nat) (moves : List Move) :
    Sound (max capacity 1) ((start reconnect capacity).trace moves)
      ((start reconnect capacity).after moves) :=
  run_induction (Sound (max capacity 1)) (sound_start reconnect capacity)
    (fun _ _ _ _ _ h hc => h.change hc) moves

/-- Whether the move is a reset that nobody waits for. -/
def Move.isAbandoned : Move → Bool
  | .reset _ isAwaited => !isAwaited
  | _ => false

theorem turn_of_isAbandoned (p : Pursuit) (h : m.isAbandoned = true) : p.turn m = (p, []) := by
  cases m with
  | reset version isAwaited =>
      cases isAwaited with
      | true => cases h
      | false =>
          rw [turn]
          split <;> rfl
  | _ => cases h

/-- Resets that nobody waits for make no difference. -/
theorem run_filter_isAbandoned (p : Pursuit) (moves : List Move) :
    p.trace (moves.filter (!·.isAbandoned)) = p.trace moves ∧
      p.after (moves.filter (!·.isAbandoned)) = p.after moves := by
  induction moves generalizing p with
  | nil => exact ⟨rfl, rfl⟩
  | cons m moves ih =>
      cases hm : m.isAbandoned with
      | true =>
          have hstep : p.step m = p := congrArg Prod.fst (p.turn_of_isAbandoned hm)
          have hmarks : p.marks m = [] := congrArg Prod.snd (p.turn_of_isAbandoned hm)
          have hafter : p.after (m :: moves) = p.after moves := congrArg (·.after moves) hstep
          rw [List.filter_cons_of_neg (by simp [hm]), trace, hstep, hmarks, hafter]
          exact ih p
      | false =>
          obtain ⟨htrace, hafter⟩ := ih (p.step m)
          rw [List.filter_cons_of_pos (by simp [hm])]
          exact ⟨congrArg (p.marks m ++ ·) htrace, hafter⟩

/-- **Resets are kept apart.**  Whatever happens to a follower, to its sessions and to the readers of its
outputs, in any order: each session begins where the last reset or event has left the follower, and what
is read from an output is what the sessions of its own reset have brought, in their order, without what
found it full.  Resets that nobody waits for count as not made. -/
theorem isolated (reconnect : Reconnect) (capacity : Nat) (moves : List Move) :
    let start := start reconnect capacity
    let made := moves.filter (!·.isAbandoned)
    Isolated (max capacity 1) (start.trace moves) (start.after moves) ∧
      start.trace made = start.trace moves ∧ start.after made = start.after moves := by
  intro start made
  have h := sound_after reconnect capacity moves
  refine ⟨?_, start.run_filter_isAbandoned moves⟩
  constructor
  case begins => exact h.steered.begins
  case numbered => exact h.steered.opened
  case outputs => exact h.outlet.numbered
  case own => exact h.steered.own
  case ordered => exact fun j => (List.sublist_append_left _ _).trans (h.served j).ordered
  case complete => exact fun j => (h.served j).kept

/-- A reset comes while the session still holds an event; that event, and another one that comes late,
are on neither output, and the first output can be read after the reset. -/
theorem isolated_of_late_events :
    let reconnect : Reconnect := ⟨.ofSecs 1, .ofSecs 1, none⟩
    let moves : List Move := [.reset "5" true, .signal 0 (.notice (.added (.bare "a" "x" "6"))),
      .signal 0 (.notice (.added (.bare "a" "y" "7"))), .take, .reset "8" true,
      .signal 0 (.notice (.deleted (.bare "a" "x" "9"))), .take,
      .signal 1 (.notice (.added (.bare "a" "z" "10"))), .reset "9" false, .take, .read 1, .read 2]
    let t := (start reconnect 4).trace moves
    Isolated 4 t ((start reconnect 4).after moves) ∧
      t.filterMap opened? = [0, 1] ∧ deliveries 1 t = [⟨.create, .bare "a" "x" "6"⟩] ∧
      deliveries 2 t = [⟨.create, .bare "a" "z" "10"⟩] := by
  intro reconnect moves t
  exact ⟨(isolated reconnect 4 moves).1, by decide +kernel, by decide +kernel, by decide +kernel⟩

end Pursuit

end Replica
