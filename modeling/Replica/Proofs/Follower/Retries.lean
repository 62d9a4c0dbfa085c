import Replica.Proofs.Follower.Delay
import Replica.Proofs.Follower.Isolation

/-! # How long a follower goes on trying

When its session ends a follower waits and opens another one, and it counts how often it has done so
since the last reset or event.  When there were as many attempts as are allowed it gives up until the
next reset.

* `Paced`: a follower that runs has a session, or waits for a retry, or has given up; and the attempts
  that it counts are those that were made.
* `idle_after`: one that has given up opens nothing until the next reset.
* `running_after`: it does not stop by itself.
* `disciplined` says so of every run. -/

namespace Replica

theorem Reconnect.allows_iff {r : Reconnect} {a : Nat} :
    r.allows a = true ↔ ∀ m, r.maxRetries = some m → a < m := by
  rw [allows]
  cases r.maxRetries <;> simp

namespace Pursuit

open Mark

variable {reconnect : Reconnect} {t u : List Mark} {p p' : Pursuit} {m : Move} {room : Nat}

/-- How a follower with these settings tries to go on. -/
structure Paced (reconnect : Reconnect) (t : List Mark) (p : Pursuit) : Prop where
  settings : p.follower.reconnect = reconnect
  alone : p.follower.session = none ∨ p.follower.retry = none
  counted : p.follower.retry = none →
    p.follower.attempt = min (retries t) Follower.attemptLimit
  pending : ∀ a, p.follower.retry = some a → a = min (retries t) Follower.attemptLimit ∧
    p.follower.attempt = min (a + 1) Follower.attemptLimit ∧ reconnect.allows a = true
  idle : resets t ≠ 0 → p.follower.isStopped = false → p.follower.session = none →
    p.follower.retry = none → reconnect.allows p.follower.attempt = false
  bounded : ∀ n, reconnect.maxRetries = some n → n ≤ Follower.attemptLimit → retries t ≤ n

namespace Paced

theorem of_same (h : Paced reconnect t p) (settings : p'.follower.reconnect = p.follower.reconnect)
    (session : p'.follower.session = p.follower.session)
    (retry : p'.follower.retry = p.follower.retry)
    (attempt : p'.follower.attempt = p.follower.attempt)
    (stopped : p'.follower.isStopped = p.follower.isStopped) (quiet : resets u = 0)
    (count : retries (t ++ u) = retries t) : Paced reconnect (t ++ u) p' := by
  have hresets : resets (t ++ u) = resets t := by rw [resets_append, quiet, Nat.add_zero]
  constructor
  case settings => exact settings.trans h.settings
  case alone => rw [session, retry]; exact h.alone
  case counted => rw [retry, attempt, count]; exact h.counted
  case pending => rw [retry, attempt, count]; exact h.pending
  case idle => rw [hresets, stopped, session, retry, attempt]; exact h.idle
  case bounded => rw [count]; exact h.bounded

theorem retries_lt (h : Paced reconnect t p) {a n : Nat} (pending : p.follower.retry = some a)
    (hmax : reconnect.maxRetries = some n) (hcounted : n ≤ Follower.attemptLimit) :
    retries t < n := by
  obtain ⟨ha, -, hallowed⟩ := h.pending a pending
  have hlt : a < n := Reconnect.allows_iff.1 hallowed n hmax
  omega

/-- **Every change keeps the count**, and leaves neither too much nor too little to go on with. -/
theorem change (h : Paced reconnect t p) (hc : p.Change m p' u) : Paced reconnect (t ++ u) p' := by
  cases hc with
  | still | signal => exact h.of_same rfl rfl rfl rfl rfl rfl (by rw [List.append_nil])
  | reset version running =>
      have hcount : retries (t ++ [.reset version, .opened p.follower.opened version false]) = 0 :=
        retries_append t _
      constructor
      case settings => exact h.settings
      case alone => exact .inr rfl
      case counted => exact fun _ => by rw [hcount, Nat.zero_min]
      case pending => exact nofun
      case idle => exact fun _ _ => nofun
      case bounded => exact fun n _ _ => hcount ▸ Nat.zero_le n
  | @event i e s live =>
      have hcount : retries (t ++ [.received ⟨i, e, (p.waitingOn p.past.length).length⟩]) = 0 :=
        retries_append t _
      have hretry : p.follower.retry = none := h.alone.resolve_left (by simp [live])
      constructor
      case settings => exact h.settings
      case alone => exact .inr hretry
      case counted => exact fun _ => by rw [hcount, Nat.zero_min]
      case pending => exact fun a ha => by cases hretry.symm.trans ha
      case idle => exact fun _ _ hsession => by cases live.symm.trans hsession
      case bounded => exact fun n _ _ => hcount ▸ Nat.zero_le n
  | ended live allowed delay =>
      rw [List.append_nil]
      have hattempt := h.counted (h.alone.resolve_left (by simp [live]))
      constructor
      case settings => exact h.settings
      case alone => exact .inl rfl
      case counted => exact nofun
      case pending =>
        rintro _ ⟨⟩
        exact ⟨hattempt, rfl, h.settings ▸ allowed⟩
      case idle => exact fun _ _ _ => nofun
      case bounded => exact h.bounded
  | exhausted live refused =>
      rw [List.append_nil]
      exact ⟨h.settings, .inl rfl, h.counted, h.pending, fun _ _ _ _ => h.settings ▸ refused, h.bounded⟩
  | @elapse a running pending =>
      have hcount : retries (t ++ [.opened p.follower.opened p.follower.version true]) =
          retries t + 1 := retries_append t _
      obtain ⟨ha, hattempt, -⟩ := h.pending a pending
      constructor
      case settings => exact h.settings
      case alone => exact .inr rfl
      case counted =>
        intro _
        rw [hcount]
        show p.follower.attempt = _
        omega
      case pending => exact nofun
      case idle => exact fun _ _ => nofun
      case bounded =>
        intro n hmax hn
        rw [hcount]
        exact h.retries_lt pending hmax hn
  | stop reason =>
      rw [List.append_nil]
      exact ⟨h.settings, .inl rfl, h.counted, h.pending, fun _ => nofun, h.bounded⟩
  | @read j out held isRead =>
      obtain ⟨output, past, heq⟩ := p.readOutput_eq j
      rw [heq]
      refine h.of_same rfl rfl rfl rfl rfl ?_ ?_
      · rw [resets_eq_zero_iff]
        simp [isReset]
      · rw [retries_append, foldl_count_of_quiet (by simp [version?])]
        simp [isRetry]
  | @release j out held =>
      obtain ⟨output, past, heq⟩ := p.releaseOutput_eq j
      rw [heq]
      exact h.of_same rfl rfl rfl rfl rfl rfl (retries_append t _)

end Paced

theorem paced_start (reconnect : Reconnect) (capacity : Nat) :
    Paced reconnect [] (start reconnect capacity) where
  settings := rfl
  alone := .inl rfl
  counted := fun _ => (Nat.zero_min _).symm
  pending := nofun
  idle := fun h => absurd rfl h
  bounded := fun n _ _ => Nat.zero_le n

theorem paced_after (reconnect : Reconnect) (capacity : Nat) (moves : List Move) :
    Paced reconnect ((start reconnect capacity).trace moves)
      ((start reconnect capacity).after moves) :=
  run_induction (Paced reconnect) (paced_start reconnect capacity)
    (fun _ _ _ _ _ h hc => h.change hc) moves

/-! ### Giving up -/

/-- The follower has no session and does not wait for one. -/
def IsIdle (p : Pursuit) : Prop := p.follower.session = none ∧ p.follower.retry = none

theorem IsIdle.change (h : p.IsIdle) (hc : p.Change m p' u) (hm : m.isReset = false) :
    p'.IsIdle ∧ u.filterMap opened? = [] := by
  cases hc with
  | still | signal => exact ⟨h, rfl⟩
  | reset version running asked => rw [hm] at asked; cases asked
  | event s live | ended live | exhausted live => rw [h.1] at live; cases live
  | elapse running pending => rw [h.2] at pending; cases pending
  | stop => exact ⟨⟨rfl, h.2⟩, rfl⟩
  | @read j out held isRead =>
      obtain ⟨output, past, heq⟩ := p.readOutput_eq j
      rw [heq]
      exact ⟨h, by simp [opened?, Function.comp_def]⟩
  | @release j out held =>
      obtain ⟨output, past, heq⟩ := p.releaseOutput_eq j
      rw [heq]
      exact ⟨h, rfl⟩

/-- **A follower that has given up opens nothing and waits for nothing until the next reset.** -/
theorem idle_after (h : p.IsIdle) {moves : List Move} (hmoves : ∀ m ∈ moves, m.isReset = false) :
    (p.after moves).IsIdle ∧ (p.trace moves).filterMap opened? = [] := by
  induction moves generalizing p with
  | nil => exact ⟨h, rfl⟩
  | cons m moves ih =>
      obtain ⟨hm, hrest⟩ := List.forall_mem_cons.1 hmoves
      obtain ⟨hidle, hnone⟩ := h.change (p.change_turn m) hm
      obtain ⟨hafter, hlater⟩ := ih hidle hrest
      refine ⟨hafter, ?_⟩
      rw [trace, List.filterMap_append, hnone, hlater]
      rfl

instance (p : Pursuit) : Decidable p.IsIdle := inferInstanceAs (Decidable (_ ∧ _))

/-! ### Stopping -/

/-- Whenever a session ends there is a delay before the next attempt, so only a cancellation is left to
stop a follower. -/
theorem Change.running (hc : p.Change m p' u) (timed : p.follower.reconnect.IsTimed)
    (running : p.follower.isStopped = false) (hm : m ≠ .cancel) :
    p'.follower.reconnect = p.follower.reconnect ∧ p'.follower.isStopped = false := by
  cases hc with
  | still | signal | reset | event | ended | exhausted | elapse => exact ⟨rfl, running⟩
  | stop reason =>
      obtain ⟨d, hd⟩ := timed.exists_delay? p.follower.attempt
      cases hd.symm.trans (reason.resolve_left hm)
  | @read j out held isRead =>
      obtain ⟨output, past, heq⟩ := p.readOutput_eq j
      rw [heq]
      exact ⟨rfl, running⟩
  | @release j out held =>
      obtain ⟨output, past, heq⟩ := p.releaseOutput_eq j
      rw [heq]
      exact ⟨rfl, running⟩

theorem running_after (timed : p.follower.reconnect.IsTimed) (running : p.follower.isStopped = false)
    {moves : List Move} (hmoves : .cancel ∉ moves) : (p.after moves).follower.isStopped = false := by
  induction moves generalizing p with
  | nil => exact running
  | cons m moves ih =>
      rw [List.mem_cons, not_or] at hmoves
      obtain ⟨hsettings, hrunning⟩ := (p.change_turn m).running timed running (Ne.symm hmoves.1)
      exact ih (hsettings ▸ timed) hrunning hmoves.2

/-- The follower waits for a retry. -/
def waiting (p : Pursuit) : Pursuit :=
  { p with
    follower :=
      { p.follower with
        session := none
        retry := some p.follower.attempt
        attempt := min (p.follower.attempt + 1) Follower.attemptLimit } }

/-- The end of a session is not the end of the follower. -/
theorem run_take_of_ended (timed : p.follower.reconnect.IsTimed)
    (allowed : p.follower.reconnect.allows p.follower.attempt = true)
    (ended : (p.live?.map fun live => live.2.poll.2) = some .ended) (moves : List Move) :
    p.after (.take :: moves) = p.waiting.after moves ∧
      p.trace (.take :: moves) = p.waiting.trace moves := by
  have hturn : p.turn .take = (p.waiting, []) := by
    obtain ⟨⟨i, s⟩, hlive, hended⟩ := Option.map_eq_some_iff.1 ended
    have hpoll : s.poll = (s.poll.1, .ended) := Prod.ext rfl hended
    rw [turn, hlive]
    dsimp only
    rw [hpoll]
    dsimp only
    rw [tell, Follower.step_sessionEnded_of_allows timed allowed]
    rfl
  have hstep : p.step .take = p.waiting := congrArg Prod.fst hturn
  have hmarks : p.marks .take = [] := congrArg Prod.snd hturn
  rw [trace, hmarks, hstep, List.nil_append]
  exact ⟨congrArg (after · moves) hstep, rfl⟩

/-! ### Any run -/

/-- How a follower with these settings stands after what was seen of it. -/
structure Disciplined (reconnect : Reconnect) (t : List Mark) (p : Pursuit) : Prop where
  /-- It never has a session and waits for a retry at the same time. -/
  alone : p.follower.session = none ∨ p.follower.retry = none
  /-- Once it was reset, it has a session or waits for a retry, unless as many retries were made since
  the last reset or event as are allowed. -/
  kept : resets t ≠ 0 → p.follower.isStopped = false →
    p.follower.session ≠ none ∨ p.follower.retry ≠ none ∨
      ∃ n, reconnect.maxRetries = some n ∧ retries t = n
  /-- There are no more retries since the last reset or event than are allowed. -/
  bounded : ∀ n, reconnect.maxRetries = some n → retries t ≤ n
  /-- Once it was reset, it has an output that it can write to, until the reader lets go of that. -/
  writes : resets t ≠ 0 → p.follower.isStopped = false → .released p.past.length ∉ t →
    ∃ out, p.follower.output = some out ∧ out.IsOpen

section Limit

variable (hcounted : ∀ n, reconnect.maxRetries = some n → n ≤ Follower.attemptLimit)
include hcounted

/-- A follower that has given up has made all retries that are allowed. -/
theorem Paced.exists_limit (h : Paced reconnect t p)
    (hrefused : reconnect.allows p.follower.attempt = false) (hretry : p.follower.retry = none) :
    ∃ n, reconnect.maxRetries = some n ∧ retries t = n := by
  have hattempt := h.counted hretry
  cases hmax : reconnect.maxRetries with
  | none =>
      have hallowed : reconnect.allows p.follower.attempt = true :=
        Reconnect.allows_iff.2 fun n hn => by cases hmax.symm.trans hn
      cases hallowed.symm.trans hrefused
  | some n =>
      have hle : n ≤ p.follower.attempt := by
        refine Nat.le_of_not_lt fun hlt => ?_
        have hallowed : reconnect.allows p.follower.attempt = true :=
          Reconnect.allows_iff.2 fun k hk => by cases hmax.symm.trans hk; exact hlt
        cases hallowed.symm.trans hrefused
      have hbound := h.bounded n hmax (hcounted n hmax)
      exact ⟨n, rfl, by omega⟩

theorem Paced.standing (h : Paced reconnect t p) (ho : Outlet room t p) :
    Disciplined reconnect t p where
  alone := h.alone
  kept := by
    intro hreset running
    by_cases hsession : p.follower.session = none
    · by_cases hretry : p.follower.retry = none
      · exact .inr (.inr
          (h.exists_limit hcounted (h.idle hreset running hsession hretry) hretry))
      · exact .inr (.inl hretry)
    · exact .inl hsession
  bounded := fun n hn => h.bounded n hn (hcounted n hn)
  writes := ho.exists_isOpen

/-- In a stretch without resets and events no more sessions are opened by retry than are allowed. -/
theorem countP_isRetry_le (capacity : Nat) (moves more : List Move)
    (hquiet : ∀ k ∈ ((start reconnect capacity).after moves).trace more, k.version? = none) {n : Nat}
    (hn : reconnect.maxRetries = some n) :
    (((start reconnect capacity).after moves).trace more).countP isRetry ≤ n := by
  have hbound := (paced_after reconnect capacity (moves ++ more)).bounded n hn (hcounted n hn)
  rw [trace_append, retries_append, foldl_count_of_quiet hquiet] at hbound
  omega

end Limit

/-- **A follower tries on as long as it may, and no longer.**  Whatever happens to a follower, to its
sessions and to the readers of its outputs, in any order, first in `moves` and then in `more`: it stands
after `moves` as it should; if `more` is without resets and events, no more sessions are opened in it by
retry than are allowed; if it had given up, it opens no session and waits for no retry until the next
reset, and can write to its output still.  With delays that are durations it runs until it is told to
stop, and if there is no limit on the retries it is never left without a session and without a retry to
wait for.  A limit has to be one that can be counted. -/
theorem disciplined (reconnect : Reconnect)
    (hcounted : ∀ n, reconnect.maxRetries = some n → n ≤ Follower.attemptLimit) (capacity : Nat)
    (moves more : List Move) :
    let start := start reconnect capacity
    let p := start.after moves
    let q := p.after more
    Disciplined reconnect (start.trace moves) p ∧
      ((∀ k ∈ p.trace more, k.version? = none) →
        ∀ n, reconnect.maxRetries = some n → (p.trace more).countP isRetry ≤ n) ∧
      (p.IsIdle → (∀ m ∈ more, m.isReset = false) →
        q.IsIdle ∧ (p.trace more).filterMap opened? = [] ∧
          (resets (start.trace moves) ≠ 0 → q.follower.isStopped = false →
            .released q.past.length ∉ start.trace (moves ++ more) →
              ∃ out, q.follower.output = some out ∧ out.IsOpen)) ∧
      (reconnect.IsTimed → .cancel ∉ moves → p.follower.isStopped = false ∧
        (resets (start.trace moves) ≠ 0 → reconnect.maxRetries = none →
          p.follower.session ≠ none ∨ p.follower.retry ≠ none)) := by
  intro start p q
  have hstands : Disciplined reconnect (start.trace moves) p :=
    (paced_after reconnect capacity moves).standing hcounted
      (sound_after reconnect capacity moves).outlet
  refine ⟨hstands, ?_, ?_, ?_⟩
  · exact fun hquiet n hn => countP_isRetry_le hcounted capacity moves more hquiet hn
  · intro hidle hmore
    obtain ⟨hafter, hnone⟩ := idle_after hidle hmore
    refine ⟨hafter, hnone, fun hreset running hheld => ?_⟩
    have houtlet : Outlet (max capacity 1) (start.trace (moves ++ more)) q := by
      have := (sound_after reconnect capacity (moves ++ more)).outlet
      rwa [after_append] at this
    refine houtlet.exists_isOpen ?_ running hheld
    rw [trace_append, resets_append]
    exact fun hzero => hreset (Nat.eq_zero_of_add_eq_zero_right hzero)
  · intro timed hmoves
    have running : p.follower.isStopped = false := running_after timed rfl hmoves
    refine ⟨running, fun hreset hnone => ?_⟩
    obtain hsession | hretry | ⟨n, hn, -⟩ := hstands.kept hreset running
    · exact .inl hsession
    · exact .inr hretry
    · cases hnone.symm.trans hn

/-- With one retry allowed: an event comes, the session ends, another one is opened at the version of
the event and ends too, and the follower gives up; later the event is read, and the output is still there.
Without a limit it would wait for the next retry. -/
theorem disciplined_of_one_retry :
    let limited := start ⟨.ofMillis 100, .ofSecs 10, some 1⟩ 4
    let unlimited := start ⟨.ofMillis 100, .ofSecs 10, none⟩ 4
    let first : List Move := [.reset "5" true, .signal 0 (.notice (.added (.bare "a" "x" "6"))), .take,
      .signal 0 .closed]
    let second : List Move := [.elapse, .signal 1 .closed, .take]
    let more : List Move := [.elapse, .take, .read 1, .reset "7" false]
    let moves := first ++ .take :: second
    Disciplined limited.follower.reconnect (limited.trace moves) (limited.after moves) ∧
      limited.trace moves = [.reset "5", .opened 0 "5" false,
        .received ⟨0, ⟨.create, .bare "a" "x" "6"⟩, 0⟩, .opened 1 "6" true] ∧
      (limited.after moves).IsIdle ∧ (limited.after moves).follower.isStopped = false ∧
      ((limited.after moves).after more).IsIdle ∧
      (limited.after moves).trace more = [.delivered 1 ⟨.create, .bare "a" "x" "6"⟩] ∧
      (∃ out, ((limited.after moves).after more).follower.output = some out ∧ out.IsOpen) ∧
      ((unlimited.after moves).follower.session ≠ none ∨
        (unlimited.after moves).follower.retry ≠ none) := by
  intro limited unlimited first second more moves
  -- a delay is not computed, so the run is cut where the first session has ended
  obtain ⟨hafter, htrace⟩ := run_take_of_ended (p := limited.after first) (by decide +kernel)
    (by decide +kernel) (by decide +kernel) second
  replace hafter : limited.after moves = (limited.after first).waiting.after second :=
    (after_append _ _ _).trans hafter
  replace htrace : limited.trace moves =
      limited.trace first ++ (limited.after first).waiting.trace second :=
    (trace_append _ _ _).trans (congrArg _ htrace)
  have hcancel : .cancel ∉ moves := by simp [moves, first, second]
  obtain ⟨hstands, -, hidle, hrunning⟩ :=
    disciplined limited.follower.reconnect (by rintro _ ⟨⟩; decide) 4 moves more
  obtain ⟨-, -, -, hgoes⟩ := disciplined unlimited.follower.reconnect nofun 4 moves []
  have hgiven : (limited.after moves).IsIdle := by rw [hafter]; decide +kernel
  have hreset : resets (limited.trace moves) ≠ 0 := by rw [htrace]; decide +kernel
  have running := (hrunning (by decide) hcancel).1
  obtain ⟨hrests, -, houtput⟩ := hidle hgiven (by decide)
  refine ⟨hstands, ?_, hgiven, running, hrests, ?_, houtput hreset ?_ ?_, ?_⟩
  · rw [htrace]; decide +kernel
  · rw [hafter]; decide +kernel
  · show ((limited.after moves).after more).follower.isStopped = false
    rw [hafter]; decide +kernel
  · show .released ((limited.after moves).after more).past.length ∉ limited.trace (moves ++ more)
    rw [trace_append, hafter, htrace]; decide +kernel
  · refine (hgoes (by decide) hcancel).2 ?_ rfl
    have hfirst : resets (unlimited.trace first) ≠ 0 := by decide +kernel
    show resets (unlimited.trace (first ++ _)) ≠ 0
    rw [trace_append, resets_append]
    exact fun hzero => hfirst (Nat.eq_zero_of_add_eq_zero_right hzero)

end Pursuit

end Replica
