import Mathlib.Data.List.Induction
import Replica.Poller

/-! # The pace of a poller

A run of a poller is a list of inputs, each of which could happen when it came (`after?`): listings are
started and answered, periods end, requests come, results are taken, in any order.  What a run has come to
is counted: `starts`, `takes`, `expiries`, and `tokens` for those requests that left a token, because none
was waiting.

`Tallied` ties these counts to the state that the poller has reached, and every input keeps it
(`Tallied.step`).  `listings_paced` reads the bounds off it. -/

namespace Replica

namespace Poller

namespace Input

/-- Whether a listing is started. -/
@[simp] def isStart : Input → Bool
  | .start => true
  | _ => false

/-- Whether a result is taken. -/
@[simp] def isTake : Input → Bool
  | .take => true
  | _ => false

/-- Whether a period ends. -/
@[simp] def isExpire : Input → Bool
  | .expire => true
  | _ => false

/-- Whether somebody asks for a listing. -/
@[simp] def isRequest : Input → Bool
  | .request => true
  | _ => false

end Input

/-- The poller after some inputs, if each of them could happen. -/
def after? (p : Poller) (inputs : List Input) : Option Poller := inputs.foldlM step p

/-- How many listings were started. -/
def starts (inputs : List Input) : Nat := inputs.countP Input.isStart

/-- How many results were taken. -/
def takes (inputs : List Input) : Nat := inputs.countP Input.isTake

/-- How many periods have ended. -/
def expiries (inputs : List Input) : Nat := inputs.countP Input.isExpire

/-- Whether an input leaves a token where there was none. -/
def leavesToken (p : Poller) (i : Input) : Bool := i.isRequest && !p.token

/-- How many requests have left a token. -/
def tokens (p : Poller) : List Input → Nat
  | [] => 0
  | i :: is => (p.leavesToken i).toNat + tokens ((p.step i).getD p) is

variable {p q : Poller} {i : Input} {is : List Input}

theorem after?_concat (p : Poller) (is : List Input) (i : Input) :
    p.after? (is ++ [i]) = (p.after? is).bind (·.step i) := by
  rw [after?, List.foldlM_append]
  exact bind_congr fun q => List.foldlM_cons.trans (bind_pure _)

@[simp] theorem starts_concat (is : List Input) (i : Input) :
    starts (is ++ [i]) = starts is + if i.isStart then 1 else 0 := by
  rw [starts, List.countP_append, List.countP_singleton]
  rfl

@[simp] theorem takes_concat (is : List Input) (i : Input) :
    takes (is ++ [i]) = takes is + if i.isTake then 1 else 0 := by
  rw [takes, List.countP_append, List.countP_singleton]
  rfl

@[simp] theorem expiries_concat (is : List Input) (i : Input) :
    expiries (is ++ [i]) = expiries is + if i.isExpire then 1 else 0 := by
  rw [expiries, List.countP_append, List.countP_singleton]
  rfl

theorem exists_of_after?_append {js : List Input} (h : p.after? (is ++ js) = some q) :
    ∃ r, p.after? is = some r ∧ r.after? js = some q := by
  rw [after?, List.foldlM_append] at h
  exact Option.bind_eq_some_iff.1 h

theorem tokens_concat (h : p.after? is = some q) (i : Input) :
    p.tokens (is ++ [i]) = p.tokens is + (q.leavesToken i).toNat := by
  induction is generalizing p with
  | nil =>
      obtain rfl := Option.some.inj h
      simp [tokens]
  | cons j is ih =>
      obtain ⟨r, hr, hrest⟩ := Option.bind_eq_some_iff.1 h
      simp only [List.cons_append, tokens, hr, Option.getD_some, ih hrest]
      omega

/-! ### What one input does -/

/-- What an input that can happen does to a poller. -/
inductive Change (p : Poller) : Input → Poller → Prop
  | start (free : p.phase = .holding) (empty : p.slot = none) :
      Change p .start { p with phase := .listing }
  | answer (r : ListResult) (asked : p.phase = .listing) :
      Change p (.answer r) { p with phase := .resting, slot := some r }
  | expire (resting : p.phase = .resting) : Change p .expire { p with phase := .holding }
  | spend (resting : p.phase = .resting) (there : p.token = true) :
      Change p .spend { p with phase := .holding, token := false }
  | take {r : ListResult} (there : p.slot = some r) : Change p .take { p with slot := none }
  | request (running : p.phase ≠ .stopped) : Change p .request { p with token := true }
  | cancel (running : p.phase ≠ .stopped) : Change p .cancel { p with phase := .stopped }

theorem change_of_step (h : p.step i = some q) : p.Change i q := by
  cases i <;> simp only [step, Option.ite_none_right_eq_some, Option.some.injEq,
    Option.isNone_iff_eq_none, Option.isSome_iff_exists] at h <;> obtain ⟨hpossible, rfl⟩ := h
  case start => exact .start hpossible.1 hpossible.2
  case answer r => exact .answer r hpossible
  case expire => exact .expire hpossible
  case spend => exact .spend hpossible.1 hpossible.2
  case take =>
    obtain ⟨r, hr⟩ := hpossible
    exact .take hr
  case request => exact .request hpossible
  case cancel => exact .cancel hpossible

/-! ### The counts of a run -/

/-- How many results are under way or wait to be taken. -/
def pending (p : Poller) : Nat := (decide (p.phase = .listing)).toNat + p.slot.isSome.toNat

/-- What was counted fits the state that the poller has reached. -/
structure Tallied (is : List Input) (p : Poller) : Prop where
  /-- While a listing is under way no result waits. -/
  single : p.phase = .listing → p.slot = none
  /-- As long as the poller runs, what was listed was taken, is under way, or waits. -/
  level : p.phase ≠ .stopped → starts is = takes is + p.pending
  ahead : starts is ≤ takes is + 1
  /-- Each listing has its own reason: the beginning, the end of a period, or a token.  A poller that is
  about to list has one that was not used yet, and so has each token that waits. -/
  founded : starts is + (decide (p.phase = .holding)).toNat + p.token.toNat ≤
    1 + expiries is + new.tokens is

theorem tallied_new : Tallied [] new where
  single := nofun
  level _ := rfl
  ahead := Nat.zero_le _
  founded := Nat.le_refl _

/-- A poller that may list has no result under way, and all earlier ones were taken. -/
theorem Tallied.even (h : Tallied is p) (free : p.phase = .holding) (empty : p.slot = none) :
    starts is = takes is := by
  simpa [pending, free, empty] using h.level

/-- **Every input keeps the counts in step with the state.** -/
theorem Tallied.step (h : Tallied is p) (hp : new.after? is = some p) (hc : p.Change i q) :
    Tallied (is ++ [i]) q := by
  have hfounded := h.founded
  have htokens := tokens_concat hp i
  cases hc with
  | start free empty =>
      have heven := h.even free empty
      refine ⟨fun _ => empty, fun _ => ?_, ?_, ?_⟩
      · simp [pending, empty, heven]
      · simp [heven]
      · simpa [htokens, leavesToken, free, Nat.add_right_comm] using hfounded
  | answer r asked =>
      have hlevel := h.level (by simp [asked])
      refine ⟨nofun, fun _ => ?_, ?_, ?_⟩
      · simpa [pending, asked, h.single asked] using hlevel
      · simpa using h.ahead
      · simpa [htokens, leavesToken, asked] using hfounded
  | expire resting =>
      have hlevel := h.level (by simp [resting])
      refine ⟨nofun, fun _ => ?_, ?_, ?_⟩
      · simpa [pending, resting] using hlevel
      · simpa using h.ahead
      · simp [htokens, leavesToken, resting] at hfounded ⊢
        omega
  | spend resting there =>
      have hlevel := h.level (by simp [resting])
      refine ⟨nofun, fun _ => ?_, ?_, ?_⟩
      · simpa [pending, resting] using hlevel
      · simpa using h.ahead
      · simpa [htokens, leavesToken, resting, there] using hfounded
  | take there =>
      refine ⟨fun _ => rfl, fun running => ?_, ?_, ?_⟩
      · have hrests : p.phase ≠ .listing := fun hlisting => by simp [h.single hlisting] at there
        simpa [pending, there, hrests] using h.level running
      · have := h.ahead
        simp
        omega
      · simpa [htokens, leavesToken] using hfounded
  | request running =>
      refine ⟨h.single, fun _ => ?_, ?_, ?_⟩
      · simpa [pending] using h.level running
      · simpa using h.ahead
      · cases htoken : p.token <;> simp [htokens, leavesToken, htoken] at hfounded ⊢ <;> omega
  | cancel running =>
      refine ⟨nofun, fun stopped => absurd rfl stopped, ?_, ?_⟩
      · simpa using h.ahead
      · simp [htokens, leavesToken] at hfounded ⊢
        omega

theorem tallied_after (h : new.after? is = some p) : Tallied is p := by
  induction is using List.reverseRecOn generalizing p with
  | nil =>
      obtain rfl := Option.some.inj h
      exact tallied_new
  | append_singleton is i ih =>
      rw [after?_concat] at h
      obtain ⟨q, hq, hstep⟩ := Option.bind_eq_some_iff.1 h
      exact (ih hq).step hq (change_of_step hstep)

/-! ### Requests -/

/-- The next listing does not wait for the end of a period. -/
def IsDue (p : Poller) : Prop := p.phase = .stopped ∨ p.phase = .holding ∨ p.token = true

/-- Until the next listing starts it stays due. -/
theorem IsDue.step (h : p.IsDue) (hc : p.Change i q) (hi : i ≠ .start) : q.IsDue := by
  cases hc with
  | start => exact absurd rfl hi
  | answer r asked =>
      rcases h with h | h | h
      · simp [asked] at h
      · simp [asked] at h
      · exact .inr (.inr h)
  | expire | spend => exact .inr (.inl rfl)
  | take => exact h
  | request => exact .inr (.inr rfl)
  | cancel => exact .inl rfl

theorem IsDue.after (h : p.IsDue) (hq : p.after? is = some q) (his : .start ∉ is) : q.IsDue := by
  induction is generalizing p with
  | nil => exact Option.some.inj hq ▸ h
  | cons i is ih =>
      obtain ⟨r, hr, hrest⟩ := Option.bind_eq_some_iff.1 hq
      have hi : i ≠ .start := fun hi => his (hi ▸ .head _)
      exact ih (h.step (change_of_step hr) hi) hrest fun hmem => his (.tail _ hmem)

/-! ### Any run -/

/-- **A poller keeps its pace.**  Whatever happens to a poller, in any order: it has started at most one
listing more than results were taken, and when it starts one, all results before were taken; after a
request it does not wait for the end of a period before it has listed again, since the token is there or
the listing is about to start; and each listing is owed to the beginning, to the end of a period or to a
token, where a request that finds a token leaves none. -/
theorem listings_paced {inputs : List Input} {p : Poller} (h : new.after? inputs = some p) :
    starts inputs ≤ takes inputs + 1 ∧
      (∀ before after, inputs = before ++ .start :: after → ∃ q, new.after? before = some q ∧
        q.phase = .holding ∧ q.slot = none ∧ starts before = takes before) ∧
      (∀ before after, inputs = before ++ .request :: after → .start ∉ after →
        p.phase = .stopped ∨ p.phase = .holding ∨ p.token = true) ∧
      starts inputs ≤ 1 + expiries inputs + new.tokens inputs := by
  have htallied := tallied_after h
  refine ⟨htallied.ahead, ?_, ?_, ?_⟩
  · rintro before after rfl
    obtain ⟨q, hq, hrest⟩ := exists_of_after?_append h
    obtain ⟨r, hr, -⟩ := Option.bind_eq_some_iff.1 hrest
    obtain ⟨free, empty⟩ : q.phase = .holding ∧ q.slot = none := by
      cases change_of_step hr with
      | start free empty => exact ⟨free, empty⟩
    exact ⟨q, hq, free, empty, (tallied_after hq).even free empty⟩
  · rintro before after rfl hafter
    obtain ⟨q, -, hrest⟩ := exists_of_after?_append h
    obtain ⟨r, hr, hrest⟩ := Option.bind_eq_some_iff.1 hrest
    have hdue : r.IsDue := by
      cases change_of_step hr with
      | request => exact .inr (.inr rfl)
    exact hdue.after hrest hafter
  · have := htallied.founded
    omega

/-- Two requests come while a listing is under way and a third one while its result waits: they leave one
token, which brings one listing, started when the result was taken. -/
theorem listings_paced_of_coalescing :
    let inputs : List Input := [.start, .request, .request, .answer (.ok default), .request, .spend, .take,
      .start]
    ∃ p, new.after? inputs = some p ∧ starts inputs = 2 ∧ new.tokens inputs = 1 ∧
      starts inputs ≤ takes inputs + 1 ∧ starts inputs ≤ 1 + expiries inputs + new.tokens inputs ∧
      (∀ before after, inputs = before ++ .start :: after → ∃ q, new.after? before = some q ∧
        q.phase = .holding ∧ q.slot = none ∧ starts before = takes before) := by
  intro inputs
  have hrun : new.after? inputs = some ⟨.listing, none, false⟩ := rfl
  obtain ⟨hahead, heven, -, hfounded⟩ := listings_paced hrun
  exact ⟨_, hrun, rfl, rfl, hahead, hfounded, heven⟩

end Poller

end Replica
