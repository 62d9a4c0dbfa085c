import Replica.Proofs.Hub.Moves

/-! # Turns of a hub

In its turn a hub looks for an input and acts on it.  Unless it stops, this is one of its moves
(`gives_nextForHub`). -/

namespace Replica

namespace Network

variable {n : Network} {t : TaskId} {i : Nat} {x : Fan}

/-- How a hub that has found something to do makes a move of it: nothing else has happened but that it
was noted who joins, or that the event was taken from its source. -/
inductive Fan.Readies (x : Fan) : HubInput → HubMove → Fan → Prop
  | forget {f : FeedId} {rest : List FeedId} (first : x.task.leaving = f :: rest) :
    x.Readies (.leave f) .forget x
  | join (asked : x.task.isAsked = true) :
    x.Readies .join .join { x with task := { x.task with isAsked := false } }
  | event {f : FeedId} {feed : Feed Event} {e : Event} (there : x.feeds[f]? = some feed)
      (oldest : feed.poll.2 = .item e) :
    x.Readies (.event e) (.event e) { x with feeds := x.feeds.modify f fun feed => feed.poll.1 }

/-- With this input the hub makes a move, unless it stops. -/
def MakesMove (i : Nat) (x : Fan) (input? : Option HubInput) (n : Network) : Prop :=
  ∀ input, input? = some input → input ≠ .stop →
    ∃ m y, x.Readies input m y ∧ ((actForHub i input).run n).2.fan? i = some (y.step m)

theorem makesMove_none : MakesMove i x none n := by
  intro input h
  cases h

theorem makesMove_stop : MakesMove i x (some .stop) n := by
  intro input h hne
  exact absurd (Option.some.inj h).symm hne

theorem gives_nextOfSource (hn : n.fan? i = some x) (source : Source) :
    Gives (nextOfSource t source) n (MakesMove i x) := by
  obtain ⟨task, hi, rfl⟩ := Option.map_eq_some_iff.1 hn
  rw [nextOfSource]
  refine .get ?_
  split
  · rename_i p hp
    intro input hinput hne
    rw [run_bind] at hinput ⊢
    split at hinput
    · rename_i e he
      obtain rfl : HubInput.event e = input := Option.some.inj hinput
      obtain ⟨⟨feed, hfeed, hpoll⟩, hdata⟩ := data_nextWithin he
      exact ⟨.event e, _, .event hfeed hpoll,
        fan?_event ((fan?_eq_of_data hdata i).trans (by simp [fan?, hi])) e⟩
    · exact makesMove_stop input hinput hne
    · cases hinput
  · exact makesMove_stop

/-- **What a hub does in its turn is a move.** -/
theorem gives_nextForHub (hn : n.fan? i = some x) :
    Gives (nextForHub i) n (MakesMove i x) := by
  obtain ⟨task, hi, hx⟩ := Option.map_eq_some_iff.1 hn
  have hsame : ∀ n' : Network, n'.data = n.data → n'.fan? i = some x := fun n' h =>
    (fan?_eq_of_data h i).trans hn
  have hrest : ∀ n' : Network, n'.data = n.data → Gives (do
      if (← MonadState.get).executor.left = 0 then
        schedule (·.pause (.hub i))
        return none
      nextOfSource (.hub i) task.source) n' (MakesMove i x) := by
    intro n' h
    refine .get ?_
    split
    · exact makesMove_none
    · exact gives_nextOfSource (hsame n' h) _
  rw [nextForHub]
  refine .get ?_
  rw [hi]
  dsimp only
  split
  · exact makesMove_none
  refine .seq (schedules_hasFired _ _) fun fired n₁ h₁ => ?_
  split
  · exact makesMove_stop
  split
  · rename_i f rest hleaving
    refine .seq schedules_spend fun _ n₂ h₂ => ?_
    rintro _ ⟨⟩ -
    have hfirst : x.task.leaving = f :: rest := hx ▸ hleaving
    refine ⟨.forget, x, .forget hfirst, ?_⟩
    rw [Fan.step, x.forget_of_cons hfirst]
    exact fan?_leave (fan?_modifyHub (hsame n₂ (h₂.trans h₁)) _) f
  refine .seq (schedules_await _ _) fun _ n₂ h₂ => ?_
  split
  · rename_i hasked
    refine .seq schedules_spend fun _ n₃ h₃ => ?_
    rintro _ ⟨⟩ -
    exact ⟨.join, _, .join (hx ▸ hasked),
      fan?_join (fan?_modifyHub (hsame n₃ (h₃.trans (h₂.trans h₁))) _)⟩
  split
  · exact .seq (schedules_await _ _) fun _ n₃ h₃ => hrest n₃ (h₃.trans (h₂.trans h₁))
  · exact .seq schedules_spend fun _ n₃ h₃ => hrest n₃ (h₃.trans (h₂.trans h₁))

end Network

end Replica
