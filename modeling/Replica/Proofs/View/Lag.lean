import Replica.Proofs.Store.Diff

/-! # Slots that lag behind

A view hears of its parent by events that are still on their way when the parent has moved on, and
it reads the parent's contents while older events are in its queue.  For one key, let the events of
the queue lead the parent's slot from some `s` to `p` (`Slot.Path s es p`).

* `replay_through`: a slot that shows what the filter accepts of `s` shows, after the events, what
  it accepts of `p`.
* `stale_or_replay`: whatever is stored, either it outlasts all of the events, under every filter,
  or the first event that it does not outlast puts the slot right.
* `replay_adopt` and `replay_settle`: so a slot that has taken over what the filter accepts of `p`,
  ahead of the events, is right after them as well; a listing may take it over by replacing
  everything or by settling the slot, and the filter may change. -/

namespace Replica

namespace Slot

/-- What a filter shows of a slot. -/
def through (filter : Filter) (slot : Option Entry) : Option Entry :=
  slot.filter (filter.accepts ·.object)

@[simp] theorem through_none (filter : Filter) : through filter none = none := rfl

theorem through_some (filter : Filter) (e : Entry) :
    through filter (some e) = if filter.accepts e.object then some e else none := by
  rw [through, Option.filter_some]

theorem eq_some_of_through {filter : Filter} {slot : Option Entry} {e : Entry}
    (h : through filter slot = some e) : slot = some e :=
  (Option.filter_eq_some_iff.1 h).1

theorem turn_cases {s t : Option Entry} {e : Event} (h : Turn s e t) :
    e.kind = .delete ∧ t = none ∨
      e.kind ≠ .delete ∧ ∃ v, e.object.version? = some v ∧ t = some ⟨v, e.object⟩ ∧
        ∀ old, s = some old → old.version < v := by
  cases h with
  | create named version => exact .inr ⟨by simp, _, version, rfl, by simp⟩
  | update named version newer =>
      refine .inr ⟨by simp, _, version, rfl, fun old hold => ?_⟩
      cases hold
      exact newer
  | delete named => exact .inl ⟨rfl, rfl⟩

theorem advance_of_turn {filter : Filter} {s t slot : Option Entry} {e : Event} (h : Turn s e t)
    (hslot : ∀ old, slot = some old → s = some old) : advance filter slot e = through filter t := by
  rcases turn_cases h with ⟨hd, rfl⟩ | ⟨hd, v, hv, rfl, hnewer⟩
  · exact advance_delete filter slot hd
  · have hfresh : ¬ slot.any (v ≤ ·.version) = true := by
      cases hs : slot with
      | none => simp
      | some old =>
          have := hnewer old (hslot old hs)
          simpa using this
    rw [advance_write filter slot hd hv, if_neg hfresh, through_some]

/-- **A slot that shows the start shows the end**, after the events between. -/
theorem replay_through {s t : Option Entry} {es : List Event} (h : Path s es t) (filter : Filter) :
    replay filter (through filter s) es = through filter t := by
  induction h with
  | nil => rfl
  | cons hturn _ ih => rw [replay_cons, advance_of_turn hturn fun _ => eq_some_of_through, ih]

theorem replay_none {s t : Option Entry} {e : Event} {es : List Event} (h : Path s (e :: es) t)
    (filter : Filter) : replay filter none (e :: es) = through filter t := by
  cases h with
  | cons hturn hrest => rw [replay_cons, advance_of_turn hturn (by simp), replay_through hrest]

/-- The event does not count where the entry is stored. -/
structure Stale (old : Entry) (e : Event) : Prop where
  kind : e.kind ≠ .delete
  version : ∀ v, e.object.version? = some v → v ≤ old.version

theorem replay_of_stale {old : Entry} {es : List Event} (h : ∀ e ∈ es, Stale old e)
    (filter : Filter) : replay filter (some old) es = some old := by
  induction es with
  | nil => rfl
  | cons e es ih =>
      obtain ⟨he, hes⟩ := List.forall_mem_cons.1 h
      have hskip : advance filter (some old) e = some old := by
        cases hv : e.object.version? with
        | none => exact advance_unread filter _ he.kind hv
        | some v =>
            have := he.version v hv
            rw [advance_write filter _ he.kind hv, if_pos (by simpa using this)]
      rw [replay_cons, hskip, ih hes]

theorem advance_of_not_stale {s t : Option Entry} {e : Event} (h : Turn s e t) {old : Entry}
    (hold : ¬ Stale old e) (filter : Filter) : advance filter (some old) e = through filter t := by
  rcases turn_cases h with ⟨hd, rfl⟩ | ⟨hd, v, hv, rfl, -⟩
  · exact advance_delete filter _ hd
  · have hlt : ¬ v ≤ old.version := fun hle => hold
      ⟨hd, fun w hw => by rw [hv, Option.some.injEq] at hw; omega⟩
    rw [advance_write filter _ hd hv, if_neg (by simpa using hlt), through_some]

/-- **What is stored outlasts the events, or they put it right.** -/
theorem stale_or_replay {s t : Option Entry} {es : List Event} (h : Path s es t) (old : Entry) :
    (∀ e ∈ es, Stale old e) ∨ ∀ filter, replay filter (some old) es = through filter t := by
  induction h with
  | nil => exact .inl (by simp)
  | @cons s t u e es hturn hrest ih =>
      by_cases he : Stale old e
      · rcases ih with hstale | hright
        · exact .inl (List.forall_mem_cons.2 ⟨he, hstale⟩)
        · refine .inr fun filter => ?_
          have hskip := replay_of_stale (List.forall_mem_singleton.2 he) filter
          rw [replay_cons, replay_nil] at hskip
          rw [replay_cons, hskip, hright]
      · refine .inr fun filter => ?_
        rw [replay_cons, advance_of_not_stale hturn he, replay_through hrest]

/-- **Adopting the end in advance.**  A slot that shows the end already shows it after the events.
-/
theorem replay_adopt {s t : Option Entry} {es : List Event} (h : Path s es t) (filter : Filter) :
    replay filter (through filter t) es = through filter t := by
  cases ht : through filter t with
  | none =>
      cases es with
      | nil => rfl
      | cons e es => rw [replay_none h, ht]
  | some z =>
      rcases stale_or_replay h z with hstale | hright
      · exact replay_of_stale hstale filter
      · rw [hright, ht]

/-- **Settling on the end in advance.**  If the events lead a slot to what the old filter shows of
the end, then they lead it to what the new filter shows of it, once a listing of the end has
settled it. -/
theorem replay_settle {s t slot : Option Entry} {es : List Event} (h : Path s es t) {old : Filter}
    (hslot : replay old slot es = through old t) (filter : Filter) :
    replay filter (settle slot (through filter t).toList) es = through filter t := by
  cases ht : through filter t with
  | none =>
      have := replay_adopt h filter
      rwa [ht] at this
  | some z =>
      have hadopt := replay_adopt h filter
      rw [ht] at hadopt
      have hmeet : settle slot (some z).toList = some (meet slot z) := by simp [settle, meetAll]
      rw [hmeet]
      rcases meet_eq_or slot z with hz | hkept
      · rw [hz, hadopt]
      · generalize meet slot z = y at hkept
        subst hkept
        rcases stale_or_replay h y with hstale | hright
        · -- What was kept outlasts the events under the old filter too, so it is the end.
          rw [replay_of_stale hstale] at hslot
          have hy := eq_some_of_through hslot.symm
          have hz := eq_some_of_through ht
          rw [replay_of_stale hstale, ← hy, hz]
        · rw [hright, ht]

end Slot

end Replica
