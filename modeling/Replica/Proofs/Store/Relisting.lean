import Replica.Proofs.Store.Run

/-! # The same listing twice

A listing that a store with contents has just taken over says nothing new when it comes again: what
it offers for a key is met by what the store holds there.  For the first listing of all this can
fail.  It is adopted as it stands, and of several objects of one key the last one stays, whatever
its version; a second look at the listing finds the newer one before it.

* `reconcile_eq_self_iff`: a listing leaves contents as they are, and gives no events, exactly if it
  settles every slot as it was.
* `Slot.settle_settle`: a slot that a listing has settled is settled by it as it was.
* `Slot.settle_getLast?_iff`: the last offer for a key is settled as it was exactly if none of the
  offers is newer (`Slot.NewestLast`).
* `sync_again_iff`: so a second synchronisation with the same listing changes nothing exactly if the
  store had contents before the first one, or the newest objects of the listing come last, and there
  is a listing where they do not (`sync_again_of_older_last`). -/

namespace Replica

namespace Slot

/-- None of the entries is newer than the last one. -/
def NewestLast (es : List Entry) : Prop := ∀ last ∈ es.getLast?, ∀ e ∈ es, e.version ≤ last.version

theorem settle_settle (slot : Option Entry) (es : List Entry) :
    settle (settle slot es) es = settle slot es := by
  cases hs : settle slot es with
  | none =>
      have hes : es = [] := settle_eq_none_iff.1 hs
      rw [hes]
      rfl
  | some x =>
      have hne : es ≠ [] := by
        intro hes
        rw [settle_eq_none_iff.2 hes] at hs
        cases hs
      exact settle_eq_self_iff.2 ⟨hne, le_of_settle hs⟩

theorem settle_getLast?_iff {es : List Entry} :
    settle es.getLast? es = es.getLast? ↔ NewestLast es := by
  cases hl : es.getLast? with
  | none =>
      have hes : es = [] := List.getLast?_eq_none_iff.1 hl
      simp [hes, NewestLast, settle]
  | some last =>
      have hne : es ≠ [] := by
        intro hes
        rw [hes] at hl
        cases hl
      rw [settle_eq_self_iff, NewestLast, hl]
      constructor
      · rintro ⟨-, hle⟩ x hx
        obtain rfl : last = x := Option.mem_some_iff.1 hx
        exact hle
      · intro hle
        exact ⟨hne, hle last rfl⟩

end Slot

namespace Store

open Slot

/-! ### A listing that says nothing new -/

theorem events_foldl_take {incoming : List (Key × Entry)} {m : Merge}
    (h : ∀ e ∈ incoming, ∃ old, m.slot e.1 = some old ∧ e.2.version ≤ old.version) :
    (incoming.foldl Merge.take m).events = m.events := by
  induction incoming generalizing m with
  | nil => rfl
  | cons e incoming ih =>
      obtain ⟨⟨old, hold, hle⟩, hrest⟩ := List.forall_mem_cons.1 h
      have hnot : ¬ old.version < e.2.version := by omega
      have hmeet : meet (m.slot e.1) e.2 = old := by simp [hold, meet, hnot]
      have hnews : news (m.slot e.1) e.2 = [] := by simp [hold, news, hnot]
      -- The entry is met by what is there, so every slot stays as it is.
      have hslot : ∀ k, (m.take e).slot k = m.slot k := by
        intro k
        rw [Merge.slot_take]
        split
        · rename_i hk
          rw [← hk, hmeet, hold]
        · rfl
      have hevents : (m.take e).events = m.events := by
        rw [Merge.take_eq, hnews]
        exact List.append_nil _
      rw [List.foldl_cons, ih, hevents]
      intro x hx
      rw [hslot]
      exact hrest x hx

/-- A listing leaves contents as they are, and gives no events, exactly if it settles every slot as
it was. -/
theorem reconcile_eq_self_iff {current : Contents} {incoming : List (Key × Entry)} :
    reconcile current incoming = (current, []) ↔
      ∀ k, settle (current.get? k) (offers k incoming) = current.get? k := by
  constructor
  · intro h k
    rw [← get?_reconcile, h]
  · intro h
    have hcontents : (reconcile current incoming).1 = current := by
      apply SortedMap.ext_get?
      intro k
      rw [get?_reconcile, h]
    have hmet : ∀ e ∈ incoming, ∃ old, current.get? e.1 = some old ∧ e.2.version ≤ old.version := by
      intro e he
      have hoffer : e.2 ∈ offers e.1 incoming := mem_offers.2 he
      cases hk : current.get? e.1 with
      | none =>
          have := h e.1
          rw [hk, settle_eq_none_iff] at this
          rw [this] at hoffer
          cases hoffer
      | some old =>
          have := h e.1
          rw [hk, settle_eq_self_iff] at this
          exact ⟨old, rfl, this.2 e.2 hoffer⟩
    have hevents : (incoming.foldl Merge.take ⟨current, .empty, []⟩).events = [] :=
      events_foldl_take (m := ⟨current, .empty, []⟩) hmet
    have hunlisted : (incoming.foldl Merge.take ⟨current, .empty, []⟩).unlisted = .empty := by
      apply SortedMap.ext_get?
      intro k
      rw [unlisted_foldl_take]
      split
      · rename_i hnone
        have := h k
        rw [hnone] at this
        exact this.symm
      · rfl
    refine Prod.ext hcontents ?_
    show (incoming.foldl Merge.take ⟨current, .empty, []⟩).events ++ deletions _ = []
    rw [hevents, hunlisted]
    rfl

/-! ### Synchronising again -/

theorem sync_eq_self_iff {s : Store} (hs : s.items.isSome = true) (list : List Object) :
    s.sync list = (s, []) ↔
      ∀ k, settle (s.slot k) (offers k (entries s.filter list)) = s.slot k := by
  obtain ⟨items, filter⟩ := s
  obtain ⟨current, rfl⟩ := Option.isSome_iff_exists.1 hs
  show _ ↔ ∀ k, settle (current.get? k) (offers k (entries filter list)) = current.get? k
  rw [← reconcile_eq_self_iff, Prod.ext_iff, Prod.ext_iff]
  simp [sync]

/-- What a listing has left in a slot, it settles as it is: always, if there were contents before,
and otherwise exactly if its newest offer for the key came last. -/
theorem settle_relist_iff (s : Store) (list : List Object) (k : Key) :
    settle (s.relist s.filter list k) (offers k (entries s.filter list)) =
        s.relist s.filter list k ↔
      (s.items = none → NewestLast (offers k (entries s.filter list))) := by
  unfold relist
  split
  · rename_i hitems
    constructor
    · rintro - hnone
      rw [hnone] at hitems
      cases hitems
    · intro _
      exact settle_settle _ _
  · rename_i hitems
    rw [Option.not_isSome_iff_eq_none] at hitems
    rw [settle_getLast?_iff]
    exact ⟨fun h _ => h, fun h => h hitems⟩

/-- **The same listing twice.**  After a synchronisation, a second one with the same listing changes
nothing and gives no events, exactly if the store had contents before the first one, or no object
that the store accepts comes in the listing after a newer one of its key. -/
theorem sync_again_iff (s : Store) (list : List Object) :
    (s.sync list).1.sync list = ((s.sync list).1, []) ↔
      (s.items = none → ∀ k, NewestLast (offers k (entries s.filter list))) := by
  have hfilled : (s.sync list).1.items.isSome = true := by cases hi : s.items <;> simp [sync, hi]
  rw [sync_eq_self_iff hfilled, filter_sync]
  simp only [slot_sync, settle_relist_iff]
  exact ⟨fun h hnone k => h k hnone, fun h k hnone => h hnone k⟩

/-- The first listing of all names an object twice, the older version last.  That one is adopted,
and the second time the newer one is an update. -/
theorem sync_again_of_older_last :
    let list := [Object.bare "a" "x" "5", .bare "a" "x" "3"]
    let s := ((Store.new .acceptAll).sync list).1
    (s.sync list).2 = [⟨.update, .bare "a" "x" "5"⟩] ∧
      s.list = [.bare "a" "x" "3"] ∧ (s.sync list).1.list = [.bare "a" "x" "5"] := by
  decide +kernel

end Store

end Replica
