import Replica.Proofs.Store.Reconciliation

/-! # Which keys a synchronisation deletes

A listing deletes the stored keys that it does not have.  What it has is what could be taken over
of it: an accepted object whose version cannot be read is left out before anything is compared, and
its key counts as not listed.  If nothing else is listed there, the stored entry goes.

* `sync_readable`: an object whose version cannot be read changes nothing in a listing, for its own
  key or another.
* `deletes_iff`: a deletion is given for the stored keys that have no accepted object with a
  readable version, and these are the keys that are dropped (`slot_sync_eq_none_iff`).
* `departures_exact`: so the deletions are those of the stored keys that have no accepted object at
  all, exactly if every stored key that has one has a readable one; and there is a listing where
  this fails (`not_departures_of_unread_version`). -/

namespace Replica

theorem Object.isNamed_eq_of_key {o o' : Object} (h : o.key = o'.key) : o.isNamed = o'.isNamed := by
  have hname : o.metadata.name = o'.metadata.name := congrArg Key.name h
  rw [isNamed, isNamed, hname]

namespace Store

open Slot

/-- The objects of a listing whose versions can be read. -/
def readable (list : List Object) : List Object := list.filter (·.version?.isSome)

/-- The listing has an object with this key that the filter accepts. -/
def Listed (filter : Filter) (list : List Object) (k : Key) : Prop :=
  ∃ o ∈ list, filter.accepts o = true ∧ o.key = k

/-- Synchronising with the listing gives a deletion of the key. -/
def Deletes (s : Store) (list : List Object) (k : Key) : Prop :=
  ∃ o, ⟨.delete, o⟩ ∈ (s.sync list).2 ∧ o.key = k

/-! ### Objects whose versions cannot be read -/

theorem entries_readable (filter : Filter) (list : List Object) :
    entries filter (readable list) = entries filter list := by
  rw [entries, entries, readable, List.filterMap_filter]
  congr 1
  funext o
  cases hv : o.version? <;> simp [entryOf?_eq, hv]

/-- **An object whose version cannot be read is skipped**: with and without it, a listing leaves the
same store and gives the same events. -/
theorem sync_readable (s : Store) (list : List Object) : s.sync (readable list) = s.sync list := by
  simp only [sync, entries_readable]

theorem listedVersions_eq_nil_iff_not_listed {filter : Filter} {list : List Object} {o : Object}
    (hn : o.isNamed = true) :
    listedVersions filter o.key list = [] ↔ ¬ Listed filter (readable list) o.key := by
  rw [listedVersions, List.filterMap_eq_nil_iff]
  constructor
  · rintro hnone ⟨x, hx, ha, hk⟩
    obtain ⟨hmem, hread⟩ := List.mem_filter.1 hx
    have hx := hnone x hmem
    rw [if_pos hk, admits?, ha, Object.isNamed_eq_of_key hk, hn] at hx
    change x.version? = none at hx
    rw [hx] at hread
    cases hread
  · intro hunlisted x hmem
    split
    · rename_i hk
      unfold admits?
      split
      · rename_i hc
        rw [Bool.and_eq_true] at hc
        refine Option.not_isSome_iff_eq_none.1 fun hread => hunlisted ?_
        exact ⟨x, List.mem_filter.2 ⟨hmem, hread⟩, hc.1, hk⟩
      · rfl
    · rfl

/-! ### Deletions -/

theorem kind_of_mem_tidings {filter : Filter} {slots : Key → Option Entry}
    {earlier list : List Object} {e : Event} (h : e ∈ tidings filter slots earlier list) :
    e.kind ≠ .delete := by
  induction list generalizing earlier with
  | nil => cases h
  | cons o list ih =>
      rcases List.mem_append.1 h with hfirst | hrest
      · obtain ⟨v, -, hv⟩ := Option.bind_eq_some_iff.1 (Option.mem_toList.1 hfirst)
        simp only at hv
        split at hv
        · obtain rfl := Option.some.inj hv
          dsimp only
          split <;> simp
        · cases hv
      · exact ih hrest

theorem mem_departures {filter : Filter} {current : Contents} {list : List Object} {o : Object} :
    ⟨.delete, o⟩ ∈ departures filter current list ↔
      ∃ k e, current.get? k = some e ∧ listedVersions filter k list = [] ∧ e.object = o := by
  simp only [departures, List.mem_map, List.mem_filter, decide_eq_true_eq, Prod.exists,
    SortedMap.mem_toList, Event.mk.injEq, true_and, and_assoc]

/-- **The deletions of a synchronisation** are those of the stored keys that nothing admissible is
listed for. -/
theorem deletes_iff {s : Store} (hs : s.Filed) (hi : s.items.isSome = true) (list : List Object)
    (k : Key) :
    s.Deletes list k ↔ s.slot k ≠ none ∧ ¬ Listed s.filter (readable list) k := by
  obtain ⟨items, filter⟩ := s
  obtain ⟨current, rfl⟩ := Option.isSome_iff_exists.1 hi
  have hevents : (sync ⟨some current, filter⟩ list).2 =
      tidings filter current.get? [] list ++ departures filter current list :=
    (relisted_reconcile filter list current).events
  constructor
  · rintro ⟨o, ho, rfl⟩
    rw [hevents, List.mem_append] at ho
    rcases ho with ho | ho
    · exact absurd rfl (kind_of_mem_tidings ho)
    · obtain ⟨k, e, hk, hnone, rfl⟩ := mem_departures.1 ho
      have hfiled : e.FiledAt k := hs hk
      rw [← hfiled.key] at hk hnone
      refine ⟨?_, (listedVersions_eq_nil_iff_not_listed hfiled.named).1 hnone⟩
      show current.get? e.object.key ≠ none
      rw [hk]
      exact Option.some_ne_none e
  · rintro ⟨hstored, hunlisted⟩
    obtain ⟨e, he⟩ := Option.ne_none_iff_exists'.1 hstored
    have hfiled : e.FiledAt k := hs he
    rw [← hfiled.key] at he hunlisted
    refine ⟨e.object, ?_, hfiled.key⟩
    rw [hevents, List.mem_append]
    exact .inr (mem_departures.2
      ⟨_, e, he, (listedVersions_eq_nil_iff_not_listed hfiled.named).2 hunlisted, rfl⟩)

theorem slot_sync_eq_none_iff {s : Store} (hs : s.Filed) (hi : s.items.isSome = true)
    (list : List Object) {k : Key} (hk : s.slot k ≠ none) :
    (s.sync list).1.slot k = none ↔ ¬ Listed s.filter (readable list) k := by
  obtain ⟨e, he⟩ := Option.ne_none_iff_exists'.1 hk
  have hfiled : e.FiledAt k := hs he
  rw [slot_sync, relist, if_pos hi, settle_eq_none_iff, ← listedVersions_eq_nil_iff, ← hfiled.key]
  exact listedVersions_eq_nil_iff_not_listed hfiled.named

theorem Listed.of_readable {filter : Filter} {list : List Object} {k : Key}
    (h : Listed filter (readable list) k) : Listed filter list k := by
  obtain ⟨o, ho, haccepted⟩ := h
  exact ⟨o, (List.mem_filter.1 ho).1, haccepted⟩

/-- **What a synchronisation deletes.**  A store with contents gives deletions of the keys that it
drops, and these are the stored keys of which the listing has no accepted object with a readable
version; the objects whose versions cannot be read have no effect at all.  So the deletions are those
of the stored keys of which the listing has no accepted object, exactly if it has no stored key by
unreadable ones alone. -/
theorem departures_exact (filter : Filter) (before : List Request) (list : List Object)
    (h : ((Store.new filter).after before).items.isSome = true) :
    let s := (Store.new filter).after before
    (∀ k, s.Deletes list k ↔ s.get? k ≠ none ∧ (s.sync list).1.get? k = none) ∧
    (∀ k, s.Deletes list k ↔ s.get? k ≠ none ∧ ¬ Listed s.filter (readable list) k) ∧
    s.sync (readable list) = s.sync list ∧
    ((∀ k, s.Deletes list k ↔ s.get? k ≠ none ∧ ¬ Listed s.filter list k) ↔
      ∀ k, s.get? k ≠ none → Listed s.filter list k → Listed s.filter (readable list) k) := by
  intro s
  have hs : s.Filed := filed_after (filed_new filter) before
  have hdeletes : ∀ k, s.Deletes list k ↔
      s.get? k ≠ none ∧ ¬ Listed s.filter (readable list) k := by
    intro k
    rw [Ne, get?_eq_none_iff]
    exact deletes_iff hs h list k
  refine ⟨fun k => ?_, hdeletes, sync_readable s list, ?_⟩
  · rw [deletes_iff hs h list k, get?_eq_none_iff, Ne, Ne, get?_eq_none_iff s]
    exact and_congr_right fun hk => (slot_sync_eq_none_iff hs h list hk).symm
  · refine forall_congr' fun k => ?_
    rw [hdeletes k]
    constructor
    · intro hsame hk hlisted
      refine Classical.byContradiction fun hunread => ?_
      exact (hsame.1 ⟨hk, hunread⟩).2 hlisted
    · exact fun hread => and_congr_right fun hk =>
        not_congr ⟨Listed.of_readable, hread hk⟩

/-- Two objects are stored; one is listed twice, once with an unreadable version, and the other is
not. -/
theorem departures_exact_of_readable_beside :
    let s := (Store.new .acceptAll).after [.sync [.bare "a" "x" "1", .bare "a" "y" "1"]]
    let list := [Object.bare "a" "x" "v2", .bare "a" "x" "1"]
    s.items.isSome = true ∧ s.sync (readable list) = s.sync list ∧
      (s.sync list).2 = [⟨.delete, .bare "a" "y" "1"⟩] ∧
      ∀ k, s.Deletes list k ↔ s.get? k ≠ none ∧ ¬ Listed s.filter list k := by
  intro s list
  obtain ⟨-, -, hread, hiff⟩ := departures_exact .acceptAll
    [.sync [.bare "a" "x" "1", .bare "a" "y" "1"]] list rfl
  refine ⟨rfl, hread, by decide +kernel, hiff.2 ?_⟩
  rintro k - ⟨o, ho, -, rfl⟩
  refine ⟨.bare "a" "x" "1", by decide +kernel, rfl, ?_⟩
  simp only [list, List.mem_cons, List.not_mem_nil, or_false] at ho
  rcases ho with rfl | rfl <;> rfl

/-- An object is stored, and it is listed and accepted, but with a version that cannot be read.  It
is deleted. -/
theorem not_departures_of_unread_version :
    let s := (Store.new .acceptAll).after [.sync [.bare "a" "x" "1"]]
    let list := [Object.bare "a" "x" "v2"]
    (s.sync list).2 = [⟨.delete, .bare "a" "x" "1"⟩] ∧ (s.sync list).1.list = [] ∧
      Listed s.filter list ⟨"a", "x"⟩ ∧
      ¬ ∀ k, s.Deletes list k ↔ s.get? k ≠ none ∧ ¬ Listed s.filter list k := by
  intro s list
  have hevents : (s.sync list).2 = [⟨.delete, .bare "a" "x" "1"⟩] := by decide +kernel
  have hlisted : Listed s.filter list ⟨"a", "x"⟩ :=
    ⟨.bare "a" "x" "v2", List.mem_singleton_self _, rfl, rfl⟩
  refine ⟨hevents, by decide +kernel, hlisted, fun hsame => ?_⟩
  have hdeleted : s.Deletes list ⟨"a", "x"⟩ := by
    refine ⟨.bare "a" "x" "1", ?_, rfl⟩
    rw [hevents]
    exact List.mem_singleton_self _
  exact ((hsame _).1 hdeleted).2 hlisted

end Store

end Replica
