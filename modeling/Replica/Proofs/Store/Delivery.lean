import Mathlib.Data.Multiset.MapFold
import Replica.Proofs.Store.Convergence
import Replica.Proofs.Store.Reconciliation

/-! # Writes in any order

Creations and updates may reach a store late, twice and out of order.  As long as its filter accepts
everything this does no harm: a write only counts if it is newer than what is stored, so of each key
the newest write is what remains.  For this, a key may have one object only at each version
(`Store.Deliverable`); of two objects at one version the first to come would stay.

* `Slot.meetAll_eq_some_iff_newest`: meeting entries one after the other leaves the newest of them,
  whatever their order, if no two of them are at one version.
* `Slot.replay_of_writes`: to a slot, accepted writes are entries that it meets, and their kinds do
  not count.
* `slot_after_delivery`: so what a delivery of some writes leaves under a key is the newest of the
  stored entry and of what is written (`Store.Newest`).
* `deliveries_agree`: two deliveries of the same writes leave the same store. -/

namespace Replica

/-- The entry that a written object is stored as, if its version can be read. -/
def Event.entry? (e : Event) : Option Entry := e.object.version?.map (⟨·, e.object⟩)

namespace Slot

/-! ### The newest entry -/

theorem newest_of_meetAll {slot : Option Entry} {es : List Entry} {x : Entry}
    (h : meetAll slot es = some x) :
    x ∈ slot.toList ++ es ∧ ∀ y ∈ slot.toList ++ es, y.version ≤ x.version := by
  refine ⟨List.mem_append.2 ((mem_or_of_meetAll h).symm.imp Option.mem_toList.2 id), fun y hy => ?_⟩
  have hall := (lt_iff_of_meetAll h (x.version + 1)).1 (Nat.lt_succ_self _)
  exact Nat.le_of_lt_succ (hall _ (List.mem_map_of_mem hy))

/-- **Whatever their order**, of entries that are met one after the other the newest is kept, if no
two of them are at one version. -/
theorem meetAll_eq_some_iff_newest {slot : Option Entry} {es : List Entry}
    (hagree : ∀ x ∈ slot.toList ++ es, ∀ y ∈ slot.toList ++ es, x.version = y.version → x = y)
    {x : Entry} :
    meetAll slot es = some x ↔
      x ∈ slot.toList ++ es ∧ ∀ y ∈ slot.toList ++ es, y.version ≤ x.version := by
  refine ⟨newest_of_meetAll, ?_⟩
  rintro ⟨hx, hnewest⟩
  cases hkept : meetAll slot es with
  | none =>
      obtain ⟨rfl, rfl⟩ := meetAll_eq_none_iff.1 hkept
      cases hx
  | some y =>
      obtain ⟨hy, hy'⟩ := newest_of_meetAll hkept
      rw [hagree y hy x hx (Nat.le_antisymm (hnewest y hy) (hy' x hx))]

/-! ### Writes -/

theorem advance_of_write {filter : Filter} (slot : Option Entry) {e : Event} {x : Entry}
    (hd : e.kind ≠ .delete) (hx : e.entry? = some x) (ha : filter.accepts e.object = true) :
    advance filter slot e = some (meet slot x) := by
  obtain ⟨v, hv, rfl⟩ := Option.map_eq_some_iff.1 hx
  rw [advance_write filter slot hd hv]
  cases slot with
  | none => simp [ha, meet]
  | some old =>
      by_cases hle : v ≤ old.version
      · have hnot : ¬ old.version < v := by omega
        simp [hle, hnot, meet]
      · have hlt : old.version < v := by omega
        simp [hle, hlt, ha, meet]

theorem replay_of_writes {filter : Filter} {slot : Option Entry} {es : List Event}
    (hd : ∀ e ∈ es, e.kind ≠ .delete) (hv : ∀ e ∈ es, e.object.version?.isSome = true)
    (ha : ∀ e ∈ es, filter.accepts e.object = true) :
    replay filter slot es = meetAll slot (es.filterMap Event.entry?) := by
  induction es generalizing slot with
  | nil => rfl
  | cons e es ih =>
      obtain ⟨hd, hds⟩ := List.forall_mem_cons.1 hd
      obtain ⟨hv, hvs⟩ := List.forall_mem_cons.1 hv
      obtain ⟨ha, has⟩ := List.forall_mem_cons.1 ha
      obtain ⟨v, hv⟩ := Option.isSome_iff_exists.1 hv
      have hx : e.entry? = some ⟨v, e.object⟩ := by rw [Event.entry?, hv, Option.map_some]
      rw [replay_cons, advance_of_write slot hd hx ha, ih hds hvs has, List.filterMap_cons_some hx]
      rfl

theorem mem_entries_eventsOf {es : List Event} (hn : ∀ e ∈ es, e.object.isNamed = true) {k : Key}
    {x : Entry} :
    x ∈ (eventsOf k es).filterMap Event.entry? ↔ x.FiledAt k ∧ x.object ∈ es.map Event.object := by
  simp only [List.mem_filterMap, eventsOf, List.mem_filter, decide_eq_true_eq, List.mem_map]
  constructor
  · rintro ⟨e, ⟨he, hk⟩, hx⟩
    obtain ⟨v, hv, rfl⟩ := Option.map_eq_some_iff.1 hx
    exact ⟨⟨hk, hn e he, hv⟩, e, he, rfl⟩
  · rintro ⟨hfiled, e, he, ho⟩
    refine ⟨e, ⟨he, by rw [ho, hfiled.key]⟩, ?_⟩
    rw [Event.entry?, ho, hfiled.version, Option.map_some]

end Slot

/-- The events are a delivery of the writes: they tell of the same objects in some order, each once
or more often, and each as a creation or as an update, whichever it was. -/
structure Event.Delivers (es : List Event) (writes : Multiset Event) : Prop where
  writing : ∀ e ∈ es, e.kind ≠ .delete
  sound : ∀ e ∈ es, e.object ∈ writes.map Event.object
  complete : ∀ w ∈ writes, w.object ∈ es.map Event.object

namespace Store

open Slot Event

/-! ### Deliveries -/

/-- The writes can be delivered to the store in any order: they are creations and updates of objects
that can be stored, and there is one object only for each version of a key, also when the store has
this version. -/
structure Deliverable (s : Store) (writes : Multiset Event) : Prop where
  writing : ∀ w ∈ writes, w.kind ≠ .delete
  named : ∀ w ∈ writes, w.object.isNamed = true
  numbered : ∀ w ∈ writes, w.object.version?.isSome = true
  agree : ∀ w ∈ writes, ∀ w' ∈ writes, w.object.key = w'.object.key →
    w.object.version? = w'.object.version? → w.object = w'.object
  stored : ∀ w ∈ writes, ∀ e ∈ s.slot w.object.key,
    w.object.version? = some e.version → w.object = e.object

/-- The entry is stored under the key, or it is one of the writes to it. -/
def Contends (s : Store) (writes : Multiset Event) (k : Key) (x : Entry) : Prop :=
  s.slot k = some x ∨ x.FiledAt k ∧ x.object ∈ writes.map Event.object

/-- The entry is the newest of what is stored under the key and of the writes to it. -/
def Newest (s : Store) (writes : Multiset Event) (k : Key) (x : Entry) : Prop :=
  s.Contends writes k x ∧ ∀ y, s.Contends writes k y → y.version ≤ x.version

variable {s : Store} {writes : Multiset Event} {es : List Event}

theorem Deliverable.eq_of_version_eq (h : s.Deliverable writes) {k : Key} {x y : Entry}
    (hx : s.Contends writes k x) (hy : s.Contends writes k y) (hv : x.version = y.version) :
    x = y := by
  -- A write is the stored entry if that has its version.
  have hmixed : ∀ {x y : Entry}, s.slot k = some x →
      y.FiledAt k ∧ y.object ∈ writes.map Event.object → x.version = y.version → x = y := by
    rintro ⟨v, o⟩ ⟨v', o'⟩ hstored ⟨hfiled, hwritten⟩ rfl
    obtain ⟨w, hw, rfl⟩ := Multiset.mem_map.1 hwritten
    have hkey : w.object.key = k := hfiled.key
    rw [h.stored w hw ⟨v, o⟩ (by rw [hkey]; exact hstored) hfiled.version]
  rcases hx with hx | hx
  · rcases hy with hy | hy
    · rw [hx] at hy
      exact Option.some.inj hy
    · exact hmixed hx hy hv
  · rcases hy with hy | hy
    · exact (hmixed hy hx hv.symm).symm
    · obtain ⟨hxf, hx⟩ := hx
      obtain ⟨hyf, hy⟩ := hy
      obtain ⟨w, hw, hwx⟩ := Multiset.mem_map.1 hx
      obtain ⟨w', hw', hwy⟩ := Multiset.mem_map.1 hy
      refine hxf.ext hyf ?_
      rw [← hwx, ← hwy]
      refine h.agree w hw w' hw' ?_ ?_
      · rw [hwx, hwy, hxf.key, hyf.key]
      · rw [hwx, hwy, hxf.version, hyf.version, hv]

theorem Deliverable.valid (h : s.Deliverable writes) (hes : Delivers es writes) :
    ∀ e ∈ es, e.object.isNamed = true ∧ e.object.version?.isSome = true := by
  intro e he
  obtain ⟨w, hw, ho⟩ := Multiset.mem_map.1 (hes.sound e he)
  rw [← ho]
  exact ⟨h.named w hw, h.numbered w hw⟩

theorem contends_iff (h : s.Deliverable writes) (hes : Delivers es writes) {k : Key} {x : Entry} :
    s.Contends writes k x ↔ x ∈ (s.slot k).toList ++ (eventsOf k es).filterMap Event.entry? := by
  have hobjects : x.object ∈ writes.map Event.object ↔ x.object ∈ es.map Event.object := by
    constructor
    · intro hx
      obtain ⟨w, hw, hwx⟩ := Multiset.mem_map.1 hx
      rw [← hwx]
      exact hes.complete w hw
    · intro hx
      obtain ⟨e, he, hex⟩ := List.mem_map.1 hx
      rw [← hex]
      exact hes.sound e he
  rw [Contends, List.mem_append, Option.mem_toList,
    mem_entries_eventsOf fun e he => (h.valid hes e he).1, hobjects]

/-- **What a delivery leaves under a key** is the newest of the stored entry and of the writes. -/
theorem slot_after_delivery (hfilter : ∀ o, s.filter.accepts o = true) (h : s.Deliverable writes)
    (hes : Delivers es writes) (k : Key) (x : Entry) :
    (s.after (es.map .update)).slot k = some x ↔ s.Newest writes k x := by
  have hown : ∀ e ∈ eventsOf k es, e ∈ es := fun e he => (List.mem_filter.1 he).1
  rw [slot_after_updates (fun e he => (h.valid hes e he).1),
    replay_of_writes (fun e he => hes.writing e (hown e he))
      (fun e he => (h.valid hes e (hown e he)).2) fun e _ => hfilter e.object,
    meetAll_eq_some_iff_newest]
  · simp only [Newest, contends_iff h hes]
  · intro x hx y hy
    exact h.eq_of_version_eq ((contends_iff h hes).2 hx) ((contends_iff h hes).2 hy)

/-! ### Stores after deliveries -/

theorem eq_of_slots {s t : Store} (hs : s.items.isSome = true) (ht : t.items.isSome = true)
    (hfilter : s.filter = t.filter) (h : ∀ k, s.slot k = t.slot k) : s = t := by
  obtain ⟨items, filter⟩ := s
  obtain ⟨items', filter'⟩ := t
  obtain ⟨contents, rfl⟩ := Option.isSome_iff_exists.1 hs
  obtain ⟨contents', rfl⟩ := Option.isSome_iff_exists.1 ht
  obtain rfl : filter = filter' := hfilter
  obtain rfl : contents = contents' := SortedMap.ext_get? h
  rfl

theorem filter_after_updates (s : Store) (es : List Event) :
    (s.after (es.map .update)).filter = s.filter := by
  induction es generalizing s with
  | nil => rfl
  | cons e es ih => exact (ih (s.update e).1).trans (filter_update s e)

/-- **Writes in any order.**  A store has contents, its filter accepts everything, and some writes
can be delivered to it.  After any delivery of them, in whatever order, with whatever repetitions and
be each a creation or an update, each key has the newest of what was stored there and of what is
written to it.  So all deliveries leave the same store. -/
theorem deliveries_agree (hitems : s.items.isSome = true) (hfilter : ∀ o, s.filter.accepts o = true)
    (h : s.Deliverable writes) :
    (∀ es, Delivers es writes →
      ∀ k x, (s.after (es.map .update)).slot k = some x ↔ s.Newest writes k x) ∧
    ∀ es fs, Delivers es writes → Delivers fs writes →
      s.after (es.map .update) = s.after (fs.map .update) := by
  refine ⟨fun es hes => slot_after_delivery hfilter h hes, fun es fs hes hfs => ?_⟩
  refine eq_of_slots (isSome_items_after hitems _) (isSome_items_after hitems _) ?_ fun k => ?_
  · rw [filter_after_updates, filter_after_updates]
  · apply Option.ext
    intro x
    rw [slot_after_delivery hfilter h hes, slot_after_delivery hfilter h hfs]

/-- Of one object there are an older write, the stored one and a newer one, and there is another
object.  In one delivery the newest write comes first and twice, in the other one the kinds are
changed. -/
theorem deliveries_agree_of_replay :
    let s := (Store.new .acceptAll).after [.sync [.bare "a" "x" "2"]]
    let writes : Multiset Event := {⟨.create, .bare "a" "x" "1"⟩, ⟨.update, .bare "a" "x" "2"⟩,
      ⟨.update, .bare "a" "x" "3"⟩, ⟨.create, .bare "a" "y" "1"⟩}
    let es : List Event := [⟨.update, .bare "a" "x" "3"⟩, ⟨.create, .bare "a" "x" "1"⟩,
      ⟨.create, .bare "a" "y" "1"⟩, ⟨.update, .bare "a" "x" "2"⟩, ⟨.update, .bare "a" "x" "3"⟩]
    let fs : List Event := [⟨.update, .bare "a" "y" "1"⟩, ⟨.create, .bare "a" "x" "2"⟩,
      ⟨.update, .bare "a" "x" "1"⟩, ⟨.create, .bare "a" "x" "3"⟩]
    s.items.isSome = true ∧ (∀ o, s.filter.accepts o = true) ∧ s.Deliverable writes ∧
      Delivers es writes ∧ Delivers fs writes ∧
      s.after (es.map .update) = s.after (fs.map .update) ∧
      s.Newest writes ⟨"a", "x"⟩ ⟨3, .bare "a" "x" "3"⟩ := by
  intro s writes es fs
  have hitems : s.items.isSome = true := rfl
  have hfilter : ∀ o, s.filter.accepts o = true := fun _ => rfl
  have hwrites : s.Deliverable writes := ⟨by decide +kernel, by decide +kernel, by decide +kernel,
    by decide +kernel, by decide +kernel⟩
  have hes : Delivers es writes := ⟨by decide +kernel, by decide +kernel, by decide +kernel⟩
  have hfs : Delivers fs writes := ⟨by decide +kernel, by decide +kernel, by decide +kernel⟩
  obtain ⟨hnewest, hsame⟩ := deliveries_agree hitems hfilter hwrites
  refine ⟨hitems, hfilter, hwrites, hes, hfs, hsame es fs hes hfs, ?_⟩
  exact (hnewest es hes _ _).1 (by decide +kernel)

end Store

end Replica
